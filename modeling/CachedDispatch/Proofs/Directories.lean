import CachedDispatch.Proofs.Lines
import CachedDispatch.Proofs.Ranking
import CachedDispatch.Proofs.Registration

/-!
The directories of builtin types. A class of a builtin type that has never been changed has exactly the
methods that the type comes with, and above it are root classes only. So where neither the type nor the
root type has been touched, every lookup on the type's values is a pick among the methods that it offers.
-/
namespace CachedDispatch

/-- Where each name has one list of overloads, and these go by the name, they are what has the name in the
whole table. -/
private theorem overloads_eq_filter {t : MethodTable} (hkeys : (t.map Prod.fst).Nodup)
    (hnamed : ∀ e ∈ t, ∀ m ∈ e.2, m.name = e.1) (name : String) :
    t.overloads name = (t.flatMap Prod.snd).filter (·.name = name) := by
  induction t with
  | nil => rfl
  | cons e t ih =>
    obtain ⟨hown, hrest⟩ := List.forall_mem_cons.mp hnamed
    obtain ⟨hfirst, hkeys⟩ := List.nodup_cons.mp hkeys
    rw [List.flatMap_cons, List.filter_append, ← ih hkeys hrest, MethodTable.overloads,
      MethodTable.overloads, Assoc.get?_cons]
    split
    · rename_i hname
      have hnone : Assoc.get? t name = none := by
        rw [← hname, Assoc.get?, Option.map_eq_none_iff, List.find?_eq_none]
        exact fun e' he' heq => hfirst (of_decide_eq_true heq ▸ List.mem_map_of_mem he')
      have hall : e.2.filter (·.name = name) = e.2 :=
        List.filter_eq_self.mpr fun m hm => decide_eq_true ((hown m hm).trans hname)
      rw [hnone, hall]
      exact (List.append_nil _).symm
    · rename_i hname
      have hall : e.2.filter (·.name = name) = [] := by
        refine List.filter_eq_nil_iff.mpr fun m hm heq => hname ?_
        exact (hown m hm).symm.trans (of_decide_eq_true heq)
      rw [hall]
      rfl

namespace BuiltinType

/-- The methods that a type comes with, in the order of declaration. -/
def directory (b : BuiltinType) : List Method :=
  b.operations.map fun e => { Method.ofPrimitive e.1 e.2.1 e.2.2 with declaring := b.id }

private theorem overloads_toClass (b : BuiltinType) (name : String) :
    b.toClass.methods.overloads name = b.directory.filter (·.name = name) := by
  have hall : b.toClass.methods.flatMap Prod.snd = b.directory := by cases b <;> rfl
  rw [overloads_eq_filter (by cases b <;> decide) (by cases b <;> decide), hall]

private theorem bare_toClass (b : BuiltinType) :
    b.toClass.statics = [] ∧ b.toClass.fields = [] ∧ b.toClass.hook = none := by
  cases b <;> exact ⟨rfl, rfl, rfl⟩

/-- All of them are public operations on instances. -/
private theorem of_mem_directory {b : BuiltinType} {m : Method} (h : m ∈ b.directory) :
    m.visibility = .everyone ∧ m.isStatic = false ∧ m.kind = .native
      ∧ ∃ p, m.code = .primitive p := by
  obtain ⟨e, -, rfl⟩ := List.mem_map.mp h
  exact ⟨rfl, rfl, rfl, e.2.2, rfl⟩

/-- Getters are not among them: what has the name of one takes arguments. -/
private theorem params_ne_nil_of_getter {b : BuiltinType} {m : Method} (h : m ∈ b.directory)
    {property : String} (hname : m.name = getterName property) : m.params ≠ [] := by
  have hall : ∀ m ∈ b.directory, m.params = [] → m.name.toList.take 3 ≠ "get".toList := by
    cases b <;> decide
  refine fun hparams => hall m h hparams ?_
  rw [hname, getterName, String.toList_append]
  exact List.take_left' rfl

/-- The methods of a name that a type offers, with `k` root classes above it. -/
def offers (b : BuiltinType) (k : Nat) (name : String) : List Method :=
  (b.directory :: List.replicate k object.directory).flatten.filter (·.name = name)

private theorem mem_offers {b : BuiltinType} {k : Nat} {name : String} {m : Method}
    (h : m ∈ b.offers k name) : (m ∈ b.directory ∨ m ∈ object.directory) ∧ m.name = name := by
  obtain ⟨hm, hname⟩ := List.mem_filter.mp h
  obtain ⟨ms, hms, hm⟩ := List.mem_flatten.mp hm
  refine ⟨?_, of_decide_eq_true hname⟩
  rcases List.mem_cons.mp hms with rfl | hms
  · exact Or.inl hm
  · exact Or.inr ((List.mem_replicate.mp hms).2 ▸ hm)

theorem of_mem_offers {b : BuiltinType} {k : Nat} {name : String} {m : Method}
    (h : m ∈ b.offers k name) :
    m.isStatic = false ∧ m.kind = .native ∧ ∃ p, m.code = .primitive p := by
  rcases (mem_offers h).1 with hm | hm <;> exact (of_mem_directory hm).2

/-- What the root type does not have is offered by the type alone. -/
theorem offers_eq (b : BuiltinType) (k : Nat) {name : String}
    (h : object.directory.filter (·.name = name) = []) :
    b.offers k name = b.directory.filter (·.name = name) := by
  have hroots : (List.replicate k object.directory).flatten.filter (·.name = name) = [] := by
    rw [List.filter_flatten, List.map_replicate, h]
    exact List.flatten_replicate_nil
  rw [offers, List.flatten_cons, List.filter_append, hroots, List.append_nil]

end BuiltinType

namespace World

variable {w w' : World} {b : BuiltinType}

/-- All classes of the type have come with a runtime, and none has ever been changed. -/
def Untouched (w : World) (b : BuiltinType) : Prop :=
  ∀ r, r.idx < w.classes.size → (w.cls r).id = b.id → (w.cls r).Native ∧ (w.cls r).stamp = 0

theorem Untouched.genuine (h : w.Untouched b) : w.Genuine b := fun r hr hid => (h r hr hid).1

theorem untouched_of_all
    (h : w.classes.all fun c => decide (c.id = b.id → c.Native ∧ c.stamp = 0)) : w.Untouched b := by
  intro r hr hid
  have hcls : w.cls r = w.classes[r.idx] := by simp [cls, Array.getD, hr]
  rw [hcls] at hid ⊢
  exact of_decide_eq_true (Array.all_eq_true.mp h r.idx hr) hid

/-- So for all types, if no class at all has been changed, and definitions have identities of their own. -/
theorem untouched_of_stamps
    (h : w.classes.all fun c => decide ((c.id.isBuiltin = true → c.Native) ∧ c.stamp = 0))
    (b : BuiltinType) : w.Untouched b := by
  refine untouched_of_all (Array.all_eq_true.mpr fun i hi => decide_eq_true fun hid => ?_)
  obtain ⟨hn, hstamp⟩ := of_decide_eq_true (Array.all_eq_true.mp h i hi)
  exact ⟨hn (hid ▸ b.isBuiltin_id), hstamp⟩

/-- What is untouched has always been. -/
private theorem Untouched.of_endures (h : w'.Untouched b) (he : w.Endures w') : w.Untouched b := by
  intro r hr hid
  obtain ⟨hn, hstamp⟩ := h r (Nat.lt_of_lt_of_le hr he.size) ((he.id_eq hr).trans hid)
  exact ⟨(he.later r hr).native_iff.mp hn, Nat.eq_zero_of_le_zero (hstamp ▸ he.stamp_le r)⟩

theorem Untouched.of_deeds (h : w'.Untouched b) (hw : w.Attained) (hd : Deeds w w') : w.Untouched b :=
  h.of_endures (hd.keeps hw.inOrder).2

/-- A class that was never changed has the members that its type comes with. -/
theorem Attained.sameMembers_toClass (hw : w.Attained) (hb : w.Untouched b) {r : ClassRef}
    (hr : r.idx < w.classes.size) (hid : (w.cls r).id = b.id) :
    b.toClass.SameMembers (w.cls r) ∧ (w.cls r).hook = none := by
  obtain ⟨hn, hstamp⟩ := hb r hr hid
  have hlater := hw.later_toClass hr hn hid
  have hzero : b.toClass.stamp = 0 := by cases b <;> rfl
  exact ⟨hlater.members (hzero.trans hstamp.symm), hlater.hook.trans b.bare_toClass.2.2⟩

section Lookups

variable {r : ClassRef}

/-- What the classes of a line have together, where it goes from an untouched type up to untouched root
classes. -/
private theorem Attained.classes_untouched (hw : w.Attained) (hb : w.Untouched b)
    (ho : w.Untouched .object) (hr : r.idx < w.classes.size) (hid : (w.cls r).id = b.id) :
    (w.hierarchy r).classes.map Class.methods
        = (b :: List.replicate (w.cls r).ancestors.length .object).map (·.toClass.methods)
      ∧ ∀ c ∈ (w.hierarchy r).classes, c.statics = [] ∧ c.fields = [] := by
  have hbare {b : BuiltinType} {q : ClassRef} (h : b.toClass.SameMembers (w.cls q)) :
      (w.cls q).methods = b.toClass.methods ∧ (w.cls q).statics = [] ∧ (w.cls q).fields = [] :=
    ⟨h.methods, h.statics.trans b.bare_toClass.1, h.fields.trans b.bare_toClass.2.1⟩
  have hown := hbare (hw.sameMembers_toClass hb hr hid).1
  have habove (a : ClassRef) (ha : a ∈ (w.cls r).ancestors) :
      (w.cls a).methods = BuiltinType.object.toClass.methods ∧ (w.cls a).statics = []
        ∧ (w.cls a).fields = [] := by
    obtain ⟨hlt, hroot⟩ := (hw.rooted ho.genuine).below r (hb r hr hid).1 a ha
    exact hbare (hw.sameMembers_toClass ho hlt hroot).1
  refine ⟨?_, fun c hc => ?_⟩
  · have hroots : (w.cls r).ancestors.map (Class.methods ∘ w.cls)
        = List.replicate (w.cls r).ancestors.length BuiltinType.object.toClass.methods := by
      refine List.eq_replicate_iff.mpr ⟨List.length_map _, fun ms hms => ?_⟩
      obtain ⟨a, ha, rfl⟩ := List.mem_map.mp hms
      exact (habove a ha).1
    rw [Hierarchy.classes, hierarchy, List.map_cons, List.map_map, hroots, hown.1, List.map_cons,
      List.map_replicate]
  · rcases List.mem_cons.mp hc with rfl | hc
    · exact hown.2
    · obtain ⟨a, ha, rfl⟩ := List.mem_map.mp hc
      exact (habove a ha).2

/-- Every lookup on instances is among what the type offers, and static methods there are none. -/
theorem Attained.candidates_untouched (hw : w.Attained) (hb : w.Untouched b) (ho : w.Untouched .object)
    (hr : r.idx < w.classes.size) (hid : (w.cls r).id = b.id) (name : String) (l : Lookup) :
    (w.hierarchy r).candidates name l
      = if l.statics then [] else b.offers (w.cls r).ancestors.length name := by
  obtain ⟨hmethods, hbare⟩ := hw.classes_untouched hb ho hr hid
  unfold Hierarchy.candidates
  split
  · rename_i hstatics
    refine List.flatMap_eq_nil_iff.mpr fun c hc => ?_
    rw [Class.overloads, if_pos hstatics, (hbare c hc).1]
    rfl
  · rename_i hstatics
    -- all methods are seen from everywhere
    have hseen (b : BuiltinType) :
        (b.toClass.methods.overloads name).filter l.sees = b.directory.filter (·.name = name) := by
      rw [b.overloads_toClass]
      refine List.filter_eq_self.mpr fun m hm => ?_
      have hpublic := (BuiltinType.of_mem_directory (List.mem_filter.mp hm).1).1
      simp [Lookup.sees, hpublic]
    have hroots : (b :: List.replicate (w.cls r).ancestors.length .object).map BuiltinType.directory
        = b.directory :: List.replicate (w.cls r).ancestors.length BuiltinType.object.directory := by
      rw [List.map_cons, List.map_replicate]
    calc (w.hierarchy r).classes.flatMap (fun c => (c.overloads l.statics name).filter l.sees)
        = ((w.hierarchy r).classes.map Class.methods).flatMap
            (fun t => (t.overloads name).filter l.sees) := by
          rw [List.flatMap_map]
          simp only [Class.overloads, if_neg hstatics]
      _ = (b :: List.replicate (w.cls r).ancestors.length .object).flatMap
            (fun b => b.directory.filter (·.name = name)) := by
          rw [hmethods, List.flatMap_map]
          simp only [hseen]
      _ = b.offers (w.cls r).ancestors.length name := by
          rw [BuiltinType.offers, ← hroots, List.filter_flatten, List.map_map, List.flatMap_def]
          rfl

theorem Attained.pickForCall_untouched (hw : w.Attained) (hb : w.Untouched b) (ho : w.Untouched .object)
    (hr : r.idx < w.classes.size) (hid : (w.cls r).id = b.id) (lin : Lineage) (owner : TypeId)
    (current : Bool) (name : String) (args : List Value) :
    (w.hierarchy r).pickForCall lin owner current name args
      = pick lin (b.offers (w.cls r).ancestors.length name) args := by
  have hk := hw.candidates_untouched hb ho hr hid
  cases current with
  | true =>
    have hstatics : (w.hierarchy r).pickMethod lin name args
        (Lookup.currentFor owner (w.hierarchy r).id).asStatics = none := by
      rw [Hierarchy.pickMethod, hk]
      rfl
    simp only [Hierarchy.pickForCall, if_true, hstatics, Option.or_none]
    rw [Hierarchy.pickMethod, hk]
    rfl
  | false =>
    rw [Hierarchy.pickForCall, if_neg Bool.false_ne_true, Hierarchy.pickMethod, hk]
    rfl

/-- Such a class has no properties. -/
theorem Attained.property?_untouched (hw : w.Attained) (hb : w.Untouched b) (ho : w.Untouched .object)
    (hr : r.idx < w.classes.size) (hid : (w.cls r).id = b.id) (lin : Lineage) (name : String) :
    (w.hierarchy r).property? lin name = none := by
  obtain ⟨-, hbare⟩ := hw.classes_untouched hb ho hr hid
  have hfield : (w.hierarchy r).hasField name = false :=
    List.any_eq_false.mpr fun c hc => by simp [(hbare c hc).2]
  have hnone : pick lin (b.offers (w.cls r).ancestors.length (getterName name)) [] = none := by
    refine pickBy_eq_none_iff.mpr fun m hm => ?_
    obtain ⟨hm, hname⟩ := BuiltinType.mem_offers hm
    obtain ⟨p, ps, hparams⟩ := List.exists_cons_of_ne_nil
      (hm.elim (BuiltinType.params_ne_nil_of_getter · hname)
        (BuiltinType.params_ne_nil_of_getter · hname))
    rw [Method.rank?, hparams]
    rfl
  rw [Hierarchy.property?, if_neg (by rw [hfield]; exact Bool.false_ne_true), Hierarchy.pickMethod,
    hw.candidates_untouched hb ho hr hid]
  exact congrArg (Option.map Property.accessor) hnone

end Lookups

end World

end CachedDispatch
