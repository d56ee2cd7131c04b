import CachedDispatch.Hierarchy
import Mathlib.Data.List.Basic

/-!
What stamps vouch for. Changes to a class keep its identity and never take its stamp back, and as
long as the version of a line of classes has not moved, every lookup in it finds what it found.
-/
namespace CachedDispatch

/-- The changes that can be made to a class after it was defined. -/
inductive Mutation
  | addMethod (m : Method)
  | addConstructor (m : Method)
  | removeMethod (name : String)
  | addField (name : String)
  | setStatic (name : String) (v : Value)

def Mutation.apply : Mutation → Class → Class
  | addMethod m => (·.addMethod m)
  | addConstructor m => (·.addConstructor m)
  | removeMethod name => (·.removeMethod name)
  | addField name => (·.addField name)
  | setStatic name v => (·.setStatic name v)

namespace Class

/-- The members that lookups see. A static field counts by its name, not by its value. -/
structure SameMembers (c d : Class) : Prop where
  methods : d.methods = c.methods
  statics : d.statics = c.statics
  constructors : d.constructors = c.constructors
  fields : d.fields = c.fields
  staticFields : ∀ name,
    (Assoc.get? d.staticFields name).isSome = (Assoc.get? c.staticFields name).isSome

private theorem SameMembers.refl (c : Class) : c.SameMembers c := ⟨rfl, rfl, rfl, rfl, fun _ => rfl⟩

private theorem SameMembers.overloads {c d : Class} (h : c.SameMembers d) (statics : Bool)
    (name : String) : d.overloads statics name = c.overloads statics name := by
  unfold Class.overloads
  rw [h.methods, h.statics]

private theorem SameMembers.trans {c d e : Class} (h : c.SameMembers d) (h' : d.SameMembers e) :
    c.SameMembers e where
  methods := h'.methods.trans h.methods
  statics := h'.statics.trans h.statics
  constructors := h'.constructors.trans h.constructors
  fields := h'.fields.trans h.fields
  staticFields name := (h'.staticFields name).trans (h.staticFields name)

/-- `d` is what `c` has become. -/
structure Later (c d : Class) : Prop where
  id : d.id = c.id
  name : d.name = c.name
  kind : d.kind = c.kind
  hook : d.hook = c.hook
  stamp : c.stamp ≤ d.stamp
  members : c.stamp = d.stamp → c.SameMembers d

theorem Later.refl (c : Class) : c.Later c := ⟨rfl, rfl, rfl, rfl, Nat.le_refl _, fun _ => .refl c⟩

theorem Later.trans {c d e : Class} (h : c.Later d) (h' : d.Later e) : c.Later e where
  id := h'.id.trans h.id
  name := h'.name.trans h.name
  kind := h'.kind.trans h.kind
  hook := h'.hook.trans h.hook
  stamp := Nat.le_trans h.stamp h'.stamp
  members hs := by
    have hcd : c.stamp = d.stamp := Nat.le_antisymm h.stamp (hs ▸ h'.stamp)
    exact (h.members hcd).trans (h'.members (hcd ▸ hs))

/-- A change that advances the stamp may touch all members. -/
private theorem later_of_stamp_lt {c d : Class} (hid : d.id = c.id) (hname : d.name = c.name)
    (hkind : d.kind = c.kind) (hhook : d.hook = c.hook) (hs : c.stamp < d.stamp) : c.Later d :=
  ⟨hid, hname, hkind, hhook, Nat.le_of_lt hs, fun h => absurd h (Nat.ne_of_lt hs)⟩

theorem later_bump (c : Class) : c.Later c.bump :=
  later_of_stamp_lt rfl rfl rfl rfl (Nat.lt_succ_self _)

theorem later_withAncestors (c : Class) (rs : List ClassRef) :
    c.Later { c with ancestors := rs } :=
  ⟨rfl, rfl, rfl, rfl, Nat.le_refl _, fun _ => ⟨rfl, rfl, rfl, rfl, fun _ => rfl⟩⟩

private theorem later_putStatic {c : Class} {name : String} (v : Value)
    (h : Assoc.contains c.staticFields name = true) : c.Later (c.putStatic name v) := by
  refine ⟨rfl, rfl, rfl, rfl, Nat.le_refl _, fun _ => ⟨rfl, rfl, rfl, rfl, fun n => ?_⟩⟩
  by_cases hn : n = name
  · subst hn
    rw [Assoc.contains_eq_isSome] at h
    simp [putStatic, h]
  · simp [putStatic, Assoc.get?_set_of_ne _ _ hn]

theorem later_mutation (c : Class) (mu : Mutation) : c.Later (mu.apply c) := by
  cases mu with
  | addMethod m =>
    simp only [Mutation.apply, addMethod, putMethod]
    split <;> exact later_of_stamp_lt rfl rfl rfl rfl (Nat.lt_succ_self _)
  | addConstructor m => exact later_of_stamp_lt rfl rfl rfl rfl (Nat.lt_succ_self _)
  | removeMethod name =>
    simp only [Mutation.apply, removeMethod]
    split
    · exact later_of_stamp_lt rfl rfl rfl rfl (Nat.lt_succ_self _)
    · exact .refl c
  | addField name =>
    simp only [Mutation.apply, addField, putField]
    split
    · exact .refl c
    · exact later_of_stamp_lt rfl rfl rfl rfl (Nat.lt_succ_self _)
  | setStatic name v =>
    simp only [Mutation.apply, setStatic]
    split
    · exact later_putStatic v ‹_›
    · exact later_of_stamp_lt rfl rfl rfl rfl (Nat.lt_succ_self _)

@[simp] theorem ancestors_mutation (c : Class) (mu : Mutation) :
    (mu.apply c).ancestors = c.ancestors := by
  cases mu with
  | addMethod m => simp only [Mutation.apply, addMethod, putMethod]; split <;> rfl
  | addConstructor m => rfl
  | removeMethod name => simp only [Mutation.apply, removeMethod]; split <;> rfl
  | addField name => simp only [Mutation.apply, addField, putField]; split <;> rfl
  | setStatic name v => simp only [Mutation.apply, setStatic]; split <;> rfl

/-- The methods of instances are kept apart from the static ones. -/
def Filed (c : Class) : Prop := ∀ name, ∀ m ∈ c.overloads false name, m.isStatic = false

theorem mem_insertMethod {supersedes : Method → Bool} {m n : Method} {ms : List Method}
    (h : n ∈ insertMethod supersedes m ms) : n = m ∨ n ∈ ms := by
  induction ms with
  | nil => exact Or.inl (List.mem_singleton.mp h)
  | cons x ms ih =>
    unfold insertMethod at h
    split at h
    · exact (List.mem_cons.mp h).imp_right (List.mem_cons_of_mem x)
    · rcases List.mem_cons.mp h with rfl | h
      · exact Or.inr List.mem_cons_self
      · exact (ih h).imp_right (List.mem_cons_of_mem x)

private theorem Filed.putMethod {c : Class} (h : c.Filed) (m : Method) : (c.putMethod m).Filed := by
  intro name n hn
  rw [overloads_putMethod] at hn
  split at hn
  · rename_i hm
    rcases mem_insertMethod hn with rfl | hn
    · exact hm.1.symm
    · exact h name n hn
  · exact h name n hn

private theorem Filed.declareMethod {c : Class} (h : c.Filed) (m : Method) :
    (c.declareMethod m).Filed := by
  unfold Class.declareMethod
  split
  · exact h
  · exact h.putMethod m

/-- Methods that are declared decide neither the identity nor the place of a class. -/
theorem foldl_declareMethod (c : Class) (ms : List Method) :
    (ms.foldl declareMethod c).id = c.id ∧ (ms.foldl declareMethod c).name = c.name
      ∧ (ms.foldl declareMethod c).kind = c.kind
      ∧ (ms.foldl declareMethod c).ancestors = c.ancestors
      ∧ (c.Filed → (ms.foldl declareMethod c).Filed) := by
  induction ms generalizing c with
  | nil => exact ⟨rfl, rfl, rfl, rfl, fun h => h⟩
  | cons m ms ih =>
    obtain ⟨hid, hname, hkind, hanc, hfiled⟩ := ih (c.declareMethod m)
    have hm : (c.declareMethod m).id = c.id ∧ (c.declareMethod m).name = c.name
        ∧ (c.declareMethod m).kind = c.kind ∧ (c.declareMethod m).ancestors = c.ancestors := by
      simp only [declareMethod, putMethod]
      split
      · exact ⟨rfl, rfl, rfl, rfl⟩
      · split <;> exact ⟨rfl, rfl, rfl, rfl⟩
    exact ⟨hid.trans hm.1, hname.trans hm.2.1, hkind.trans hm.2.2.1, hanc.trans hm.2.2.2,
      fun hc => hfiled (hc.declareMethod m)⟩

theorem Filed.mutation {c : Class} (h : c.Filed) (mu : Mutation) : (mu.apply c).Filed := by
  cases mu with
  | addMethod m => exact h.putMethod m
  | addConstructor m => exact h
  | removeMethod name =>
    intro name' m hm
    rw [Mutation.apply, overloads_removeMethod] at hm
    split at hm
    · cases hm
    · exact h name' m hm
  | addField name => simp only [Mutation.apply, addField, putField]; split <;> exact h
  | setStatic name v => simp only [Mutation.apply, setStatic]; split <;> exact h

end Class

namespace ClassMembers

/-- Fields and statics decide nothing of it either. -/
private theorem toClass_spec (m : ClassMembers) (id : TypeId) (rs : List ClassRef) :
    (m.toClass id rs).id = id ∧ (m.toClass id rs).name = m.name
      ∧ (m.toClass id rs).kind = (if m.isHost then .host else .dynamic)
      ∧ (m.toClass id rs).ancestors = rs ∧ (m.toClass id rs).Filed := by
  let P (c : Class) := c.id = id ∧ c.name = m.name
    ∧ c.kind = (if m.isHost then .host else .dynamic) ∧ c.ancestors = rs ∧ c.Filed
  have hfield (c : Class) (name : String) (h : P c) : P (c.putField name) := by
    unfold Class.putField; split <;> exact h
  suffices h : ∀ c, P c → P (m.methods.foldl Class.declareMethod c) by
    unfold ClassMembers.toClass
    refine h _ (List.foldlRecOn _ _ (List.foldlRecOn _ _ ?_ ?_) ?_)
    · exact ⟨rfl, rfl, rfl, rfl, fun name n hn => by cases hn⟩
    · exact fun c hc name _ => hfield c name hc
    · exact fun c hc e _ => hc
  rintro c ⟨h₁, h₂, h₃, h₄, h₅⟩
  obtain ⟨hid, hname, hkind, hanc, hfiled⟩ := c.foldl_declareMethod m.methods
  exact ⟨hid.trans h₁, hname.trans h₂, hkind.trans h₃, hanc.trans h₄, hfiled h₅⟩

@[simp] theorem id_toClass (m : ClassMembers) (id : TypeId) (rs : List ClassRef) :
    (m.toClass id rs).id = id := (m.toClass_spec id rs).1

@[simp] theorem name_toClass (m : ClassMembers) (id : TypeId) (rs : List ClassRef) :
    (m.toClass id rs).name = m.name := (m.toClass_spec id rs).2.1

theorem kind_toClass (m : ClassMembers) (id : TypeId) (rs : List ClassRef) :
    (m.toClass id rs).kind = if m.isHost then .host else .dynamic := (m.toClass_spec id rs).2.2.1

@[simp] theorem ancestors_toClass (m : ClassMembers) (id : TypeId) (rs : List ClassRef) :
    (m.toClass id rs).ancestors = rs := (m.toClass_spec id rs).2.2.2.1

theorem filed_toClass (m : ClassMembers) (id : TypeId) (rs : List ClassRef) :
    (m.toClass id rs).Filed := (m.toClass_spec id rs).2.2.2.2

end ClassMembers

section Line

variable {f g : ClassRef → Class} {rs : List ClassRef}

private theorem stamps_le (h : ∀ r ∈ rs, (f r).Later (g r)) :
    (rs.map f).foldr (fun c n => c.stamp + n) 0 ≤ (rs.map g).foldr (fun c n => c.stamp + n) 0 := by
  induction rs with
  | nil => exact Nat.le_refl _
  | cons r rs ih =>
    have hr := (h r (by simp)).stamp
    have hrs := ih fun q hq => h q (by simp [hq])
    simp only [List.map_cons, List.foldr_cons]
    omega

private theorem stamp_eq_of_sum_eq (h : ∀ r ∈ rs, (f r).Later (g r))
    (hv : (rs.map f).foldr (fun c n => c.stamp + n) 0
      = (rs.map g).foldr (fun c n => c.stamp + n) 0) :
    ∀ r ∈ rs, (f r).stamp = (g r).stamp := by
  induction rs with
  | nil => simp
  | cons r rs ih =>
    have hr := (h r (by simp)).stamp
    have hle := stamps_le fun q hq => h q (List.mem_cons_of_mem r hq)
    simp only [List.map_cons, List.foldr_cons] at hv
    intro q hq
    rcases List.mem_cons.mp hq with rfl | hq
    · omega
    · exact ih (fun q hq => h q (List.mem_cons_of_mem r hq)) (by omega) q hq

end Line

namespace Hierarchy

/-- The line of a class in a store of classes. -/
def along (f : ClassRef → Class) (r : ClassRef) (ancestors : List ClassRef) : Hierarchy :=
  ⟨f r, ancestors.map f⟩

variable {f g : ClassRef → Class} {r : ClassRef} {rs : List ClassRef}

theorem version_le (h : ∀ q ∈ r :: rs, (f q).Later (g q)) :
    (along f r rs).version ≤ (along g r rs).version :=
  stamps_le h

/-- As long as the version stays, so do the members of every class in the line. -/
theorem sameMembers_of_version_eq (h : ∀ q ∈ r :: rs, (f q).Later (g q))
    (hv : (along f r rs).version = (along g r rs).version) :
    ∀ q ∈ r :: rs, (f q).SameMembers (g q) :=
  fun q hq => (h q hq).members (stamp_eq_of_sum_eq h hv q hq)

theorem candidates_congr (h : ∀ q ∈ r :: rs, (f q).SameMembers (g q)) (name : String)
    (l : Lookup) : (along g r rs).candidates name l = (along f r rs).candidates name l := by
  have hmap (k : ClassRef → Class) : (along k r rs).classes = (r :: rs).map k := rfl
  unfold candidates
  rw [hmap, hmap, List.flatMap_map, List.flatMap_map]
  refine List.flatMap_congr fun q hq => ?_
  rw [(h q hq).overloads]

theorem hasField_congr (h : ∀ q ∈ r :: rs, (f q).SameMembers (g q)) (name : String) :
    (along g r rs).hasField name = (along f r rs).hasField name := by
  have hany (k : ClassRef → Class) : (along k r rs).hasField name = true
      ↔ ∃ q ∈ r :: rs, (k q).fields.contains name = true := by
    simp [hasField, classes, along]
  rw [Bool.eq_iff_iff, hany, hany]
  exact exists_congr fun q => and_congr_right fun hq => by rw [(h q hq).fields]

theorem isSome_staticField?_congr (h : ∀ q ∈ r :: rs, (f q).SameMembers (g q)) (name : String) :
    ((along g r rs).staticField? name).isSome = ((along f r rs).staticField? name).isSome := by
  have hany (k : ClassRef → Class) : ((along k r rs).staticField? name).isSome = true
      ↔ ∃ q ∈ r :: rs, (Assoc.get? (k q).staticFields name).isSome = true := by
    simp [staticField?, classes, along]
  rw [Bool.eq_iff_iff, hany, hany]
  exact exists_congr fun q => and_congr_right fun hq => by rw [(h q hq).staticFields name]

end Hierarchy

end CachedDispatch
