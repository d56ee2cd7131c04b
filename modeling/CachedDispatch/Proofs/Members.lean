import CachedDispatch.Proofs.Lines
import CachedDispatch.Proofs.NewObjects

/-!
The members of classes. However a class is built and changed afterwards, its methods stand where lookups
of their names and kinds go, no two overloads or constructors take the same parameters, and it has no
field twice. So a line of classes has each field once, what ancestors declare in front, and a new object
has one slot for each.
-/
namespace CachedDispatch

/-- What is said of a class while it is being built. -/
inductive Declaration
  | field (name : String)
  | method (m : Method)
  | staticField (name : String) (v : Value)
  /-- The classes above it, nearest first. -/
  | below (ancestors : List ClassRef)
  | hook (body : Script.Body)

def Declaration.apply : Declaration → Class → Class
  | field name => (·.putField name)
  | method m => (·.declareMethod m)
  | staticField name v => (·.putStatic name v)
  | below ancestors => ({ · with ancestors })
  | hook body => ({ · with hook := some body })

namespace Class

/-- The classes that declarations make of nothing, and changes of those. -/
inductive Arises : Class → Prop
  | blank (id : TypeId) (name : String) (kind : ClassKind) : Arises { id, name, kind }
  | declared (h : Arises c) (d : Declaration) : Arises (d.apply c)
  | changed (h : Arises c) (mu : Mutation) : Arises (mu.apply c)
  | retired (h : Arises c) : Arises c.bump

private theorem Arises.foldl_declareMethod {c : Class} (h : c.Arises) (ms : List Method) :
    (ms.foldl declareMethod c).Arises :=
  List.foldlRecOn _ _ h fun _ hc m _ => hc.declared (.method m)

private theorem arises_toClass (members : ClassMembers) (id : TypeId) (ancestors : List ClassRef) :
    (members.toClass id ancestors).Arises := by
  obtain ⟨kind, hkind⟩ : ∃ kind, (if members.isHost then ClassKind.host else .dynamic) = kind := ⟨_, rfl⟩
  have hempty : Arises { id, name := members.name, kind, ancestors, hook := members.hook } := by
    have hbelow := (Arises.blank id members.name kind).declared (.below ancestors)
    cases members.hook with
    | none => exact hbelow
    | some body => exact hbelow.declared (.hook body)
  unfold ClassMembers.toClass
  rw [hkind]
  refine Arises.foldl_declareMethod (List.foldlRecOn _ _ (List.foldlRecOn _ _ hempty ?_) ?_) _
  · exact fun c hc name _ => hc.declared (.field name)
  · exact fun c hc e _ => hc.declared (.staticField e.1 e.2)

end Class

/-- The classes of sessions come about in this way. -/
private theorem World.Attained.arises {w : World} (hw : w.Attained) (r : ClassRef) :
    (w.cls r).Arises := by
  have hkept : Kept Class.Arises := {
    builtin := fun b => (Class.Arises.blank b.id b.name b.classKind).foldl_declareMethod b.methods
    defined := Class.arises_toClass
    revised := fun c f hf h => by
      cases hf with
      | bump => exact h.retired
      | mutation mu => exact h.changed mu
    settled := fun c b ancestors _ _ h => h.declared (.below ancestors) }
  by_cases hr : r.idx < w.classes.size
  · exact hkept.cls hw hr
  · rw [w.cls_out_of_range hr]
    exact .blank default default default

namespace Class

variable {c : Class}

structure Tidy (c : Class) : Prop where
  /-- Under a name are methods of this name that the class declares itself, the static ones apart. -/
  filed : ∀ statics name, ∀ m ∈ c.overloads statics name,
    m.name = name ∧ m.declaring = c.id ∧ m.isStatic = statics
  overloads : ∀ statics name, (c.overloads statics name).Pairwise fun m n => m.params ≠ n.params
  declared : ∀ m ∈ c.constructors, m.declaring = c.id
  constructors : c.Distinct
  fields : c.fields.Nodup

namespace Tidy

/-- What a class keeps under a name is what was written there, or what it kept before. -/
private theorem putMethod (h : c.Tidy) (m : Method) : (c.putMethod m).Tidy := by
  have hrest : (c.putMethod m).id = c.id ∧ (c.putMethod m).constructors = c.constructors
      ∧ (c.putMethod m).fields = c.fields := by
    simp only [Class.putMethod]
    split <;> exact ⟨rfl, rfl, rfl⟩
  obtain ⟨hid, hconstructors, hfields⟩ := hrest
  refine ⟨fun statics name n hn => ?_, fun statics name => ?_, ?_, ?_, ?_⟩
  · rw [overloads_putMethod] at hn
    rw [hid]
    split at hn
    · rename_i hplace
      rcases mem_insertMethod hn with rfl | hn
      · exact ⟨hplace.2.symm, rfl, hplace.1.symm⟩
      · exact h.filed statics name n hn
    · exact h.filed statics name n hn
  · rw [overloads_putMethod]
    split
    · rename_i hplace
      refine pairwise_insertMethod (fun n x hs hn => ?_) (fun n hn hs hparams => ?_)
        (h.overloads statics name)
      · simp only [Method.sameSignature, Bool.and_eq_true, decide_eq_true_eq] at hs
        rwa [hs.2] at hn
      · -- under one name, and in one table, the parameters decide
        obtain ⟨hname, -, hstatic⟩ := h.filed statics name n hn
        rw [hplace.1] at hstatic
        rw [hplace.2] at hname
        have hsame : n.sameSignature m = true := by simp [Method.sameSignature, hname, hstatic, hparams]
        exact absurd hsame (Bool.eq_false_iff.mp hs)
    · exact h.overloads statics name
  · rw [hid, hconstructors]
    exact h.declared
  · unfold Distinct
    rw [hconstructors]
    exact h.constructors
  · rw [hfields]
    exact h.fields

private theorem putConstructor (h : c.Tidy) (m : Method) : (c.putConstructor m).Tidy := by
  refine ⟨h.filed, h.overloads, fun n hn => ?_, h.constructors.putConstructor m, h.fields⟩
  rcases mem_insertMethod hn with rfl | hn
  · rfl
  · exact h.declared n hn

private theorem putField (h : c.Tidy) (name : String) : (c.putField name).Tidy := by
  unfold Class.putField
  split
  · exact h
  · rename_i hnew
    have hnodup : (c.fields ++ [name]).Nodup := by
      refine List.nodup_append.mpr ⟨h.fields, by simp, ?_⟩
      rintro f hf _ hname rfl
      exact hnew (List.contains_iff_mem.mpr (List.mem_singleton.mp hname ▸ hf))
    exact ⟨h.filed, h.overloads, h.declared, h.constructors, hnodup⟩

private theorem removeMethod (h : c.Tidy) (name : String) : (c.removeMethod name).Tidy := by
  have hrest : (c.removeMethod name).id = c.id ∧ (c.removeMethod name).constructors = c.constructors
      ∧ (c.removeMethod name).fields = c.fields := by
    unfold Class.removeMethod
    split <;> exact ⟨rfl, rfl, rfl⟩
  obtain ⟨hid, hconstructors, hfields⟩ := hrest
  refine ⟨fun statics name' m hm => ?_, fun statics name' => ?_, ?_, ?_, ?_⟩
  · rw [overloads_removeMethod] at hm
    rw [hid]
    split at hm
    · cases hm
    · exact h.filed statics name' m hm
  · rw [overloads_removeMethod]
    split
    · exact .nil
    · exact h.overloads statics name'
  · rw [hid, hconstructors]
    exact h.declared
  · unfold Distinct
    rw [hconstructors]
    exact h.constructors
  · rw [hfields]
    exact h.fields

private theorem declaration (h : c.Tidy) (d : Declaration) : (d.apply c).Tidy := by
  cases d with
  | field name => exact h.putField name
  | method m =>
    simp only [Declaration.apply, declareMethod]
    split
    · exact h.putConstructor m
    · exact h.putMethod m
  | staticField | below | hook => exact ⟨h.filed, h.overloads, h.declared, h.constructors, h.fields⟩

private theorem bump (h : c.Tidy) :
    c.bump.Tidy := ⟨h.filed, h.overloads, h.declared, h.constructors, h.fields⟩

private theorem mutation (h : c.Tidy) (mu : Mutation) : (mu.apply c).Tidy := by
  cases mu with
  | addMethod m => exact (h.putMethod m).bump
  | addConstructor m => exact (h.putConstructor m).bump
  | removeMethod name => exact h.removeMethod name
  | addField name =>
    simp only [Mutation.apply, addField]
    split
    · exact h
    · exact (h.putField name).bump
  | setStatic name v =>
    simp only [Mutation.apply, setStatic]
    split <;> exact ⟨h.filed, h.overloads, h.declared, h.constructors, h.fields⟩

end Tidy

private theorem Arises.tidy (h : c.Arises) : c.Tidy := by
  induction h with
  | blank =>
    refine ⟨fun statics name m hm => ?_, fun statics name => ?_, List.forall_mem_nil _,
      distinct_of_eq_nil rfl, List.nodup_nil⟩
    · cases statics <;> cases hm
    · cases statics <;> exact .nil
  | declared _ d ih => exact ih.declaration d
  | changed _ mu ih => exact ih.mutation mu
  | retired _ ih => exact ih.bump

end Class

namespace Hierarchy

/-- The fields of an instance. -/
structure ListsFields (h : Hierarchy) : Prop where
  /-- Each field that a class of the line has is there once, and no other name. -/
  once : ∀ name, h.declaredFields.count name = if h.hasField name then 1 else 0
  /-- What the classes from some place upwards declare stands before what only those below declare. -/
  inOrder : ∀ lower upper, h.classes = lower ++ upper →
    h.declaredFields.Pairwise fun x y =>
      (∃ c ∈ upper, y ∈ c.fields) → ∃ c ∈ upper, x ∈ c.fields

/-- The fields of classes, nearest first: each adds to those above it what they do not have. -/
private def gather : List Class → List String
  | [] => []
  | c :: cs => gather cs ++ c.fields.filter fun f => !(gather cs).contains f

private theorem declaredFields_eq_gather (h : Hierarchy) : h.declaredFields = gather h.classes := by
  rw [declaredFields, List.foldl_reverse]
  induction h.classes with
  | nil => rfl
  | cons c cs ih => rw [List.foldr_cons, ih, gather]

private theorem mem_gather {cs : List Class} {name : String} :
    name ∈ gather cs ↔ ∃ c ∈ cs, name ∈ c.fields := by
  cases cs with
  | nil => simp [gather]
  | cons c cs =>
    have hgather := declaredFields_eq_gather ⟨c, cs⟩
    rw [classes] at hgather
    rw [← hgather, mem_declaredFields]
    simp [hasField, classes]

private theorem nodup_gather {cs : List Class} (h : ∀ c ∈ cs, c.fields.Nodup) : (gather cs).Nodup := by
  induction cs with
  | nil => exact List.nodup_nil
  | cons c cs ih =>
    obtain ⟨hc, hcs⟩ := List.forall_mem_cons.mp h
    refine List.nodup_append.mpr ⟨ih hcs, hc.filter _, ?_⟩
    rintro x hx _ hy rfl
    simpa [hx] using (List.mem_filter.mp hy).2

/-- A class adds nothing that those above it have. -/
private theorem gather_inOrder (lower upper : List Class) :
    (gather (lower ++ upper)).Pairwise fun x y =>
    (∃ c ∈ upper, y ∈ c.fields) → ∃ c ∈ upper, x ∈ c.fields := by
  induction lower with
  | nil => exact List.pairwise_of_forall_mem_list fun x hx _ _ _ => mem_gather.mp hx
  | cons c lower ih =>
    have hadded (x y : String) (hy : y ∈ c.fields.filter fun f => !(gather (lower ++ upper)).contains f) :
        ¬ ∃ d ∈ upper, y ∈ d.fields := by
      rintro ⟨d, hd, hyd⟩
      have hmem : y ∈ gather (lower ++ upper) := mem_gather.mpr ⟨d, List.mem_append_right _ hd, hyd⟩
      simpa [hmem] using (List.mem_filter.mp hy).2
    refine List.pairwise_append.mpr ⟨ih, ?_, fun x _ y hy hup => absurd hup (hadded x y hy)⟩
    exact List.pairwise_of_forall_mem_list fun x _ y hy hup => absurd hup (hadded x y hy)

private theorem ListsFields.of_nodup {h : Hierarchy} (hall : ∀ c ∈ h.classes, c.fields.Nodup) :
    h.ListsFields where
  once name := by
    have hnodup := nodup_gather hall
    rw [← declaredFields_eq_gather] at hnodup
    rw [hnodup.count]
    simp only [mem_declaredFields]
  inOrder lower upper hclasses := by
    rw [declaredFields_eq_gather, hclasses]
    exact gather_inOrder lower upper

end Hierarchy

/-- A new object has one slot for each of the fields. -/
private theorem World.slots_newObject {w : World} {r : ClassRef} (h : (w.hierarchy r).ListsFields)
    (name : String) :
    ((w.newObject r).2.object (w.newObject r).1).fields.filter (·.1 = name)
      = if (w.hierarchy r).hasField name then [(name, .null)] else [] := by
  have hslots : ((w.newObject r).2.object (w.newObject r).1).fields
      = (w.hierarchy r).declaredFields.map fun name => (name, .null) :=
    congrArg Object.fields (w.made_newObject r).object
  rw [hslots, List.filter_map]
  change ((w.hierarchy r).declaredFields.filter (· = name)).map _ = _
  rw [List.filter_eq, h.once]
  split <;> rfl

/-- However classes are built and changed, their members are in order, and lookups in a line of classes
go through the overloads of its classes. The line lists each of its fields once, those of ancestors
first, and a new object has one slot for each, with null in it. All classes of sessions come about so. -/
theorem members_well_kept :
    (∀ c : Class, c.Arises → c.Tidy)
      ∧ (∀ h : Hierarchy, (∀ c ∈ h.classes, c.Arises) → h.ListsFields ∧ ∀ name l, h.candidates name l
          = h.classes.flatMap fun c => (c.overloads l.statics name).filter l.sees)
      ∧ (∀ (w : World) (r : ClassRef), (∀ c ∈ (w.hierarchy r).classes, c.Arises) → ∀ name,
          ((w.newObject r).2.object (w.newObject r).1).fields.filter (·.1 = name)
            = if (w.hierarchy r).hasField name then [(name, .null)] else [])
      ∧ ∀ w : World, w.Attained → ∀ r, ∀ c ∈ (w.hierarchy r).classes, c.Arises := by
  have hlists (h : Hierarchy) (hall : ∀ c ∈ h.classes, c.Arises) : h.ListsFields :=
    .of_nodup fun c hc => (hall c hc).tidy.fields
  refine ⟨fun c => Class.Arises.tidy, fun h hall => ⟨hlists h hall, fun _ _ => rfl⟩,
    fun w r hall => World.slots_newObject (hlists _ hall), fun w hw r c hc => ?_⟩
  rcases List.mem_cons.mp hc with rfl | hc
  · exact hw.arises r
  · obtain ⟨q, -, rfl⟩ := List.mem_map.mp hc
    exact hw.arises q

open World in
/-- A class with the fields `x` and `y`, and one below it with `z` and `y`, to which `x` is added. -/
def drafted : World :=
  let base := (initial {}).defineClass 0 none
    { name := "Base", fields := ["x", "y", "x"], methods := [.defaultConstructor, .defaultConstructor] }
  let derived := base.2.2.defineClass 0 (some base.2.1) { name := "Derived", fields := ["z", "y"] }
  derived.2.2.updateClass ⟨11⟩ (·.addField "x")

open World in
theorem members_well_kept_drafted :
    drafted.Attained ∧ (drafted.cls ⟨10⟩).constructors.length = 1 ∧ (drafted.cls ⟨10⟩).Tidy
      ∧ (drafted.hierarchy ⟨11⟩).declaredFields = ["x", "y", "z"]
      ∧ (drafted.hierarchy ⟨11⟩).ListsFields
      ∧ ((drafted.newObject ⟨11⟩).2.object (drafted.newObject ⟨11⟩).1).fields.filter (·.1 = "y")
        = [("y", .null)] := by
  have hstart : (initial {}).Attained := ⟨{}, {}, .refl⟩
  have hdrafted : drafted.Attained :=
    ((hstart.deed (.defineClass _ 0 _ _)).deed (.defineClass _ 0 _ _)).deed
      (.mutate _ ⟨11⟩ (.addField "x"))
  obtain ⟨htidy, hlines, hslots, harises⟩ := members_well_kept
  have hhas : (drafted.hierarchy ⟨11⟩).hasField "y" = true := by decide +kernel
  refine ⟨hdrafted, by decide +kernel, htidy _ (harises _ hdrafted ⟨10⟩ _ List.mem_cons_self),
    by decide +kernel, (hlines _ (harises _ hdrafted ⟨11⟩)).1, ?_⟩
  rw [hslots _ _ (harises _ hdrafted ⟨11⟩), if_pos hhas]

end CachedDispatch
