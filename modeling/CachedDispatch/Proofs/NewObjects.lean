import CachedDispatch.Proofs.Hit
import CachedDispatch.Proofs.Invocation
import CachedDispatch.Proofs.Overloads

/-!
New objects and the properties that are set on them. A new object has a slot for each field that its class
and its ancestors declare; setting fields from a list of entries leaves in each slot what the last entry
for it says, and the first entry that is neither a field nor has a setter ends it.
-/
namespace CachedDispatch

namespace Assoc

variable {κ α : Type} [DecidableEq κ]

private theorem get?_append (m m' : List (κ × α)) (k : κ) :
    get? (m ++ m') k = (get? m k).or (get? m' k) := by
  rw [get?, get?, get?, List.find?_append]
  cases m.find? fun e => e.1 = k <;> rfl

/-- Of the entries that are written one after another the last one of a key stays. -/
theorem get?_foldl_set (entries m : List (κ × α)) (k : κ) :
    get? (entries.foldl (fun m e => set m e.1 e.2) m) k = (get? entries.reverse k).or (get? m k) := by
  induction entries generalizing m with
  | nil => rfl
  | cons e entries ih =>
    have hset : get? (set m e.1 e.2) k = (get? [e] k).or (get? m k) := by
      rw [get?_cons]
      split
      · rename_i hk
        subst hk
        exact get?_set_self ..
      · rename_i hk
        exact get?_set_of_ne _ _ (Ne.symm hk)
    rw [List.foldl_cons, ih, hset, List.reverse_cons, get?_append, Option.or_assoc]

private theorem get?_map_const (ks : List κ) (a : α) (k : κ) :
    get? (ks.map fun k => (k, a)) k = if k ∈ ks then some a else none := by
  induction ks with
  | nil => rfl
  | cons j ks ih =>
    rw [List.map_cons, get?_cons, ih]
    by_cases hj : j = k
    · simp [hj]
    · simp [hj, Ne.symm hj]

end Assoc

/-- The declared fields are those that the class or an ancestor has. -/
theorem Hierarchy.mem_declaredFields (h : Hierarchy) (name : String) :
    name ∈ h.declaredFields ↔ h.hasField name = true := by
  have hfold (cs : List Class) (acc : List String) :
      name ∈ cs.foldl (fun fields c => fields ++ c.fields.filter fun f => !fields.contains f) acc
        ↔ name ∈ acc ∨ ∃ c ∈ cs, name ∈ c.fields := by
    induction cs generalizing acc with
    | nil => simp
    | cons c cs ih =>
      rw [List.foldl_cons, ih]
      by_cases hacc : name ∈ acc <;> simp [hacc]
  rw [declaredFields, hfold, hasField]
  simp

private theorem modify_push {α : Type} (xs : Array α) (a : α) (f : α → α) :
    (xs.push a).modify xs.size f = xs.push (f a) := by
  refine Array.ext_getElem? fun j => ?_
  rw [Array.getElem?_modify, Array.getElem?_push, Array.getElem?_push]
  by_cases hj : xs.size = j
  · simp [hj]
  · simp [hj, Ne.symm hj]

namespace World

variable {w u : World} {r : ClassRef} {fields : List (String × Value)}

/-- In `u` there is one object more than in `w`, of the class `r`, with a slot for each of its fields. -/
structure Made (w u : World) (r : ClassRef) (fields : List (String × Value)) : Prop where
  classes : u.classes = w.classes
  objects : u.objects = w.objects.push ⟨r, fields⟩
  complete : ∀ name ∈ (w.hierarchy r).declaredFields, (Assoc.get? fields name).isSome = true

/-- The object that is made next. -/
def nextObject (w : World) : ObjectRef := ⟨w.objects.size⟩

theorem made_newObject (w : World) (r : ClassRef) :
    w.Made (w.newObject r).2 r ((w.hierarchy r).declaredFields.map fun name => (name, .null)) :=
  ⟨rfl, rfl, fun name hname => by rw [Assoc.get?_map_const, if_pos hname]; rfl⟩

namespace Made

private theorem hierarchy (h : w.Made u r fields) : u.hierarchy = w.hierarchy :=
  hierarchy_congr (cls_congr h.classes)

theorem object (h : w.Made u r fields) : u.object w.nextObject = ⟨r, fields⟩ := by
  simp [World.object, nextObject, h.objects, Array.getD]

private theorem record (h : w.Made u r fields) (e : Event) : w.Made (u.record e) r fields :=
  ⟨h.classes, h.objects, h.complete⟩

private theorem setField (h : w.Made u r fields) (name : String) (v : Value) :
    w.Made (u.setField w.nextObject name v) r (Assoc.set fields name v) := by
  refine ⟨h.classes, ?_, fun f hf => ?_⟩
  · simp only [World.setField, h.objects, nextObject]
    exact modify_push ..
  · rw [Assoc.get?_set]
    split
    · rfl
    · exact h.complete f hf

/-- Old objects keep their classes. -/
private theorem lineage (h : w.Made u r fields) {o : ObjectRef} (ho : o.idx < w.objects.size) :
    u.lineage o = w.lineage o := by
  have hcls : u.classOfObject o = w.classOfObject o := by
    simp only [classOfObject, World.object, h.objects, getD_push, if_neg (Nat.ne_of_lt ho)]
  simp only [World.lineage, hcls, h.hierarchy]

end Made

end World

/-- Of the lines only that of the object in a value matters. -/
private theorem paramDistance_congr {lin lin' : Lineage} {v : Value}
    (h : ∀ o, v.unwrap = .object o → lin o = lin' o) (p : ParamType) :
    paramDistance lin p v = paramDistance lin' p v := by
  have htype : v.effectiveType lin = v.effectiveType lin' := by
    cases v with
    | object o => simp only [Value.effectiveType, Value.typeId, h o rfl]
    | _ => rfl
  have hdepth (t : TypeId) : v.depthTo? lin t = v.depthTo? lin' t := by
    unfold Value.depthTo?
    split
    · rename_i o ho
      rw [h o ho]
    · rfl
  cases p with
  | any => rfl
  | exact t => simp only [paramDistance, htype, hdepth]

private theorem pick_singleton_congr {lin lin' : Lineage} {v : Value}
    (h : ∀ o, v.unwrap = .object o → lin o = lin' o) (candidates : List Method) :
    pick lin candidates [v] = pick lin' candidates [v] := by
  have htotal (ps : List ParamType) : totalDistance lin ps [v] = totalDistance lin' ps [v] := by
    rcases ps with _ | ⟨p, _ | ⟨q, ps⟩⟩
    · rfl
    · simp only [totalDistance, paramDistance_congr h]
    · simp [totalDistance]
  unfold pick
  congr 1
  funext m
  exact htotal m.params

private theorem setProperties_append (run : Runner) (rt : Nat) (target : Value)
    (entries entries' : List (String × Value)) :
    setProperties run rt target (entries ++ entries')
      = setProperties run rt target entries >>= fun _ => setProperties run rt target entries' := by
  induction entries with
  | nil => rfl
  | cons e entries ih =>
    rw [List.cons_append, setProperties_cons, setProperties_cons run rt target e entries, ih, bind_assoc]

namespace World.Made

variable {w u : World} {r : ClassRef} {fields entries : List (String × Value)}

private theorem classOf (h : w.Made u r fields) (rt : Nat) :
    u.classOf rt (.object w.nextObject) = (some r, u) := by
  change (some (u.object w.nextObject).cls, u) = _
  rw [h.object]

/-- A field is set directly. -/
private theorem planSetProperty_field (h : w.Made u r fields) {name : String}
    (hname : name ∈ (w.hierarchy r).declaredFields) (rt : Nat) (v : Value) :
    (planSetProperty rt (.object w.nextObject) name v).run u
      = (.setField w.nextObject name v, u) := by
  have hfield := ((w.hierarchy r).mem_declaredFields name).mp hname
  have hslot : (u.field? w.nextObject name).isSome = true := by
    rw [field?, h.object]
    exact h.complete name hname
  unfold planSetProperty
  rw [run_classOrFault_bind (h.classOf rt), Update.run_get_bind, h.hierarchy]
  dsimp only [Hierarchy.setter?]
  rw [if_pos hfield]
  dsimp only
  rw [if_pos hslot]
  rfl

/-- What is no field and has no setter is not there. -/
private theorem planSetProperty_missing (h : w.Made u r fields) {name : String} {v : Value}
    (hname : name ∉ (w.hierarchy r).declaredFields)
    (hset : (w.hierarchy r).pickMethod w.lineage (setterName name) [v] (.instanceFor (w.cls r).id) = none)
    (hv : ∀ o, v.unwrap = .object o → o.idx < w.objects.size) (rt : Nat) :
    (planSetProperty rt (.object w.nextObject) name v).run u
      = (.fail (.missingProperty (w.cls r).name name), u) := by
  have hfield : ¬ (w.hierarchy r).hasField name = true :=
    fun hfield => hname (((w.hierarchy r).mem_declaredFields name).mpr hfield)
  have hnone : (w.hierarchy r).pickMethod u.lineage (setterName name) [v]
      (.instanceFor (w.hierarchy r).id) = none := by
    rw [← hset]
    exact pick_singleton_congr (fun o ho => h.lineage (hv o ho)) _
  unfold planSetProperty
  rw [run_classOrFault_bind (h.classOf rt), Update.run_get_bind, h.hierarchy]
  dsimp only [Hierarchy.setter?]
  rw [if_neg hfield, hnone]
  rfl

variable (run : Runner) (rt : Nat)

/-- Fields are set one after another. -/
private theorem setProperties (h : w.Made u r fields)
    (hkeys : ∀ e ∈ entries, e.1 ∈ (w.hierarchy r).declaredFields) :
    ∃ u', (setProperties run rt (.object w.nextObject) entries).result.run u = .ok (.ok (), u')
      ∧ w.Made u' r (entries.foldl (fun m e => Assoc.set m e.1 e.2) fields) := by
  induction entries generalizing u fields with
  | nil => exact ⟨u, rfl, h⟩
  | cons e entries ih =>
    rw [List.forall_mem_cons] at hkeys
    obtain ⟨u', hrest, hmade⟩ := ih (h.setField e.1 e.2) hkeys.2
    refine ⟨u', ?_, hmade⟩
    rw [CachedDispatch.setProperties, Exec.result_ofUpdate_bind, h.planSetProperty_field hkeys.1]
    exact hrest

/-- The first entry that cannot be set ends it. -/
private theorem setProperties_missing (h : w.Made u r fields) {name : String} {v : Value}
    {before after : List (String × Value)} (hentries : entries = before ++ (name, v) :: after)
    (hkeys : ∀ e ∈ before, e.1 ∈ (w.hierarchy r).declaredFields)
    (hname : name ∉ (w.hierarchy r).declaredFields)
    (hset : (w.hierarchy r).pickMethod w.lineage (setterName name) [v] (.instanceFor (w.cls r).id) = none)
    (hv : ∀ o, v.unwrap = .object o → o.idx < w.objects.size) :
    ∃ u', (CachedDispatch.setProperties run rt (.object w.nextObject) entries).result.run u
      = .ok (.error (.missingProperty (w.cls r).name name), u') := by
  obtain ⟨u', hbefore, hmade⟩ := h.setProperties run rt hkeys
  refine ⟨u', ?_⟩
  rw [hentries, setProperties_append, Exec.result_bind, hbefore]
  dsimp only
  rw [CachedDispatch.setProperties, Exec.result_ofUpdate_bind,
    hmade.planSetProperty_missing hname hset hv]
  rfl

end World.Made

/-- Running the code leaves no trace but the record that it was run. -/
def Code.IdleFor (run : Runner) (code : Code) : Prop :=
  ∀ frame w, ∃ v, (run code frame).result.run w = .ok (.ok v, w.record (.ran code frame))

/-- A constructor without parameters that leaves the new object as it is. -/
structure Method.IsDefault (run : Runner) (m : Method) : Prop where
  params : m.params = []
  kind : m.kind = .initializer
  idle : m.code.IdleFor run

section Beans

variable {run : Runner} {rt : Nat} {w w₁ u u' : World} {r : ClassRef} {m : Method}
  {entries : List (String × Value)}

private theorem Method.IsDefault.construct (hm : m.IsDefault run) (r : ClassRef) (w : World) :
    ∃ u, (m.construct run r []).result.run w = .ok (.ok (.object w.nextObject), u)
      ∧ w.Made u r ((w.hierarchy r).declaredFields.map fun name => (name, .null)) := by
  obtain ⟨v, hv⟩ := hm.idle (m.entry r [] w).1 (m.entry r [] w).2
  refine ⟨_, ?_, (w.made_newObject r).record (.ran m.code (m.entry r [] w).1)⟩
  rw [Method.result_construct, hv]
  simp only [Method.entry, hm.kind]
  rfl

/-- What setting the properties comes to is what the plan comes to. -/
private theorem Plan.result_bean {args : List Value} {target : Value} {result : Except Fault Unit}
    (hmade : (m.construct run r args).result.run w = .ok (.ok target, u))
    (hset : (setProperties run rt target entries).result.run u = .ok (result, u'))
    (hbare : ∀ f, result = .error f → f.bare = f) (origin : Origin) :
    ((Plan.bean r m args entries).run run rt origin).result.run w
      = .ok (result.map fun _ => target, u') := by
  rw [Plan.run, Exec.result_bind, Exec.result_adapt, hmade]
  dsimp only
  cases origin with
  | lookup =>
    rw [Exec.result_bind, hset]
    cases result <;> rfl
  | memory =>
    rw [Exec.result_bind, stripped, Exec.result_adapt, hset]
    cases result with
    | ok => rfl
    | error f =>
      dsimp only
      rw [hbare f rfl]
      rfl

/-- What is to come of making an object of the class `r` with these properties. If all of them are fields,
each field holds what the last entry for it says, or null. Where fields come first and then something that
is neither a field nor has a setter, this is what is missing. -/
structure World.MakesBean (w : World) (r : ClassRef) (entries : List (String × Value))
    (outcome : Except Stop (Except Fault Value × World)) : Prop where
  made : (∀ e ∈ entries, e.1 ∈ (w.hierarchy r).declaredFields) →
    ∃ w' fields, outcome = .ok (.ok (.object w.nextObject), w')
      ∧ w'.objects = w.objects.push ⟨r, fields⟩
      ∧ ∀ name, Assoc.get? fields name =
        if name ∈ (w.hierarchy r).declaredFields then
          some ((Assoc.get? entries.reverse name).getD .null)
        else none
  missing : ∀ before name v after, entries = before ++ (name, v) :: after →
    (∀ e ∈ before, e.1 ∈ (w.hierarchy r).declaredFields) → name ∉ (w.hierarchy r).declaredFields →
    (∀ p m, ¬ (w.hierarchy r).Answers w.lineage (setterName name) [v] (.instanceFor (w.cls r).id) p m) →
    (∀ o, v.unwrap = .object o → o.idx < w.objects.size) →
      ∃ w', outcome = .ok (.error (.missingProperty (w.cls r).name name), w')

/-- What the slots of a new object hold in the end. -/
private theorem get?_filled {names : List String} (hkeys : ∀ e ∈ entries, e.1 ∈ names)
    (name : String) :
    Assoc.get? (entries.foldl (fun m e => Assoc.set m e.1 e.2) (names.map fun name => (name, .null))) name
      = if name ∈ names then some ((Assoc.get? entries.reverse name).getD .null) else none := by
  rw [Assoc.get?_foldl_set, Assoc.get?_map_const]
  split
  · cases Assoc.get? entries.reverse name <;> rfl
  · rename_i hname
    have hnone : entries.reverse.find? (fun e => e.1 = name) = none := by
      refine List.find?_eq_none.mpr fun e he hk => hname ?_
      rw [← of_decide_eq_true hk]
      exact hkeys e (List.mem_reverse.mp he)
    rw [Assoc.get?, hnone]
    rfl

/-- A plan with a default constructor makes the bean. -/
theorem Method.IsDefault.makesBean (hm : m.IsDefault run) (r : ClassRef)
    (entries : List (String × Value)) (rt : Nat) (origin : Origin) (w : World) :
    w.MakesBean r entries (((Plan.bean r m [] entries).run run rt origin).result.run w) := by
  obtain ⟨u, hconstruct, hmade⟩ := hm.construct r w
  constructor
  · intro hkeys
    obtain ⟨u', hset, hmade'⟩ := hmade.setProperties run rt hkeys
    have hplan := Plan.result_bean hconstruct hset (fun _ hf => by cases hf) origin
    exact ⟨u', _, hplan, hmade'.objects, get?_filled hkeys⟩
  · intro before name v after hentries hkeys hname hsetter hv
    have hnone := Hierarchy.pickMethod_eq_none_iff.mpr hsetter
    obtain ⟨u', hset⟩ := hmade.setProperties_missing run rt hentries hkeys hname hnone hv
    refine ⟨u', Plan.result_bean hconstruct hset (fun f hf => ?_) origin⟩
    cases hf
    rfl

end Beans

end CachedDispatch
