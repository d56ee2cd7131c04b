import CachedDispatch.Proofs.Catalog
import CachedDispatch.Proofs.Conduct

/-!
The deeds of sessions, with any number of runtimes. Every session goes on in deeds, and every deed
leaves the classes and registries in order.
-/
namespace CachedDispatch

namespace World

/-- One thing that a session does to the world, also in the middle of a dispatch. -/
inductive Deed : World → World → Prop
  | record (w : World) (e : Event) : Deed w (w.record e)
  | allocate (w : World) : Deed w w.allocate.2
  | findClass (w : World) (rt : Nat) (t : TypeId) : Deed w (w.findClass rt t).2
  | newObject (w : World) (r : ClassRef) : Deed w (w.newObject r).2
  | setField (w : World) (o : ObjectRef) (name : String) (v : Value) : Deed w (w.setField o name v)
  | mutate (w : World) (r : ClassRef) (mu : Mutation) : Deed w (w.updateClass r mu.apply)
  | replaceClass {w : World} {r : ClassRef} (hr : r.idx < w.classes.size) (rt : Nat) :
      Deed w (w.replaceClass rt r).2
  | defineClass (w : World) (rt : Nat) (parent : Option ClassRef) (members : ClassMembers) :
      Deed w (w.defineClass rt parent members).2.2
  | draftClass (w : World) (key : String) (rt : Nat) (name : String) (isHost : Bool) :
      Deed w (w.draftClass key rt name isHost).2
  | finishClass {w : World} {key : String} {d : Draft} (hd : Assoc.get? w.drafts key = some d)
      (parent : Option ClassRef) (members : ClassMembers) :
      Deed w (w.finishClass key d parent members).2
  | newRuntime (w : World) (config : Config) : Deed w (w.newRuntime config).2
  | addTable {w : World} {rt : Nat} (hrt : rt < w.runtimes.size) (owner : TypeId)
      (sites : List (String × SiteKind)) : Deed w (w.addTable (.ofSites owner rt sites)).2
  /-- A slot comes to its plan for a request that was made of it. -/
  | plan {w : World} {t : TableRef} {i : Nat} {slot : Slot} {request : Request}
      (hs : w.slot? t i = some slot) (ha : .asked t i request ∈ w.history) :
      Deed w ((planAt t slot request).run w).2
  | activate (w : World) (active : List Category) : Deed w { w with active }
  | rescope {w : World} {scope : Scope} (hrt : scope.runtime < w.runtimes.size)
      (hl : ∀ name r, Assoc.get? scope.labels name = some r → r.idx < w.classes.size) :
      Deed w { w with scope }

abbrev Deeds : World → World → Prop := Relation.ReflTransGen Deed

/-- The worlds that sessions come to, also in the middle of a dispatch. -/
def Attained (w : World) : Prop := ∃ config embedding, Deeds (initial config embedding) w

/-- What slots leave alone: objects, categories, the names of the script, and the history. -/
structure SameStage (w w' : World) : Prop where
  objects : w'.objects = w.objects
  active : w'.active = w.active
  scope : w'.scope = w.scope
  history : w'.history = w.history

private theorem SameStage.trans {w w' w'' : World} (h : w.SameStage w') (h' : w'.SameStage w'') :
    w.SameStage w'' :=
  ⟨h'.objects.trans h.objects, h'.active.trans h.active, h'.scope.trans h.scope,
    h'.history.trans h.history⟩

private theorem SameRest.sameStage {w w' : World} (h : w.SameRest w') : w.SameStage w' :=
  ⟨h.objects, h.active, h.scope, h.history⟩

private theorem allowsSlots_sameStage : AllowsSlots SameStage where
  lookups rt := {
    refl := fun _ => ⟨rfl, rfl, rfl, rfl⟩
    trans := SameStage.trans
    findClass := fun w t => (w.sameRest_findClass rt t).sameStage
    allocate := fun _ => ⟨rfl, rfl, rfl, rfl⟩ }
  count _ _ _ := ⟨rfl, rfl, rfl, rfl⟩
  write _ _ _ _ := ⟨rfl, rfl, rfl, rfl⟩

theorem sameStage_planAt (t : TableRef) (slot : Slot) (request : Request) (w : World) :
    w.SameStage ((planAt t slot request).run w).2 :=
  makes_planAt allowsSlots_sameStage t request slot w

theorem Catalogued.planAt {w : World} (h : w.Catalogued) (t : TableRef) (slot : Slot)
    (request : Request) :
    ((planAt t slot request).run w).2.Catalogued ∧ w.Endures ((planAt t slot request).run w).2 := by
  -- whatever leaves classes and registries alone
  have hsame (w w' : World) (hc : w'.classes = w.classes) (hs : w'.runtimes.size = w.runtimes.size)
      (hr : ∀ rt, w'.registry rt = w.registry rt) (h : w.Catalogued) :
      w'.Catalogued ∧ w.Endures w' := ⟨h.of_eq hc hs hr, .of_eq hc hs hr⟩
  let R (w w' : World) : Prop := w.Catalogued → w'.Catalogued ∧ w.Endures w'
  have hR : AllowsSlots R := by
    refine ⟨fun rt => ⟨⟨fun w h => ⟨h, .refl w⟩, fun h₁ h₂ h => ?_, fun w t h => h.findClass rt t⟩,
      fun w => hsame w _ rfl rfl fun _ => rfl⟩, fun w rt f => hsame w _ rfl ?_ ?_,
      fun w t i f => hsame w _ rfl rfl fun _ => rfl⟩
    · obtain ⟨h, he₁⟩ := h₁ h
      obtain ⟨h, he₂⟩ := h₂ h
      exact ⟨h, he₁.trans he₂⟩
    · exact Array.size_modify
    · exact fun rt' => w.registry_updateStats rt rt' f
  exact makes_planAt hR t request slot w h

/-- Registries and labels go to classes that are there. -/
structure InOrder (w : World) : Prop extends Catalogued w where
  current : w.scope.runtime < w.runtimes.size
  labels : ∀ name r, Assoc.get? w.scope.labels name = some r → r.idx < w.classes.size

private theorem catalogued_initial (config : Config) (embedding : Embedding) :
    (initial config embedding).Catalogued :=
  (Catalogued.newRuntime (w := { embedding }) ⟨nofun, nofun, nofun⟩ config).1

theorem inOrder_initial (config : Config) (embedding : Embedding) :
    (initial config embedding).InOrder :=
  ⟨catalogued_initial config embedding, by simp [initial, newRuntime], nofun⟩

variable {w w' : World}

private theorem InOrder.of_endures (h : w.InOrder) (hc : w'.Catalogued ∧ w.Endures w')
    (hs : w'.scope = w.scope) : w'.InOrder ∧ w.Endures w' := by
  refine ⟨⟨hc.1, ?_, fun name r hr => ?_⟩, hc.2⟩
  · rw [hs]
    exact Nat.lt_of_lt_of_le h.current hc.2.runtimes
  · exact Nat.lt_of_lt_of_le (h.labels name r (hs ▸ hr)) hc.2.size

/-- Deeds keep the order, and what is known of classes and registries. -/
theorem Deed.keeps (hd : Deed w w') (h : w.InOrder) : w'.InOrder ∧ w.Endures w' := by
  have hcat := h.toCatalogued
  have hsame {w'' : World} (hc : w''.classes = w.classes) (hr : w''.runtimes = w.runtimes) :
      w''.Catalogued ∧ w.Endures w'' := by
    have hreg (rt : Nat) : w''.registry rt = w.registry rt := by simp only [registry, runtime, hr]
    exact ⟨hcat.of_eq hc (by rw [hr]) hreg, .of_eq hc (by rw [hr]) hreg⟩
  cases hd with
  | record | allocate | newObject | setField | addTable | activate =>
    exact h.of_endures (hsame rfl rfl) rfl
  | findClass rt t => exact h.of_endures (hcat.findClass rt t) (w.sameRest_findClass rt t).scope
  | mutate r mu => exact h.of_endures (hcat.updateClass r fun c => c.later_mutation mu) rfl
  | replaceClass hr rt =>
    exact h.of_endures (hcat.replaceClass rt hr) (w.sameRest_replaceClass rt _).scope
  | defineClass rt parent members =>
    exact h.of_endures (hcat.defineClass rt parent members)
      (w.sameRest_defineClass rt parent members).scope
  | draftClass key rt name isHost =>
    exact h.of_endures (Catalogued.withDrafts (hcat.beginClass rt name isHost) _)
      (w.sameRest_draftClass key rt name isHost).scope
  | finishClass _ parent members =>
    exact h.of_endures (Catalogued.withDrafts (hcat.buildClass _ parent members) _)
      (w.sameRest_finishClass _ _ parent members).scope
  | newRuntime config => exact h.of_endures (hcat.newRuntime config) rfl
  | plan =>
    exact h.of_endures (hcat.planAt _ _ _) (sameStage_planAt _ _ _ w).scope
  | @rescope scope hrt hl =>
    obtain ⟨hcat', hend⟩ := @hsame { w with scope } rfl rfl
    exact ⟨⟨hcat', hrt, hl⟩, hend⟩

theorem Deeds.keeps (hd : Deeds w w') (h : w.InOrder) : w'.InOrder ∧ w.Endures w' := by
  induction hd with
  | refl => exact ⟨h, .refl w⟩
  | tail _ hd ih =>
    obtain ⟨h', he⟩ := hd.keeps ih.1
    exact ⟨h', ih.2.trans he⟩

theorem Attained.inOrder (h : w.Attained) : w.InOrder := by
  obtain ⟨config, embedding, hd⟩ := h
  exact (hd.keeps (inOrder_initial config embedding)).1

theorem Attained.deeds (h : w.Attained) (hd : Deeds w w') : w'.Attained := by
  obtain ⟨config, embedding, hds⟩ := h
  exact ⟨config, embedding, hds.trans hd⟩

theorem Attained.deed (h : w.Attained) (hd : Deed w w') : w'.Attained := h.deeds (.single hd)

/-- Nothing that has happened is forgotten. -/
theorem Deed.history_suffix (hd : Deed w w') : w.history <:+ w'.history := by
  cases hd with
  | record e => exact List.suffix_cons ..
  | findClass rt t => exact (w.sameRest_findClass rt t).history ▸ List.suffix_rfl
  | replaceClass _ rt => exact (w.sameRest_replaceClass rt _).history ▸ List.suffix_rfl
  | defineClass rt parent members =>
    exact (w.sameRest_defineClass rt parent members).history ▸ List.suffix_rfl
  | draftClass key rt name isHost =>
    exact (w.sameRest_draftClass key rt name isHost).history ▸ List.suffix_rfl
  | plan => exact (sameStage_planAt _ _ _ w).history ▸ List.suffix_rfl
  | _ => exact List.suffix_rfl

/-- An object that is there keeps its class. -/
private theorem Deed.classOfObject (hd : Deed w w') {o : ObjectRef} (ho : o.idx < w.objects.size) :
    o.idx < w'.objects.size ∧ w'.classOfObject o = w.classOfObject o := by
  have hsame {w'' : World} (h : w''.objects = w.objects) :
      o.idx < w''.objects.size ∧ w''.classOfObject o = w.classOfObject o :=
    ⟨h ▸ ho, by rw [World.classOfObject, object, h]; rfl⟩
  cases hd with
  | findClass rt t => exact hsame (w.sameRest_findClass rt t).objects
  | newObject r =>
    refine ⟨Nat.lt_of_lt_of_eq (Nat.lt_succ_of_lt ho) (Array.size_push ..).symm, ?_⟩
    rw [classOfObject_newObject, if_neg (Nat.ne_of_lt ho)]
  | setField p name v =>
    exact ⟨Nat.lt_of_lt_of_eq ho Array.size_modify.symm, classOfObject_setField w p o name v⟩
  | replaceClass _ rt => exact hsame (w.sameRest_replaceClass rt _).objects
  | defineClass rt parent members => exact hsame (w.sameRest_defineClass rt parent members).objects
  | draftClass key rt name isHost => exact hsame (w.sameRest_draftClass key rt name isHost).objects
  | plan => exact hsame (sameStage_planAt _ _ _ w).objects
  | _ => exact hsame rfl

theorem Deeds.classOfObject (hd : Deeds w w') {o : ObjectRef} (ho : o.idx < w.objects.size) :
    o.idx < w'.objects.size ∧ w'.classOfObject o = w.classOfObject o := by
  induction hd with
  | refl => exact ⟨ho, rfl⟩
  | tail _ hd ih =>
    obtain ⟨hlt, hsame⟩ := hd.classOfObject ih.1
    exact ⟨hlt, hsame.trans ih.2⟩

/-- A class that can be named is there. -/
theorem Named.lt_size {r : ClassRef} (hr : w.Named r) (h : w.InOrder) : r.idx < w.classes.size := by
  cases hr with
  | label hl => exact h.labels _ r hl
  | @found w₀ _ t _ hf =>
    have hsize : w.runtimes.size = w₀.runtimes.size := by
      rw [← w₀.runtimes_size_findClass w₀.scope.runtime t, hf]
    have hscope : w.scope = w₀.scope := by
      rw [← (w₀.sameRest_findClass w₀.scope.runtime t).scope, hf]
    have hrt : w₀.scope.runtime < w₀.runtimes.size := hsize ▸ hscope ▸ h.current
    exact (h.entries _ t r (classFor?_of_findClass hrt hf)).1
  | built hb =>
    cases hb
    exact Nat.lt_of_lt_of_eq (Nat.lt_succ_self _) (size_addClass ..).symm

/-- A deed with the categories of `base` in force throughout, innermost or behind others. -/
def DeedOver (base : List Category) (w w' : World) : Prop :=
  Deed w w' ∧ base <:+ w.active ∧ base <:+ w'.active

abbrev DeedsOver (base : List Category) : World → World → Prop := Relation.ReflTransGen (DeedOver base)

theorem DeedsOver.deeds {base : List Category} (h : DeedsOver base w w') : Deeds w w' :=
  Relation.ReflTransGen.mono (fun _ _ hd => hd.1) w w' h

private theorem DeedsOver.of_cons {base : List Category} {c : Category}
    (h : DeedsOver (c :: base) w w') : DeedsOver base w w' := by
  have hover (u u' : World) (hd : DeedOver (c :: base) u u') : DeedOver base u u' :=
    ⟨hd.1, (List.suffix_cons c base).trans hd.2.1, (List.suffix_cons c base).trans hd.2.2⟩
  exact Relation.ReflTransGen.mono hover w w' h

/-- From a world in order it goes on in deeds. The categories in force stay so throughout, and in the
end no others are. -/
def GoesOn (w w' : World) : Prop := w.InOrder → DeedsOver w.active w w' ∧ w'.active = w.active

private theorem Deed.goesOn (hd : Deed w w') (ha : w'.active = w.active) :
    DeedsOver w.active w w' ∧ w'.active = w.active :=
  ⟨.single ⟨hd, List.suffix_rfl, ha ▸ List.suffix_rfl⟩, ha⟩

private theorem GoesOn.trans {w'' : World} (h₁ : GoesOn w w') (h₂ : GoesOn w' w'') :
    GoesOn w w'' := by
  intro h
  obtain ⟨hd₁, ha₁⟩ := h₁ h
  obtain ⟨hd₂, ha₂⟩ := h₂ (hd₁.deeds.keeps h).1
  exact ⟨hd₁.trans (ha₁ ▸ hd₂), ha₂.trans ha₁⟩

private theorem GoesOn.block {c : Category} (hblock : GoesOn { w with active := c :: w.active } w') :
    GoesOn w { w' with active := w'.active.tail } := by
  intro h
  have hpush : Deed w { w with active := c :: w.active } := .activate w _
  have hpop : Deed w' { w' with active := w'.active.tail } := .activate w' _
  have hcons : w.active <:+ c :: w.active := List.suffix_cons ..
  -- the category is again the innermost one, so that it is the one to go
  obtain ⟨hd, ha⟩ := hblock (hpush.keeps h).1
  have htail : w'.active.tail = w.active := congrArg List.tail ha
  have hpopped : DeedOver w.active w' { w' with active := w'.active.tail } :=
    ⟨hpop, ha ▸ hcons, htail ▸ List.suffix_rfl⟩
  exact ⟨(Relation.ReflTransGen.head ⟨hpush, List.suffix_rfl, hcons⟩ hd.of_cons).tail hpopped, htail⟩

theorem allowsSteps_goesOn : AllowsSteps GoesOn where
  lookups rt := {
    refl := fun _ _ => ⟨.refl, rfl⟩
    trans := GoesOn.trans
    findClass := fun w t _ => (Deed.findClass w rt t).goesOn (w.sameRest_findClass rt t).active
    allocate := fun w _ => (Deed.allocate w).goesOn rfl }
  record w e _ := (Deed.record w e).goesOn rfl
  newObject w r _ := (Deed.newObject w r).goesOn rfl
  setField w o name v _ := (Deed.setField w o name v).goesOn rfl
  plan {w _ _ _ _} hs ha _ := (Deed.plan hs ha).goesOn (sameStage_planAt _ _ _ w).active
  mutate w r mu _ := (Deed.mutate w r mu).goesOn rfl
  defineClass w rt parent members _ :=
    (Deed.defineClass w rt parent members).goesOn (w.sameRest_defineClass rt parent members).active
  draftClass w key rt name isHost _ :=
    (Deed.draftClass w key rt name isHost).goesOn (w.sameRest_draftClass key rt name isHost).active
  finishClass {w key d} hd parent members _ :=
    (Deed.finishClass hd parent members).goesOn (w.sameRest_finishClass key d parent members).active
  replaceClass {w _} hr rt h :=
    (Deed.replaceClass (hr.lt_size h) rt).goesOn (w.sameRest_replaceClass rt _).active
  label {w r} hr name h := by
    refine Deed.goesOn (.rescope h.current fun n q hq => ?_) rfl
    rcases Assoc.eq_or_of_get?_set hq with ⟨-, rfl⟩ | hold
    · exact hr.lt_size h
    · exact h.labels n q hold
  rescope w scope hrt hl h :=
    Deed.goesOn (.rescope (hrt ▸ h.current) fun n q hq => h.labels n q (hl ▸ hq)) rfl
  newRuntime w config _ := (Deed.newRuntime w config).goesOn rfl
  switch hlt h := Deed.goesOn (.rescope hlt h.labels) rfl
  addTable w owner sites h := (Deed.addTable h.current owner sites).goesOn rfl
  block _ := GoesOn.block

/-- Sessions come to attained worlds. -/
theorem attained_of_session {fuel : Nat} {steps : List Script.Step} {config : Config}
    {embedding : Embedding} {replies : List Script.Reply}
    (h : (Script.performSteps fuel steps).run (initial config embedding) = .ok (replies, w)) :
    w.Attained := by
  have hgoes := (Script.makes_session allowsSteps_goesOn fuel).2 steps h
  exact ⟨config, embedding, (hgoes (inOrder_initial config embedding)).1.deeds⟩

/-- The first slot has come to its plan for a request. -/
def planned (w : World) (request : Request) : World :=
  let asked := w.record (.asked ⟨0⟩ 0 request)
  match asked.slot? ⟨0⟩ 0 with
  | some slot => ((planAt ⟨0⟩ slot request).run asked).2
  | none => asked

theorem deeds_planned (w : World) (request : Request) :
    w.planned request = w.record (.asked ⟨0⟩ 0 request)
      ∨ Deed (w.record (.asked ⟨0⟩ 0 request)) (w.planned request) := by
  unfold planned
  dsimp only
  split
  · rename_i slot hs
    exact Or.inr (.plan hs List.mem_cons_self)
  · exact Or.inl rfl

theorem Attained.planned (h : w.Attained) (request : Request) : (w.planned request).Attained := by
  have hasked := h.deed (.record w (.asked ⟨0⟩ 0 request))
  rcases w.deeds_planned request with heq | hd
  · exact (congrArg Attained heq).mpr hasked
  · exact hasked.deed hd

end World

end CachedDispatch
