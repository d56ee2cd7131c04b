import CachedDispatch.Proofs.Orderly

/-!
Any number of registries in one world. A class keeps its identity for good, a type that has a class
keeps having one, and what a registry has for a type is a class of that type.
-/
namespace CachedDispatch

namespace World

/-- The class that a registry has for a type. -/
def classFor? (w : World) (rt : Nat) (t : TypeId) : Option ClassRef :=
  Assoc.get? (w.registry rt).entries t

/-- The registry has handed out its next identity. -/
abbrev handOut (w : World) (rt : Nat) : World := w.updateRegistry rt Registry.handOut

/-- All but the next identity of a registry is as it was. -/
theorem registry_handOut (w : World) (rt rt' : Nat) :
    (w.handOut rt).registry rt'
      = { w.registry rt' with begun := ((w.handOut rt).registry rt').begun } := by
  rw [registry_updateRegistry_eq]
  split <;> rfl

theorem classFor?_handOut (w : World) (rt rt' : Nat) (t : TypeId) :
    (w.handOut rt).classFor? rt' t = w.classFor? rt' t := by
  rw [classFor?, registry_handOut]
  rfl

theorem begun_handOut (w : World) {rt : Nat} (hrt : rt < w.runtimes.size) (rt' : Nat) :
    ((w.handOut rt).registry rt').begun
      = if rt = rt' then (w.registry rt').begun + 1 else (w.registry rt').begun := by
  rw [registry_updateRegistry_eq]
  by_cases he : rt = rt'
  · subst he
    rw [if_pos ⟨rfl, hrt⟩, if_pos rfl]
    rfl
  · rw [if_neg fun hc => he hc.1, if_neg he]

theorem registry_out_of_range (w : World) {rt : Nat} (h : ¬ rt < w.runtimes.size) :
    w.registry rt = default := by
  simp only [registry, runtime, Array.getD, h]
  rfl

@[simp] theorem runtimes_size_newRuntime (w : World) (config : Config) :
    (w.newRuntime config).2.runtimes.size = w.runtimes.size + 1 := Array.size_push ..

/-- The classes that are there stay, and those of the builtin types follow them. -/
theorem cls_newRuntime (w : World) (config : Config) (r : ClassRef) :
    (w.newRuntime config).2.cls r
      = if r.idx < w.classes.size then w.cls r
        else (BuiltinType.all[r.idx - w.classes.size]?.map BuiltinType.toClass).getD default := by
  simp only [cls, newRuntime, Array.getD_eq_getD_getElem?]
  split
  · rw [Array.getElem?_append_left ‹_›]
  · rw [Array.getElem?_append_right (Nat.le_of_not_lt ‹_›), List.getElem?_toArray, List.getElem?_map]

structure Catalogued (w : World) : Prop where
  room : ∀ rt < w.runtimes.size, (w.registry rt).base + 10 ≤ w.classes.size
  builtins : ∀ rt < w.runtimes.size, ∀ b : BuiltinType,
    b.toClass.Later (w.cls ((w.registry rt).builtinRef b))
  entries : ∀ rt t r, w.classFor? rt t = some r → r.idx < w.classes.size ∧ (w.cls r).id = t

/-- What is known of the classes and the registries of `w` still holds in `w'`. -/
structure Endures (w w' : World) : Prop where
  size : w.classes.size ≤ w'.classes.size
  later : ∀ r, r.idx < w.classes.size → (w.cls r).Later (w'.cls r)
  runtimes : w.runtimes.size ≤ w'.runtimes.size
  bases : ∀ rt < w.runtimes.size, (w'.registry rt).base = (w.registry rt).base
  entries : ∀ rt t, (w.classFor? rt t).isSome → (w'.classFor? rt t).isSome
  begun : ∀ rt, (w.registry rt).begun ≤ (w'.registry rt).begun

/-- The identities of no registry have come round. -/
def Ample (w : World) : Prop := ∀ rt, (w.registry rt).begun ≤ TypeId.supply

namespace Endures

variable {w w' w'' : World}

theorem of_eq (hc : w'.classes = w.classes) (hs : w'.runtimes.size = w.runtimes.size)
    (hr : ∀ rt, w'.registry rt = w.registry rt) : w.Endures w' := by
  refine ⟨Nat.le_of_eq (by rw [hc]), fun r _ => ?_, Nat.le_of_eq hs.symm, fun rt _ => by rw [hr],
    fun rt t h => ?_, fun rt => Nat.le_of_eq (by rw [hr])⟩
  · rw [show w'.cls r = w.cls r by simp only [cls, hc]]
    exact .refl _
  · rwa [classFor?, hr]

theorem refl (w : World) : w.Endures w := of_eq rfl rfl fun _ => rfl

theorem trans (h : w.Endures w') (h' : w'.Endures w'') : w.Endures w'' where
  size := Nat.le_trans h.size h'.size
  later r hr := (h.later r hr).trans (h'.later r (Nat.lt_of_lt_of_le hr h.size))
  runtimes := Nat.le_trans h.runtimes h'.runtimes
  bases rt hrt := (h'.bases rt (Nat.lt_of_lt_of_le hrt h.runtimes)).trans (h.bases rt hrt)
  entries rt t hs := h'.entries rt t (h.entries rt t hs)
  begun rt := Nat.le_trans (h.begun rt) (h'.begun rt)

theorem id_eq (h : w.Endures w') {r : ClassRef} (hr : r.idx < w.classes.size) :
    (w'.cls r).id = (w.cls r).id := (h.later r hr).id

/-- If the identities have lasted to the end, then all the way. -/
theorem ample (h : w.Endures w') (ha : w'.Ample) : w.Ample :=
  fun rt => Nat.le_trans (h.begun rt) (ha rt)

end Endures

instance (w : World) : Decidable w.Ample :=
  decidable_of_iff (∀ rt < w.runtimes.size, (w.registry rt).begun ≤ TypeId.supply) <| by
    refine ⟨fun h rt => ?_, fun h rt _ => h rt⟩
    by_cases hrt : rt < w.runtimes.size
    · exact h rt hrt
    · rw [registry_out_of_range w hrt]
      exact Nat.zero_le _

namespace Catalogued

variable {w w' : World}

theorem lt_builtinRef (h : w.Catalogued) {rt : Nat} (hrt : rt < w.runtimes.size) (b : BuiltinType) :
    ((w.registry rt).builtinRef b).idx < w.classes.size := by
  have hroom := h.room rt hrt
  have hb := b.number_id_lt
  exact Nat.lt_of_lt_of_le (Nat.add_lt_add_left hb _) hroom

theorem id_builtinRef (h : w.Catalogued) {rt : Nat} (hrt : rt < w.runtimes.size) (b : BuiltinType) :
    (w.cls ((w.registry rt).builtinRef b)).id = b.id :=
  (h.builtins rt hrt b).id.trans b.toClass_spec.1

theorem of_eq (h : w.Catalogued) (hc : w'.classes = w.classes)
    (hs : w'.runtimes.size = w.runtimes.size) (hr : ∀ rt, w'.registry rt = w.registry rt) :
    w'.Catalogued := by
  have hcls (r : ClassRef) : w'.cls r = w.cls r := by simp only [cls, hc]
  refine ⟨?_, ?_, ?_⟩
  · intro rt hrt
    rw [hc, hr]
    exact h.room rt (hs ▸ hrt)
  · intro rt hrt b
    rw [hr, hcls]
    exact h.builtins rt (hs ▸ hrt) b
  · intro rt t r he
    rw [hc, hcls]
    exact h.entries rt t r (by rwa [classFor?, hr] at he)

theorem updateClass (h : w.Catalogued) (r : ClassRef) {f : Class → Class}
    (hf : ∀ c : Class, c.Later (f c)) :
    (w.updateClass r f).Catalogued ∧ w.Endures (w.updateClass r f) := by
  have hlater (q : ClassRef) : (w.cls q).Later ((w.updateClass r f).cls q) := by
    rw [cls_updateClass]
    split
    · exact hf _
    · exact .refl _
  refine ⟨⟨?_, ?_, ?_⟩, by simp, fun q _ => hlater q, Nat.le_refl _, fun _ _ => rfl, fun _ _ h => h,
    fun _ => Nat.le_refl _⟩
  · intro rt hrt
    rw [size_updateClass]
    exact h.room rt hrt
  · intro rt hrt b
    exact (h.builtins rt hrt b).trans (hlater _)
  · intro rt t q he
    rw [size_updateClass, (hlater q).id]
    exact h.entries rt t q he

/-- A registry may take in classes for their own types. -/
theorem updateRegistry (h : w.Catalogued) (rt : Nat) {f : Registry → Registry}
    (hbase : (f (w.registry rt)).base = (w.registry rt).base)
    (hbegun : (w.registry rt).begun ≤ (f (w.registry rt)).begun)
    (hentries : rt < w.runtimes.size → ∀ t, Assoc.get? (f (w.registry rt)).entries t = w.classFor? rt t
      ∨ ∃ r, Assoc.get? (f (w.registry rt)).entries t = some r
          ∧ r.idx < w.classes.size ∧ (w.cls r).id = t) :
    (w.updateRegistry rt f).Catalogued ∧ w.Endures (w.updateRegistry rt f) := by
  have hb (rt' : Nat) : ((w.updateRegistry rt f).registry rt').base = (w.registry rt').base := by
    rw [registry_updateRegistry_eq]
    split
    · rename_i heq
      obtain ⟨rfl, -⟩ := heq
      exact hbase
    · rfl
  have he (rt' : Nat) (t : TypeId) : (w.updateRegistry rt f).classFor? rt' t = w.classFor? rt' t
      ∨ ∃ r, (w.updateRegistry rt f).classFor? rt' t = some r
          ∧ r.idx < w.classes.size ∧ (w.cls r).id = t := by
    unfold classFor?
    rw [registry_updateRegistry_eq]
    split
    · rename_i heq
      obtain ⟨rfl, hrt⟩ := heq
      exact hentries hrt t
    · exact Or.inl rfl
  refine ⟨⟨?_, ?_, ?_⟩, Nat.le_refl _, fun _ _ => .refl _, by simp, fun rt' _ => hb rt', ?_, ?_⟩
  · intro rt' hrt'
    rw [hb]
    exact h.room rt' (by simpa using hrt')
  · intro rt' hrt' b
    unfold Registry.builtinRef
    rw [hb]
    exact h.builtins rt' (by simpa using hrt') b
  · intro rt' t r hr
    rcases he rt' t with hsame | ⟨q, hq, hlt, hid⟩
    · exact h.entries rt' t r (hsame ▸ hr)
    · obtain rfl := Option.some.inj (hq.symm.trans hr)
      exact ⟨hlt, hid⟩
  · intro rt' t hs
    rcases he rt' t with hsame | ⟨q, hq, -⟩
    · rwa [hsame]
    · rw [hq]; rfl
  · intro rt'
    rw [registry_updateRegistry_eq]
    split
    · rename_i heq
      obtain ⟨rfl, -⟩ := heq
      exact hbegun
    · exact Nat.le_refl _

theorem addClass (h : w.Catalogued) (c : Class) :
    (w.addClass c).2.Catalogued ∧ w.Endures (w.addClass c).2 := by
  have hold {r : ClassRef} (hr : r.idx < w.classes.size) : (w.addClass c).2.cls r = w.cls r := by
    rw [cls_addClass, if_neg (Nat.ne_of_lt hr)]
  refine ⟨⟨?_, ?_, ?_⟩, by simp, fun r hr => hold hr ▸ .refl _, Nat.le_refl _, fun _ _ => rfl,
    fun _ _ h => h, fun _ => Nat.le_refl _⟩
  · intro rt hrt
    rw [size_addClass]
    exact Nat.le_succ_of_le (h.room rt hrt)
  · intro rt hrt b
    exact (hold (h.lt_builtinRef hrt b)).symm ▸ h.builtins rt hrt b
  · intro rt t r he
    obtain ⟨hlt, hid⟩ := h.entries rt t r he
    rw [size_addClass, hold hlt]
    exact ⟨Nat.lt_succ_of_lt hlt, hid⟩

private theorem reserved_newRuntime (w : World) (config : Config) (b : BuiltinType) :
    (w.newRuntime config).2.cls ⟨w.classes.size + b.id.number⟩ = b.toClass := by
  have hsize : w.classes.size + b.id.number - w.classes.size = b.id.number := Nat.add_sub_cancel_left ..
  have hall : BuiltinType.all[b.id.number]? = some b := by
    cases b <;> rfl
  rw [cls_newRuntime, if_neg (Nat.not_lt.mpr (Nat.le_add_right ..)), hsize, hall]
  rfl

theorem newRuntime (h : w.Catalogued) (config : Config) :
    (w.newRuntime config).2.Catalogued ∧ w.Endures (w.newRuntime config).2 := by
  have hsize : (w.newRuntime config).2.classes.size = w.classes.size + 10 := by
    simp only [World.newRuntime, Array.size_append]
    rfl
  have hruns := w.runtimes_size_newRuntime config
  have hold {r : ClassRef} (hr : r.idx < w.classes.size) :
      (w.newRuntime config).2.cls r = w.cls r := (w.cls_newRuntime config r).trans (if_pos hr)
  have hreg := w.registry_newRuntime config
  have hentry (rt : Nat) (t : TypeId) (r : ClassRef)
      (he : (w.newRuntime config).2.classFor? rt t = some r) : w.classFor? rt t = some r := by
    rw [classFor?, hreg] at he
    split at he
    · cases he
    · exact he
  have hlater (r : ClassRef) (hr : r.idx < w.classes.size) :
      (w.cls r).Later ((w.newRuntime config).2.cls r) := by
    rw [hold hr]
    exact .refl _
  refine ⟨⟨?_, ?_, ?_⟩, by omega, hlater, by omega, ?_, ?_, ?_⟩
  · intro rt hrt
    rw [hreg, hsize]
    split
    · exact Nat.le_refl _
    · have := h.room rt (by omega)
      omega
  · intro rt hrt b
    rw [hreg]
    split
    · exact reserved_newRuntime w config b ▸ .refl _
    · have hlt : rt < w.runtimes.size := by omega
      rw [hold (h.lt_builtinRef hlt b)]
      exact h.builtins rt hlt b
  · intro rt t r he
    obtain ⟨hlt, hid⟩ := h.entries rt t r (hentry rt t r he)
    rw [hold hlt, hsize]
    exact ⟨by omega, hid⟩
  · intro rt hrt
    rw [hreg, if_neg (Nat.ne_of_lt hrt)]
  · intro rt t hs
    rw [classFor?, hreg]
    split
    · rename_i heq
      rw [classFor?, registry_out_of_range w (by omega)] at hs
      cases hs
    · exact hs
  · intro rt
    rw [hreg]
    split
    · rw [registry_out_of_range w (by omega)]
      exact Nat.le_refl _
    · exact Nat.le_refl _

theorem enterBuiltin (h : w.Catalogued) (rt : Nat) (b : BuiltinType) (rs : List ClassRef) :
    (w.enterBuiltin rt b rs).2.Catalogued ∧ w.Endures (w.enterBuiltin rt b rs).2 := by
  obtain ⟨h₁, he₁⟩ := h.updateClass ((w.registry rt).builtinRef b)
    (f := fun c => { c with ancestors := rs }) fun c => c.later_withAncestors rs
  obtain ⟨h₂, he₂⟩ := h₁.updateRegistry rt (f := (·.enterBuiltin b)) rfl (Nat.le_refl _) fun hrt t => by
    by_cases ht : t = b.id
    · subst ht
      exact Or.inr ⟨_, Assoc.get?_set_self .., h₁.lt_builtinRef hrt b, h₁.id_builtinRef hrt b⟩
    · exact Or.inl (Assoc.get?_set_of_ne _ _ ht)
  exact ⟨h₂, he₁.trans he₂⟩

theorem rootClass (h : w.Catalogued) (rt : Nat) (b : BuiltinType) :
    (w.rootClass rt b).2.Catalogued ∧ w.Endures (w.rootClass rt b).2 := by
  unfold World.rootClass
  split
  · exact ⟨h, .refl w⟩
  · exact h.enterBuiltin rt b []

theorem findClass (h : w.Catalogued) (rt : Nat) (t : TypeId) :
    (w.findClass rt t).2.Catalogued ∧ w.Endures (w.findClass rt t).2 := by
  obtain ⟨h₁, he₁⟩ := h.rootClass rt .object
  generalize hfound : w.findClass rt t = found
  cases found_of_findClass hfound with
  | entered | undefined => exact ⟨h, .refl w⟩
  | spare => exact ⟨h₁, he₁⟩
  | @root b => exact h.enterBuiltin rt b []
  | @below b =>
    obtain ⟨h₂, he₂⟩ := h₁.enterBuiltin rt b _
    exact ⟨h₂, he₁.trans he₂⟩

theorem beginClass (h : w.Catalogued) (rt : Nat) (name : String) (isHost : Bool) :
    (w.beginClass rt name isHost).2.Catalogued ∧ w.Endures (w.beginClass rt name isHost).2 := by
  obtain ⟨h₁, he₁⟩ := h.rootClass rt .object
  obtain ⟨h₂, he₂⟩ := h₁.updateRegistry rt (f := Registry.handOut) rfl (Nat.le_succ _)
    fun _ _ => Or.inl rfl
  exact ⟨h₂, he₁.trans he₂⟩

theorem register (h : w.Catalogued) (rt : Nat) {r : ClassRef} (hr : r.idx < w.classes.size) :
    (w.register rt r).Catalogued ∧ w.Endures (w.register rt r) := by
  refine h.updateRegistry rt (f := (·.register (w.cls r).name (w.cls r).id r)) rfl (Nat.le_refl _)
    fun _ t => ?_
  by_cases ht : t = (w.cls r).id
  · subst ht
    exact Or.inr ⟨r, Assoc.get?_set_self .., hr, rfl⟩
  · exact Or.inl (Assoc.get?_set_of_ne _ _ ht)

theorem replaceClass (h : w.Catalogued) (rt : Nat) {r : ClassRef} (hr : r.idx < w.classes.size) :
    (w.replaceClass rt r).2.Catalogued ∧ w.Endures (w.replaceClass rt r).2 := by
  obtain ⟨h₁, he₁⟩ := h.register rt hr
  simp only [World.replaceClass]
  split
  · rename_i p _
    obtain ⟨h₂, he₂⟩ := h₁.updateClass p Class.later_bump
    exact ⟨h₂, he₁.trans he₂⟩
  · exact ⟨h₁, he₁⟩

theorem buildClass (h : w.Catalogued) (d : Draft) (parent : Option ClassRef) (members : ClassMembers) :
    (w.buildClass d parent members).2.Catalogued ∧ w.Endures (w.buildClass d parent members).2 := by
  obtain ⟨h₁, he₁⟩ := h.addClass (ClassMembers.toClass { members with name := d.name, isHost := d.isHost }
    d.id (parent.getD d.root :: (w.cls (parent.getD d.root)).ancestors))
  obtain ⟨h₂, he₂⟩ := h₁.register d.runtime (r := ⟨w.classes.size⟩) (by simp)
  exact ⟨h₂, he₁.trans he₂⟩

theorem defineClass (h : w.Catalogued) (rt : Nat) (parent : Option ClassRef) (members : ClassMembers) :
    (w.defineClass rt parent members).2.2.Catalogued
      ∧ w.Endures (w.defineClass rt parent members).2.2 := by
  obtain ⟨h₁, he₁⟩ := h.beginClass rt members.name members.isHost
  obtain ⟨h₂, he₂⟩ := h₁.buildClass (w.beginClass rt members.name members.isHost).1 parent members
  exact ⟨h₂, he₁.trans he₂⟩

/-- Drafts are no matter of classes and registries. -/
theorem withDrafts (h : w'.Catalogued ∧ w.Endures w') (drafts : List (String × Draft)) :
    ({ w' with drafts } : World).Catalogued ∧ w.Endures { w' with drafts } :=
  ⟨⟨h.1.room, h.1.builtins, h.1.entries⟩, h.2.size, h.2.later, h.2.runtimes, h.2.bases, h.2.entries,
    h.2.begun⟩

end Catalogued

private theorem classFor?_enterBuiltin (w : World) {rt : Nat} (hrt : rt < w.runtimes.size)
    (b : BuiltinType) (rs : List ClassRef) :
    (w.enterBuiltin rt b rs).2.classFor? rt b.id = some (w.enterBuiltin rt b rs).1 := by
  unfold classFor? enterBuiltin
  rw [registry_updateRegistry_eq, if_pos ⟨rfl, hrt⟩]
  exact Assoc.get?_set_self ..

/-- The class that was found is in the registry from then on. -/
theorem classFor?_of_findClass {w w' : World} {rt : Nat} (hrt : rt < w.runtimes.size) {t : TypeId}
    {r : ClassRef} (h : w.findClass rt t = (some r, w')) : w'.classFor? rt t = some r := by
  cases found_of_findClass h with
  | entered hr => exact hr
  | @root b ht =>
    subst ht
    exact w.classFor?_enterBuiltin hrt b []
  | @below b ht =>
    subst ht
    have hrt₁ : rt < (w.rootClass rt .object).2.runtimes.size := by simpa using hrt
    exact classFor?_enterBuiltin _ hrt₁ b _

end World

end CachedDispatch
