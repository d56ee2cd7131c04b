import CachedDispatch.Proofs.Growth
import CachedDispatch.Proofs.Roots

/-!
How the classes of a session come about and change, with any number of runtimes. Every deed comes down to
a few kinds of changes to the store of classes, and what all of them leave alone holds for good: the null
class that comes with a runtime never has ancestors, no class has two constructors with the same
parameters, and a defined class keeps the ancestors that it was defined with.
-/
namespace CachedDispatch

namespace World

/-- A change to the members of a class that is there, or to its stamp alone. -/
inductive Revision : (Class → Class) → Prop
  | bump : Revision Class.bump
  | mutation (mu : Mutation) : Revision mu.apply

private theorem Revision.later {f : Class → Class} (h : Revision f) (c : Class) : c.Later (f c) := by
  cases h with
  | bump => exact c.later_bump
  | mutation mu => exact c.later_mutation mu

private theorem Revision.ancestors {f : Class → Class} (h : Revision f) (c : Class) :
    (f c).ancestors = c.ancestors := by
  cases h with
  | bump => rfl
  | mutation mu => exact c.ancestors_mutation mu

/-- What can become of the class at a place in one step. -/
private inductive Fate (w : World) (r : ClassRef) : Class → Prop
  | kept (hr : r.idx < w.classes.size) : Fate w r (w.cls r)
  | revised (hr : r.idx < w.classes.size) {f : Class → Class} (hf : Revision f) :
      Fate w r (f (w.cls r))
  /-- A builtin class gets its ancestors. -/
  | settled (hr : r.idx < w.classes.size) {b : BuiltinType} (hb : b.toClass.Later (w.cls r))
      {ancestors : List ClassRef} (hroot : b.isRoot = true → ancestors = []) :
      Fate w r { w.cls r with ancestors }
  /-- A new runtime brings its builtin classes. -/
  | builtin (hr : w.classes.size ≤ r.idx) (b : BuiltinType) : Fate w r b.toClass
  | defined (hr : w.classes.size ≤ r.idx) (id : TypeId) (members : ClassMembers)
      (ancestors : List ClassRef) : Fate w r (members.toClass id ancestors)

/-- One step of the store of classes. -/
private structure Reclass (w w' : World) : Prop where
  size : w.classes.size ≤ w'.classes.size
  fate : ∀ r, r.idx < w'.classes.size → w.Fate r (w'.cls r)

private abbrev Reclassed : World → World → Prop := Relation.ReflTransGen Reclass

variable {w w' : World}

namespace Reclass

private theorem of_eq (h : w'.classes = w.classes) : Reclass w w' := by
  refine ⟨Nat.le_of_eq (by rw [h]), fun r hr => ?_⟩
  rw [cls_congr h]
  exact .kept (h ▸ hr)

private theorem updateClass (w : World) (r : ClassRef) {f : Class → Class} (hf : Revision f) :
    Reclass w (w.updateClass r f) := by
  refine ⟨by simp, fun q hq => ?_⟩
  rw [size_updateClass] at hq
  rw [cls_updateClass]
  split
  · exact .revised hq hf
  · exact .kept hq

private theorem settle (w : World) {r : ClassRef} {b : BuiltinType} (hb : b.toClass.Later (w.cls r))
    {ancestors : List ClassRef} (hroot : b.isRoot = true → ancestors = []) :
    Reclass w (w.updateClass r fun c => { c with ancestors }) := by
  refine ⟨by simp, fun q hq => ?_⟩
  rw [size_updateClass] at hq
  rw [cls_updateClass]
  split
  · rename_i hr
    exact .settled hq (hr.1 ▸ hb) hroot
  · exact .kept hq

private theorem addClass (w : World) (id : TypeId) (members : ClassMembers)
    (ancestors : List ClassRef) : Reclass w (w.addClass (members.toClass id ancestors)).2 := by
  refine ⟨by simp, fun q hq => ?_⟩
  rw [size_addClass] at hq
  rw [cls_addClass]
  split
  · exact .defined (by omega) id members ancestors
  · exact .kept (by omega)

private theorem newRuntime (w : World) (config : Config) : Reclass w (w.newRuntime config).2 := by
  have hsize : (w.newRuntime config).2.classes.size = w.classes.size + BuiltinType.all.length := by
    simp [World.newRuntime]
  refine ⟨by omega, fun r hr => ?_⟩
  rw [cls_newRuntime]
  split
  · exact .kept ‹_›
  · have hlt : r.idx - w.classes.size < BuiltinType.all.length := by omega
    rw [List.getElem?_eq_getElem hlt]
    exact .builtin (Nat.le_of_not_lt ‹_›) _

end Reclass

/-- The places reserved for builtin classes have them, also for a runtime that is not there. -/
def Anchored (w : World) : Prop :=
  ∀ rt b, ((w.registry rt).builtinRef b).idx < w.classes.size
    ∧ b.toClass.Later (w.cls ((w.registry rt).builtinRef b))

theorem Anchored.id (h : w.Anchored) (rt : Nat) (b : BuiltinType) :
    (w.cls ((w.registry rt).builtinRef b)).id = b.id := (h rt b).2.id.trans b.toClass_spec.1

theorem Anchored.endures (h : w.Anchored) (hc : w'.Catalogued) (he : w.Endures w') : w'.Anchored := by
  intro rt b
  by_cases hrt : rt < w'.runtimes.size
  · exact ⟨hc.lt_builtinRef hrt b, hc.builtins rt hrt b⟩
  · have hold : w'.registry rt = w.registry rt := by
      rw [registry_out_of_range w' hrt,
        registry_out_of_range w fun hlt => hrt (Nat.lt_of_lt_of_le hlt he.runtimes)]
    obtain ⟨hlt, hlater⟩ := h rt b
    rw [hold]
    exact ⟨Nat.lt_of_lt_of_le hlt he.size, hlater.trans (he.later _ hlt)⟩

private theorem anchored_initial (config : Config) (embedding : Embedding) :
    (initial config embedding).Anchored := by
  intro rt b
  have hbase : ((initial config embedding).registry rt).base = 0 := by
    rw [initial, registry_newRuntime]
    split
    · rfl
    · rw [registry_out_of_range _ (Nat.not_lt_zero rt)]
      rfl
  have hplace : ((initial config embedding).registry rt).builtinRef b = ⟨b.id.number⟩ := by
    rw [Registry.builtinRef, hbase, Nat.zero_add]
  rw [hplace, cls_initial]
  exact ⟨b.number_id_lt, .refl _⟩

theorem Attained.anchored (h : w.Attained) : w.Anchored := by
  obtain ⟨config, embedding, hd⟩ := h
  obtain ⟨ho, he⟩ := hd.keeps (inOrder_initial config embedding)
  exact (anchored_initial config embedding).endures ho.toCatalogued he

namespace Reclassed

private theorem of_eq (h : w'.classes = w.classes) : Reclassed w w' := .single (.of_eq h)

private theorem enterBuiltin (h : w.Anchored) (rt : Nat) {b : BuiltinType} {ancestors : List ClassRef}
    (hroot : b.isRoot = true → ancestors = []) : Reclassed w (w.enterBuiltin rt b ancestors).2 := by
  have hsettled := Reclass.settle w (h rt b).2 hroot
  exact (Relation.ReflTransGen.single hsettled).tail (.of_eq rfl)

private theorem rootClass (h : w.Anchored) (rt : Nat) (b : BuiltinType) :
    Reclassed w (w.rootClass rt b).2 := by
  unfold World.rootClass
  split
  · exact .refl
  · exact enterBuiltin h rt fun _ => rfl

private theorem findClass (h : w.Anchored) (hc : w.Catalogued) (rt : Nat) (t : TypeId) :
    Reclassed w (w.findClass rt t).2 := by
  have hroot := rootClass h rt .object
  obtain ⟨hc₁, he₁⟩ := hc.rootClass rt .object
  generalize hfound : w.findClass rt t = found
  cases found_of_findClass hfound with
  | entered | undefined => exact .refl
  | spare => exact hroot
  | root => exact enterBuiltin h rt fun _ => rfl
  | below _ _ hb =>
    exact hroot.trans (enterBuiltin (h.endures hc₁ he₁) rt fun hisRoot => absurd hisRoot hb)

private theorem planAt (h : w.Anchored) (hc : w.Catalogued) (t : TableRef) (slot : Slot)
    (request : Request) : Reclassed w ((planAt t slot request).run w).2 := by
  let R (w w' : World) : Prop :=
    w.Catalogued ∧ w.Anchored → (w'.Catalogued ∧ w'.Anchored) ∧ Reclassed w w'
  -- whatever leaves classes and registries alone
  have hsame (w w' : World) (hc : w'.classes = w.classes) (hs : w'.runtimes.size = w.runtimes.size)
      (hr : ∀ rt, w'.registry rt = w.registry rt) : R w w' := by
    rintro ⟨hcat, ha⟩
    have hcat' := hcat.of_eq hc hs hr
    exact ⟨⟨hcat', ha.endures hcat' (.of_eq hc hs hr)⟩, .of_eq hc⟩
  have hR : AllowsSlots R := {
    lookups := fun rt => {
      refl := fun _ h => ⟨h, .refl⟩
      trans := fun h₁ h₂ h => ⟨(h₂ (h₁ h).1).1, (h₁ h).2.trans (h₂ (h₁ h).1).2⟩
      findClass := fun w t h => by
        obtain ⟨hcat', he⟩ := h.1.findClass rt t
        exact ⟨⟨hcat', h.2.endures hcat' he⟩, findClass h.2 h.1 rt t⟩
      allocate := fun w => hsame w _ rfl rfl fun _ => rfl }
    count := fun w rt f => hsame w _ rfl Array.size_modify fun rt' => w.registry_updateStats rt rt' f
    write := fun w t i f => hsame w _ rfl rfl fun _ => rfl }
  exact (makes_planAt hR t request slot w ⟨hc, h⟩).2

private theorem beginClass (h : w.Anchored) (rt : Nat) (name : String) (isHost : Bool) :
    Reclassed w (w.beginClass rt name isHost).2 := (rootClass h rt .object).tail (.of_eq rfl)

private theorem buildClass (w : World) (d : Draft) (parent : Option ClassRef) (members : ClassMembers) :
    Reclassed w (w.buildClass d parent members).2 := by
  let made := { members with name := d.name, isHost := d.isHost }
  have hadded := Reclass.addClass w d.id made
    (parent.getD d.root :: (w.cls (parent.getD d.root)).ancestors)
  exact (Relation.ReflTransGen.single hadded).tail (.of_eq rfl)

end Reclassed

/-- Every deed comes down to steps of the store of classes. -/
private theorem Deed.reclassed (hd : Deed w w') (hw : w.Attained) : Reclassed w w' := by
  have hc := hw.inOrder.toCatalogued
  have ha := hw.anchored
  cases hd with
  | record | allocate | newObject | setField | addTable | activate | rescope => exact .of_eq rfl
  | findClass rt t => exact .findClass ha hc rt t
  | mutate r mu => exact .single (.updateClass w r (.mutation mu))
  | @replaceClass r _ rt =>
    have hregistered : Reclassed w (w.register rt r) := .of_eq rfl
    simp only [World.replaceClass]
    split
    · exact hregistered.tail (.updateClass _ _ .bump)
    · exact hregistered
  | defineClass rt parent members =>
    exact (Reclassed.beginClass ha rt members.name members.isHost).trans
      (Reclassed.buildClass _ _ parent members)
  | draftClass key rt name isHost => exact (Reclassed.beginClass ha rt name isHost).tail (.of_eq rfl)
  | finishClass _ parent members => exact (Reclassed.buildClass w _ parent members).tail (.of_eq rfl)
  | newRuntime config => exact .single (.newRuntime w config)
  | plan => exact .planAt ha hc _ _ _

/-- Facts about single classes that every step of the store leaves alone. -/
structure Kept (P : Class → Prop) : Prop where
  builtin : ∀ b : BuiltinType, P b.toClass
  defined : ∀ (members : ClassMembers) (id : TypeId) (ancestors : List ClassRef),
    P (members.toClass id ancestors)
  revised : ∀ (c : Class) (f : Class → Class), Revision f → P c → P (f c)
  settled : ∀ (c : Class) (b : BuiltinType) (ancestors : List ClassRef), b.toClass.Later c →
    (b.isRoot = true → ancestors = []) → P c → P { c with ancestors }

namespace Kept

variable {P : Class → Prop}

private theorem step (hP : Kept P) (h : Reclass w w') (hall : ∀ r, r.idx < w.classes.size → P (w.cls r))
    (r : ClassRef) (hr : r.idx < w'.classes.size) : P (w'.cls r) := by
  have hfate := h.fate r hr
  generalize w'.cls r = c at hfate
  cases hfate with
  | kept hr => exact hall r hr
  | revised hr hf => exact hP.revised _ _ hf (hall r hr)
  | settled hr hb hroot => exact hP.settled _ _ _ hb hroot (hall r hr)
  | builtin _ b => exact hP.builtin b
  | defined _ id members ancestors => exact hP.defined members id ancestors

theorem cls (hP : Kept P) (hw : w.Attained) {r : ClassRef} (hr : r.idx < w.classes.size) :
    P (w.cls r) := by
  have hsteps {w w' : World} (h : Reclassed w w') (hall : ∀ r, r.idx < w.classes.size → P (w.cls r)) :
      ∀ r, r.idx < w'.classes.size → P (w'.cls r) := by
    induction h with
    | refl => exact hall
    | tail _ hstep ih => exact hP.step hstep ih
  obtain ⟨config, embedding, hd⟩ := hw
  induction hd generalizing r with
  | refl =>
    exact hP.step (.newRuntime { embedding } config) (fun r hr => absurd hr (Nat.not_lt_zero _)) r hr
  | tail hds hd ih => exact hsteps (hd.reclassed ⟨config, embedding, hds⟩) (fun r => ih) r hr

end Kept

/-- A class that came with a runtime still is that of a builtin type. -/
private theorem Attained.exists_later_toClass (hw : w.Attained) {r : ClassRef}
    (hr : r.idx < w.classes.size) (hn : (w.cls r).Native) :
    ∃ b : BuiltinType, b.toClass.Later (w.cls r) := by
  have hkept : Kept fun c => c.Native → ∃ b : BuiltinType, b.toClass.Later c := {
    builtin := fun b _ => ⟨b, .refl _⟩
    defined := fun members id ancestors hn => absurd hn (members.not_native_toClass id ancestors)
    revised := fun c f hf h hn => by
      obtain ⟨b, hb⟩ := h ((hf.later c).native_iff.mp hn)
      exact ⟨b, hb.trans (hf.later c)⟩
    settled := fun c b ancestors hb _ _ _ => ⟨b, hb.trans (c.later_withAncestors ancestors)⟩ }
  exact hkept.cls hw hr hn

/-- A class that does not have a builtin identity was defined. -/
theorem Attained.not_native (hw : w.Attained) {r : ClassRef} (hr : r.idx < w.classes.size)
    (hid : (w.cls r).id.isBuiltin = false) : ¬ (w.cls r).Native := by
  intro hn
  obtain ⟨b, hb⟩ := hw.exists_later_toClass hr hn
  rw [hb.id, b.toClass_spec.1, b.isBuiltin_id] at hid
  cases hid

theorem Attained.later_toClass (hw : w.Attained) {r : ClassRef} (hr : r.idx < w.classes.size)
    (hn : (w.cls r).Native) {b : BuiltinType} (hid : (w.cls r).id = b.id) :
    b.toClass.Later (w.cls r) := by
  obtain ⟨b', hb'⟩ := hw.exists_later_toClass hr hn
  have hsame : b'.id = b.id := b'.toClass_spec.1.symm.trans (hb'.id.symm.trans hid)
  have hof := b'.ofId?_id
  rw [hsame, b.ofId?_id] at hof
  exact Option.some.inj hof ▸ hb'

/-- Nothing is above a null class that came with a runtime. -/
theorem Attained.ancestors_null (hw : w.Attained) (hg : w.Genuine .nullObject) {r : ClassRef}
    (hid : (w.cls r).id = .null) : (w.cls r).ancestors = [] := by
  have hkept : Kept fun c => c.Native → c.id = .null → c.ancestors = [] := {
    builtin := fun b _ _ => b.toClass_spec.2.2.1
    defined := fun members id ancestors hn => absurd hn (members.not_native_toClass id ancestors)
    revised := fun c f hf h hn hid => by
      rw [(hf.later c).native_iff] at hn
      rw [(hf.later c).id] at hid
      rw [hf.ancestors]
      exact h hn hid
    settled := fun c b ancestors hb hroot _ _ hid => by
      have hnull : b.id = .null := b.toClass_spec.1.symm.trans (hb.id.symm.trans hid)
      obtain rfl : b = .nullObject := by revert hnull; cases b <;> decide
      exact hroot rfl }
  by_cases hr : r.idx < w.classes.size
  · exact hkept.cls hw hr (hg r hr hid) hid
  · rw [w.cls_out_of_range hr]
    rfl

end World

namespace Class

/-- No two constructors have the same parameters. -/
def Distinct (c : Class) : Prop := c.constructors.Pairwise fun m n => m.params ≠ n.params

/-- What holds between methods in their order goes on to hold if the new one takes it over from the one
that it supersedes, and comes after all others. -/
theorem pairwise_insertMethod {supersedes : Method → Bool} {m : Method} {R : Method → Method → Prop}
    {ms : List Method} (hplace : ∀ n x, supersedes n = true → R n x → R m x)
    (hend : ∀ n ∈ ms, supersedes n = false → R n m) (h : ms.Pairwise R) :
    (insertMethod supersedes m ms).Pairwise R := by
  induction ms with
  | nil => exact List.pairwise_singleton ..
  | cons n ms ih =>
    obtain ⟨hn, hms⟩ := List.pairwise_cons.mp h
    obtain ⟨hnend, hend⟩ := List.forall_mem_cons.mp hend
    unfold insertMethod
    split
    · rename_i hsame
      exact List.pairwise_cons.mpr ⟨fun x hx => hplace n x hsame (hn x hx), hms⟩
    · rename_i hne
      refine List.pairwise_cons.mpr ⟨fun x hx => ?_, ih hend hms⟩
      rcases mem_insertMethod hx with rfl | hx
      · exact hnend (Bool.eq_false_iff.mpr hne)
      · exact hn x hx

variable {c : Class}

theorem distinct_of_eq_nil (h : c.constructors = []) : c.Distinct := by
  unfold Distinct
  rw [h]
  exact List.Pairwise.nil

theorem Distinct.putConstructor (h : c.Distinct) (m : Method) : (c.putConstructor m).Distinct :=
  pairwise_insertMethod (fun _ _ hs hn => of_decide_eq_true hs ▸ hn) (fun _ _ => of_decide_eq_false) h

private theorem Distinct.declareMethod (h : c.Distinct) (m : Method) :
    (c.declareMethod m).Distinct := by
  simp only [Class.declareMethod, putMethod]
  split
  · exact h.putConstructor m
  · split <;> exact h

private theorem Distinct.mutation (h : c.Distinct) (mu : Mutation) : (mu.apply c).Distinct := by
  cases mu with
  | addMethod m => simp only [Mutation.apply, addMethod, putMethod]; split <;> exact h
  | addConstructor m => exact h.putConstructor m
  | removeMethod name => simp only [Mutation.apply, removeMethod]; split <;> exact h
  | addField name => simp only [Mutation.apply, addField, putField]; split <;> exact h
  | setStatic name v => simp only [Mutation.apply, setStatic]; split <;> exact h

private theorem distinct_foldl (h : c.Distinct) (ms : List Method) :
    (ms.foldl Class.declareMethod c).Distinct :=
  List.foldlRecOn _ _ h fun _ hc m _ => hc.declareMethod m

private theorem distinct_toClass (members : ClassMembers) (id : TypeId) (ancestors : List ClassRef) :
    (members.toClass id ancestors).Distinct := by
  refine distinct_foldl (List.foldlRecOn _ _ (List.foldlRecOn _ _ (distinct_of_eq_nil rfl) ?_) ?_) _
  · intro c hc name _
    unfold putField
    split <;> exact hc
  · exact fun c hc e _ => hc

end Class

namespace World

variable {w w' : World}

theorem Attained.distinct (hw : w.Attained) (r : ClassRef) : (w.cls r).Distinct := by
  have hkept : Kept Class.Distinct := {
    builtin := fun b => Class.distinct_foldl (Class.distinct_of_eq_nil rfl) b.methods
    defined := Class.distinct_toClass
    revised := fun c f hf h => by
      cases hf with
      | bump => exact h
      | mutation mu => exact h.mutation mu
    settled := fun _ _ _ _ _ h => h }
  by_cases hr : r.idx < w.classes.size
  · exact hkept.cls hw hr
  · rw [w.cls_out_of_range hr]
    exact Class.distinct_of_eq_nil rfl

/-- A defined class keeps its ancestors. -/
private theorem Reclass.ancestors (h : Reclass w w') {r : ClassRef} (hr : r.idx < w.classes.size)
    (hn : ¬ (w.cls r).Native) :
    ¬ (w'.cls r).Native ∧ (w'.cls r).ancestors = (w.cls r).ancestors := by
  have hfate := h.fate r (Nat.lt_of_lt_of_le hr h.size)
  generalize w'.cls r = c at hfate
  cases hfate with
  | kept => exact ⟨hn, rfl⟩
  | revised _ hf => exact ⟨by rwa [(hf.later _).native_iff], hf.ancestors _⟩
  | @settled _ b hb => exact absurd (hb.native_iff.mpr b.native_toClass) hn
  | builtin hnew => exact absurd hr (Nat.not_lt.mpr hnew)
  | defined hnew => exact absurd hr (Nat.not_lt.mpr hnew)

private theorem Deed.ancestors (hd : Deed w w') (hw : w.Attained) {r : ClassRef}
    (hr : r.idx < w.classes.size) (hn : ¬ (w.cls r).Native) :
    (w'.cls r).ancestors = (w.cls r).ancestors := by
  have hsteps {w w' : World} (h : Reclassed w w') (hr : r.idx < w.classes.size)
      (hn : ¬ (w.cls r).Native) :
      r.idx < w'.classes.size ∧ ¬ (w'.cls r).Native ∧ (w'.cls r).ancestors = (w.cls r).ancestors := by
    induction h with
    | refl => exact ⟨hr, hn, rfl⟩
    | tail _ hstep ih =>
      obtain ⟨hlt, hn, hline⟩ := ih
      obtain ⟨hn', hline'⟩ := hstep.ancestors hlt hn
      exact ⟨Nat.lt_of_lt_of_le hlt hstep.size, hn', hline'.trans hline⟩
  exact (hsteps (hd.reclassed hw) hr hn).2.2

theorem Deeds.ancestors (hd : Deeds w w') (hw : w.Attained) {r : ClassRef}
    (hr : r.idx < w.classes.size) (hn : ¬ (w.cls r).Native) :
    (w'.cls r).ancestors = (w.cls r).ancestors := by
  induction hd with
  | refl => rfl
  | tail hds hd ih =>
    have he := (Deeds.keeps hds hw.inOrder).2
    have hn' := mt (he.later r hr).native_iff.mp hn
    exact (hd.ancestors (hw.deeds hds) (Nat.lt_of_lt_of_le hr he.size) hn').trans ih

/-- No stamp goes back, and a place without a class has none. -/
theorem Endures.stamp_le (he : w.Endures w') (r : ClassRef) :
    (w.cls r).stamp ≤ (w'.cls r).stamp := by
  by_cases hr : r.idx < w.classes.size
  · exact (he.later r hr).stamp
  · rw [w.cls_out_of_range hr]
    exact Nat.zero_le _

/-- The version of a defined class never goes back, and while it stays, so do the members. -/
theorem Deed.version_le (hd : Deed w w') (hw : w.Attained) {r : ClassRef}
    (hr : r.idx < w.classes.size) (hn : ¬ (w.cls r).Native) :
    w.version r ≤ w'.version r ∧ (w.version r = w'.version r → (w.cls r).SameMembers (w'.cls r)) := by
  have he := (hd.keeps hw.inOrder).2
  have hsum (rs : List ClassRef) : (rs.map w.cls).foldr (fun c n => c.stamp + n) 0
      ≤ (rs.map w'.cls).foldr (fun c n => c.stamp + n) 0 := by
    induction rs with
    | nil => exact Nat.le_refl _
    | cons q rs ih =>
      have hq := he.stamp_le q
      simp only [List.map_cons, List.foldr_cons]
      omega
  have hrest := hsum (w.cls r).ancestors
  have hown := he.stamp_le r
  unfold version Hierarchy.version Hierarchy.classes hierarchy
  rw [hd.ancestors hw hr hn]
  simp only [List.foldr_cons]
  exact ⟨by omega, fun hv => (he.later r hr).members (by omega)⟩

end World

end CachedDispatch
