import CachedDispatch.Proofs.Catalog
import Mathlib.Data.List.Induction
import Mathlib.Data.List.Nodup

/-!
Runs of registry operations. A definition is begun, which reserves its identity, and is built later
or never; between the two anything else can happen to any registry. The log keeps what the
registries have been told, so that what they answer can be compared with it.
-/
namespace CachedDispatch

/-- What can be asked of one registry. -/
inductive Errand
  | define (name : String) (isHost : Bool)
  | get (t : TypeId)
  | lookup (name : String)
  | classOf (v : Value)
  | replace (r : ClassRef)

inductive RegistryOp
  | ask (rt : Nat) (errand : Errand)
  /-- Builds one of the definitions that have been begun. -/
  | build (k : Nat) (parent : Option ClassRef) (members : ClassMembers)

/-- Whether the operation only asks which class or type there is. -/
def RegistryOp.isQuestion : RegistryOp → Bool
  | ask _ (.get _) | ask _ (.lookup _) | ask _ (.classOf _) => true
  | _ => false

/-- What a registry has been told. -/
inductive Notice
  | issued (rt : Nat) (t : TypeId)
  | built (rt : Nat) (name : String) (t : TypeId)
  | replaced (rt : Nat) (name : String) (t : TypeId)

namespace Notice

def issued? (rt : Nat) : Notice → Option TypeId
  | issued rt' t => if rt' = rt then some t else none
  | _ => none

def built? (rt : Nat) : Notice → Option TypeId
  | built rt' _ t => if rt' = rt then some t else none
  | _ => none

/-- The type that the name was given to. -/
def named? (rt : Nat) (name : String) : Notice → Option TypeId
  | issued _ _ => none
  | built rt' n t | replaced rt' n t => if rt' = rt ∧ n = name then some t else none

end Notice

structure Workshop where
  world : World
  /-- The definitions that have been begun and not built. -/
  drafts : List Draft := []
  /-- Newest first. -/
  log : List Notice := []

namespace Workshop

/-- One registry for each configuration, and nothing else. -/
def opening (configs : List Config) : Workshop :=
  { world := configs.foldl (fun w config => (w.newRuntime config).2) {} }

def send (s : Workshop) (rt : Nat) : Errand → Workshop
  | .define name isHost =>
    let (d, world) := s.world.beginClass rt name isHost
    { world, drafts := s.drafts ++ [d], log := .issued rt d.id :: s.log }
  | .get t => { s with world := (s.world.findClass rt t).2 }
  | .lookup _ => s
  | .classOf v => { s with world := (s.world.classOf rt v).2 }
  | .replace r =>
    if r.idx < s.world.classes.size then
      { s with
        world := (s.world.replaceClass rt r).2
        log := .replaced rt (s.world.cls r).name (s.world.cls r).id :: s.log }
    else s

/-- An operation on a registry, a class or a draft that is not there does nothing. -/
def perform (s : Workshop) : RegistryOp → Workshop
  | .ask rt errand => if rt < s.world.runtimes.size then s.send rt errand else s
  | .build k parent members =>
    match s.drafts[k]? with
    | some d =>
      { world := (s.world.buildClass d parent members).2
        drafts := s.drafts.eraseIdx k
        log := .built d.runtime d.name d.id :: s.log }
    | none => s

def after (configs : List Config) (ops : List RegistryOp) : Workshop :=
  ops.foldl perform (opening configs)

/-- The identities that a registry has handed out, newest first. -/
def issued (s : Workshop) (rt : Nat) : List TypeId := s.log.filterMap (Notice.issued? rt)

def built (s : Workshop) (rt : Nat) : List TypeId := s.log.filterMap (Notice.built? rt)

/-- The type that a registry was last told to go by a name. -/
def named? (s : Workshop) (rt : Nat) (name : String) : Option TypeId :=
  s.log.findSome? (Notice.named? rt name)

end Workshop

namespace World

variable {w w' w'' : World}

/-- Builtin classes may have been entered, and nothing else. -/
structure Materialises (w w' : World) : Prop where
  size : w'.classes.size = w.classes.size
  runtimes : w'.runtimes.size = w.runtimes.size
  later : ∀ r, (w.cls r).Later (w'.cls r)
  base : ∀ rt, (w'.registry rt).base = (w.registry rt).base
  begun : ∀ rt, (w'.registry rt).begun = (w.registry rt).begun
  kept : ∀ rt t r, w.classFor? rt t = some r → w'.classFor? rt t = some r
  entered : ∀ rt t r, w'.classFor? rt t = some r →
    w.classFor? rt t = some r ∨ ∃ b : BuiltinType, t = b.id ∧ r = (w.registry rt).builtinRef b
  lookups : ∀ rt name, (w'.registry rt).lookup? name = (w.registry rt).lookup? name
  named : ∀ rt name t, Assoc.get? (w'.registry rt).names name = some t →
    Assoc.get? (w.registry rt).names name = some t ∨ (w'.classFor? rt t).isSome

namespace Materialises

private theorem refl (w : World) : w.Materialises w :=
  ⟨rfl, rfl, fun _ => .refl _, fun _ => rfl, fun _ => rfl, fun _ _ _ h => h,
    fun _ _ _ h => Or.inl h, fun _ _ => rfl, fun _ _ _ h => Or.inl h⟩

private theorem trans (h : w.Materialises w') (h' : w'.Materialises w'') : w.Materialises w'' where
  size := h'.size.trans h.size
  runtimes := h'.runtimes.trans h.runtimes
  later r := (h.later r).trans (h'.later r)
  base rt := (h'.base rt).trans (h.base rt)
  begun rt := (h'.begun rt).trans (h.begun rt)
  kept rt t r he := h'.kept rt t r (h.kept rt t r he)
  entered rt t r he := by
    rcases h'.entered rt t r he with he | ⟨b, rfl, rfl⟩
    · exact h.entered rt t r he
    · exact Or.inr ⟨b, rfl, by rw [Registry.builtinRef, h.base]; rfl⟩
  lookups rt name := (h'.lookups rt name).trans (h.lookups rt name)
  named rt name t hn := by
    rcases h'.named rt name t hn with hn | he
    · rcases h.named rt name t hn with hn | he
      · exact Or.inl hn
      · obtain ⟨r, hr⟩ := Option.isSome_iff_exists.mp he
        exact Or.inr (by rw [h'.kept rt t r hr]; rfl)
    · exact Or.inr he

theorem catalogued (h : w.Materialises w') (hc : w.Catalogued) : w'.Catalogued := by
  refine ⟨?_, ?_, ?_⟩
  · intro rt hrt
    rw [h.base, h.size]
    exact hc.room rt (h.runtimes ▸ hrt)
  · intro rt hrt b
    rw [Registry.builtinRef, h.base]
    exact (hc.builtins rt (h.runtimes ▸ hrt) b).trans (h.later _)
  · intro rt t r he
    have hrt : rt < w.runtimes.size := by
      by_contra hn
      rw [classFor?, registry_out_of_range w' (h.runtimes ▸ hn)] at he
      cases he
    rw [h.size, (h.later r).id]
    rcases h.entered rt t r he with he | ⟨b, rfl, rfl⟩
    · exact hc.entries rt t r he
    · exact ⟨hc.lt_builtinRef hrt b, hc.id_builtinRef hrt b⟩

theorem next (h : w.Materialises w') (rt : Nat) : (w'.registry rt).next = (w.registry rt).next :=
  congrArg TypeId.defined (h.begun rt)

end Materialises

private theorem materialises_enterBuiltin {rt : Nat} {b : BuiltinType} (h : w.classFor? rt b.id = none)
    (rs : List ClassRef) : w.Materialises (w.enterBuiltin rt b rs).2 := by
  have hreg (rt' : Nat) : (w.enterBuiltin rt b rs).2.registry rt'
      = if rt = rt' ∧ rt' < w.runtimes.size then (w.registry rt').enterBuiltin b
        else w.registry rt' := registry_updateRegistry_eq ..
  have hcls (r : ClassRef) : (w.cls r).Later ((w.enterBuiltin rt b rs).2.cls r) := by
    have hcls : (w.enterBuiltin rt b rs).2.cls r
        = (w.updateClass ((w.registry rt).builtinRef b) fun c => { c with ancestors := rs }).cls r := rfl
    rw [hcls, cls_updateClass]
    split
    · exact Class.later_withAncestors ..
    · exact .refl _
  refine ⟨size_updateClass .., by simp, hcls, ?_, ?_, ?_, ?_, ?_, ?_⟩
  · intro rt'
    rw [hreg]
    split <;> rfl
  · intro rt'
    rw [hreg]
    split <;> rfl
  · intro rt' t r he
    rw [classFor?, hreg]
    split
    · rename_i heq
      obtain ⟨rfl, -⟩ := heq
      have ht : t ≠ b.id := by
        rintro rfl
        rw [h] at he
        cases he
      exact (Assoc.get?_set_of_ne _ _ ht).trans he
    · exact he
  · intro rt' t r he
    rw [classFor?, hreg] at he
    split at he
    · rename_i heq
      obtain ⟨rfl, -⟩ := heq
      rcases Assoc.eq_or_of_get?_set he with ⟨ht, hr⟩ | hold
      · exact Or.inr ⟨b, ht, hr.symm⟩
      · exact Or.inl hold
    · exact Or.inl he
  · intro rt' name
    rw [hreg]
    split
    · exact Registry.lookup?_enterBuiltin ..
    · rfl
  · intro rt' name t hn
    rw [classFor?, hreg]
    rw [hreg] at hn
    split at hn
    · rename_i heq
      simp only [Registry.enterBuiltin] at hn
      split at hn
      · exact Or.inl hn
      · rcases Assoc.eq_or_of_get?_set hn with ⟨-, rfl⟩ | hold
        · refine Or.inr ?_
          rw [if_pos heq, Registry.get?_entries_enterBuiltin, if_pos rfl]
          rfl
        · exact Or.inl hold
    · exact Or.inl hn

private theorem classFor?_rootClass_of_ne (w : World) (rt rt' : Nat) {b : BuiltinType} {t : TypeId}
    (ht : t ≠ b.id) : (w.rootClass rt b).2.classFor? rt' t = w.classFor? rt' t := by
  unfold rootClass
  split
  · rfl
  · unfold classFor? enterBuiltin
    rw [registry_updateRegistry_eq]
    split
    · exact Assoc.get?_set_of_ne _ _ ht
    · rfl

theorem materialises_rootClass (w : World) (rt : Nat) (b : BuiltinType) :
    w.Materialises (w.rootClass rt b).2 := by
  unfold rootClass
  split
  · exact .refl w
  · exact materialises_enterBuiltin ‹_› []

theorem materialises_findClass (w : World) (rt : Nat) (t : TypeId) :
    w.Materialises (w.findClass rt t).2 := by
  have hroot := w.materialises_rootClass rt .object
  generalize hfound : w.findClass rt t = found
  cases found_of_findClass hfound with
  | entered | undefined => exact .refl w
  | spare => exact hroot
  | root ht hnone =>
    subst ht
    exact materialises_enterBuiltin hnone []
  | @below b ht hnone hb =>
    subst ht
    have hne : b.id ≠ BuiltinType.object.id := by
      intro hid
      cases b <;> simp_all [BuiltinType.id, BuiltinType.isRoot]
    refine hroot.trans (materialises_enterBuiltin ?_ _)
    exact (w.classFor?_rootClass_of_ne rt rt hne).trans hnone

theorem materialises_classOf (w : World) (rt : Nat) (v : Value) :
    w.Materialises (w.classOf rt v).2 := by
  rcases classOf_cases v with ⟨o, rfl⟩ | ⟨t, -, hof⟩
  · exact .refl w
  · rw [hof]
    exact w.materialises_findClass rt t

/-- One registry has been told of a class under this name and type, and no other registry of
anything. -/
structure Registers (w w' : World) (rt : Nat) (name : String) (t : TypeId) (r : ClassRef) : Prop where
  size : w'.runtimes.size = w.runtimes.size
  here : w'.registry rt = (w.registry rt).register name t r
  elsewhere : ∀ rt', rt' ≠ rt → w'.registry rt' = w.registry rt'

private theorem registers_register (w : World) {rt : Nat} (hrt : rt < w.runtimes.size) (r : ClassRef) :
    w.Registers (w.register rt r) rt (w.cls r).name (w.cls r).id r where
  size := w.runtimes_size_register rt r
  here := by rw [register, registry_updateRegistry_eq, if_pos ⟨rfl, hrt⟩]
  elsewhere rt' hne := by
    rw [register, registry_updateRegistry_eq, if_neg fun h => hne h.1.symm]

theorem registers_replaceClass (w : World) {rt : Nat} (hrt : rt < w.runtimes.size) (r : ClassRef) :
    w.Registers (w.replaceClass rt r).2 rt (w.cls r).name (w.cls r).id r := by
  have h := w.registers_register hrt r
  simp only [replaceClass]
  split
  · exact ⟨h.size, h.here, h.elsewhere⟩
  · exact h

theorem registers_buildClass (w : World) {d : Draft} (hrt : d.runtime < w.runtimes.size)
    (parent : Option ClassRef) (members : ClassMembers) :
    w.Registers (w.buildClass d parent members).2 d.runtime d.name d.id ⟨w.classes.size⟩ := by
  let c := ClassMembers.toClass { members with name := d.name, isHost := d.isHost } d.id
    (parent.getD d.root :: (w.cls (parent.getD d.root)).ancestors)
  have hcls : (w.addClass c).2.cls ⟨w.classes.size⟩ = c := by
    rw [cls_addClass]
    exact if_pos rfl
  have hrt' : d.runtime < (w.addClass c).2.runtimes.size := hrt
  have h := (w.addClass c).2.registers_register hrt' ⟨w.classes.size⟩
  rw [hcls, ClassMembers.id_toClass, ClassMembers.name_toClass] at h
  exact ⟨h.size, h.here, h.elsewhere⟩

namespace Registers

variable {rt : Nat} {name : String} {t : TypeId} {r : ClassRef}

theorem classFor? (h : w.Registers w' rt name t r) (rt' : Nat) (t' : TypeId) :
    w'.classFor? rt' t' = if rt' = rt ∧ t' = t then some r else w.classFor? rt' t' := by
  unfold World.classFor?
  by_cases hrt : rt' = rt
  · subst hrt
    rw [h.here, Registry.get?_entries_register]
    simp only [true_and]
  · rw [h.elsewhere rt' hrt, if_neg fun hc => hrt hc.1]

theorem lookup? (h : w.Registers w' rt name t r) (rt' : Nat) (name' : String) :
    (w'.registry rt').lookup? name'
      = if rt' = rt ∧ name' = name then some t else (w.registry rt').lookup? name' := by
  by_cases hrt : rt' = rt
  · subst hrt
    rw [h.here, Registry.lookup?_register]
    simp only [true_and]
  · rw [h.elsewhere rt' hrt, if_neg fun hc => hrt hc.1]

theorem begun (h : w.Registers w' rt name t r) (rt' : Nat) :
    (w'.registry rt').begun = (w.registry rt').begun := by
  by_cases hrt : rt' = rt
  · subst hrt
    rw [h.here]
    rfl
  · rw [h.elsewhere rt' hrt]

/-- What the name table knows has an entry. -/
private theorem named (h : w.Registers w' rt name t r)
    (hn : ∀ rt name t, Assoc.get? (w.registry rt).names name = some t → (w.classFor? rt t).isSome)
    (rt' : Nat) (name' : String) (t' : TypeId)
    (ht : Assoc.get? (w'.registry rt').names name' = some t') : (w'.classFor? rt' t').isSome := by
  rw [h.classFor?]
  split
  · rfl
  rename_i hne
  by_cases hrt : rt' = rt
  · subst hrt
    rw [h.here, Registry.get?_names_register] at ht
    split at ht
    · exact absurd ⟨rfl, (Option.some.inj ht).symm⟩ hne
    · exact hn rt' name' t' ht
  · rw [h.elsewhere rt' hrt] at ht
    exact hn rt' name' t' ht

end Registers

end World

namespace Workshop

inductive Step (s : Workshop) : RegistryOp → Workshop → Prop
  /-- Questions, and operations that do nothing. -/
  | quiet {op : RegistryOp} {w' : World} (h : s.world.Materialises w') :
      Step s op { s with world := w' }
  | define {rt : Nat} {name : String} {isHost : Bool} {root : ClassRef} {w' : World}
      (hrt : rt < s.world.runtimes.size) (h : s.world.Materialises w') :
      Step s (.ask rt (.define name isHost)) {
        world := w'.handOut rt
        drafts := s.drafts ++ [⟨rt, (s.world.registry rt).next, name, isHost, root⟩]
        log := .issued rt (s.world.registry rt).next :: s.log }
  | replace {rt : Nat} {r : ClassRef} (hrt : rt < s.world.runtimes.size)
      (hr : r.idx < s.world.classes.size) :
      Step s (.ask rt (.replace r)) {
        s with
        world := (s.world.replaceClass rt r).2
        log := .replaced rt (s.world.cls r).name (s.world.cls r).id :: s.log }
  | build {k : Nat} {parent : Option ClassRef} {members : ClassMembers} {d : Draft}
      (hd : s.drafts[k]? = some d) :
      Step s (.build k parent members) {
        world := (s.world.buildClass d parent members).2
        drafts := s.drafts.eraseIdx k
        log := .built d.runtime d.name d.id :: s.log }

theorem step_perform (s : Workshop) (op : RegistryOp) : s.Step op (s.perform op) := by
  cases op with
  | build k parent members =>
    unfold perform
    dsimp only
    split
    · exact .build ‹_›
    · exact .quiet (.refl _)
  | ask rt errand =>
    unfold perform
    dsimp only
    split
    swap
    · exact .quiet (.refl _)
    rename_i hrt
    cases errand with
    | define name isHost =>
      have h := s.world.materialises_rootClass rt .object
      have hstep := @Step.define s rt name isHost (s.world.rootClass rt .object).1 _ hrt h
      rw [← h.next] at hstep
      exact hstep
    | get t => exact .quiet (s.world.materialises_findClass rt t)
    | lookup name => exact .quiet (.refl _)
    | classOf v => exact .quiet (s.world.materialises_classOf rt v)
    | replace r =>
      unfold send
      dsimp only
      split
      · exact .replace hrt ‹_›
      · exact .quiet (.refl _)

/-- An operation leaves a class where it stands for its type, unless it puts another in its place. -/
theorem Step.classFor?_cases {s s' : Workshop} {op : RegistryOp} (hs : s.Step op s')
    (hd : ∀ d ∈ s.drafts, d.runtime < s.world.runtimes.size) {rt : Nat} {t : TypeId} {r : ClassRef}
    (he : s.world.classFor? rt t = some r) :
    s'.world.classFor? rt t = some r
      ∨ (∃ q, op = .ask rt (.replace q) ∧ s'.world = (s.world.replaceClass rt q).2
          ∧ (s.world.cls q).id = t ∧ s'.world.classFor? rt t = some q)
      ∨ (∃ k parent members d, op = .build k parent members ∧ s.drafts[k]? = some d
          ∧ d.runtime = rt ∧ d.id = t ∧ s'.world = (s.world.buildClass d parent members).2
          ∧ s'.world.classFor? rt t = some ⟨s.world.classes.size⟩) := by
  cases hs with
  | quiet hm => exact Or.inl (hm.kept rt t r he)
  | define hrt hm =>
    refine Or.inl ?_
    exact (World.classFor?_handOut ..).trans (hm.kept rt t r he)
  | @replace rt' q hrt hq =>
    have hentry := (s.world.registers_replaceClass hrt q).classFor? rt t
    by_cases hc : rt = rt' ∧ t = (s.world.cls q).id
    · obtain ⟨rfl, rfl⟩ := hc
      exact Or.inr (Or.inl ⟨q, rfl, rfl, rfl, hentry.trans (if_pos ⟨rfl, rfl⟩)⟩)
    · exact Or.inl (hentry.trans ((if_neg hc).trans he))
  | @build k parent members d hk =>
    have hlt := hd d (List.mem_of_getElem? hk)
    have hentry := (s.world.registers_buildClass hlt parent members).classFor? rt t
    by_cases hc : rt = d.runtime ∧ t = d.id
    · obtain ⟨rfl, rfl⟩ := hc
      exact Or.inr (Or.inr ⟨k, parent, members, d, rfl, hk, rfl, rfl, rfl,
        hentry.trans (if_pos ⟨rfl, rfl⟩)⟩)
    · exact Or.inl (hentry.trans ((if_neg hc).trans he))

/-- The identities that a registry hands out first, newest first. -/
def handedOut (n : Nat) : List TypeId := ((List.range n).map TypeId.defined).reverse

private theorem handedOut_succ (n : Nat) : handedOut (n + 1) = .defined n :: handedOut n := by
  unfold handedOut
  rw [List.range_succ, List.map_append, List.reverse_append]
  rfl

theorem mem_handedOut {n : Nat} {t : TypeId} : t ∈ handedOut n ↔ ∃ k < n, .defined k = t := by
  simp [handedOut]

/-- As long as the identities last, none is handed out twice. -/
theorem nodup_handedOut {n : Nat} (h : n ≤ TypeId.supply) : (handedOut n).Nodup := by
  refine List.nodup_reverse.mpr (List.Nodup.map_on ?_ List.nodup_range)
  intro i hi j hj heq
  rw [List.mem_range] at hi hj
  exact TypeId.defined_inj (Nat.lt_of_lt_of_le hi h) (Nat.lt_of_lt_of_le hj h) heq

private theorem defined_notMem_handedOut {n : Nat} (h : n < TypeId.supply) :
    .defined n ∉ handedOut n := by
  intro hmem
  obtain ⟨k, hk, heq⟩ := mem_handedOut.mp hmem
  exact Nat.ne_of_lt hk (TypeId.defined_inj (Nat.lt_trans hk h) h heq)

/-- The log tells what each registry answers for a name, which identities it has handed out and which
of them may still be built. -/
structure Recorded (s : Workshop) : Prop where
  catalogued : s.world.Catalogued
  names : ∀ rt name t, Assoc.get? (s.world.registry rt).names name = some t →
    (s.world.classFor? rt t).isSome
  lookups : ∀ rt name, rt < s.world.runtimes.size → (s.world.registry rt).lookup? name
    = (s.named? rt name).or ((BuiltinType.ofName? name).map (·.id))
  issued : ∀ rt < s.world.runtimes.size, s.issued rt = handedOut (s.world.registry rt).begun
  built : ∀ rt, ∀ t ∈ s.built rt, t ∈ s.issued rt
  drafts : ∀ d ∈ s.drafts, d.runtime < s.world.runtimes.size ∧ d.id ∈ s.issued d.runtime

/-- At this registry no identity is that of two definitions. -/
structure Singular (s : Workshop) (rt : Nat) : Prop where
  unbuilt : ∀ d ∈ s.drafts, d.runtime = rt → d.id ∉ s.built rt
  apart : s.drafts.Pairwise fun d e => d.runtime = rt → e.runtime = rt → d.id ≠ e.id

private theorem opening_spec (configs : List Config) :
    (opening configs).world.Catalogued ∧ (opening configs).world.runtimes.size = configs.length
      ∧ ∀ rt, ((opening configs).world.registry rt).names = []
        ∧ ((opening configs).world.registry rt).entries = []
        ∧ ((opening configs).world.registry rt).begun = 0 := by
  let P (n : Nat) (w : World) := w.Catalogued ∧ w.runtimes.size = n
    ∧ ∀ rt, (w.registry rt).names = [] ∧ (w.registry rt).entries = [] ∧ (w.registry rt).begun = 0
  have hstart : P 0 {} := by
    have hreg (rt : Nat) : ({} : World).registry rt = default := by
      refine World.registry_out_of_range {} ?_
      exact Nat.not_lt_zero rt
    refine ⟨⟨?_, ?_, ?_⟩, rfl, fun rt => ?_⟩
    · intro rt hrt
      cases hrt
    · intro rt hrt
      cases hrt
    · intro rt t r he
      rw [World.classFor?, hreg] at he
      cases he
    · rw [hreg]
      exact ⟨rfl, rfl, rfl⟩
  have hstep (n : Nat) (w : World) (config : Config) (h : P n w) :
      P (n + 1) (w.newRuntime config).2 := by
    obtain ⟨hcat, hsize, hregs⟩ := h
    refine ⟨(hcat.newRuntime config).1, by simp [hsize], fun rt => ?_⟩
    rw [World.registry_newRuntime]
    split
    · exact ⟨rfl, rfl, rfl⟩
    · exact hregs rt
  have hrun (n : Nat) (w : World) (h : P n w) :
      P (n + configs.length) (configs.foldl (fun w config => (w.newRuntime config).2) w) := by
    induction configs generalizing n w with
    | nil => exact h
    | cons config configs ih =>
      have := ih (n + 1) _ (hstep n w config h)
      rwa [show n + (config :: configs).length = n + 1 + configs.length by
        rw [List.length_cons]; omega]
  have h := hrun 0 {} hstart
  rwa [Nat.zero_add] at h

theorem opening_classFor? (configs : List Config) (rt : Nat) (t : TypeId) :
    (opening configs).world.classFor? rt t = none := by
  rw [World.classFor?, ((opening_spec configs).2.2 rt).2.1]
  rfl

theorem recorded_opening (configs : List Config) : (opening configs).Recorded := by
  obtain ⟨hcat, -, hregs⟩ := opening_spec configs
  refine ⟨hcat, ?_, ?_, ?_, ?_, ?_⟩
  · intro rt name t ht
    rw [(hregs rt).1] at ht
    cases ht
  · intro rt name _
    unfold Registry.lookup?
    rw [(hregs rt).1]
    rfl
  · intro rt _
    rw [(hregs rt).2.2]
    rfl
  · intro rt t ht
    cases ht
  · intro d hd
    cases hd

theorem singular_opening (configs : List Config) (rt : Nat) : (opening configs).Singular rt :=
  ⟨nofun, .nil⟩

private theorem issued_cons (s : Workshop) (w : World) (drafts : List Draft) (n : Notice) (rt : Nat) :
    Workshop.issued { world := w, drafts, log := n :: s.log } rt
      = (n.issued? rt).toList ++ s.issued rt := by
  unfold Workshop.issued
  rw [List.filterMap_cons]
  cases n.issued? rt <;> rfl

private theorem built_cons (s : Workshop) (w : World) (drafts : List Draft) (n : Notice) (rt : Nat) :
    Workshop.built { world := w, drafts, log := n :: s.log } rt
      = (n.built? rt).toList ++ s.built rt := by
  unfold Workshop.built
  rw [List.filterMap_cons]
  cases n.built? rt <;> rfl

private theorem named?_cons (s : Workshop) (w : World) (drafts : List Draft) (n : Notice) (rt : Nat)
    (name : String) :
    Workshop.named? { world := w, drafts, log := n :: s.log } rt name
      = (n.named? rt name).or (s.named? rt name) := by
  unfold Workshop.named?
  rw [List.findSome?_cons]
  cases n.named? rt name <;> rfl

/-- Identities that have been handed out are not taken back. -/
theorem Step.begun_le {s s' : Workshop} {op : RegistryOp} (hs : s.Step op s')
    (hd : ∀ d ∈ s.drafts, d.runtime < s.world.runtimes.size) (rt : Nat) :
    (s.world.registry rt).begun ≤ (s'.world.registry rt).begun := by
  cases hs with
  | quiet hm => exact Nat.le_of_eq (hm.begun rt).symm
  | @define rt' _ _ _ w' hrt hm =>
    have hrt' : rt' < w'.runtimes.size := hm.runtimes ▸ hrt
    rw [World.begun_handOut w' hrt', hm.begun]
    split
    · exact Nat.le_succ _
    · exact Nat.le_refl _
  | replace hrt hr => exact Nat.le_of_eq ((s.world.registers_replaceClass hrt _).begun rt).symm
  | build hk =>
    have hlt := hd _ (List.mem_of_getElem? hk)
    exact Nat.le_of_eq ((s.world.registers_buildClass hlt _ _).begun rt).symm

namespace Recorded

variable {s : Workshop}

/-- How many definitions have been begun. -/
theorem length_issued (h : s.Recorded) {rt : Nat} (hrt : rt < s.world.runtimes.size) :
    (s.issued rt).length = (s.world.registry rt).begun := by
  rw [h.issued rt hrt, handedOut]
  simp

/-- As long as the identities last, none that is handed out is a builtin's. -/
theorem firstDefined_le (h : s.Recorded) {rt : Nat} (hrt : rt < s.world.runtimes.size)
    (hb : (s.world.registry rt).begun ≤ TypeId.supply) {t : TypeId} (ht : t ∈ s.issued rt) :
    TypeId.firstDefined ≤ t.number := by
  rw [h.issued rt hrt] at ht
  obtain ⟨k, hk, rfl⟩ := mem_handedOut.mp ht
  rw [TypeId.number_defined (Nat.lt_of_lt_of_le hk hb)]
  exact Nat.le_add_right ..

private theorem quiet (h : s.Recorded) {w' : World} (hm : s.world.Materialises w') :
    Recorded { s with world := w' } where
  catalogued := hm.catalogued h.catalogued
  names rt name t ht := by
    rcases hm.named rt name t ht with ht | he
    · obtain ⟨r, hr⟩ := Option.isSome_iff_exists.mp (h.names rt name t ht)
      rw [hm.kept rt t r hr]
      rfl
    · exact he
  lookups rt name hrt := (hm.lookups rt name).trans (h.lookups rt name (hm.runtimes ▸ hrt))
  issued rt hrt := by
    rw [hm.begun]
    exact h.issued rt (hm.runtimes ▸ hrt)
  built := h.built
  drafts d hd := by
    rw [hm.runtimes]
    exact h.drafts d hd

/-- What has been handed out when one more definition has been begun. -/
private theorem issued_define (s : Workshop) (w' : World) (drafts : List Draft) (rt : Nat) (t : TypeId)
    (rt' : Nat) :
    Workshop.issued ⟨w', drafts, .issued rt t :: s.log⟩ rt'
      = if rt = rt' then t :: s.issued rt' else s.issued rt' := by
  rw [issued_cons, Notice.issued?]
  by_cases he : rt = rt'
  · rw [if_pos he, if_pos he]
    rfl
  · rw [if_neg he, if_neg he]
    rfl

private theorem define (h : s.Recorded) {rt : Nat} (hrt : rt < s.world.runtimes.size) (name : String)
    (isHost : Bool) (root : ClassRef) :
    Recorded {
      world := s.world.handOut rt
      drafts := s.drafts ++ [⟨rt, (s.world.registry rt).next, name, isHost, root⟩]
      log := .issued rt (s.world.registry rt).next :: s.log } := by
  have hsize : (s.world.handOut rt).runtimes.size = s.world.runtimes.size :=
    World.runtimes_size_updateRegistry ..
  have hissued := issued_define s (s.world.handOut rt)
    (s.drafts ++ [⟨rt, (s.world.registry rt).next, name, isHost, root⟩]) rt (s.world.registry rt).next
  refine ⟨?_, ?_, ?_, ?_, ?_, ?_⟩
  · exact (h.catalogued.updateRegistry rt (f := Registry.handOut) rfl (Nat.le_succ _)
      fun _ _ => Or.inl rfl).1
  · intro rt' name' t ht
    rw [World.classFor?_handOut]
    rw [World.registry_handOut] at ht
    exact h.names rt' name' t ht
  · intro rt' name' hrt'
    rw [named?_cons, World.registry_handOut]
    exact h.lookups rt' name' (hsize ▸ hrt')
  · intro rt' hrt'
    rw [hissued, World.begun_handOut s.world hrt, h.issued rt' (hsize ▸ hrt')]
    split
    · rename_i he
      rw [he, handedOut_succ]
      rfl
    · rfl
  · intro rt' t ht
    have hold := h.built rt' t ht
    rw [hissued]
    split
    · exact List.mem_cons_of_mem _ hold
    · exact hold
  · intro d hd
    rw [hissued]
    rcases List.mem_append.mp hd with hd | hd
    · obtain ⟨hlt, hmem⟩ := h.drafts d hd
      refine ⟨hsize ▸ hlt, ?_⟩
      split
      · exact List.mem_cons_of_mem _ hmem
      · exact hmem
    · obtain rfl := List.mem_singleton.mp hd
      refine ⟨hsize ▸ hrt, ?_⟩
      rw [if_pos rfl]
      exact List.mem_cons_self

/-- A class is registered under its name and the log says so. -/
private theorem registers (h : s.Recorded) {w' : World} {rt : Nat} {name : String} {t : TypeId}
    {r : ClassRef} (hc : w'.Catalogued) (hw : s.world.Registers w' rt name t r)
    {drafts : List Draft} {n : Notice} (hissued : ∀ rt', n.issued? rt' = none)
    (hnamed : ∀ rt' name', n.named? rt' name' = if rt = rt' ∧ name = name' then some t else none)
    (hbuilt : ∀ rt' t', n.built? rt' = some t' → t' ∈ s.issued rt')
    (hdrafts : ∀ d ∈ drafts, d ∈ s.drafts) :
    Recorded { world := w', drafts, log := n :: s.log } := by
  have hiss (rt' : Nat) : Workshop.issued { world := w', drafts, log := n :: s.log } rt'
      = s.issued rt' := by
    rw [issued_cons, hissued]
    rfl
  refine ⟨hc, hw.named h.names, ?_, ?_, ?_, ?_⟩
  · intro rt' name' hrt'
    rw [hw.lookup?, named?_cons, hnamed]
    by_cases he : rt = rt' ∧ name = name'
    · rw [if_pos ⟨he.1.symm, he.2.symm⟩, if_pos he]
      rfl
    · rw [if_neg fun hc => he ⟨hc.1.symm, hc.2.symm⟩, if_neg he]
      exact h.lookups rt' name' (hw.size ▸ hrt')
  · intro rt' hrt'
    rw [hw.begun, hiss]
    exact h.issued rt' (hw.size ▸ hrt')
  · intro rt' t' ht'
    rw [hiss]
    rw [built_cons] at ht'
    rcases List.mem_append.mp ht' with ht' | ht'
    · exact hbuilt rt' t' (Option.mem_toList.mp ht')
    · exact h.built rt' t' ht'
  · intro d hd
    obtain ⟨hlt, hmem⟩ := h.drafts d (hdrafts d hd)
    rw [hiss]
    exact ⟨hw.size ▸ hlt, hmem⟩

theorem step {op : RegistryOp} {s' : Workshop} (h : s.Recorded) (hs : s.Step op s') :
    s'.Recorded := by
  cases hs with
  | quiet hm => exact h.quiet hm
  | @define rt name isHost root w' hrt hm =>
    have hrt' : rt < w'.runtimes.size := hm.runtimes ▸ hrt
    have hdef := (h.quiet hm).define hrt' name isHost root
    rw [hm.next] at hdef
    exact hdef
  | replace hrt hr =>
    exact h.registers (h.catalogued.replaceClass _ hr).1 (s.world.registers_replaceClass hrt _)
      (fun _ => rfl) (fun _ _ => rfl) (fun _ _ hb => nomatch hb) fun _ hd => hd
  | @build k parent members d hd =>
    obtain ⟨hlt, hissued⟩ := h.drafts d (List.mem_of_getElem? hd)
    refine h.registers (h.catalogued.buildClass _ _ _).1 (s.world.registers_buildClass hlt parent members)
      (fun _ => rfl) (fun _ _ => rfl) (fun rt' t' hb => ?_) fun _ => List.mem_of_mem_eraseIdx
    obtain ⟨rfl, rfl⟩ : d.runtime = rt' ∧ d.id = t' := by simpa [Notice.built?] using hb
    exact hissued

end Recorded

namespace Singular

variable {s : Workshop} {rt : Nat}

/-- A definition that has just been built was not built before. -/
private theorem ne_of_mem_eraseIdx (h : s.Singular rt) {k : Nat} {d e : Draft}
    (hd : s.drafts[k]? = some d) (he : e ∈ s.drafts.eraseIdx k) (hdrt : d.runtime = rt)
    (hert : e.runtime = rt) : e.id ≠ d.id := by
  obtain ⟨j, hj, hne, rfl⟩ := List.mem_eraseIdx_iff_getElem.mp he
  obtain ⟨hk, rfl⟩ := List.getElem?_eq_some_iff.mp hd
  have hapart := List.pairwise_iff_getElem.mp h.apart
  rcases Nat.lt_or_gt_of_ne hne with hlt | hlt
  · exact hapart j k hj hk hlt hert hdrt
  · exact (hapart k j hk hj hlt hdrt hert).symm

theorem step {op : RegistryOp} {s' : Workshop} (h : s.Singular rt) (hrec : s.Recorded)
    (hs : s.Step op s') (hb : (s'.world.registry rt).begun ≤ TypeId.supply) : s'.Singular rt := by
  cases hs with
  | quiet hm => exact ⟨h.unbuilt, h.apart⟩
  | @define rt' name isHost root w' hrt hm =>
    -- the new identity is none that was handed out before
    have hnew (heq : rt' = rt) : (s.world.registry rt').next ∉ s.issued rt := by
      subst heq
      have hrt' : rt' < w'.runtimes.size := hm.runtimes ▸ hrt
      rw [World.begun_handOut w' hrt', if_pos rfl, hm.begun] at hb
      rw [hrec.issued rt' hrt]
      exact defined_notMem_handedOut hb
    refine ⟨fun d hd hdrt hbuilt => ?_, List.pairwise_append.mpr ⟨h.apart, List.pairwise_singleton .., ?_⟩⟩
    · rcases List.mem_append.mp hd with hd | hd
      · exact h.unbuilt d hd hdrt hbuilt
      · obtain rfl := List.mem_singleton.mp hd
        exact hnew hdrt (hrec.built rt _ hbuilt)
    · intro d hd e he hdrt hert heq
      obtain rfl := List.mem_singleton.mp he
      have hmem := (hrec.drafts d hd).2
      rw [hdrt, heq] at hmem
      exact hnew hert hmem
  | replace hrt hr => exact ⟨h.unbuilt, h.apart⟩
  | @build k parent members d hd =>
    refine ⟨fun e he hert hbuilt => ?_, h.apart.sublist (List.eraseIdx_sublist ..)⟩
    rw [built_cons] at hbuilt
    rcases List.mem_append.mp hbuilt with hbuilt | hbuilt
    · obtain ⟨hdrt, hid⟩ : d.runtime = rt ∧ d.id = e.id := by
        simpa [Notice.built?] using Option.mem_toList.mp hbuilt
      exact h.ne_of_mem_eraseIdx hd he hdrt hert hid.symm
    · exact h.unbuilt e (List.mem_of_mem_eraseIdx he) hert hbuilt

end Singular

theorem after_concat (configs : List Config) (ops : List RegistryOp) (op : RegistryOp) :
    after configs (ops ++ [op]) = (after configs ops).perform op := by
  unfold after
  rw [List.foldl_append]
  rfl

theorem recorded_after (configs : List Config) (ops : List RegistryOp) :
    (after configs ops).Recorded := by
  induction ops using List.reverseRecOn with
  | nil => exact recorded_opening configs
  | append_singleton ops op ih =>
    rw [after_concat]
    exact ih.step (step_perform _ op)

/-- As long as the identities of a registry last, no two of its definitions share one. -/
theorem singular_after (configs : List Config) (ops : List RegistryOp) {rt : Nat}
    (hb : ((after configs ops).world.registry rt).begun ≤ TypeId.supply) :
    (after configs ops).Singular rt := by
  induction ops using List.reverseRecOn with
  | nil => exact singular_opening configs rt
  | append_singleton ops op ih =>
    rw [after_concat] at hb ⊢
    have hrec := recorded_after configs ops
    have hs := step_perform (after configs ops) op
    have hle := hs.begun_le (fun d hd => (hrec.drafts d hd).1) rt
    exact (ih (Nat.le_trans hle hb)).step hrec hs hb

end Workshop

end CachedDispatch
