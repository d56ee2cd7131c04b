import CachedDispatch.Machine
import CachedDispatch.Proofs.Ledger
import CachedDispatch.Proofs.Roots
import CachedDispatch.Proofs.RegistryAnswers

/-!
Loading a program. A name that nothing goes by makes it fail, and the first such name is reported. Whether it
fails or not, the owner has a class afterwards: the one that went by the name, or a new one under an identity
that was free. Nothing else that the registries answer changes, so loading once more changes nothing at all.
-/
namespace CachedDispatch

open World

/-- Nothing goes by the name: not the owner, no registered class and no builtin type. -/
def Program.Unknown (p : Program) (g : Registry) (name : String) : Prop :=
  name ≠ p.manifest.owner ∧ Assoc.get? g.names name = none ∧ BuiltinType.ofName? name = none

instance (p : Program) (g : Registry) (name : String) : Decidable (p.Unknown g name) :=
  inferInstanceAs (Decidable (_ ∧ _ ∧ _))

namespace Registry

variable (g : Registry)

private theorem lookup?_eq_none_iff (name : String) :
    g.lookup? name = none ↔ Assoc.get? g.names name = none ∧ BuiltinType.ofName? name = none := by
  unfold lookup?
  rcases Assoc.get? g.names name with _ | t
  · simp
  · simp

/-- The type of a name, or the failure that there is none. -/
private def resolve (name : String) : Except MachineError TypeId :=
  (g.lookup? name).elim (.error (.unknownClass name)) .ok

/-- All names are resolved, or the first without a type is reported. -/
private theorem mapM_resolve (names : List String) :
    (∃ ts, names.mapM g.resolve = .ok ts ∧ names.map g.lookup? = ts.map some)
      ∨ ∃ before name after, names = before ++ name :: after ∧ (∀ n ∈ before, g.lookup? n ≠ none)
        ∧ g.lookup? name = none ∧ names.mapM g.resolve = .error (.unknownClass name) := by
  induction names with
  | nil => exact Or.inl ⟨[], rfl, rfl⟩
  | cons x names ih =>
    rcases hx : g.lookup? x with _ | t
    · refine Or.inr ⟨[], x, names, rfl, fun n hn => absurd hn List.not_mem_nil, hx, ?_⟩
      rw [List.mapM_cons, resolve, hx]
      rfl
    · have hresolve : g.resolve x = .ok t := by rw [resolve, hx]; rfl
      rcases ih with ⟨ts, hts, hmap⟩ | ⟨before, name, after, rfl, hbefore, hname, herror⟩
      · refine Or.inl ⟨t :: ts, ?_, by rw [List.map_cons, List.map_cons, hx, hmap]⟩
        rw [List.mapM_cons, hresolve, hts]
        rfl
      · refine Or.inr ⟨x :: before, name, after, rfl, ?_, hname, ?_⟩
        · intro n hn
          rcases List.mem_cons.mp hn with rfl | hn
          · rw [hx]
            exact Option.some_ne_none t
          · exact hbefore n hn
        · rw [List.mapM_cons, hresolve, herror]
          rfl

end Registry

namespace World

variable {w w' : World} {rt : Nat}

/-- A class for a type is the one that is entered, or the reserved one of a builtin type. -/
private theorem fst_findClass (w : World) (rt : Nat) (t : TypeId) :
    (w.findClass rt t).1
      = (w.classFor? rt t).or ((BuiltinType.ofId? t).map (w.registry rt).builtinRef) := by
  generalize hfound : w.findClass rt t = found
  cases found_of_findClass hfound with
  | entered h =>
    rw [classFor?, h]
    rfl
  | undefined h hb =>
    rcases hid : BuiltinType.ofId? t with _ | b
    · rw [classFor?, h]
      rfl
    · rw [BuiltinType.eq_id_of_ofId? hid, b.isBuiltin_id] at hb
      cases hb
  | spare h _ ht =>
    rw [classFor?, h, ht]
    rfl
  | @root b ht h =>
    rw [classFor?, h, ht, b.ofId?_id]
    rfl
  | @below b ht h =>
    rw [classFor?, h, ht, b.ofId?_id, enterBelow, enterBuiltin, Registry.builtinRef,
      (w.materialises_rootClass rt .object).base]
    rfl

/-- Entering the reserved class of a builtin type changes no answer. -/
private theorem fst_findClass_congr {t : TypeId} (hbase : (w'.registry rt).base = (w.registry rt).base)
    (hkept : ∀ r, w.classFor? rt t = some r → w'.classFor? rt t = some r)
    (hnew : ∀ r, w'.classFor? rt t = some r → w.classFor? rt t = some r
      ∨ ∃ b : BuiltinType, t = b.id ∧ r = (w.registry rt).builtinRef b) :
    (w'.findClass rt t).1 = (w.findClass rt t).1 := by
  have hplaces : (w'.registry rt).builtinRef = (w.registry rt).builtinRef := by
    funext b
    rw [Registry.builtinRef, Registry.builtinRef, hbase]
  rw [fst_findClass, fst_findClass, hplaces]
  rcases hold : w.classFor? rt t with _ | r
  · rcases hr : w'.classFor? rt t with _ | r
    · rfl
    · rcases hnew r hr with hsame | ⟨b, rfl, rfl⟩
      · cases hold.symm.trans hsame
      · rw [BuiltinType.ofId?_id]
        rfl
  · rewrite [hkept r hold]
    rfl

/-- A registry that is there, with an identity left, has no classes but under builtin identities and under
those that it has handed out. So it is with one that holds only classes that it has built itself. -/
structure HoldsOwn (w : World) (rt : Nat) : Prop extends Catalogued w where
  there : rt < w.runtimes.size
  supplied : (w.registry rt).begun < TypeId.supply
  own : ∀ t r, w.classFor? rt t = some r →
    t.isBuiltin = true ∨ ∃ n < (w.registry rt).begun, t = .defined n

/-- Of a world that sessions come to no more is asked than that. -/
theorem Attained.holdsOwn (hw : w.Attained) (hrt : rt < w.runtimes.size)
    (hleft : (w.registry rt).begun < TypeId.supply)
    (hown : ∀ t r, w.classFor? rt t = some r →
      t.isBuiltin = true ∨ ∃ n < (w.registry rt).begun, t = .defined n) : w.HoldsOwn rt :=
  ⟨hw.inOrder.toCatalogued, hrt, hleft, hown⟩

/-- The class stood for its type before: it is not that of the root type on its way in. -/
def Existed (w : World) (rt : Nat) (r : ClassRef) : Prop :=
  r.idx < w.classes.size ∧ (w.classFor? rt .object = none → r ≠ (w.registry rt).builtinRef .object)

/-- An identity has been handed out, and the class of the root type may have been entered. -/
private structure Reserves (w : World) (rt : Nat) (root : ClassRef) (w' : World) : Prop where
  size : w'.classes.size = w.classes.size
  runtimes : w'.runtimes.size = w.runtimes.size
  root : (w.findClass rt .object).1 = some root
  cls : ∀ r, w.Existed rt r → w'.cls r = w.cls r
  stamp : ∀ r, (w'.cls r).stamp = (w.cls r).stamp
  lookups : ∀ rt' name, (w'.registry rt').lookup? name = (w.registry rt').lookup? name
  base : ∀ rt', (w'.registry rt').base = (w.registry rt').base
  entries : ∀ rt' t r, w'.classFor? rt' t = some r ↔ w.classFor? rt' t = some r
    ∨ rt' = rt ∧ t = .object ∧ r = (w.registry rt).builtinRef .object ∧ w.classFor? rt .object = none
  begun : (w'.registry rt).begun = (w.registry rt).begun + 1
  others : ∀ rt', rt' ≠ rt → w'.registry rt' = w.registry rt'

private theorem registry_rootClass (hrt : rt < w.runtimes.size) (b : BuiltinType) (rt' : Nat) :
    (w.rootClass rt b).2.registry rt' = if rt' = rt ∧ w.classFor? rt b.id = none
      then (w.registry rt').enterBuiltin b else w.registry rt' := by
  unfold rootClass classFor?
  rcases Assoc.get? (w.registry rt).entries b.id with _ | r
  · dsimp only [enterBuiltin]
    rw [registry_updateRegistry_eq]
    by_cases h : rt' = rt
    · subst h
      rw [if_pos ⟨rfl, hrt⟩, if_pos ⟨rfl, rfl⟩]
      rfl
    · rw [if_neg fun hc => h hc.1.symm, if_neg fun hc => h hc.1]
      rfl
  · rw [if_neg fun hc => Option.some_ne_none r hc.2]

private theorem cls_rootClass (w : World) (rt : Nat) (b : BuiltinType) (r : ClassRef) :
    (w.rootClass rt b).2.cls r = if w.classFor? rt b.id = none ∧ (w.registry rt).builtinRef b = r
      ∧ r.idx < w.classes.size then { w.cls r with ancestors := [] } else w.cls r := by
  unfold rootClass classFor?
  rcases Assoc.get? (w.registry rt).entries b.id with _ | q
  · simp only [true_and]
    exact cls_updateClass ..
  · rw [if_neg fun hc => Option.some_ne_none q hc.1]

private theorem reserves_beginClass (hrt : rt < w.runtimes.size) (name : String) (isHost : Bool) :
    w.Reserves rt (w.beginClass rt name isHost).1.root (w.beginClass rt name isHost).2 := by
  have hroot : (w.beginClass rt name isHost).1.root = (w.rootClass rt .object).1 := rfl
  have hworld : (w.beginClass rt name isHost).2 = (w.rootClass rt .object).2.handOut rt := rfl
  have hfound : (w.findClass rt .object).1 = some (w.rootClass rt .object).1 :=
    congrArg Prod.fst (w.rootClass_eq_findClass rt (b := .object) rfl)
  have hm := w.materialises_rootClass rt .object
  have hcls := w.cls_rootClass rt .object
  have hregistry (rt' : Nat) : (w.rootClass rt .object).2.registry rt'
      = if rt' = rt ∧ w.classFor? rt .object = none then (w.registry rt').enterBuiltin .object
        else w.registry rt' := registry_rootClass hrt .object rt'
  rw [hroot, hworld]
  generalize (w.rootClass rt .object).1 = root, (w.rootClass rt .object).2 = w₁ at hm hcls hregistry hfound ⊢
  have hbegun := w₁.begun_handOut (hm.runtimes ▸ hrt)
  refine ⟨hm.size, ?_, ?_, fun r hr => ?_, fun r => ?_, fun rt' name => ?_, fun rt' => ?_,
    fun rt' t r => ?_, ?_, fun rt' hne => ?_⟩
  · exact (runtimes_size_updateRegistry ..).trans hm.runtimes
  · exact hfound
  · exact (hcls r).trans (if_neg fun hc => hr.2 hc.1 hc.2.1.symm)
  · change (w₁.cls r).stamp = _
    rw [hcls]
    split <;> rfl
  · rw [← hm.lookups, registry_handOut]
    rfl
  · rw [← hm.base, registry_handOut]
  · rw [classFor?_handOut, classFor?, hregistry]
    by_cases hc : rt' = rt ∧ w.classFor? rt .object = none
    · obtain ⟨rfl, hnone⟩ := hc
      have hset : Assoc.get? ((w.registry rt').enterBuiltin .object).entries t
          = if t = .object then some ((w.registry rt').builtinRef .object) else w.classFor? rt' t :=
        Registry.get?_entries_enterBuiltin _ .object t
      rw [if_pos ⟨rfl, hnone⟩, hset]
      by_cases ht : t = .object
      · subst ht
        simp [hnone, eq_comm]
      · simp [ht]
    · rw [if_neg hc]
      refine ⟨Or.inl, fun hr => hr.resolve_right fun hnew => hc ⟨hnew.1, hnew.2.2.2⟩⟩
  · rw [hbegun, if_pos rfl, hm.begun]
  · rw [registry_handOut, hbegun, if_neg hne.symm, hregistry, if_neg fun hc => hne hc.1]

/-- One class has been defined: it goes by this name, and its identity was free. The class of the root type
may have been entered on the way. -/
structure Introduces (w : World) (rt : Nat) (name : String) (w' : World) : Prop where
  size : w'.classes.size = w.classes.size + 1
  free : TypeId.firstDefined ≤ (w.registry rt).next.number ∧ (w.findClass rt (w.registry rt).next).1 = none
  made : ∃ root, (w.findClass rt .object).1 = some root ∧ w'.cls ⟨w.classes.size⟩ = {
    id := (w.registry rt).next, name, kind := .dynamic, ancestors := root :: (w'.cls root).ancestors }
  kept : ∀ r, w.Existed rt r → w'.cls r = w.cls r ∧ w'.version r = w.version r
  lookups : ∀ rt' name', (w'.registry rt').lookup? name'
    = if rt' = rt ∧ name' = name then some (w.registry rt).next else (w.registry rt').lookup? name'
  classes : ∀ rt' t, (w'.findClass rt' t).1
    = if rt' = rt ∧ t = (w.registry rt).next then some ⟨w.classes.size⟩ else (w.findClass rt' t).1
  entries : ∀ rt' t r, w'.classFor? rt' t = some r ↔ w.classFor? rt' t = some r
    ∨ rt' = rt ∧ (t = (w.registry rt).next ∧ r = ⟨w.classes.size⟩
      ∨ t = .object ∧ r = (w.registry rt).builtinRef .object ∧ w.classFor? rt .object = none)
  begun : (w'.registry rt).begun = (w.registry rt).begun + 1
  others : ∀ rt', rt' ≠ rt → w'.registry rt' = w.registry rt'

/-- Versions are made of stamps. -/
private theorem version_eq_of_stamps {r : ClassRef} (hcls : w'.cls r = w.cls r)
    (hstamps : ∀ q, (w'.cls q).stamp = (w.cls q).stamp) : w'.version r = w.version r := by
  have hsum (w : World) : w.version r
      = (r :: (w.cls r).ancestors).foldr (fun q n => (w.cls q).stamp + n) 0 := by
    rw [version, Hierarchy.version, Hierarchy.classes, hierarchy, List.foldr_cons, List.foldr_cons,
      List.foldr_map]
  rw [hsum, hsum, hcls]
  simp only [hstamps]

private theorem HoldsOwn.classFor?_next (h : w.HoldsOwn rt) :
    w.classFor? rt (w.registry rt).next = none
      ∧ ∀ b : BuiltinType, (w.registry rt).next ≠ b.id := by
  have hdefined : (w.registry rt).next.isBuiltin = false := TypeId.isBuiltin_defined h.supplied
  refine ⟨?_, fun b hid => ?_⟩
  · rcases hr : w.classFor? rt (w.registry rt).next with _ | r
    · rfl
    · rcases h.own _ r hr with hb | ⟨n, hn, hid⟩
      · cases hdefined.symm.trans hb
      · have heq := TypeId.defined_inj h.supplied (Nat.lt_trans hn h.supplied) hid
        exact absurd hn (heq ▸ Nat.lt_irrefl _)
  · rw [hid, b.isBuiltin_id] at hdefined
    cases hdefined

private theorem HoldsOwn.fst_findClass_next (h : w.HoldsOwn rt) :
    (w.findClass rt (w.registry rt).next).1 = none := by
  obtain ⟨hfree, hbuiltin⟩ := h.classFor?_next
  rw [fst_findClass, hfree]
  rcases hb : BuiltinType.ofId? (w.registry rt).next with _ | b
  · rfl
  · exact absurd (BuiltinType.eq_id_of_ofId? hb) (hbuiltin b)

private theorem Reserves.root_lt {root : ClassRef} (hr : w.Reserves rt root w') (h : w.HoldsOwn rt) :
    root.idx < w.classes.size := by
  have hfound : (w.findClass rt BuiltinType.object.id).1 = some root := hr.root
  rw [fst_findClass, BuiltinType.ofId?_id] at hfound
  rcases hq : w.classFor? rt BuiltinType.object.id with _ | q <;> rw [hq] at hfound <;> cases hfound
  · exact h.lt_builtinRef h.there .object
  · exact (h.toCatalogued.entries rt _ _ hq).1

private theorem Reserves.introduces {root : ClassRef} (hr : w.Reserves rt root w') (h : w.HoldsOwn rt)
    (name : String) :
    w.Introduces rt name (w'.buildClass ⟨rt, (w.registry rt).next, name, false, root⟩ none { name }).2 := by
  let c : Class := {
    id := (w.registry rt).next, name, kind := .dynamic, ancestors := root :: (w'.cls root).ancestors }
  let d : Draft := ⟨rt, (w.registry rt).next, name, false, root⟩
  let w'' := (w'.buildClass d none { name }).2
  have hrt : rt < w'.runtimes.size := hr.runtimes ▸ h.there
  have hreg := w'.registers_buildClass (d := d) hrt none { name }
  rw [hr.size] at hreg
  have hcls (r : ClassRef) : w''.cls r = if r.idx = w.classes.size then c else w'.cls r := by
    rw [← hr.size]
    exact w'.cls_addClass c r
  have hbase (rt' : Nat) : (w''.registry rt').base = (w.registry rt').base := by
    rw [← hr.base]
    by_cases hrt' : rt' = rt
    · subst hrt'
      exact (congrArg Registry.base hreg.here).trans rfl
    · exact congrArg Registry.base (hreg.elsewhere rt' hrt')
  obtain ⟨hfree, hbuiltin⟩ := h.classFor?_next
  have hfirst : TypeId.firstDefined ≤ (w.registry rt).next.number :=
    Nat.le_trans (Nat.le_add_right ..) (Nat.le_of_eq (TypeId.number_defined h.supplied).symm)
  have hstamps (q : ClassRef) : (w''.cls q).stamp = (w.cls q).stamp := by
    rw [hcls]
    split
    · rw [w.cls_out_of_range (by omega)]
      rfl
    · exact hr.stamp q
  have hkept (r : ClassRef) (hexisted : w.Existed rt r) : w''.cls r = w.cls r := by
    rw [hcls, if_neg (Nat.ne_of_lt hexisted.1), hr.cls r hexisted]
  refine ⟨?_, ⟨hfirst, h.fst_findClass_next⟩, ⟨root, hr.root, ?_⟩, fun r hexisted => ⟨hkept r hexisted, ?_⟩,
    fun rt' name' => ?_, fun rt' t => ?_, fun rt' t r => ?_, ?_, fun rt' hne => ?_⟩
  · rw [← hr.size]
    exact w'.size_addClass c
  · change w''.cls ⟨w.classes.size⟩ = { c with ancestors := root :: (w''.cls root).ancestors }
    rw [hcls root, if_neg (Nat.ne_of_lt (hr.root_lt h)), hcls, if_pos rfl]
  · exact version_eq_of_stamps (hkept r hexisted) hstamps
  · rw [hreg.lookup?, hr.lookups]
  · by_cases hc : rt' = rt ∧ t = (w.registry rt).next
    · rw [if_pos hc, fst_findClass, hreg.classFor?, if_pos hc]
      rfl
    · rw [if_neg hc]
      refine fst_findClass_congr (hbase rt') (fun r hold => ?_) fun r hnew => ?_
      · rw [hreg.classFor?, if_neg hc, hr.entries]
        exact Or.inl hold
      · rw [hreg.classFor?, if_neg hc, hr.entries] at hnew
        rcases hnew with hnew | ⟨rfl, rfl, rfl, -⟩
        · exact Or.inl hnew
        · exact Or.inr ⟨.object, rfl, rfl⟩
  · rw [hreg.classFor?]
    by_cases hc : rt' = rt ∧ t = (w.registry rt).next
    · obtain ⟨rfl, rfl⟩ := hc
      rw [if_pos ⟨rfl, rfl⟩, hfree]
      constructor
      · intro heq
        exact Or.inr ⟨rfl, Or.inl ⟨rfl, (Option.some.inj heq).symm⟩⟩
      · rintro (hnone | ⟨-, ⟨-, rfl⟩ | ⟨hobject, -⟩⟩)
        · cases hnone
        · rfl
        · exact absurd hobject (hbuiltin .object)
    · rw [if_neg hc, hr.entries]
      refine or_congr_right ⟨fun hnew => ⟨hnew.1, Or.inr hnew.2⟩, fun hnew => ⟨hnew.1, ?_⟩⟩
      exact hnew.2.resolve_left fun hnext => hc ⟨hnew.1, hnext.1⟩
  · rw [hreg.begun, hr.begun]
  · rw [hreg.elsewhere rt' hne, hr.others rt' hne]

/-- Tables do not matter for it. -/
private theorem Introduces.addTable {name : String} (h : w.Introduces rt name w') (table : Table) :
    w.Introduces rt name (w'.addTable table).2 where
  size := h.size
  free := h.free
  made := h.made
  kept := h.kept
  lookups := h.lookups
  classes rt' t := by
    have hsame : ((w'.addTable table).2.findClass rt' t).1 = (w'.findClass rt' t).1 :=
      fst_findClass_congr rfl (fun _ hr => hr) fun _ hr => Or.inl hr
    rw [hsame, h.classes]
  entries := h.entries
  begun := h.begun
  others := h.others

/-- The type of the owner, which is defined if nothing goes by its name. -/
private def ownerFor (w : World) (rt : Nat) (name : String) : TypeId × World :=
  ((w.registry rt).lookup? name).elim
    ((w.defineClass rt none { name }).1, (w.defineClass rt none { name }).2.2) fun t => (t, w)

private theorem ownerFor_of_lookup? {name : String} {t : TypeId}
    (h : (w.registry rt).lookup? name = some t) : w.ownerFor rt name = (t, w) := by
  rw [ownerFor, h]
  rfl

private theorem introduces_ownerFor (h : w.HoldsOwn rt) {name : String}
    (hnone : (w.registry rt).lookup? name = none) :
    (w.ownerFor rt name).1 = (w.registry rt).next
      ∧ w.Introduces rt name (w.ownerFor rt name).2 := by
  have hnext : (w.beginClass rt name false).1.id = (w.registry rt).next :=
    (w.materialises_rootClass rt .object).next rt
  have hintroduces := (reserves_beginClass h.there name false).introduces h name
  rw [← hnext] at hintroduces
  rw [ownerFor, hnone, Option.elim_none]
  exact ⟨hnext, hintroduces⟩

/-- The owner goes by its name, and other names mean what they meant. -/
private theorem lookup?_ownerFor (h : w.HoldsOwn rt) (owner name : String) :
    ((w.ownerFor rt owner).2.registry rt).lookup? name
      = if name = owner then some (w.ownerFor rt owner).1 else (w.registry rt).lookup? name := by
  rcases ho : (w.registry rt).lookup? owner with _ | t
  · obtain ⟨hid, hintroduces⟩ := introduces_ownerFor h ho
    rw [hintroduces.lookups, hid]
    simp only [true_and]
  · rw [ownerFor_of_lookup? ho]
    split
    · rename_i hname
      rw [hname, ho]
    · rfl

end World

/-- The one registry of a run holds its own classes, also while definitions have been begun and not built. -/
private theorem Workshop.Sole.holdsOwn {s : Workshop} (h : s.Sole)
    (hleft : (s.issued 0).length < TypeId.supply) : s.world.HoldsOwn 0 := by
  refine ⟨h.catalogued, h.lt_one, h.length_issued h.lt_one ▸ hleft, fun t r hr => ?_⟩
  obtain ⟨hlt, rfl⟩ := h.catalogued.entries 0 t r hr
  by_cases hr : r.idx < 10
  · obtain ⟨b, -, hb⟩ := h.id_reserved hr
    exact Or.inl (hb ▸ b.isBuiltin_id)
  · have hissued := h.built 0 _ (h.defined r (Nat.le_of_not_lt hr) hlt).1
    rw [h.issued 0 h.lt_one] at hissued
    obtain ⟨n, hn, hid⟩ := mem_handedOut.mp hissued
    exact Or.inr ⟨n, hn, hid.symm⟩

section Loading

variable {w : World} {rt : Nat} {p : Program}

/-- The sites of a program, as its table takes them. -/
private def Program.sites (p : Program) : List (String × SiteKind) :=
  p.manifest.sites.toList.map fun d => (d.name, d.kind)

private theorem run_load {owner : TypeId} {w₁ : World}
    (ho : w.ownerFor rt p.manifest.owner = (owner, w₁))
    {result : Except MachineError (Array TypeId)}
    (hresult : p.classes.mapM (w₁.registry rt).resolve = result) :
    (load rt p).run w = (result.map fun classes => ⟨p, owner, classes, ⟨w₁.tables.size⟩⟩,
      if result.toBool then (w₁.addTable (.ofSites owner rt p.sites)).2 else w₁) := by
  have hstart (f : World → TypeId × World) (g : TypeId → Update (Except MachineError LoadedUnit))
      (hf : f w = (owner, w₁)) : ((modifyGet f : Update TypeId) >>= g).run w = (g owner).run w₁ := by
    rw [Update.run_modifyGet_bind, hf]
  have hnames (f : String → Except MachineError TypeId)
      (hf : ∀ name, f name = (w₁.registry rt).resolve name) : p.classes.mapM f = result := by
    rw [funext hf, hresult]
  unfold load
  rw [hstart _ _ ?owned, Update.run_get_bind]
  case owned =>
    rw [← ho, ownerFor]
    rcases (w.registry rt).lookup? p.manifest.owner with _ | t <;> rfl
  dsimp only
  rw [hnames _ fun name => ?resolved]
  case resolved =>
    rw [Registry.resolve]
    rcases (w₁.registry rt).lookup? name with _ | t <;> rfl
  cases result <;> rfl

/-- What becomes of classes and registries when a name gets a class if nothing goes by it. -/
structure World.Settles (w : World) (rt : Nat) (name : String) (w' : World) : Prop where
  known : ∀ t, (w.registry rt).lookup? name = some t → w'.classes = w.classes ∧ w'.runtimes = w.runtimes
  unheard : (w.registry rt).lookup? name = none → w.Introduces rt name w'

/-- What loading a program comes to. Classes and registries come to the same, whatever the outcome. -/
structure World.Loads (w : World) (rt : Nat) (p : Program) (outcome : Except MachineError LoadedUnit)
    (w' : World) : Prop where
  owner : w.Settles rt p.manifest.owner w'
  fails_iff : (∃ e, outcome = .error e) ↔ ∃ name ∈ p.classes.toList, p.Unknown (w.registry rt) name
  /-- The first unknown name is reported. -/
  error : ∀ e, outcome = .error e → ∃ before name after, p.classes.toList = before ++ name :: after
    ∧ (∀ n ∈ before, ¬ p.Unknown (w.registry rt) n) ∧ p.Unknown (w.registry rt) name
    ∧ e = .unknownClass name
  unit : ∀ u, outcome = .ok u → u.program = p ∧ (w'.registry rt).lookup? p.manifest.owner = some u.owner
    ∧ p.classes.toList.map (w'.registry rt).lookup? = u.classes.toList.map some
  table : ∀ u, outcome = .ok u → (w'.table u.table).owner = u.owner ∧ (w'.table u.table).runtime = rt
    ∧ ∀ i, (w'.table u.table).slots[i]?
      = p.manifest.sites[i]?.map fun d => ({ header := ⟨i, d.name⟩, kind := d.kind, site := .generic } : Slot)

/-- Loading changes no class and no registry, and has this outcome but for a table of its own. -/
def World.LoadsAgain (w : World) (rt : Nat) (p : Program)
    (outcome : Except MachineError LoadedUnit) : Prop :=
  ((load rt p).run w).2.classes = w.classes ∧ ((load rt p).run w).2.runtimes = w.runtimes
    ∧ ∃ table, ((load rt p).run w).1 = outcome.map fun u => { u with table }

private theorem loadsAgain {owner : TypeId} (ho : (w.registry rt).lookup? p.manifest.owner = some owner)
    {result : Except MachineError (Array TypeId)}
    (hresult : p.classes.mapM (w.registry rt).resolve = result) (t : TableRef) :
    w.LoadsAgain rt p (result.map fun classes => ⟨p, owner, classes, t⟩) := by
  rw [LoadsAgain, run_load (ownerFor_of_lookup? ho) hresult]
  rcases result with e | classes <;> exact ⟨rfl, rfl, ⟨w.tables.size⟩, rfl⟩

/-- Where a registry holds only its own classes, loading comes to that, and once more to the same. -/
theorem load_settles_owner (h : w.HoldsOwn rt) (p : Program) :
    w.Loads rt p ((load rt p).run w).1 ((load rt p).run w).2
      ∧ ((load rt p).run w).2.LoadsAgain rt p ((load rt p).run w).1 := by
  rcases ho : w.ownerFor rt p.manifest.owner with ⟨owner, w₁⟩
  have hlookup (name : String) : (w₁.registry rt).lookup? name
      = if name = p.manifest.owner then some owner else (w.registry rt).lookup? name := by
    have hlookup := lookup?_ownerFor h p.manifest.owner name
    rwa [ho] at hlookup
  have howner : (w₁.registry rt).lookup? p.manifest.owner = some owner := by rw [hlookup, if_pos rfl]
  have hunknown (name : String) :
      (w₁.registry rt).lookup? name = none ↔ p.Unknown (w.registry rt) name := by
    rw [hlookup, Program.Unknown, ← Registry.lookup?_eq_none_iff]
    by_cases hname : name = p.manifest.owner
    · simp [hname]
    · simp [hname]
  have hsettles : w.Settles rt p.manifest.owner w₁ := by
    refine ⟨fun t ht => ?_, fun hnone => ?_⟩
    · rw [ownerFor_of_lookup? ht] at ho
      obtain ⟨-, rfl⟩ := Prod.mk.inj ho
      exact ⟨rfl, rfl⟩
    · have hintroduces := (introduces_ownerFor h hnone).2
      rwa [ho] at hintroduces
  rcases (w₁.registry rt).mapM_resolve p.classes.toList with
    ⟨ts, hts, hmap⟩ | ⟨before, name, after, hsplit, hbefore, hname, herror⟩
  · have hresult : p.classes.mapM (w₁.registry rt).resolve = .ok ts.toArray := by
      rw [Array.mapM_eq_mapM_toList, hts]
      rfl
    have hnone (name : String) (hmem : name ∈ p.classes.toList) : ¬ p.Unknown (w.registry rt) name := by
      rw [← hunknown]
      intro hname
      have hmem' : none ∈ ts.map some := hmap ▸ hname ▸ List.mem_map_of_mem hmem
      obtain ⟨t, -, ht⟩ := List.mem_map.mp hmem'
      cases ht
    have htable : (w₁.addTable (.ofSites owner rt p.sites)).2.table ⟨w₁.tables.size⟩
        = .ofSites owner rt p.sites := by
      simp [World.addTable, World.table]
    have hrun : (load rt p).run w = (.ok ⟨p, owner, ts.toArray, ⟨w₁.tables.size⟩⟩,
        (w₁.addTable (.ofSites owner rt p.sites)).2) := run_load ho hresult
    rw [hrun]
    refine ⟨⟨⟨hsettles.known, fun hnone => (hsettles.unheard hnone).addTable _⟩, ⟨?_, ?_⟩, ?_, ?_, ?_⟩,
      @loadsAgain (w₁.addTable _).2 rt p owner howner _ hresult _⟩
    · rintro ⟨e, he⟩
      cases he
    · rintro ⟨name, hmem, hname⟩
      exact absurd hname (hnone name hmem)
    · intro e he
      cases he
    · intro u hu
      obtain rfl := Except.ok.inj hu
      exact ⟨rfl, howner, hmap⟩
    · intro u hu
      obtain rfl := Except.ok.inj hu
      rw [htable]
      refine ⟨rfl, rfl, fun i => ?_⟩
      rw [slots_ofSites, Program.sites, List.getElem?_map, Option.map_map, Array.getElem?_toList]
      rfl
  · have hresult : p.classes.mapM (w₁.registry rt).resolve = .error (.unknownClass name) := by
      rw [Array.mapM_eq_mapM_toList, herror]
      rfl
    have hrun : (load rt p).run w = (.error (.unknownClass name), w₁) := run_load ho hresult
    rw [hrun]
    refine ⟨⟨hsettles, ⟨fun _ => ?_, fun _ => ⟨_, rfl⟩⟩, fun e he => ?_, fun u hu => ?_, fun u hu => ?_⟩,
      loadsAgain howner hresult ⟨0⟩⟩
    · exact ⟨name, hsplit ▸ List.mem_append_right _ List.mem_cons_self, (hunknown name).mp hname⟩
    · exact ⟨before, name, after, hsplit, fun n hn => mt (hunknown n).mpr (hbefore n hn),
        (hunknown name).mp hname, (Except.error.inj he).symm⟩
    · cases hu
    · cases hu

end Loading

namespace Loaded

/-- One class has been built, and another definition has been begun. -/
def workshop : Workshop :=
  .after [{}] [.ask 0 (.define "Point" false), .ask 0 (.define "Line" false),
    .build 0 none { name := "Point" }]

/-- A program that refers to its owner, to a builtin type, and to the class that is still to be built. -/
def program : Program where
  classes := #["Shape", "Point", "String", "Line"]
  manifest := .ofSites "Shape" [("area", .call)]

end Loaded

/-- A definition that has only been begun has no name yet, so loading fails. Its identity stays reserved, and
the owner gets the next one. -/
theorem load_settles_owner_begun : Loaded.workshop.world.HoldsOwn 0
    ∧ (∃ e, ((load 0 Loaded.program).run Loaded.workshop.world).1 = .error e)
    ∧ (((load 0 Loaded.program).run Loaded.workshop.world).2.registry 0).lookup? "Shape" = some ⟨66⟩
    ∧ ((load 0 Loaded.program).run Loaded.workshop.world).2.LoadsAgain 0 Loaded.program
      ((load 0 Loaded.program).run Loaded.workshop.world).1 := by
  have hown : Loaded.workshop.world.HoldsOwn 0 :=
    (Workshop.sole_after (by decide +kernel)).holdsOwn (by decide +kernel)
  obtain ⟨hloads, hagain⟩ := load_settles_owner hown Loaded.program
  have hlookups := (hloads.owner.unheard (by decide +kernel)).lookups 0 "Shape"
  refine ⟨hown, hloads.fails_iff.mpr ⟨"Line", by decide, by decide +kernel⟩, ?_, hagain⟩
  rw [hlookups]
  decide +kernel

end CachedDispatch
