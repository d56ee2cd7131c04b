import CachedDispatch.Proofs.Reentry
import CachedDispatch.Proofs.Registration

/-!
What becomes of a class when another takes its place in a registry. Replacing a class gives the old
one a new stamp, so that no call site trusts it any more. A definition that is built takes its place
without asking who holds it: where a registry was given a class under an identity that it has yet to
hand out or to build, that class is displaced and nobody is told.
-/
namespace CachedDispatch

namespace World

/-- A new stamp moves the version. -/
private theorem version_lt_bump (w : World) {r : ClassRef} (hr : r.idx < w.classes.size) :
    w.version r < (w.updateClass r Class.bump).version r := by
  have hcls (q : ClassRef) : (w.updateClass r Class.bump).cls q
      = if r = q ∧ q.idx < w.classes.size then (w.cls q).bump else w.cls q := cls_updateClass ..
  have hown : (w.updateClass r Class.bump).cls r = (w.cls r).bump := by
    rw [hcls, if_pos ⟨rfl, hr⟩]
  have hstamps (rs : List ClassRef) : (rs.map w.cls).foldr (fun c n => c.stamp + n) 0
      ≤ (rs.map (w.updateClass r Class.bump).cls).foldr (fun c n => c.stamp + n) 0 := by
    induction rs with
    | nil => exact Nat.le_refl _
    | cons q rs ih =>
      refine Nat.add_le_add ?_ ih
      rw [hcls]
      split
      · exact Nat.le_succ _
      · exact Nat.le_refl _
  simp only [version, Hierarchy.version, Hierarchy.classes, hierarchy, List.foldr_cons, hown]
  have h := hstamps (w.cls r).ancestors
  have hbump : (w.cls r).bump.stamp = (w.cls r).stamp + 1 := rfl
  have hanc : (w.cls r).bump.ancestors = (w.cls r).ancestors := rfl
  rw [hbump, hanc]
  omega

/-- The class that is replaced gets a new version. -/
theorem version_lt_replaceClass {w : World} (hc : w.Catalogued) {rt : Nat} {r p : ClassRef}
    (hp : w.classFor? rt (w.cls r).id = some p) : w.version p < (w.replaceClass rt r).2.version p := by
  have hlt : p.idx < (w.register rt r).classes.size := (hc.entries rt _ p hp).1
  have heq : (w.replaceClass rt r).2 = (w.register rt r).updateClass p Class.bump := by
    unfold classFor? at hp
    simp only [replaceClass, hp]
  rw [heq]
  exact (w.register rt r).version_lt_bump hlt

end World

namespace Site

/-- The version that the site was made for. -/
private def version? : Site → Option Nat
  | method _ target _ | constructor _ target | bean _ target => some target.version
  | property _ _ version _ => some version
  | _ => none

/-- A site serves only while the class that it depends on has the version it was made for. -/
private theorem version?_of_cached? {w : World} {site : Site} {request : Request} {plan : Plan}
    {cls : ClassRef} (hcls : site.cls? = some cls) (h : site.cached? w request = some plan) :
    site.version? = some (w.version cls) := by
  cases cached?_eq_some_iff.mp h with
  | call _ hv | static _ hv | construct hv | bean _ hv =>
    obtain rfl := Option.some.inj hcls
    exact congrArg some hv.version.symm
  | property =>
    obtain rfl := Option.some.inj hcls
    rfl

/-- A site that has served while its class had an earlier version serves no more. -/
private theorem cached?_eq_none_of_version_lt {w w' : World} {site : Site} {cls : ClassRef}
    (hcls : site.cls? = some cls) {request : Request} {plan : Plan}
    (h : site.cached? w request = some plan) (hv : w.version cls < w'.version cls)
    (request' : Request) : site.cached? w' request' = none := by
  rcases hc : site.cached? w' request' with _ | plan'
  · rfl
  · have hold := version?_of_cached? hcls h
    have hnew := version?_of_cached? hcls hc
    rw [hold] at hnew
    exact absurd (Option.some.inj hnew) (Nat.ne_of_lt hv)

end Site

namespace Workshop

/-- At some point of the run the registry had no class for the type, and was given one that it had
not built. -/
def Introduced (configs : List Config) (ops : List RegistryOp) (rt : Nat) (t : TypeId) : Prop :=
  ∃ before r later, ops = before ++ .ask rt (.replace r) :: later
    ∧ ((after configs before).world.cls r).id = t ∧ (after configs before).world.classFor? rt t = none

private theorem Introduced.concat {configs : List Config} {ops : List RegistryOp} {rt : Nat}
    {t : TypeId} (h : Introduced configs ops rt t) (op : RegistryOp) :
    Introduced configs (ops ++ [op]) rt t := by
  obtain ⟨before, r, later, rfl, hid, hnone⟩ := h
  exact ⟨before, r, later ++ [op], by simp, hid, hnone⟩

/-- How a defined type came by its class. -/
private theorem Step.isSome_classFor? {s s' : Workshop} {op : RegistryOp} (hs : s.Step op s')
    (hd : ∀ d ∈ s.drafts, d.runtime < s.world.runtimes.size) {rt : Nat} {t : TypeId}
    (ht : TypeId.firstDefined ≤ t.number) (h : (s'.world.classFor? rt t).isSome) :
    (s.world.classFor? rt t).isSome
      ∨ (∃ r, op = .ask rt (.replace r) ∧ (s.world.cls r).id = t) ∨ t ∈ s'.built rt := by
  have of_materialises {w' : World} (hm : s.world.Materialises w') (h : (w'.classFor? rt t).isSome) :
      (s.world.classFor? rt t).isSome := by
    obtain ⟨r, hr⟩ := Option.isSome_iff_exists.mp h
    rcases hm.entered rt t r hr with he | ⟨b, rfl, -⟩
    · rw [he]
      rfl
    · exact absurd (Nat.lt_of_lt_of_le b.number_id_lt (by decide)) (Nat.not_lt.mpr ht)
  cases hs with
  | quiet hm => exact Or.inl (of_materialises hm h)
  | @define _ _ _ _ w' hrt hm =>
    refine Or.inl (of_materialises hm ?_)
    rwa [World.classFor?_handOut] at h
  | @replace rt' q hrt hq =>
    dsimp only at h
    rw [(s.world.registers_replaceClass hrt q).classFor?] at h
    split at h
    · rename_i hc
      obtain ⟨rfl, rfl⟩ := hc
      exact Or.inr (Or.inl ⟨q, rfl, rfl⟩)
    · exact Or.inl h
  | @build k parent members d hk =>
    have hlt := hd d (List.mem_of_getElem? hk)
    dsimp only at h
    rw [(s.world.registers_buildClass hlt parent members).classFor?] at h
    split at h
    · rename_i hc
      obtain ⟨rfl, rfl⟩ := hc
      refine Or.inr (Or.inr ?_)
      unfold built
      rw [List.filterMap_cons, Notice.built?, if_pos rfl]
      exact List.mem_cons_self
    · exact Or.inl h

private theorem Step.built_subset {s s' : Workshop} {op : RegistryOp} (hs : s.Step op s') (rt : Nat)
    {t : TypeId} (h : t ∈ s.built rt) : t ∈ s'.built rt := by
  have hcons {w : World} {drafts : List Draft} (n : Notice) :
      t ∈ Workshop.built { world := w, drafts, log := n :: s.log } rt := by
    obtain ⟨m, hm, hmt⟩ := List.mem_filterMap.mp h
    exact List.mem_filterMap.mpr ⟨m, List.mem_cons_of_mem _ hm, hmt⟩
  cases hs with
  | quiet hm => exact h
  | define | replace | build => exact hcons _

/-- A defined type that has a class in a registry was built there, or brought in. -/
private theorem built_or_introduced (configs : List Config) (ops : List RegistryOp) {rt : Nat}
    {t : TypeId} (ht : TypeId.firstDefined ≤ t.number)
    (h : ((after configs ops).world.classFor? rt t).isSome) :
    t ∈ (after configs ops).built rt ∨ Introduced configs ops rt t := by
  induction ops using List.reverseRecOn with
  | nil =>
    have hempty := (opening_classFor? configs rt t)
    rw [after, List.foldl_nil, hempty] at h
    cases h
  | append_singleton ops op ih =>
    have hs := step_perform (after configs ops) op
    have hd := fun d hd => ((recorded_after configs ops).drafts d hd).1
    rw [after_concat] at h ⊢
    rcases hs.isSome_classFor? hd ht h with hold | ⟨r, rfl, hid⟩ | hbuilt
    · exact (ih hold).imp (hs.built_subset rt) (·.concat op)
    · by_cases hold : ((after configs ops).world.classFor? rt t).isSome
      · exact (ih hold).imp (hs.built_subset rt) (·.concat _)
      · exact Or.inr ⟨ops, r, [], rfl, hid, by simpa using hold⟩
    · exact Or.inl hbuilt

/-- Whenever an operation puts another class in the place of `cls`, the version of `cls` moves and
no call site that trusted it serves again, unless a definition is built under an identity for which
the registry was given a class that it had not built. Such a definition leaves `cls` as it was. The
registry must not have run out of identities. -/
theorem displaced_class_retired_unless_introduced (configs : List Config) (ops : List RegistryOp)
    (op : RegistryOp) {rt : Nat} {t : TypeId} {cls cls' : ClassRef}
    (hfew : ((after configs ops).issued rt).length ≤ TypeId.supply)
    (h : (after configs ops).world.classFor? rt t = some cls)
    (h' : (after configs (ops ++ [op])).world.classFor? rt t = some cls') (hne : cls' ≠ cls) :
    let w := (after configs ops).world
    let w' := (after configs (ops ++ [op])).world
    ((∃ r, op = .ask rt (.replace r)) ∧ w.version cls < w'.version cls
      ∧ ∀ site : Site, site.cls? = some cls → ∀ request plan, site.cached? w request = some plan →
          ∀ request', site.cached? w' request' = none)
    ∨ (∃ k parent members, op = .build k parent members) ∧ Introduced configs ops rt t
      ∧ w'.cls cls = w.cls cls := by
  intro w w'
  have hrec := recorded_after configs ops
  have hs := step_perform (after configs ops) op
  rw [← after_concat] at hs
  rcases hs.classFor?_cases (fun d hd => (hrec.drafts d hd).1) h with he | ⟨q, rfl, hw, rfl, -⟩ |
    ⟨k, parent, members, d, rfl, hk, rfl, rfl, hw, -⟩
  · exact absurd (Option.some.inj (h'.symm.trans he)) hne
  · have hv : w.version cls < w'.version cls := by
      simp only [w', hw]
      exact World.version_lt_replaceClass hrec.catalogued h
    exact Or.inl ⟨⟨q, rfl⟩, hv, fun site hcls request plan hserved request' =>
      Site.cached?_eq_none_of_version_lt hcls hserved hv request'⟩
  · obtain ⟨hlt, hissued⟩ := hrec.drafts d (List.mem_of_getElem? hk)
    have hb : ((after configs ops).world.registry d.runtime).begun ≤ TypeId.supply :=
      hrec.length_issued hlt ▸ hfew
    have hnot := (singular_after configs ops hb).unbuilt d (List.mem_of_getElem? hk) rfl
    have hdef := hrec.firstDefined_le hlt hb hissued
    have hintro := (built_or_introduced configs ops hdef (by rw [h]; rfl)).resolve_left hnot
    have hold : cls.idx < w.classes.size := (hrec.catalogued.entries _ _ cls h).1
    refine Or.inr ⟨⟨k, parent, members, rfl⟩, hintro, ?_⟩
    simp only [w', hw]
    exact (World.cls_addClass ..).trans (if_neg (Nat.ne_of_lt hold))

/-- Two registries build a class each, both under the first identity that they hand out. -/
def rivals : List RegistryOp := [
  .ask 1 (.define "A" false), .build 0 none { name := "A" },
  .ask 0 (.define "B" false), .build 0 none { name := "B" }]

theorem displaced_class_retired_unless_introduced_rivals :
    let w := (after [{}, {}] rivals).world
    let w' := (after [{}, {}] (rivals ++ [.ask 0 (.replace ⟨20⟩)])).world
    ((after [{}, {}] rivals).issued 0).length ≤ TypeId.supply
      ∧ w.classFor? 0 ⟨64⟩ = some ⟨21⟩ ∧ w'.classFor? 0 ⟨64⟩ = some ⟨20⟩
      ∧ w.version ⟨21⟩ < w'.version ⟨21⟩ := by
  intro w w'
  have hfew : ((after [{}, {}] rivals).issued 0).length ≤ TypeId.supply := by decide +kernel
  have h : w.classFor? 0 ⟨64⟩ = some ⟨21⟩ := by decide +kernel
  have h' : w'.classFor? 0 ⟨64⟩ = some ⟨20⟩ := by decide +kernel
  rcases displaced_class_retired_unless_introduced _ _ _ hfew h h' (by decide) with ⟨-, hv, -⟩ |
    ⟨⟨_, _, _, hop⟩, -⟩
  · exact ⟨hfew, h, h', hv⟩
  · cases hop

/-- The first registry is given the class of the second, and then hands out its identity. -/
def intrusion : List RegistryOp := [
  .ask 1 (.define "A" false),
  .build 0 none {
    name := "A", methods := [{ name := "m", params := [], isStatic := true, code := .script (.seq []) }] },
  .ask 0 (.replace ⟨20⟩),
  .ask 0 (.define "B" false)]

theorem displaced_class_still_trusted :
    let w := (after [{}, {}] intrusion).world
    let w' := (after [{}, {}] (intrusion ++ [.build 0 none { name := "B" }])).world
    w.classFor? 0 ⟨64⟩ = some ⟨20⟩ ∧ w'.classFor? 0 ⟨64⟩ = some ⟨21⟩ ∧ w'.version ⟨20⟩ = w.version ⟨20⟩
      ∧ ∃ site, ((resolve ⟨0, .object, "m"⟩ (.static ⟨64⟩ [])).run w).1 = some site
          ∧ site.cls? = some ⟨20⟩ ∧ (site.cached? w' (.static ⟨64⟩ [])).isSome = true := by
  intro w w'
  have hsite : ((resolve ⟨0, .object, "m"⟩ (.static ⟨64⟩ [])).run w).1.map
      (fun site => (site.cls?, (site.cached? w' (.static ⟨64⟩ [])).isSome))
        = some (some ⟨20⟩, true) := by decide +kernel
  obtain ⟨site, hs, hkept⟩ := Option.map_eq_some_iff.mp hsite
  obtain ⟨hcls, hserved⟩ := Prod.mk.inj hkept
  exact ⟨by decide +kernel, by decide +kernel, by decide +kernel, site, hs, hcls, hserved⟩

end Workshop

end CachedDispatch
