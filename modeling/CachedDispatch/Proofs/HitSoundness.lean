import CachedDispatch.Proofs.Transparency

/-!
When a hit may be trusted. The keys of the arguments decide which method a lookup selects, except
where a wrapper lets the line of its object show beside the declared type.
-/
namespace CachedDispatch

open World

variable {w : World}

/-- A value with the same key that shows no line. -/
private def Value.muted : Value → Value
  | .wrapper _ (.object _) declared => .wrapper 0 .null declared
  | v => v

private theorem Value.key_muted (lin : Lineage) (v : Value) :
    ShapeKey.of lin v.muted = ShapeKey.of lin v := by
  unfold muted
  split <;> rfl

private theorem Value.hidesLine_muted (lin : Lineage) (v : Value) : v.muted.HidesLine lin := by
  cases v with
  | wrapper n inner declared => cases inner <;> trivial
  | _ => trivial

private theorem Value.hostTyped_muted {v : Value} (h : w.HostTyped v) : w.HostTyped v.muted := by
  unfold muted
  split
  · trivial
  · exact h

private theorem exists_class_of_shown (ht : w.Tame) (ho : w.Orderly) (hh : w.Housed) {n : Nat}
    {o : ObjectRef} {declared : TypeId}
    (h : ¬ (Value.wrapper n (.object o) declared).HidesLine w.lineage) :
    declared ≠ .null ∧ ∃ t ∈ w.lineage o, t ≠ declared ∧ t ≠ .object
      ∧ coercible t declared = false := by
  obtain ⟨hnull, hshown⟩ := not_or.mp h
  push Not at hshown
  obtain ⟨t, hmem, hne, hobj⟩ := hshown
  have hlt : o.idx < w.objects.size := by
    by_contra hout
    rw [lineage_out_of_range ho hout, List.mem_singleton] at hmem
    exact hobj hmem
  have hown := ht.type_ne_builtin ho hh hlt
  refine ⟨hnull, ?_⟩
  -- The type of the object's own class is shown unless it is the declared one, and then it is not
  -- the type of integers, so that nothing can be coerced to `t`.
  by_cases hd : declared = (w.cls (w.classOfObject o)).id
  · refine ⟨t, hmem, hne, hobj, ?_⟩
    have hint : declared ≠ .int := hd ▸ hown .integer
    simp [coercible, hint]
  · have hmem : (w.cls (w.classOfObject o)).id ∈ w.lineage o := List.mem_cons_self
    have hfloat : (w.cls (w.classOfObject o)).id ≠ .float := hown .double
    exact ⟨_, hmem, Ne.symm hd, hown .object, by simp [coercible, hfloat]⟩

/-- A wrapper that shows the line of its object can be passed where a muted one cannot. -/
private theorem exists_param_for_shown (ht : w.Tame) (ho : w.Orderly) (hh : w.Housed) {v : Value}
    (h : ¬ v.HidesLine w.lineage) :
    ∃ p, (paramDistance w.lineage p v).isSome ∧ paramDistance w.lineage p v.muted = none := by
  cases v with
  | wrapper n inner declared =>
    cases inner with
    | object o =>
      obtain ⟨hnull, t, hmem, hne, hobj, hco⟩ := exists_class_of_shown ht ho hh h
      have hdepth : ((w.lineage o).idxOf? t).isSome := List.isSome_idxOf?.mpr hmem
      obtain ⟨d, hd⟩ := Option.isSome_iff_exists.mp hdepth
      refine ⟨.exact t, ?_, ?_⟩
      · simp [paramDistance, Value.effectiveType, Value.depthTo?, Value.unwrap, hobj, hne.symm, hnull,
          hd]
      · simp [paramDistance, Value.muted, Value.effectiveType, Value.depthTo?, Value.unwrap, hobj,
          hne.symm, hnull, hco]
    | _ => exact absurd trivial h
  | _ => exact absurd trivial h

private theorem isSome_totalDistance_any (lin : Lineage) (args : List Value) :
    (totalDistance lin (.replicate args.length .any) args).isSome := by
  induction args with
  | nil => rfl
  | cons v vs ih =>
    obtain ⟨d, hd⟩ := Option.isSome_iff_exists.mp ih
    simp [List.replicate_succ, totalDistance, paramDistance, hd]

/-- Of parameters that are all open but one, that one decides whether the arguments can be passed. -/
private theorem isSome_totalDistance_at (lin : Lineage) (p : ParamType) (v : Value)
    (args rest : List Value) :
    (totalDistance lin (.replicate args.length .any ++ p :: .replicate rest.length .any)
      (args ++ v :: rest)).isSome = (paramDistance lin p v).isSome := by
  induction args with
  | nil =>
    obtain ⟨d, hd⟩ := Option.isSome_iff_exists.mp (isSome_totalDistance_any lin rest)
    rcases hp : paramDistance lin p v with _ | e <;> simp [totalDistance, hd, hp]
  | cons u us ih =>
    rw [← ih]
    rcases ht : totalDistance lin (.replicate us.length .any ++ p :: .replicate rest.length .any)
      (us ++ v :: rest) with _ | e <;> simp [List.replicate_succ, totalDistance, paramDistance, ht]

private theorem isSome_pick_singleton (lin : Lineage) (m : Method) (args : List Value) :
    (pick lin [m] args).isSome = (m.rank? lin args).isSome := by
  rcases hr : m.rank? lin args with _ | d <;> simp [pick, pickBy, better, hr]

/-- Hiding the line is exactly what it takes for the keys to decide: argument lists do so if and only
if lookups select for them what they select for all others of their shape that do. -/
private theorem hidesLine_iff_selected_by_shape (ht : w.Tame) (ho : w.Orderly) (hh : w.Housed)
    {args : List Value} (hv : ∀ v ∈ args, w.HostTyped v) :
    (∀ v ∈ args, v.HidesLine w.lineage) ↔
      ∀ others, (∀ u ∈ others, w.HostTyped u ∧ u.HidesLine w.lineage) →
        Shape.of w.lineage others = Shape.of w.lineage args →
          ∀ candidates, pick w.lineage candidates others = pick w.lineage candidates args := by
  constructor
  · intro hl others ho' hshape candidates
    rw [pick_eq_pickByShape fun u hu => rankedByKey ht ho hh (ho' u hu).1 (ho' u hu).2,
      pick_eq_pickByShape fun v hm => rankedByKey ht ho hh (hv v hm) (hl v hm), hshape]
  · intro hsame v hm
    by_contra hshown
    obtain ⟨p, hopen, hclosed⟩ := exists_param_for_shown ht ho hh hshown
    obtain ⟨before, after, rfl⟩ := List.append_of_mem hm
    -- A method that takes all but one argument openly and tells that one from its muted form.
    let m : Method :=
      { (default : Method) with
        params := .replicate before.length .any ++ p :: .replicate after.length .any }
    have hpick := hsame ((before ++ v :: after).map Value.muted) ?_ ?_ [m]
    · have hsome := congrArg Option.isSome hpick
      rw [isSome_pick_singleton, isSome_pick_singleton] at hsome
      have hmuted := isSome_totalDistance_at w.lineage p v.muted (before.map .muted) (after.map .muted)
      rw [List.length_map, List.length_map] at hmuted
      simp only [Method.rank?, m, List.map_append, List.map_cons] at hsome
      rw [hmuted, isSome_totalDistance_at, hclosed, hopen] at hsome
      cases hsome
    · intro u hu
      obtain ⟨x, hx, rfl⟩ := List.mem_map.mp hu
      exact ⟨x.hostTyped_muted (hv x hx), x.hidesLine_muted _⟩
    · rw [Shape.of, Shape.of, List.map_map]
      exact List.map_congr_left fun x _ => x.key_muted _

/-- The lookup that a hit stands for: what is looked up, and for which arguments. -/
def Site.lookup? (c : Site.Context) : Site → Request → Option (Query × List Value)
  | .method guard _ current, .call _ _ args => some (guard.query c current, args)
  | .method guard _ current, .static _ args => some (guard.query c current, args)
  | .constructor _ _, .construct _ args => some (.constructor, args)
  | .bean _ _, .construct _ args => (beanSplit? args).map fun split => (.bean, split.1)
  | _, _ => none

/-- A site that hits has a lookup to stand for, with arguments of the shape that it remembers. -/
private theorem Site.exists_lookup_of_hit {site : Site} {request : Request} {plan : Plan}
    (hit : site.cached? w request = some plan) (c : Site.Context) {target : Target}
    (ht : target ∈ site.target?) :
    ∃ q args, site.lookup? c request = some (q, args) ∧ args ⊆ request.args
      ∧ target.Valid w args ∧ (site.Faithful w c → target.Remembers w q) := by
  cases cached?_eq_some_iff.mp hit with
  | call _ hvalid | static _ hvalid =>
    cases ht
    exact ⟨_, _, rfl, fun _ h => h, hvalid, fun hf => hf.2.1⟩
  | construct hvalid =>
    cases ht
    exact ⟨_, _, rfl, fun _ h => h, hvalid, fun hf => hf.2⟩
  | @bean _ _ _ positional _ hb hvalid =>
    cases ht
    refine ⟨.bean, positional, by simp only [lookup?, hb, Option.map_some], ?_, hvalid, fun hf => hf.2⟩
    obtain ⟨n, rfl⟩ := eq_append_of_beanSplit? hb
    exact List.subset_append_left _ _
  | property => cases ht

/-- The arguments of the request count as their keys say, and so did all arguments with such keys that
the slot was asked about. -/
def World.Covers (w : World) (t : TableRef) (i : Nat) (request : Request) : Prop :=
  (∀ v ∈ request.args, v.HidesLine w.lineage) ∧ w.Quiet t i (Shape.of w.lineage request.args)

/-- Without wrappers there is nothing to require, whatever the slot was asked before. -/
private theorem World.covers_of_unwrapped {request : Request}
    (h : ∀ v ∈ request.args, v.isWrapper = false) (t : TableRef) (i : Nat) : w.Covers t i request := by
  refine ⟨fun v hv => v.hidesLine_of_not_wrapper (h v hv), fun asked _ v _ hk => ?_⟩
  obtain ⟨u, hu, hkey⟩ := List.mem_map.mp hk
  have hwrapped : v.isWrapper = u.isWrapper := by
    rw [← ShapeKey.of_wrapped w.lineage v, ← ShapeKey.of_wrapped w.lineage u, hkey]
  exact v.hidesLine_of_not_wrapper (hwrapped.trans (h u hu))

/-- The memory of a covered slot that hits is true. -/
private theorem World.Covers.faithful (hr : w.Reachable) (ht : w.Tame) {t : TableRef} {i : Nat}
    {slot : Slot} (hs : w.slot? t i = some slot) {request : Request} (hc : w.Covers t i request)
    {plan : Plan} (hit : slot.site.cached? w request = some plan) :
    slot.site.Faithful w (w.siteContext t slot) := by
  refine hr.faithful ht hs fun target htarget asked ha v hv hk => hc.2 asked ha v hv ?_
  obtain ⟨-, args, -, hsub, hvalid, -⟩ :=
    Site.exists_lookup_of_hit hit (w.siteContext t slot) htarget
  rw [hvalid.shape] at hk
  exact List.map_subset _ hsub hk

/-- What a slot remembers is what a full lookup finds now, for all arguments that its check accepts and
that it covers. Arguments without wrappers are covered always. For others the condition is exact: if
the line of an object shows through a wrapper, arguments of one shape are told apart. -/
theorem hit_eq_full_lookup_of_covers (hr : w.Reachable) (ht : w.Tame) :
    (∀ t i slot request plan, w.slot? t i = some slot → slot.site.cached? w request = some plan →
      (∀ v ∈ request.values, w.HostTyped v) → w.Covers t i request →
        ((planFully (w.siteContext t slot) request).run w).1 = plan
          ∧ ∀ target ∈ slot.site.target?, ∃ q args,
            slot.site.lookup? (w.siteContext t slot) request = some (q, args)
              ∧ q.select w.lineage (w.hierarchy target.cls) args = some target.method)
    ∧ (∀ t i request, (∀ v ∈ request.args, v.isWrapper = false) → w.Covers t i request)
    ∧ ∀ args, (∀ v ∈ args, w.HostTyped v) →
      ((∀ v ∈ args, v.HidesLine w.lineage) ↔
        ∀ others, (∀ u ∈ others, w.HostTyped u ∧ u.HidesLine w.lineage) →
          Shape.of w.lineage others = Shape.of w.lineage args →
            ∀ candidates, pick w.lineage candidates others = pick w.lineage candidates args) := by
  have ho := hr.orderly ht.toLone
  have hh := hr.housed ht.toLone
  refine ⟨fun t i slot request plan hs hit hv hc => ?_,
    fun t i request hu => covers_of_unwrapped hu t i,
    fun args hv => hidesLine_iff_selected_by_shape ht ho hh hv⟩
  have hf := hc.faithful hr ht hs hit
  refine ⟨?_, fun target htarget => ?_⟩
  · rw [planFully_of_hit ht ho hh (hh.tables t) hf hv hc.1 hit]
  · obtain ⟨q, args, hq, hsub, hvalid, hremembers⟩ :=
      Site.exists_lookup_of_hit hit (w.siteContext t slot) htarget
    obtain ⟨hm, -, -⟩ := (hremembers hf).select_eq ht ho hh hvalid
      (fun v h => hv v (Request.mem_values_of_arg (hsub h))) (fun v h => hc.1 v (hsub h))
    exact ⟨q, args, hq, hm⟩

/-- A session that calls `m` with an object of `A` wrapped as text, and `n` with a number wrapped so. -/
def Script.coercions : List Script.Step := [
  .defineClass ⟨⟨"A", none, [], [], [], none⟩, "A", false⟩,
  .defineClass ⟨⟨"B", none, [], [], [], none⟩, "B", false⟩,
  .defineClass ⟨⟨"C", none, [], [], [
    { name := "m", params := [.exact (.named "A")], body := .const (.int 1) },
    { name := "m", params := [.exact (.named "B")], body := .const (.int 2) },
    { name := "n", params := [.exact (.named "String")], body := .receiver }], none⟩, "C", false⟩,
  .newObject (.named "A") "a",
  .newObject (.named "B") "b",
  .newObject (.named "C") "c",
  .newTable "t" (.named "C") [("m", .call), ("n", .call)],
  .call "t" 0 .call (.stored "c") [.wrapper (.stored "a") (.named "String")] none,
  .call "t" 1 .call (.stored "c") [.wrapper (.int 1) (.named "String")] none]

/-- The world after that session. -/
def World.coerced : World :=
  match (Script.performSteps 8 Script.coercions).run (.initial {}) with
  | .ok (_, w) => w
  | .error _ => .initial {}

private theorem World.reachable_coerced : coerced.Reachable := by
  unfold coerced
  split
  · rename_i hrun
    exact reachable_of_session hrun
  · exact ⟨{}, {}, .refl⟩

/-- A call of a method of the third object. -/
def Request.coerced (v : Value) : Request := .call false (.object ⟨2⟩) [.wrapper 0 v .text]

/-- The slot for `n` hits with another value in the wrapper, and covers it. -/
theorem hit_eq_full_lookup_of_covers_number : ∃ slot plan,
    coerced.slot? ⟨0⟩ 1 = some slot ∧ slot.site.cached? coerced (.coerced (.bool true)) = some plan
      ∧ coerced.Covers ⟨0⟩ 1 (.coerced (.bool true))
      ∧ ((planFully (coerced.siteContext ⟨0⟩ slot) (.coerced (.bool true))).run coerced).1 = plan := by
  have htame : coerced.Tame := by decide +kernel
  have hhosts : ∀ v ∈ (Request.coerced (.bool true)).values, coerced.HostTyped v := by decide +kernel
  have hcovers : coerced.Covers ⟨0⟩ 1 (.coerced (.bool true)) := ⟨by decide +kernel, by decide +kernel⟩
  have hcheck : ((coerced.slot? ⟨0⟩ 1).bind fun slot : Slot =>
      slot.site.cached? coerced (.coerced (.bool true))).isSome = true := by decide +kernel
  obtain ⟨plan, hplan⟩ := Option.isSome_iff_exists.mp hcheck
  obtain ⟨slot, hslot, hit⟩ := Option.bind_eq_some_iff.mp hplan
  obtain ⟨hsound, -, -⟩ := hit_eq_full_lookup_of_covers reachable_coerced htame
  exact ⟨slot, plan, hslot, hit, hcovers, (hsound _ _ _ _ _ hslot hit hhosts hcovers).1⟩

/-- The slot for `m` hits with an object of `B` in the wrapper, and remembers the method for `A`. -/
theorem hit_ne_full_lookup_where_line_shows : ∃ slot target q args,
    coerced.slot? ⟨0⟩ 0 = some slot
      ∧ (slot.site.cached? coerced (.coerced (.object ⟨1⟩))).isSome
      ∧ target ∈ slot.site.target?
      ∧ slot.site.lookup? (coerced.siteContext ⟨0⟩ slot) (.coerced (.object ⟨1⟩)) = some (q, args)
      ∧ target.method.params = [.exact ⟨64⟩]
      ∧ (q.select coerced.lineage (coerced.hierarchy target.cls) args).map Method.params
        = some [.exact ⟨65⟩] := by
  have hcheck : ((coerced.slot? ⟨0⟩ 0).bind fun slot : Slot => slot.site.target?.bind fun target =>
      (slot.site.lookup? (coerced.siteContext ⟨0⟩ slot) (.coerced (.object ⟨1⟩))).map fun q =>
        decide ((slot.site.cached? coerced (.coerced (.object ⟨1⟩))).isSome
          ∧ target.method.params = [.exact ⟨64⟩]
          ∧ (q.1.select coerced.lineage (coerced.hierarchy target.cls) q.2).map Method.params
            = some [.exact ⟨65⟩])) = some true := by decide +kernel
  obtain ⟨slot, hslot, hcheck⟩ := Option.bind_eq_some_iff.mp hcheck
  obtain ⟨target, htarget, hcheck⟩ := Option.bind_eq_some_iff.mp hcheck
  obtain ⟨⟨q, args⟩, hq, hcheck⟩ := Option.map_eq_some_iff.mp hcheck
  obtain ⟨hhit, hmethod, hselect⟩ := of_decide_eq_true hcheck
  exact ⟨slot, target, q, args, hslot, hhit, htarget, hq, hmethod, hselect⟩

end CachedDispatch
