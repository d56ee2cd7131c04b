import CachedDispatch.Proofs.Equality
import CachedDispatch.Proofs.NativeCalls
import CachedDispatch.Proofs.NullReceivers
import CachedDispatch.Proofs.Parents
import CachedDispatch.Proofs.SessionHeaps

/-!
What `equals` answers. Values that show their type by their form have it from the root type, and null has one
of its own. In a session that leaves builtin types alone both answer whether the two values are equal.
-/
namespace CachedDispatch

open World

/-- The method of the root type. -/
private def equality : Method :=
  { Method.ofPrimitive "equals" [.any] (.object .equals) with declaring := .object }

/-- The method of the null type. -/
private def nullEquality : Method :=
  { Method.ofPrimitive "equals" [.any] (.nullObject .equals) with declaring := .null }

/-- The types of such values offer the method of the root type only, once for each class above theirs. -/
private theorem offers_equals {v : Value} {b : BuiltinType} (h : v.native? = some b) (k : Nat) :
    b.offers k "equals" = List.replicate k equality := by
  have hroot : BuiltinType.object.directory.filter (·.name = "equals") = [equality] := rfl
  have hown : b.directory.filter (·.name = "equals") = [] := by
    cases v <;> cases h <;> rfl
  rw [BuiltinType.offers, List.flatten_cons, List.filter_append, hown, List.nil_append, List.filter_flatten,
    List.map_replicate, hroot, List.flatten_replicate_singleton]

private theorem offers_equals_null (k : Nat) :
    BuiltinType.nullObject.offers k "equals" = nullEquality :: List.replicate k equality := by
  have hroot : BuiltinType.object.directory.filter (·.name = "equals") = [equality] := rfl
  have hown : BuiltinType.nullObject.directory.filter (·.name = "equals") = [nullEquality] := rfl
  rw [BuiltinType.offers, List.flatten_cons, List.filter_append, hown, List.filter_flatten,
    List.map_replicate, hroot, List.flatten_replicate_singleton]
  rfl

/-- Of methods that take one value of any type the first is picked. -/
private theorem pick_any {m : Method} {ms : List Method} (h : ∀ n ∈ m :: ms, n.params = [.any])
    (lin : Lineage) (v : Value) : pick lin (m :: ms) [v] = some m := by
  have hrank (n : Method) (hn : n ∈ m :: ms) : n.rank? lin [v] = some objectDistance :=
    rank?_singleton (h n hn) lin v
  refine pickBy_cons (hrank m List.mem_cons_self) fun n hn e he => ?_
  rw [hrank n (List.mem_cons_of_mem _ hn)] at he
  exact Nat.le_of_eq (Option.some.inj he)

private theorem pick_equals_null (lin : Lineage) (k : Nat) (v : Value) :
    pick lin (BuiltinType.nullObject.offers k "equals") [v] = some nullEquality := by
  rw [offers_equals_null]
  refine pick_any (fun n hn => ?_) lin v
  rcases List.mem_cons.mp hn with rfl | hn
  · rfl
  · rw [(List.mem_replicate.mp hn).2]
    rfl

namespace World

/-- Sessions come to the world, no builtin type has been touched, and no category is in force. -/
private structure Pristine (w : World) : Prop where
  attained : w.Attained
  grounded : w.Grounded
  untouched : ∀ b, w.Untouched b
  quiet : w.active = []

private theorem pristine_of_session {fuel : Nat} {steps : List Script.Step} {config : Config}
    {embedding : Embedding} {replies : List Script.Reply} {w : World}
    (h : (Script.performSteps fuel steps).run (initial config embedding) = .ok (replies, w))
    (hb : ∀ b, w.Untouched b) (hquiet : w.active = []) : w.Pristine :=
  ⟨attained_of_session h, grounded_of_session h, hb, hquiet⟩

namespace Pristine

variable {w : World} {v u : Value} {b : BuiltinType}

private theorem plain (h : w.Pristine) (b : BuiltinType) : w.Plain b :=
  ⟨h.attained, h.untouched b, h.untouched .object, h.quiet⟩

/-- Below the root type the method fits whatever the argument is. -/
private theorem fits_equals (hw : w.Attained) (h : w.Grounded) (hv : v.native? = some b) (rt : Nat)
    (u : Value) : w.Fits rt b "equals" [u] := by
  intro r hr
  have hroot : b.isRoot = false := by
    cases v <;> cases hv <;> rfl
  have hparent := h.entries rt b.id r hr b hroot (hw.inOrder.entries rt b.id r hr).2
  obtain ⟨k, hk⟩ := Nat.exists_eq_add_one_of_ne_zero (List.length_eq_zero_iff.not.mpr hparent)
  rw [offers_equals hv, hk, List.replicate_succ]
  rw [pick_any (fun n hn => ?_)]
  · rfl
  · rw [← List.replicate_succ] at hn
    rw [(List.mem_replicate.mp hn).2]
    rfl

/-- A value that shows its type by its form compares itself with the argument. -/
private theorem computes_equals_native (h : w.Pristine) (hv : v.native? = some b)
    (hu : u.isWrapper = false) : w.Computes v "equals" [u] (.ok (.bool (v.equal u))) := by
  intro s hname script current
  obtain ⟨slot, hs, hslot⟩ := Option.map_eq_some_iff.mp hname
  let request : Request := .call current v [u]
  have hasked := h.attained.deed (.record w (.asked s.table s.index request))
  have hplanned := hasked.deed (.plan hs List.mem_cons_self)
  have hground : (w.record (.asked s.table s.index request)).Grounded :=
    ⟨h.grounded.entries, h.grounded.labels⟩
  have hfits := fits_equals hplanned (hground.planAt hasked s.table slot request) hv
    (w.table s.table).runtime u
  have honly (lin : Lineage) (k : Nat) (us : List Value) (m : Method)
      (_ : Shape.of lin us = Shape.of w.lineage [u]) (hm : pick lin (b.offers k slot.name) us = some m) :
      m = equality := by
    have hmem := mem_of_pickBy hm
    rw [hslot, offers_equals hv] at hmem
    exact (List.mem_replicate.mp hmem).2
  have hcode : equality.code = .primitive (.object .equals) := rfl
  obtain ⟨names, alloc, w', hreplies⟩ := (h.plain b).replies_of_pick hs hv current (hslot ▸ hfits) honly
    hcode (by decide) (by simpa using hu) script
  have happly : ((Primitive.object .equals).apply names alloc v [u]).mapError Fault.bare
      = .ok (.bool (v.equal u)) := rfl
  exact ⟨w', happly ▸ hreplies⟩

end Pristine

namespace Plain

variable {w : World} {u : Value}

/-- The null class has the methods that the null type offers. -/
private theorem forNull_untouched (h : w.Plain .nullObject) (rt : Nat) (name : String) :
    ∃ k, (w.cls (w.nullClass rt)).forNull name = BuiltinType.nullObject.offers k name := by
  have hlt : (w.nullClass rt).idx < w.classes.size := by
    unfold nullClass
    rcases hr : w.classFor? rt .null with _ | r
    · exact (h.attained.anchored rt .nullObject).1
    · exact (h.attained.inOrder.entries rt _ r hr).1
  exact ⟨_, (h.attained.candidates_null h.own.genuine rt name).symm.trans
    (h.attained.candidates_untouched h.own h.root hlt (h.attained.id_nullClass rt) name _)⟩

/-- Whatever occupies the slot, the plan for null is to invoke the method of the null type. -/
private theorem planAt_equals_null (h : w.Plain .nullObject) {t : TableRef} {i : Nat} {slot : Slot}
    (hs : w.slot? t i = some slot) (hname : slot.name = "equals") (hu : u.isWrapper = false)
    (current : Bool) :
    ∃ origin w', (planAt t slot (.call current .null [u])).run w
      = (⟨origin, .invoke nullEquality .null [u]⟩, w') := by
  have hi : slot.header.index = i := h.attained.visited.balanced.index t i slot hs
  have hprepare (tier : Tier) : prepare nullEquality [u] tier = [u] :=
    prepare_of_plain (by decide) (by simpa using hu) tier
  have hn : (Request.call current .null [u]).onNull = true := rfl
  have hunwrap : unwrapArgs [u] = [u] := by
    cases u with
    | wrapper => cases hu
    | _ => rfl
  -- a full lookup asks the null class alone
  have hfull : ((planOnNull (w.siteContext t slot) (.call current .null [u])).run w).1
      = .invoke nullEquality .null [u] := by
    obtain ⟨k, hk⟩ := h.forNull_untouched (w.siteContext t slot).runtime slot.name
    have hpick : pick w.lineage ((w.cls (w.nullClass (w.siteContext t slot).runtime)).forNull slot.name)
        (unwrapArgs [u]) = some nullEquality := by
      rw [hk, hname, hunwrap, pick_equals_null]
    have hplan := Class.nullPlan_call hpick current
    rw [hprepare] at hplan
    exact (h.attained.planOnNull h.own.genuine hn).trans hplan
  have hlooked (plan : Update Plan) :
      (lookedUp plan).run w = (⟨.lookup, (plan.run w).1⟩, (plan.run w).2) := rfl
  have hnot (hcache : Cacheable w t slot (.call current .null [u])) : False := by
    cases hn.symm.trans hcache.notNull
  have hcourse := course_planAt hs hi (.call current .null [u])
  generalize (planAt t slot (.call current .null [u])).run w = r at hcourse ⊢
  cases hcourse with
  | @hit plan hit =>
    have hstems := h.attained.stems hs (Site.isSpecialized_of_cached? hit)
    obtain ⟨m, tier, rfl, w₀, k, us, -, -, hshape, hpick⟩ := hstems.picked h.own h.root
      (fun _ ha => Guard.eq_valueOf_of_admits_null ha) hit
    obtain ⟨x, rfl⟩ : ∃ x, us = [x] := List.length_eq_one_iff.mp (by
      simpa [Shape.of] using congrArg List.length hshape)
    have hm : pick w₀.lineage (BuiltinType.nullObject.offers k "equals") [x] = some m := hname ▸ hpick
    obtain rfl := Option.some.inj ((pick_equals_null w₀.lineage k x).symm.trans hm)
    exact ⟨_, w, by rw [hprepare]⟩
  | onNull =>
    rw [hlooked, hfull]
    exact ⟨_, _, rfl⟩
  | uncached =>
    rw [hlooked, ← plan_planOnNull hn, hfull]
    exact ⟨_, _, rfl⟩
  | givenUp hcache | unresolved hcache | installed hcache => exact (hnot hcache).elim

/-- Null asks whether the argument is null. -/
private theorem computes_equals_null (h : w.Plain .nullObject) (hu : u.isWrapper = false) :
    w.Computes .null "equals" [u] (.ok (.bool (Value.null.equal u))) := by
  intro s hname script current
  obtain ⟨slot, hs, hslot⟩ := Option.map_eq_some_iff.mp hname
  obtain ⟨origin, w', hp⟩ :=
    (h.record (.asked s.table s.index (.call current .null [u]))).planAt_equals_null hs hslot hu current
  have hcode : nullEquality.code = .primitive (.nullObject .equals) := rfl
  obtain ⟨-, w'', hreplies⟩ := replies_of_invoke hs hp rfl hcode script
  have happly : ((Primitive.nullObject .equals).apply w'.naming w'.fresh .null [u]).mapError Fault.bare
      = .ok (.bool u.isNull) := rfl
  have hnull : Value.null.equal u = u.isNull := by
    cases u <;> rfl
  rw [happly, ← hnull] at hreplies
  exact ⟨w'', hreplies⟩

end Plain

end World

/-- Values without floats. -/
abbrev FloatFree := { v : Value // v.floatFree = true }

section Session

variable {fuel : Nat} {steps : List Script.Step} {config : Config} {embedding : Embedding}
  {replies : List Script.Reply} {w : World}
  (hrun : (Script.performSteps fuel steps).run (initial config embedding) = .ok (replies, w))
include hrun

/-- Of two values that a session holds, identity is finer than equality, and equality than text and hash. -/
private theorem held_values_lawful {u v : FloatFree} (hu : w.Holds u.val) (hv : w.Holds v.val) :
    (u.val.same v.val = true → u.val.equal v.val = true)
    ∧ (u.val.equal v.val = true → ∀ names, u.val.display names = v.val.display names
      ∧ u.val.hashCode names = v.val.hashCode names) := by
  obtain ⟨heap, hw⟩ := stocked_of_session hrun
  replace hu := hw.inHeap hu
  replace hv := hw.inHeap hv
  refine ⟨Value.equal_of_same hu hv u.2, fun h names => ⟨?_, ?_⟩⟩
  · exact Value.display_eq_of_equal names _ _ hu hv u.2 v.2 h
  · exact Value.hashCode_eq_of_equal names hu hv u.2 v.2 h

/-- Equality and identity are equivalences on values without floats. Of two such values that a session holds,
identity implies equality, and equality implies the same text and the same hash. If builtin types are as they
came and no category is in force, `equals` on null and on values that show their type by their form answers
whether the two are equal, whatever occupies the slot. -/
theorem equality_lawful :
    Equivalence (fun u v : FloatFree => u.val.equal v.val = true)
    ∧ Equivalence (fun u v : FloatFree => u.val.same v.val = true)
    ∧ (∀ u v : FloatFree, w.Holds u.val → w.Holds v.val →
      (u.val.same v.val = true → u.val.equal v.val = true)
      ∧ (u.val.equal v.val = true → ∀ names, u.val.display names = v.val.display names
        ∧ u.val.hashCode names = v.val.hashCode names))
    ∧ ((∀ b, w.Untouched b) → w.active = [] → ∀ v u : Value, v = .null ∨ v.native?.isSome →
      u.isWrapper = false → w.Computes v "equals" [u] (.ok (.bool (v.equal u)))) := by
  refine ⟨⟨fun u => Value.equal_refl u.2, fun {u v} => Value.equal_symm u.2 v.2,
      fun {u v x} => Value.equal_trans u.2 v.2 x.2⟩,
    ⟨fun u => Value.same_refl u.2, fun {u v} => Value.same_symm u.2 v.2,
      fun {u v x} => Value.same_trans u.2 v.2 x.2⟩,
    fun u v hu hv => held_values_lawful hrun hu hv, fun hb hquiet v u hv hu => ?_⟩
  have hw := pristine_of_session hrun hb hquiet
  rcases hv with rfl | hv
  · exact (hw.plain .nullObject).computes_equals_null hu
  · obtain ⟨b, hb⟩ := Option.isSome_iff_exists.mp hv
    exact hw.computes_equals_native hb hu

end Session

/-- Two lists with the same items, which are compared. -/
def Script.twins : List Step := [
  .bind "xs" (.list [.int 1, .map [("key", .null)]]),
  .bind "ys" (.list [.int 1, .map [("key", .null)]]),
  .newTable "t" (.named "Object") [("equals", .call)],
  .call "t" 0 .call (.stored "xs") [.stored "ys"] none]

/-- Whether two lists are stored that are equal but not the same, the slot is filled, and nothing has been
done to types. -/
private def twinsDiffer : Option Bool :=
  match (Script.performSteps 8 Script.twins).run (initial {}) with
  | .ok (_, w) =>
    match w.scope.stored with
    | [a, b] => (w.slot? ⟨0⟩ 0).map fun slot =>
        decide (slot.name = "equals" ∧ slot.site.tag = .hostMethod) && w.active.isEmpty
          && w.classes.all (fun c => (c.id.isBuiltin = true → c.Native) ∧ c.stamp = 0)
          && a.2.floatFree && b.2.floatFree && a.2.native?.isSome
          && a.2.equal b.2 && !a.2.same b.2 && !b.2.isWrapper && !Value.null.equal b.2
    | _ => none
  | .error _ => none

/-- The two lists have one text and one hash. The slot has compared them, and it will again, and null with
one of them. -/
theorem equality_lawful_twins : ∃ replies w, ∃ a b : String × Value,
    (Script.performSteps 8 Script.twins).run (initial {}) = .ok (replies, w)
      ∧ w.scope.stored = [a, b] ∧ a.2.same b.2 = false
      ∧ (∀ names, a.2.display names = b.2.display names ∧ a.2.hashCode names = b.2.hashCode names)
      ∧ (w.slot? ⟨0⟩ 0).map (fun slot => (slot.name, slot.site.tag)) = some ("equals", .hostMethod)
      ∧ w.Computes a.2 "equals" [b.2] (.ok (.bool true))
      ∧ w.Computes .null "equals" [b.2] (.ok (.bool false)) := by
  have hcheck : twinsDiffer = some true := by decide +kernel
  unfold twinsDiffer at hcheck
  rcases hrun : (Script.performSteps 8 Script.twins).run (initial {}) with
    stop | ⟨replies, w⟩ <;> rw [hrun] at hcheck
  · cases hcheck
  dsimp only at hcheck
  split at hcheck
  · rename_i a b hstored
    obtain ⟨slot, hs, hslot⟩ := Option.map_eq_some_iff.mp hcheck
    simp only [Bool.and_eq_true, decide_eq_true_eq, Bool.not_eq_true', List.isEmpty_iff] at hslot
    obtain ⟨⟨⟨⟨⟨⟨⟨⟨⟨⟨hname, htag⟩, hquiet⟩, hstamps⟩, ha⟩, hb⟩, hnative⟩, hequal⟩, hsame⟩, hplain⟩, hnull⟩ :=
      hslot
    obtain ⟨-, -, hheld, hequals⟩ := equality_lawful hrun
    have hfirst : w.Holds a.2 := .stored (hstored ▸ List.mem_cons_self)
    have hsecond : w.Holds b.2 := .stored (hstored ▸ List.mem_cons_of_mem _ List.mem_cons_self)
    have hanswer := hequals (untouched_of_stamps hstamps) hquiet
    refine ⟨replies, w, a, b, rfl, hstored, hsame, ?_, ?_, ?_, ?_⟩
    · exact (hheld ⟨a.2, ha⟩ ⟨b.2, hb⟩ hfirst hsecond).2 hequal
    · rw [hs, Option.map_some, hname, htag]
    · exact hequal ▸ hanswer a.2 b.2 (.inr hnative) hplain
    · exact hnull ▸ hanswer .null b.2 (.inl rfl) hplain
  · cases hcheck

end CachedDispatch
