import CachedDispatch.Proofs.NativeCalls
import CachedDispatch.Proofs.NewObjects

/-!
Maps, whose entries may repeat keys. Whichever way it is asked for a key, a map answers with the first entry
of the key. `plus` writes the entries of its argument over those of the receiver one after another. So of a
key that the argument repeats the last entry counts in the sum, while in the argument the first one does.
-/
namespace CachedDispatch

open World

namespace Assoc

variable {κ α : Type} [DecidableEq κ]

private theorem contains_reverse (m : List (κ × α)) (k : κ) : contains m.reverse k = contains m k :=
  List.any_reverse

private theorem keys_set (m : List (κ × α)) (k : κ) (v : α) :
    (set m k v).map Prod.fst
      = if k ∈ m.map Prod.fst then m.map Prod.fst else m.map Prod.fst ++ [k] := by
  induction m with
  | nil => rfl
  | cons e m ih =>
    rw [set]
    by_cases he : e.1 = k
    · simp [he]
    · rw [if_neg he, List.map_cons, List.map_cons, ih]
      by_cases hk : k ∈ m.map Prod.fst
      · rw [if_pos hk, if_pos (List.mem_cons_of_mem _ hk)]
      · rw [if_neg hk, if_neg (by simpa [Ne.symm he] using hk)]
        rfl

/-- Entries that are written leave the keys in their places, and new keys follow in the order of their first
entries. -/
private theorem keys_foldl_set (entries m : List (κ × α)) :
    (entries.foldl (fun m e => set m e.1 e.2) m).map Prod.fst
      = m.map Prod.fst ++ ((entries.map Prod.fst).filter (· ∉ m.map Prod.fst)).eraseDups := by
  induction entries generalizing m with
  | nil => simp
  | cons e entries ih =>
    rw [List.foldl_cons, ih, keys_set]
    by_cases he : e.1 ∈ m.map Prod.fst
    · rw [if_pos he, List.map_cons, List.filter_cons_of_neg (by simpa using he)]
    · rw [if_neg he, List.map_cons, List.filter_cons_of_pos (by simpa using he), List.eraseDups_cons,
        List.filter_filter, List.append_assoc, List.singleton_append]
      congr 3
      refine List.filter_congr fun k _ => Bool.eq_iff_iff.mpr ?_
      simp [-List.mem_map, and_comm]

/-- A key is there afterwards if it was there before or is written. -/
private theorem contains_foldl_set (entries m : List (κ × α)) (k : κ) :
    contains (entries.foldl (fun m e => set m e.1 e.2) m) k = (contains m k || contains entries k) := by
  rw [contains_eq_isSome, get?_foldl_set, Option.isSome_or, ← contains_eq_isSome, ← contains_eq_isSome,
    contains_reverse, Bool.or_comm]

end Assoc

namespace World

variable {w : World} {c : Site.Context} {t : TableRef} {i : Nat} {slot : Slot} {n : Nat}
  {entries : List (String × Value)}

/-- A site for the properties of maps reads an entry. It may have been resolved for another value of the
type, but the type has no properties to remember. -/
private theorem Attained.entry_of_resolve {w₀ w₁ : World} {request : Request} {site : Site}
    {r : ClassRef} {version : Nat} {access : Access} (hw : (w₁.installed t i c.runtime site).Attained)
    (hb : (w₁.installed t i c.runtime site).Untouched .map)
    (ho : (w₁.installed t i c.runtime site).Untouched .object) (hrt : c.runtime < w₀.runtimes.size)
    (hr : (resolve c request).run w₀ = (some site, w₁))
    (hsite : site = .property (.valueOf .map) r version access) : access = .entry c.name := by
  obtain ⟨w', -, hsize, hres⟩ := resolved_of_resolve hr
  cases hres with
  | @property receiver rc r' guard access' hrc hg haccess =>
    obtain ⟨rfl, rfl, -, rfl⟩ := Site.property.inj hsite
    have hentry := classFor?_of_guardFor (hsize ▸ hrt) hrc hg
    obtain ⟨hlt, hid⟩ := hw.inOrder.entries c.runtime .map r' (by
      rwa [classFor?, World.installed, registry_updateStats])
    have hnone : (w₁.hierarchy r').property? w₁.lineage c.name = none :=
      hw.property?_untouched hb ho hlt hid _ _
    cases receiver with
    | map => exact (Option.some.inj haccess).symm
    | _ =>
      simp only [accessFor, hnone] at haccess
      cases haccess
  | _ => cases hsite

private theorem property_of_cached? {site : Site} {plan : Plan}
    (h : site.cached? w (.property (.map n entries)) = some plan) :
    ∃ r version access, site = .property (.valueOf .map) r version access
      ∧ plan = access.read w r (.map n entries) := by
  cases Site.cached?_eq_some_iff.mp h with
  | property ha =>
    obtain rfl := Guard.eq_valueOf_native rfl ha
    exact ⟨_, _, _, rfl, rfl⟩

private theorem Stems.entry {site : Site} (h : Stems w c site) (hb : w.Untouched .map)
    (ho : w.Untouched .object) {plan : Plan}
    (hit : site.cached? w (.property (.map n entries)) = some plan) :
    plan = .answer ((Assoc.get? entries c.name).getD .null) := by
  obtain ⟨r, version, access, hsite, rfl⟩ := property_of_cached? hit
  obtain ⟨hw₀, hd, hrt, -, hr, hds⟩ := h
  have hw₁ := hw₀.deed hd
  obtain rfl := hw₁.entry_of_resolve (hb.of_deeds hw₁ hds) (ho.of_deeds hw₁ hds) hrt hr hsite
  rfl

/-- Whatever its course, reading a property of a map is to answer with the entry. -/
private theorem Plain.planAt_entry (h : w.Plain .map) (hs : w.slot? t i = some slot)
    (ha : .asked t i (.property (.map n entries)) ∈ w.history) :
    ∃ origin w', (planAt t slot (.property (.map n entries))).run w
      = (⟨origin, .answer ((Assoc.get? entries slot.name).getD .null)⟩, w') := by
  have hbodies := SameBodies.planAt t slot (.property (.map n entries)) w
  rcases hp : (planAt t slot (.property (.map n entries))).run w with ⟨⟨origin, plan⟩, w'⟩
  rw [hp] at hbodies
  have hentry : plan = .answer ((Assoc.get? entries slot.name).getD .null) := by
    rcases h.attained.source hs ha rfl hp with ⟨site, hstems, hit, -⟩ | ⟨w₁, -, -, hrun⟩
    · exact hstems.entry (hbodies.untouched h.own) (hbodies.untouched h.root) hit
    · exact (congrArg Prod.fst hrun).symm
  exact ⟨origin, w', by rw [hentry]⟩

private theorem Plain.answers_entry (h : w.Plain .map) (hs : w.slot? t i = some slot) (n : Nat)
    (entries : List (String × Value)) (run : Runner) :
    w.Answers run t i (.property (.map n entries))
      (.ok ((Assoc.get? entries slot.name).getD .null)) := by
  let request : Request := .property (.map n entries)
  have hs' : (w.record (.asked t i request)).slot? t i = some slot := hs
  obtain ⟨origin, w', hp⟩ :=
    (h.record (.asked t i request)).planAt_entry hs' List.mem_cons_self
  unfold World.Answers
  rw [result_dispatch, result_serve hs' hp]
  exact ⟨_, rfl⟩

end World

/-- A method that maps come with, for one argument of a type. -/
private def mapMethod (name : String) (param : TypeId) (p : MapOp) : Method :=
  { Method.ofPrimitive name [.exact param] (.map p) with declaring := .map }

private theorem World.Plain.answers_map {w : World} (h : w.Plain .map) {t : TableRef} {i : Nat}
    {slot : Slot} (hs : w.slot? t i = some slot) {name : String} (hname : slot.name = name)
    {param : TypeId} {p : MapOp} (hroot : BuiltinType.object.directory.filter (·.name = name) = [])
    (hown : BuiltinType.map.directory.filter (·.name = name) = [mapMethod name param p]) (v : Value)
    (hrank : ∀ lin, ((mapMethod name param p).rank? lin [v]).isSome) (hparam : param ≠ .float)
    (hv : v.isWrapper = false) (current : Bool) (script : Script.Body → Frame → Exec Fault Value)
    (n : Nat) (entries : List (String × Value)) :
    ∃ names alloc, w.Answers (.ofScripts script) t i (.call current (.map n entries) [v])
      ((Primitive.apply names alloc (.map n entries) [v] (.map p)).mapError Fault.bare) := by
  have hsole (k : Nat) : BuiltinType.map.offers k slot.name = [mapMethod name param p] := by
    rw [hname, BuiltinType.offers_eq _ _ hroot, hown]
  have hparams : .exact .float ∉ (mapMethod name param p).params := by
    rw [mapMethod, Method.ofPrimitive, List.mem_singleton]
    exact fun heq => hparam (ParamType.exact.inj heq).symm
  exact h.answers_sole hs rfl hsole hrank rfl hparams (fun u hu => List.mem_singleton.mp hu ▸ hv)
    current script

/-- The ways to ask a map for a key: the methods `get` and `getAt`, and the property of that name. -/
inductive Asks (m : Value) (key : String) : String → Request → Prop
  | get (current : Bool) : Asks m key "get" (.call current m [.text key])
  | getAt (current : Bool) : Asks m key "getAt" (.call current m [.text key])
  | property : Asks m key key (.property m)

namespace Value

/-- Whichever way and wherever it is asked for the key, the map answers with the value. -/
def Yields (m : Value) (key : String) (v : Value) : Prop :=
  ∀ ⦃w : World⦄ ⦃t i slot request⦄, w.Plain .map → w.slot? t i = some slot →
    Asks m key slot.name request → ∀ script, w.Answers (.ofScripts script) t i request (.ok v)

/-- Wherever it is asked whether it has the key, the map answers so. -/
def HasKey (m : Value) (key : String) (found : Bool) : Prop :=
  ∀ ⦃w : World⦄ ⦃t i slot⦄, w.Plain .map → w.slot? t i = some slot → slot.name = "containsKey" →
    ∀ current script,
      w.Answers (.ofScripts script) t i (.call current m [.text key]) (.ok (.bool found))

section Keys

variable (n : Nat) (entries : List (String × Value)) (key : String)

/-- A map answers with the first entry of a key, -/
private theorem yields_map : (map n entries).Yields key ((Assoc.get? entries key).getD .null) := by
  intro w t i slot request h hs hasks script
  generalize hname : slot.name = name at hasks
  cases hasks with
  | get current =>
    obtain ⟨_, _, hanswers⟩ := h.answers_map hs hname rfl rfl (.text key) (fun _ => rfl) (by decide)
      rfl current script n entries
    exact hanswers
  | getAt current =>
    obtain ⟨_, _, hanswers⟩ := h.answers_map hs hname rfl rfl (.text key) (fun _ => rfl) (by decide)
      rfl current script n entries
    exact hanswers
  | property => exact hname ▸ h.answers_entry hs n entries _

/-- and it has the keys of its entries. -/
private theorem hasKey_map : (map n entries).HasKey key (Assoc.contains entries key) := by
  intro w t i slot h hs hname current script
  obtain ⟨_, _, hanswers⟩ := h.answers_map hs hname rfl rfl (.text key) (fun _ => rfl) (by decide)
    rfl current script n entries
  exact hanswers

end Keys

end Value

namespace Merged

/-- Slots for the methods that concern keys, and one for a property. -/
def world : World :=
  ((initial {}).addTable (.ofSites .object 0
    [("plus", .call), ("get", .call), ("containsKey", .call), ("k", .getProperty)])).2

private theorem plain_world : world.Plain .map := by
  have hfirst : (initial {}).Attained := ⟨{}, {}, .refl⟩
  exact ⟨hfirst.deed (.addTable (by decide) .object _), untouched_of_all (by decide +kernel),
    untouched_of_all (by decide +kernel), rfl⟩

end Merged

/-- A map yields one value for a key. -/
private theorem Value.Yields.unique {m v v' : Value} {key : String} (h : m.Yields key v)
    (h' : m.Yields key v') : v = v' := by
  obtain ⟨slot, hs, hname⟩ : ∃ slot, Merged.world.slot? ⟨0⟩ 1 = some slot ∧ slot.name = "get" :=
    ⟨_, rfl, rfl⟩
  have hasks : Asks m key slot.name (.call false m [.text key]) := hname ▸ .get false
  obtain ⟨w, hw⟩ := h Merged.plain_world hs hasks (Script.evalBody 0)
  obtain ⟨w', hw'⟩ := h' Merged.plain_world hs hasks (Script.evalBody 0)
  rw [hw] at hw'
  exact Except.ok.inj (Prod.mk.inj (Except.ok.inj hw')).1

/-- How a map answers for a key that is the sum of two maps with these entries. -/
structure Value.Sums (c : Value) (as bs : List (String × Value)) (key : String) : Prop where
  /-- It has the keys of both. -/
  hasKey : c.HasKey key (Assoc.contains as key || Assoc.contains bs key)
  /-- What the second map does not have it yields as the first one does. -/
  left : Assoc.contains bs key = false → c.Yields key ((Assoc.get? as key).getD .null)
  /-- Otherwise the last entry of the key in the second map counts. -/
  right : ∀ v, Assoc.get? bs.reverse key = some v → c.Yields key v
  /-- So it yields what the second map does if there the last entry of the key agrees with the first one,
  and only then. -/
  agrees : Assoc.contains bs key = true →
    (c.Yields key ((Assoc.get? bs key).getD .null) ↔ Assoc.get? bs.reverse key = Assoc.get? bs key)

private theorem sums_mergeEntries (n : Nat) (as bs : List (String × Value)) (key : String) :
    (Value.map n (mergeEntries as bs)).Sums as bs key := by
  have hget : Assoc.get? (mergeEntries as bs) key = (Assoc.get? bs.reverse key).or (Assoc.get? as key) :=
    Assoc.get?_foldl_set bs as key
  have hyields := Value.yields_map n (mergeEntries as bs) key
  rw [hget] at hyields
  have hright (v : Value) (hv : Assoc.get? bs.reverse key = some v) :
      (Value.map n (mergeEntries as bs)).Yields key v := by
    rw [hv] at hyields
    exact hyields
  refine ⟨?_, fun hnone => ?_, hright, fun hsome => ?_⟩
  · rw [← Assoc.contains_foldl_set]
    exact Value.hasKey_map n (mergeEntries as bs) key
  · rw [← Assoc.contains_reverse, Assoc.contains_eq_isSome, Option.isSome_eq_false_iff,
      Option.isNone_iff_eq_none] at hnone
    rw [hnone] at hyields
    exact hyields
  · obtain ⟨u, hu⟩ := Option.isSome_iff_exists.mp ((Assoc.contains_eq_isSome ..).symm.trans hsome)
    rw [← Assoc.contains_reverse] at hsome
    obtain ⟨v, hv⟩ := Option.isSome_iff_exists.mp ((Assoc.contains_eq_isSome ..).symm.trans hsome)
    rw [hu, hv, Option.getD_some]
    exact ⟨fun h => congrArg some ((hright v hv).unique h), fun h => hright u (hv.trans h)⟩

/-- Where the types of maps and of objects have not been touched and no category is in force, every slot of
the name `plus` adds maps so, whatever occupies it. The keys of the first map keep their order, and those
that are new in the second one follow in its order. The maps themselves answer with their first entries. -/
theorem map_plus_merges {w : World} (h : w.Plain .map) {t : TableRef} {i : Nat} {slot : Slot}
    (hs : w.slot? t i = some slot) (hname : slot.name = "plus")
    (script : Script.Body → Frame → Exec Fault Value) (current : Bool) (n m : Nat)
    (as bs : List (String × Value)) :
    ∃ k cs, w.Answers (.ofScripts script) t i (.call current (.map n as) [.map m bs]) (.ok (.map k cs))
      ∧ cs.map Prod.fst
        = as.map Prod.fst ++ ((bs.map Prod.fst).filter (· ∉ as.map Prod.fst)).eraseDups
      ∧ ∀ key, (Value.map k cs).Sums as bs key
        ∧ (Value.map n as).HasKey key (Assoc.contains as key)
        ∧ (Value.map n as).Yields key ((Assoc.get? as key).getD .null)
        ∧ (Value.map m bs).HasKey key (Assoc.contains bs key)
        ∧ (Value.map m bs).Yields key ((Assoc.get? bs key).getD .null) := by
  obtain ⟨names, alloc, hanswers⟩ := h.answers_map hs hname rfl rfl (.map m bs) (fun _ => rfl)
    (by decide) rfl current script n as
  refine ⟨alloc, mergeEntries as bs, hanswers, Assoc.keys_foldl_set bs as, fun key => ?_⟩
  exact ⟨sums_mergeEntries alloc as bs key, Value.hasKey_map n as key, Value.yields_map n as key,
    Value.hasKey_map m bs key, Value.yields_map m bs key⟩

/-- Of the key `k` the second map decides, and its other key comes last. -/
theorem map_plus_merges_overridden : ∃ k cs,
    Merged.world.Answers (.ofScripts (Script.evalBody 0)) ⟨0⟩ 0
        (.call false (.map 0 [("k", .int 0), ("j", .int 1)]) [.map 1 [("i", .int 2), ("k", .int 3)]])
        (.ok (.map k cs))
      ∧ cs.map Prod.fst = ["k", "j", "i"]
      ∧ Merged.world.Answers (.ofScripts (Script.evalBody 0)) ⟨0⟩ 1
        (.call false (.map k cs) [.text "k"]) (.ok (.int 3))
      ∧ Merged.world.Answers (.ofScripts (Script.evalBody 0)) ⟨0⟩ 3 (.property (.map k cs)) (.ok (.int 3))
      ∧ Merged.world.Answers (.ofScripts (Script.evalBody 0)) ⟨0⟩ 1
        (.call false (.map k cs) [.text "j"]) (.ok (.int 1))
      ∧ Merged.world.Answers (.ofScripts (Script.evalBody 0)) ⟨0⟩ 2
        (.call true (.map k cs) [.text "h"]) (.ok (.bool false)) := by
  obtain ⟨slot, hs, hname⟩ : ∃ slot, Merged.world.slot? ⟨0⟩ 0 = some slot ∧ slot.name = "plus" :=
    ⟨_, rfl, rfl⟩
  obtain ⟨k, cs, hplus, hkeys, hsums⟩ := map_plus_merges Merged.plain_world hs hname
    (Script.evalBody 0) false 0 1 [("k", .int 0), ("j", .int 1)] [("i", .int 2), ("k", .int 3)]
  refine ⟨k, cs, hplus, hkeys, ?_, ?_, ?_, ?_⟩
  · exact (hsums "k").1.right _ rfl Merged.plain_world rfl (.get false) _
  · exact (hsums "k").1.right _ rfl Merged.plain_world rfl .property _
  · exact (hsums "j").1.left rfl Merged.plain_world rfl (.get false) _
  · exact (hsums "h").1.hasKey Merged.plain_world rfl rfl true _

/-- The second map answers with the first of its two entries, and the sum with the last. -/
theorem last_entry_in_sum : Merged.world.Plain .map
    ∧ Merged.world.Answers (.ofScripts (Script.evalBody 0)) ⟨0⟩ 0
      (.call false (.map 0 []) [.map 1 [("k", .int 1), ("k", .int 2)]])
      (.ok (.map Merged.world.fresh [("k", .int 2)]))
    ∧ Merged.world.Answers (.ofScripts (Script.evalBody 0)) ⟨0⟩ 1
      (.call false (.map 1 [("k", .int 1), ("k", .int 2)]) [.text "k"]) (.ok (.int 1))
    ∧ Merged.world.Answers (.ofScripts (Script.evalBody 0)) ⟨0⟩ 1
      (.call false (.map Merged.world.fresh [("k", .int 2)]) [.text "k"]) (.ok (.int 2)) :=
  ⟨Merged.plain_world, ⟨_, rfl⟩, ⟨_, rfl⟩, ⟨_, rfl⟩⟩

end CachedDispatch
