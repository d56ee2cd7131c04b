import CachedDispatch.Proofs.NativeCalls

/-!
Indices into lists and texts. A negative index counts from the end. Beyond their ends lists answer null, or
fail where only the front is looked at, and texts fail. Positions are found in 64 bits without overflow. The
characters at all positions of a text, put together, are the text.
-/
namespace CachedDispatch

open World

section Positions

variable {i : Int64} {n k : Nat}

private theorem position?_eq_some (hk : k < n) (hi : i.toInt = k ∨ i.toInt = k - n) :
    position? i n = some k := by
  have hplace : (if i.toInt < 0 then (n : Int) + i.toInt else i.toInt) = k := by
    split <;> omega
  rw [position?, hplace]
  exact if_pos ⟨Int.natCast_nonneg k, Int.ofNat_lt.mpr hk⟩

private theorem position?_eq_none (hi : i.toInt < -n ∨ n ≤ i.toInt) : position? i n = none := by
  refine if_neg ?_
  split <;> omega

private theorem exists_position (hlow : -n ≤ i.toInt) (hhigh : i.toInt < n) :
    ∃ k < n, i.toInt = k ∨ i.toInt = k - n := by
  refine ⟨(if i.toInt < 0 then n + i.toInt else i.toInt).toNat, ?_⟩
  split <;> omega

namespace Word

/-- The position found in 64 bits. -/
def position? (i : Int64) (n : Nat) : Option Nat :=
  let k := if i < 0 then Int64.ofNat n + i else i
  if 0 ≤ k ∧ k < Int64.ofNat n then some k.toInt.toNat else none

/-- A sum of a length and a negative index fits. -/
private theorem toInt_ofNat_add (hn : n < 2 ^ 63) (hi : i.toInt < 0) :
    (Int64.ofNat n + i).toInt = n + i.toInt := by
  have hlow := i.le_toInt
  rw [Int64.toInt_add, Int64.toInt_ofNat_of_lt hn]
  exact Int.bmod_eq_of_le (by omega) (by omega)

/-- So does the difference of an index that is not negative and a length. -/
private theorem toInt_sub_ofNat (hn : n < 2 ^ 63) (hi : 0 ≤ i.toInt) :
    (i - Int64.ofNat n).toInt = i.toInt - n := by
  have hhigh := i.toInt_lt
  rw [Int64.toInt_sub, Int64.toInt_ofNat_of_lt hn]
  exact Int.bmod_eq_of_le (by omega) (by omega)

private theorem position?_eq (hn : n < 2 ^ 63) (i : Int64) :
    position? i n = CachedDispatch.position? i n := by
  have hsum : (if i < 0 then Int64.ofNat n + i else i).toInt
      = if i.toInt < 0 then (n : Int) + i.toInt else i.toInt := by
    simp only [Int64.lt_iff_toInt_lt, Int64.toInt_zero]
    split
    · exact toInt_ofNat_add hn ‹_›
    · rfl
  simp only [position?, CachedDispatch.position?, Int64.le_iff_toInt_le,
    Int64.lt_iff_toInt_lt (y := Int64.ofNat n), hsum, Int64.toInt_ofNat_of_lt hn, Int64.toInt_zero]

end Word

end Positions

/-- What indexing a list comes to. -/
structure World.IndexesList (w : World) (alloc : Nat) (xs : List Value) (i : Int64) : Prop where
  front : ∀ (k : Nat) v, xs[k]? = some v → i.toInt = k →
    w.Computes (.list alloc xs) "getAt" [.int i] (.ok v) ∧ w.Computes (.list alloc xs) "get" [.int i] (.ok v)
  back : ∀ (k : Nat) v, xs[k]? = some v → i.toInt = k - xs.length →
    w.Computes (.list alloc xs) "getAt" [.int i] (.ok v)
  beyond : i.toInt < -xs.length ∨ xs.length ≤ i.toInt →
    w.Computes (.list alloc xs) "getAt" [.int i] (.ok .null)
  /-- From the front an index must be within the list. -/
  refused : i.toInt < 0 ∨ xs.length ≤ i.toInt →
    w.Computes (.list alloc xs) "get" [.int i] (.error (outOfRange "List" i xs.length))

/-- Puts together the first `n` characters of a text, one call for each and one to append it. -/
def spell (run : Runner) (current : Bool) (getAt plus : SlotRef) (s : String) (n : Nat) :
    Exec Fault Value :=
  (List.range n).foldlM (fun joined k => do
    let c ← callAt run current getAt (.text s) [.int (.ofNat k)]
    callAt run current plus joined [c]) (.text "")

/-- What indexing a text comes to, `n` being its size. -/
structure World.IndexesText (w : World) (s : String) (n : Int64) : Prop where
  size : w.Computes (.text s) "size" [] (.ok (.int n))
  length : n.toInt = s.length
  within : ∀ i : Int64, -n.toInt ≤ i.toInt → i.toInt < n.toInt → ∃ (k : Nat) (c : Char),
    s.toList[k]? = some c ∧ (i.toInt = k ∨ i.toInt = k - n.toInt)
      ∧ w.Computes (.text s) "getAt" [.int i] (.ok (.text (.ofList [c])))
  beyond : ∀ i : Int64, i.toInt < -n.toInt ∨ n.toInt ≤ i.toInt →
    w.Computes (.text s) "getAt" [.int i] (.error (outOfRange "String" i s.length))
  /-- Every index from the front has a companion from the end, and it fits. -/
  companion : ∀ i : Int64, 0 ≤ i.toInt → i.toInt < n.toInt → (i - n).toInt = i.toInt - n.toInt
    ∧ ∃ c, w.Computes (.text s) "getAt" [.int i] (.ok c) ∧ w.Computes (.text s) "getAt" [.int (i - n)] (.ok c)
  spelled : ∀ script current getAt plus, w.SlotNamed getAt "getAt" → w.SlotNamed plus "plus" →
    ∃ w', (spell (.ofScripts script) current getAt plus s s.length).result.run w = .ok (.ok (.text s), w')

section Operations

variable (names : Naming) (alloc : Nat) (i : Int64)

private theorem apply_list_getAt (n : Nat) (xs : List Value) :
    Primitive.apply names alloc (.list n xs) [.int i] (.list .getAt)
      = .ok (((position? i xs.length).bind (xs[·]?)).getD .null) := rfl

private theorem apply_list_get (n : Nat) (xs : List Value) :
    Primitive.apply names alloc (.list n xs) [.int i] (.list .get)
      = (if i.toInt < 0 then none else xs[i.toInt.toNat]?).elim (.error (outOfRange "List" i xs.length))
        .ok := by
  rw [Primitive.apply, ListOp.apply]
  simp only [Value.needList, Value.asList?, firstArg, List.headD, Value.needInt, Value.asInt?, bind,
    Except.bind]
  rcases if i.toInt < 0 then none else xs[i.toInt.toNat]? with _ | v <;> rfl

private theorem apply_text_getAt (s : String) :
    Primitive.apply names alloc (.text s) [.int i] (.string .getAt)
      = ((position? i s.length).bind (s.toList[·]?)).elim (.error (outOfRange "String" i s.length))
        fun c => .ok (.text (.ofList [c])) := by
  rw [Primitive.apply, StringOp.apply, ← String.length_toList]
  simp only [Value.needText, Value.asText?, firstArg, List.headD, Value.needInt, Value.asInt?, bind,
    Except.bind]
  rcases (position? i s.toList.length).bind (s.toList[·]?) with _ | c <;> rfl

end Operations

namespace World.Plain

variable {w : World}

/-- A method for one integer that is alone in its name. -/
private theorem computes_index {b : BuiltinType} (h : w.Plain b) {receiver : Value}
    (hrec : receiver.native? = some b) {name : String} {p : Primitive}
    (hoffers : ∀ k, b.offers k name = [{ Method.ofPrimitive name [.exact .int] p with declaring := b.id }])
    {i : Int64} {answer : Except Fault Value}
    (happly : ∀ names alloc, (p.apply names alloc receiver [.int i]).mapError Fault.bare = answer) :
    w.Computes receiver name [.int i] answer :=
  h.computes_exact hrec hoffers rfl [.int] rfl (by decide) (fun _ => rfl) happly

private theorem indexesList (h : w.Plain .list) (alloc : Nat) (xs : List Value) (i : Int64) :
    w.IndexesList alloc xs i := by
  have hgetAt {v : Value} (hv : ((position? i xs.length).bind (xs[·]?)).getD .null = v) :
      w.Computes (.list alloc xs) "getAt" [.int i] (.ok v) := by
    refine h.computes_index rfl (fun k => BuiltinType.offers_eq _ k rfl) fun names k => ?_
    rw [apply_list_getAt, hv]
    rfl
  have hget {answer : Except Fault Value} (hanswer : Except.mapError Fault.bare
      ((if i.toInt < 0 then none else xs[i.toInt.toNat]?).elim (.error (outOfRange "List" i xs.length)) .ok)
        = answer) : w.Computes (.list alloc xs) "get" [.int i] answer := by
    refine h.computes_index rfl (fun k => BuiltinType.offers_eq _ k rfl) fun names k => ?_
    rw [apply_list_get, hanswer]
  refine ⟨fun k v hk hi => ⟨hgetAt ?_, hget ?_⟩, fun k v hk hi => hgetAt ?_, fun hi => hgetAt ?_,
    fun hi => hget ?_⟩
  · rw [position?_eq_some (List.getElem?_eq_some_iff.mp hk).1 (Or.inl hi), Option.bind_some, hk]
    rfl
  · rw [hi, if_neg (by omega), Int.toNat_natCast, hk]
    rfl
  · rw [position?_eq_some (List.getElem?_eq_some_iff.mp hk).1 (Or.inr hi), Option.bind_some, hk]
    rfl
  · rw [position?_eq_none hi]
    rfl
  · split
    · rfl
    · rw [List.getElem?_eq_none (by omega)]
      rfl

section Texts

variable (h : w.Plain .string)
include h

private theorem computes_text_getAt {s : String} {i : Int64} {answer : Except Fault Value}
    (hanswer : Except.mapError Fault.bare (((position? i s.length).bind (s.toList[·]?)).elim
      (.error (outOfRange "String" i s.length)) fun c => .ok (.text (.ofList [c]))) = answer) :
    w.Computes (.text s) "getAt" [.int i] answer := by
  refine h.computes_index rfl (fun k => BuiltinType.offers_eq _ k rfl) fun names k => ?_
  rw [apply_text_getAt, hanswer]

private theorem computes_char {s : String} {i : Int64} {k : Nat} {c : Char} (hk : s.toList[k]? = some c)
    (hi : i.toInt = k ∨ i.toInt = k - s.length) :
    w.Computes (.text s) "getAt" [.int i] (.ok (.text (.ofList [c]))) := by
  have hlt : k < s.length := String.length_toList ▸ (List.getElem?_eq_some_iff.mp hk).1
  refine h.computes_text_getAt ?_
  rw [position?_eq_some hlt hi, Option.bind_some, hk]
  rfl

private theorem computes_append (s t : String) :
    w.Computes (.text s) "plus" [.text t] (.ok (.text (s ++ t))) :=
  h.computes_sole rfl (fun k => BuiltinType.offers_eq _ k rfl) (fun _ => rfl) rfl (by decide)
    (by simp [Value.isWrapper]) fun _ _ => rfl

/-- After `n` characters the text has been put together so far. -/
private theorem result_spell {s : String} (hs : s.length < 2 ^ 63) {getAt plus : SlotRef}
    (hg : w.SlotNamed getAt "getAt") (hp : w.SlotNamed plus "plus")
    (script : Script.Body → Frame → Exec Fault Value) (current : Bool) (n : Nat) (hn : n ≤ s.length) :
    ∃ w', (spell (.ofScripts script) current getAt plus s n).result.run w
        = .ok (.ok (.text (.ofList (s.toList.take n))), w')
      ∧ w'.Plain .string ∧ ∀ u name, w.SlotNamed u name → w'.SlotNamed u name := by
  induction n with
  | zero => exact ⟨w, rfl, h, fun _ _ hu => hu⟩
  | succ n ih =>
    obtain ⟨w₁, h₁, hw₁, hs₁⟩ := ih (Nat.le_of_succ_le hn)
    have hlt : n < s.toList.length := by rwa [String.length_toList]
    have hchar : s.toList[n]? = some s.toList[n] := List.getElem?_eq_getElem hlt
    have hindex : (Int64.ofNat n).toInt = n := Int64.toInt_ofNat_of_lt (by omega)
    obtain ⟨w₂, h₂, hw₂, hs₂⟩ :=
      (hw₁.computes_char hchar (Or.inl hindex)).exists_result hw₁ (hs₁ _ _ hg) script current
    have happend := hw₂.computes_append (.ofList (s.toList.take n)) (.ofList [s.toList[n]])
    obtain ⟨w₃, h₃, hw₃, hs₃⟩ := happend.exists_result hw₂ (hs₂ _ _ (hs₁ _ _ hp)) script current
    refine ⟨w₃, ?_, hw₃, fun u name hu => hs₃ u name (hs₂ u name (hs₁ u name hu))⟩
    rw [← String.ofList_append, List.take_concat_get' _ _ hlt] at h₃
    rw [spell] at h₁ ⊢
    rw [List.range_succ, List.foldlM_append, Exec.result_bind, h₁]
    dsimp only
    rw [List.foldlM_cons, bind_assoc, Exec.result_bind, h₂]
    dsimp only
    rw [Exec.result_bind, h₃]
    rfl

private theorem indexesText {s : String} (hs : s.length < 2 ^ 63) :
    w.IndexesText s (.ofNat s.length) := by
  have hn : (Int64.ofNat s.length).toInt = s.length := Int64.toInt_ofNat_of_lt hs
  have hchar (k : Nat) (hk : k < s.length) : ∃ c, s.toList[k]? = some c :=
    ⟨_, List.getElem?_eq_getElem (String.length_toList.symm ▸ hk)⟩
  refine ⟨?_, hn, fun i hlow hhigh => ?_, fun i hi => ?_, fun i hlow hhigh => ?_,
    fun script current getAt plus hg hp => ?_⟩
  · exact h.computes_exact rfl (fun k => BuiltinType.offers_eq _ k rfl) rfl [] rfl (by decide)
      (fun _ => rfl) fun _ _ => rfl
  · rw [hn] at hlow hhigh ⊢
    obtain ⟨k, hk, hi⟩ := exists_position hlow hhigh
    obtain ⟨c, hc⟩ := hchar k hk
    exact ⟨k, c, hc, hi, h.computes_char hc hi⟩
  · refine h.computes_text_getAt ?_
    rw [position?_eq_none (hn ▸ hi)]
    rfl
  · have hfits := Word.toInt_sub_ofNat hs hlow
    obtain ⟨c, hc⟩ := hchar i.toInt.toNat (by omega)
    refine ⟨by rw [hfits, hn], _, h.computes_char hc (Or.inl ?_), h.computes_char hc (Or.inr ?_)⟩ <;>
      omega
  · obtain ⟨w', hw', -⟩ := h.result_spell hs hg hp script current s.length (Nat.le_refl _)
    rw [List.take_of_length_le (Nat.le_of_eq String.length_toList), String.ofList_toList] at hw'
    exact ⟨w', hw'⟩

end Texts

end World.Plain

/-- Where the types of lists, of texts and of objects have not been touched and no category is in force,
indexing comes to this. What is computed for a negative index fits in 64 bits, and so the positions are those
found there. -/
theorem indices_find_positions {w : World} (hlist : w.Plain .list) (htext : w.Plain .string) :
    (∀ alloc xs i, w.IndexesList alloc xs i)
      ∧ (∀ s : String, s.length < 2 ^ 63 → w.IndexesText s (.ofNat s.length))
      ∧ ∀ (n : Nat) (i : Int64), n < 2 ^ 63 → Word.position? i n = position? i n
        ∧ (i.toInt < 0 → (Int64.ofNat n + i).toInt = n + i.toInt) :=
  ⟨hlist.indexesList, fun _ hs => htext.indexesText hs,
    fun _ i hn => ⟨Word.position?_eq hn i, Word.toInt_ofNat_add hn⟩⟩

namespace Indexed

/-- A slot has been used to look into a list. -/
def world : World :=
  ((initial {}).addTable (.ofSites .object 0 [("getAt", .call), ("get", .call), ("plus", .call)])).2.planned
    (.call false (.list 0 [.null]) [.int 0])

private theorem plain_world : world.Plain .list ∧ world.Plain .string := by
  have hfirst : (initial {}).Attained := ⟨{}, {}, .refl⟩
  have hw : world.Attained := (hfirst.deed (.addTable (by decide) .object
    [("getAt", .call), ("get", .call), ("plus", .call)])).planned (.call false (.list 0 [.null]) [.int 0])
  have huntouched : ∀ b, world.Untouched b := untouched_of_stamps (by decide +kernel)
  exact ⟨⟨hw, huntouched .list, huntouched .object, rfl⟩, ⟨hw, huntouched .string, huntouched .object, rfl⟩⟩

end Indexed

/-- The slot remembers how to look into lists. The least index is beyond every list, and a text of characters
outside the basic plane is put together again. -/
theorem indices_find_positions_least : Indexed.world.Plain .list ∧ Indexed.world.Plain .string
    ∧ (Indexed.world.slot? ⟨0⟩ 0).map (·.site.tag) = some .hostMethod
    ∧ Indexed.world.Answers (.ofScripts (Script.evalBody 0)) ⟨0⟩ 0
      (.call false (.list 0 [.int 1, .int 2]) [.int (-1)]) (.ok (.int 2))
    ∧ Indexed.world.Answers (.ofScripts (Script.evalBody 0)) ⟨0⟩ 0
      (.call false (.list 0 [.int 1, .int 2]) [.int .minValue]) (.ok .null)
    ∧ Indexed.world.Answers (.ofScripts (Script.evalBody 0)) ⟨0⟩ 1
      (.call true (.list 0 [.int 1, .int 2]) [.int (-1)])
      (.error (.thrown "IndexOutOfBoundsException" "List index -1 out of range for length 2"))
    ∧ ∃ w', (spell (.ofScripts (Script.evalBody 0)) false ⟨⟨0⟩, 0⟩ ⟨⟨0⟩, 2⟩ "a😀é" 3).result.run Indexed.world
      = .ok (.ok (.text "a😀é"), w') := by
  obtain ⟨hlist, htext⟩ := Indexed.plain_world
  have hnames : Indexed.world.SlotNamed ⟨⟨0⟩, 0⟩ "getAt" ∧ Indexed.world.SlotNamed ⟨⟨0⟩, 1⟩ "get"
      ∧ Indexed.world.SlotNamed ⟨⟨0⟩, 2⟩ "plus" := by decide +kernel
  obtain ⟨hgetAt, hget, hplus⟩ := hnames
  obtain ⟨hlists, htexts, -⟩ := indices_find_positions hlist htext
  have hlast := hlists 0 [.int 1, .int 2] (-1)
  have hleast := hlists 0 [.int 1, .int 2] .minValue
  obtain ⟨w₁, h₁⟩ := hlast.back 1 (.int 2) rfl rfl _ hgetAt (Script.evalBody 0) false
  obtain ⟨w₂, h₂⟩ := hleast.beyond (by decide) _ hgetAt (Script.evalBody 0) false
  obtain ⟨w₃, h₃⟩ := hlast.refused (by decide) _ hget (Script.evalBody 0) true
  exact ⟨hlist, htext, by decide +kernel, h₁.answers, h₂.answers, h₃.answers,
    (htexts "a😀é" (by decide)).spelled (Script.evalBody 0) false _ _ hgetAt hplus⟩

end CachedDispatch
