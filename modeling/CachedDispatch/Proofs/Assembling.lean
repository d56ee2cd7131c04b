import CachedDispatch.Assembler
import CachedDispatch.Proofs.Listing
import Mathlib.Data.List.Induction

/-!
What assembled code holds. The calls alone say which instruction stands where and which targets were
filled in; the bytes, filled in again and again in the middle, read back as exactly that.
-/
namespace CachedDispatch

namespace AssemblerCall

/-- The number of bytes that the call adds. -/
def size : AssemblerCall → Nat
  | .emit i => i.size
  | .invoke .. => 4
  | .placeholder _ => 5
  | .patch .. | .patchAt .. => 0

/-- The place of the room that the call leaves for a target. -/
def room (pos : Nat) : AssemblerCall → List Nat
  | .placeholder _ => [pos + 1]
  | _ => []

/-- The target that the call fills in, and where; `places` are those of all placeholders before. -/
def patched (places : List Nat) (pos : Nat) : AssemblerCall → List (Nat × UInt32)
  | .patch mark target => places[mark]?.toList.map (·, target.getD pos.toUInt32)
  | .patchAt place target => [(place, target)]
  | _ => []

/-- The instruction that the call adds, with this target if it leaves room for one. -/
def instr? (target : UInt32) : AssemblerCall → Option Instr
  | .emit i => some i
  | .invoke .call slot argc => some (.invoke .call slot argc)
  | .invoke .callSafe slot argc => some (.invoke .callSafe slot argc)
  | .invoke .callCurrent slot argc => some (.invoke .callCurrent slot argc)
  | .invoke .callStatic slot argc => some (.invoke .callStatic slot argc)
  | .invoke .callNew slot argc => some (.invoke .callNew slot argc)
  | .placeholder .br => some (.br target)
  | .placeholder .brfalse => some (.brfalse target)
  | _ => none

/-- Invocations are made with the operation codes of calls, and room is left by branches. -/
def WellCoded : AssemblerCall → Prop
  | .invoke op _ _ => op ∈ [.call, .callSafe, .callCurrent, .callStatic, .callNew]
  | .placeholder op => op = .br ∨ op = .brfalse
  | _ => True

/-- Targets are filled in at one of these places. -/
def AimsAt (places : List Nat) : AssemblerCall → Prop
  | .patch mark _ => mark < places.length
  | .patchAt place _ => place ∈ places
  | _ => True

instance : DecidablePred WellCoded
  | .invoke op _ _ => inferInstanceAs
      (Decidable (op ∈ [.call, .callSafe, .callCurrent, .callStatic, .callNew]))
  | .placeholder op => inferInstanceAs (Decidable (op = .br ∨ op = .brfalse))
  | .emit _ | .patch .. | .patchAt .. => .isTrue trivial

instance (places : List Nat) : DecidablePred (AimsAt places)
  | .patch mark _ => inferInstanceAs (Decidable (mark < places.length))
  | .patchAt place _ => inferInstanceAs (Decidable (place ∈ places))
  | .emit _ | .invoke .. | .placeholder _ => .isTrue trivial

private theorem WellCoded.exists_invokeOp {op : Opcode} {slot : UInt16} {argc : UInt8}
    (h : (invoke op slot argc).WellCoded) : ∃ o : InvokeOp, o.opcode = op := by
  simp only [WellCoded, List.mem_cons, List.not_mem_nil, or_false] at h
  rcases h with rfl | rfl | rfl | rfl | rfl
  exacts [⟨.call, rfl⟩, ⟨.callSafe, rfl⟩, ⟨.callCurrent, rfl⟩, ⟨.callStatic, rfl⟩, ⟨.callNew, rfl⟩]

end AssemblerCall

namespace Assembly

/-- The number of bytes that calls add. -/
def extent : List AssemblerCall → Nat
  | [] => 0
  | c :: cs => c.size + extent cs

/-- The places that placeholders leave room at, the first call being made at `pos`. -/
def placesFrom (pos : Nat) : List AssemblerCall → List Nat
  | [] => []
  | c :: cs => c.room pos ++ placesFrom (pos + c.size) cs

/-- The targets that calls fill in, in order. -/
def patchesFrom (places : List Nat) (pos : Nat) : List AssemblerCall → List (Nat × UInt32)
  | [] => []
  | c :: cs => c.patched places pos ++ patchesFrom (places ++ c.room pos) (pos + c.size) cs

/-- The instructions that calls add, each with the position before its call; `target` says what is
in the room at a place. -/
def linesFrom (target : Nat → UInt32) (pos : Nat) : List AssemblerCall → List (Nat × Instr)
  | [] => []
  | c :: cs => (c.instr? (target (pos + 1))).toList.map (pos, ·) ++ linesFrom target (pos + c.size) cs

/-- The target that was filled in last at a place; zero if there was none. -/
def lastTarget (patches : List (Nat × UInt32)) (place : Nat) : UInt32 :=
  ((patches.reverse.find? (·.1 = place)).map Prod.snd).getD 0

def placesOf (calls : List AssemblerCall) : List Nat := placesFrom 0 calls

def patchesOf (calls : List AssemblerCall) : List (Nat × UInt32) := patchesFrom [] 0 calls

/-- The instructions that all calls together ask for, and where. -/
def linesOf (calls : List AssemblerCall) : List (Nat × Instr) :=
  linesFrom (lastTarget (patchesOf calls)) 0 calls

/-- Each call is made with an operation code that fits it, and fills in a target only where a
placeholder before it has left room. -/
structure Proper (calls : List AssemblerCall) : Prop where
  coded : ∀ c ∈ calls, c.WellCoded
  aimed : ∀ k, (h : k < calls.length) → calls[k].AimsAt (placesOf (calls.take k))

private theorem extent_append (cs ds : List AssemblerCall) :
    extent (cs ++ ds) = extent cs + extent ds := by
  induction cs with
  | nil => exact (Nat.zero_add _).symm
  | cons c cs ih => rw [List.cons_append, extent, extent, ih, Nat.add_assoc]

private theorem placesFrom_append (pos : Nat) (cs ds : List AssemblerCall) :
    placesFrom pos (cs ++ ds) = placesFrom pos cs ++ placesFrom (pos + extent cs) ds := by
  induction cs generalizing pos with
  | nil => rfl
  | cons c cs ih => simp only [List.cons_append, placesFrom, extent, ih, List.append_assoc, Nat.add_assoc]

private theorem patchesFrom_append (places : List Nat) (pos : Nat) (cs ds : List AssemblerCall) :
    patchesFrom places pos (cs ++ ds) = patchesFrom places pos cs
      ++ patchesFrom (places ++ placesFrom pos cs) (pos + extent cs) ds := by
  induction cs generalizing places pos with
  | nil => simp [patchesFrom, placesFrom, extent]
  | cons c cs ih =>
    simp only [List.cons_append, patchesFrom, placesFrom, extent, ih, List.append_assoc, Nat.add_assoc]

private theorem linesFrom_append (target : Nat → UInt32) (pos : Nat) (cs ds : List AssemblerCall) :
    linesFrom target pos (cs ++ ds)
      = linesFrom target pos cs ++ linesFrom target (pos + extent cs) ds := by
  induction cs generalizing pos with
  | nil => rfl
  | cons c cs ih => simp only [List.cons_append, linesFrom, extent, ih, List.append_assoc, Nat.add_assoc]

variable {calls before after cs : List AssemblerCall} {c : AssemblerCall} {pos place : Nat}

private theorem lastTarget_concat (patches : List (Nat × UInt32)) (t : UInt32) :
    lastTarget (patches ++ [(place, t)])
      = fun q => if q = place then t else lastTarget patches q := by
  funext q
  unfold lastTarget
  rw [List.reverse_append, List.reverse_singleton, List.singleton_append, List.find?_cons]
  by_cases hq : q = place
  · simp [hq]
  · simp [hq, Ne.symm hq]

private theorem lastTarget_of_absent {patches : List (Nat × UInt32)} (h : ∀ e ∈ patches, e.1 ≠ place) :
    lastTarget patches place = 0 := by
  have hnone : patches.reverse.find? (·.1 = place) = none := by simpa using h
  rw [lastTarget, hnone]
  rfl

private theorem Proper.left (h : Proper (before ++ after)) : Proper before where
  coded c hc := h.coded c (List.mem_append_left _ hc)
  aimed k hk := by
    have haimed := h.aimed k (by rw [List.length_append]; omega)
    rwa [List.getElem_append_left hk, List.take_append_of_le_length (Nat.le_of_lt hk)] at haimed

private theorem lt_of_mem_room (h : place ∈ c.room pos) : pos < place ∧ place + 4 = pos + c.size := by
  cases c with
  | placeholder op =>
    rw [List.mem_singleton.mp h, AssemblerCall.size]
    omega
  | emit | invoke | patch | patchAt => cases h

/-- Room is left for four bytes behind an operation code. -/
private theorem bounds_of_mem_placesFrom (h : place ∈ placesFrom pos cs) :
    pos < place ∧ place + 4 ≤ pos + extent cs := by
  induction cs generalizing pos with
  | nil => cases h
  | cons c cs ih =>
    rw [extent]
    rcases List.mem_append.mp h with hc | hcs
    · have := lt_of_mem_room hc
      omega
    · have := ih hcs
      omega

private theorem instr?_congr {f g : Nat → UInt32} (h : ∀ q ∈ c.room pos, f q = g q) :
    c.instr? (f (pos + 1)) = c.instr? (g (pos + 1)) := by
  cases c with
  | placeholder op => rw [h (pos + 1) (List.mem_singleton.mpr rfl)]
  | emit | patch | patchAt => rfl
  | invoke op => cases op <;> rfl

/-- Only what is in the room that was left matters. -/
private theorem linesFrom_congr {f g : Nat → UInt32} (h : ∀ q ∈ placesFrom pos cs, f q = g q) :
    linesFrom f pos cs = linesFrom g pos cs := by
  induction cs generalizing pos with
  | nil => rfl
  | cons c cs ih =>
    have hc := instr?_congr (c := c) fun q hq => h q (List.mem_append_left _ hq)
    rw [linesFrom, linesFrom, hc, ih fun q hq => h q (List.mem_append_right _ hq)]

/-- The instructions of calls, without their places. -/
private def codeFrom (target : Nat → UInt32) (pos : Nat) (cs : List AssemblerCall) : List Instr :=
  (linesFrom target pos cs).map Prod.snd

private theorem codeFrom_cons (target : Nat → UInt32) (pos : Nat) (c : AssemblerCall)
    (cs : List AssemblerCall) : codeFrom target pos (c :: cs)
      = (c.instr? (target (pos + 1))).toList ++ codeFrom target (pos + c.size) cs := by
  simp [codeFrom, linesFrom, Function.comp_def]

private theorem codeFrom_append (target : Nat → UInt32) (pos : Nat) (cs ds : List AssemblerCall) :
    codeFrom target pos (cs ++ ds)
      = codeFrom target pos cs ++ codeFrom target (pos + extent cs) ds := by
  simp [codeFrom, linesFrom_append]

private theorem size_of_instr? {t : UInt32} {i : Instr} (h : c.instr? t = some i) :
    i.size = c.size := by
  cases c with
  | emit j =>
    cases h
    rfl
  | invoke op slot argc => cases op <;> cases h <;> rfl
  | placeholder op => cases op <;> cases h <;> rfl
  | patch | patchAt => cases h

private theorem size_of_instr?_eq_none (hc : c.WellCoded) {t : UInt32} (h : c.instr? t = none) :
    c.size = 0 := by
  cases c with
  | emit j => cases h
  | invoke op slot argc =>
    obtain ⟨o, rfl⟩ := hc.exists_invokeOp
    cases o <;> cases h
  | placeholder op => rcases hc with rfl | rfl <;> cases h
  | patch | patchAt => rfl

/-- Each instruction stands right behind the one before it. -/
private theorem linesFrom_eq_placed (target : Nat → UInt32) (h : ∀ c ∈ cs, c.WellCoded) :
    linesFrom target pos cs = placed pos (codeFrom target pos cs) := by
  induction cs generalizing pos with
  | nil => rfl
  | cons c cs ih =>
    rw [codeFrom_cons, linesFrom, ih fun d hd => h d (by simp [hd])]
    rcases hi : c.instr? (target (pos + 1)) with _ | i
    · simp [size_of_instr?_eq_none (h c (by simp)) hi]
    · simp [placed, size_of_instr? hi]

private theorem length_bytes_instr? (h : c.WellCoded) (t : UInt32) :
    (bytesOf (c.instr? t).toList).length = c.size := by
  rcases hi : c.instr? t with _ | i
  · exact (size_of_instr?_eq_none h hi).symm
  · simpa [Instr.size] using size_of_instr? hi

private theorem length_bytes_codeFrom (target : Nat → UInt32) (h : ∀ c ∈ cs, c.WellCoded) :
    (bytesOf (codeFrom target pos cs)).length = extent cs := by
  induction cs generalizing pos with
  | nil => rfl
  | cons c cs ih =>
    rw [codeFrom_cons, bytesOf_append, List.length_append, length_bytes_instr? (h c (by simp)),
      ih fun d hd => h d (by simp [hd]), extent]

/-- A new target changes the four bytes of its room and nothing else. -/
private theorem bytes_retarget (target : Nat → UInt32) (t : UInt32) (h : ∀ c ∈ cs, c.WellCoded)
    (hp : place ∈ placesFrom pos cs) : ∃ front old back,
      bytesOf (codeFrom target pos cs) = front ++ bytes32 old ++ back ∧ pos + front.length = place
        ∧ bytesOf (codeFrom (fun q => if q = place then t else target q) pos cs)
          = front ++ bytes32 t ++ back := by
  induction cs generalizing pos with
  | nil => cases hp
  | cons c cs ih =>
    have hcs : ∀ d ∈ cs, d.WellCoded := fun d hd => h d (by simp [hd])
    rcases List.mem_append.mp hp with hc | hrest
    · -- the room is in the first call, and all other room is behind it
      cases c with
      | placeholder op =>
        obtain rfl : place = pos + 1 := List.mem_singleton.mp hc
        have hbytes (u : UInt32) :
            bytesOf ((AssemblerCall.placeholder op).instr? u).toList = op.byte :: bytes32 u := by
          rcases h _ (List.mem_cons_self ..) with rfl | rfl <;> rfl
        have hsame : codeFrom (fun q => if q = pos + 1 then t else target q) (pos + 5) cs
            = codeFrom target (pos + 5) cs := by
          refine congrArg (List.map Prod.snd) (linesFrom_congr fun q hq => if_neg ?_)
          have := (bounds_of_mem_placesFrom hq).1
          omega
        refine ⟨[op.byte], target (pos + 1), bytesOf (codeFrom target (pos + 5) cs), ?_, rfl, ?_⟩
        · rw [codeFrom_cons, bytesOf_append, hbytes]
          rfl
        · rw [codeFrom_cons, bytesOf_append, hbytes, if_pos rfl, AssemblerCall.size, hsame]
          rfl
      | emit | invoke | patch | patchAt => cases hc
    · -- the room is behind the first call, which stays as it is
      have hlt := (bounds_of_mem_placesFrom hrest).1
      have hfirst : c.instr? (if pos + 1 = place then t else target (pos + 1))
          = c.instr? (target (pos + 1)) := by
        refine instr?_congr (f := fun q => if q = place then t else target q) fun q hq => if_neg ?_
        have := lt_of_mem_room hq
        omega
      obtain ⟨front, old, back, hold, hplace, hnew⟩ := ih hcs hrest
      refine ⟨bytesOf (c.instr? (target (pos + 1))).toList ++ front, old, back, ?_, ?_, ?_⟩
      · rw [codeFrom_cons, bytesOf_append, hold]
        simp only [List.append_assoc]
      · rw [List.length_append, length_bytes_instr? (h c (by simp)), ← Nat.add_assoc, hplace]
      · rw [codeFrom_cons, bytesOf_append, hnew, hfirst]
        simp only [List.append_assoc]

end Assembly

private theorem toList_overwrite (bs : List UInt8) {code : Array UInt8} {front old back : List UInt8}
    (h : code.toList = front ++ old ++ back) (hlength : old.length = bs.length) :
    ((bs.zipIdx front.length).foldl (fun code e => code.setIfInBounds e.2 e.1) code).toList
      = front ++ bs ++ back := by
  induction bs generalizing code front old with
  | nil => rwa [List.length_eq_zero_iff.mp hlength] at h
  | cons b bs ih =>
    obtain ⟨o, old, rfl⟩ := List.exists_cons_of_length_eq_add_one hlength
    have hset : (code.setIfInBounds front.length b).toList = (front ++ [b]) ++ old ++ back := by
      rw [Array.toList_setIfInBounds, h]
      simp
    have hrest := ih hset (by simpa using hlength)
    simpa [List.zipIdx_cons] using hrest

private theorem Assembler.patch?_eq {a : Assembler} {front back : List UInt8} {old : UInt32}
    (h : a.code.toList = front ++ bytes32 old ++ back) (t : UInt32) :
    ∃ a', a.patch? front.length t = some a' ∧ a'.code.toList = front ++ bytes32 t ++ back := by
  have hroom : front.length + 4 ≤ a.code.size := by
    rw [← Array.length_toList, h, List.length_append, List.length_append]
    exact Nat.le_add_right _ _
  have hlength : (bytes32 old).length = (bytes32 t).length := rfl
  have hbytes := toList_overwrite (bytes32 t) h hlength
  exact ⟨_, if_pos hroom, hbytes⟩

namespace Assembly

variable {calls : List AssemblerCall} {c : AssemblerCall} {s : Assembly}

/-- The assembler has done what the calls ask for. -/
private structure Follows (calls : List AssemblerCall) (s : Assembly) : Prop where
  code : s.asm.code.toList = bytesOf (codeFrom (lastTarget (patchesOf calls)) 0 calls)
  marks : s.marks.toList = placesOf calls
  patches : ∀ e ∈ patchesOf calls, e.1 ∈ placesOf calls

private theorem Follows.position (h : Follows calls s) (hc : ∀ c ∈ calls, c.WellCoded) :
    s.asm.position = extent calls := by
  rw [Assembler.position, ← Array.length_toList, h.code, length_bytes_codeFrom _ hc]

private theorem placesOf_concat (calls : List AssemblerCall) (c : AssemblerCall) :
    placesOf (calls ++ [c]) = placesOf calls ++ c.room (extent calls) := by
  simp [placesOf, placesFrom_append, placesFrom]

private theorem patchesOf_concat (calls : List AssemblerCall) (c : AssemblerCall) :
    patchesOf (calls ++ [c]) = patchesOf calls ++ c.patched (placesOf calls) (extent calls) := by
  simp [patchesOf, placesOf, patchesFrom_append, patchesFrom]

private theorem codeFrom_concat (target : Nat → UInt32) (calls : List AssemblerCall)
    (c : AssemblerCall) : codeFrom target 0 (calls ++ [c])
      = codeFrom target 0 calls ++ (c.instr? (target (extent calls + 1))).toList := by
  rw [codeFrom_append, codeFrom_cons, Nat.zero_add]
  exact congrArg _ (List.append_nil _)

/-- A call that adds an instruction puts its bytes behind all others. -/
private theorem Follows.add (h : Follows calls s)
    (hpatched : c.patched (placesOf calls) (extent calls) = [])
    {bytes : List UInt8} (hbytes : bytesOf (c.instr? (lastTarget (patchesOf calls)
      (extent calls + 1))).toList = bytes) {marks : Array Nat}
    (hmarks : marks.toList = s.marks.toList ++ c.room (extent calls)) (positions : Array Nat) :
    Follows (calls ++ [c]) ⟨s.asm.append bytes, marks, positions⟩ := by
  have hpatches : patchesOf (calls ++ [c]) = patchesOf calls := by
    rw [patchesOf_concat, hpatched, List.append_nil]
  refine ⟨?_, ?_, fun e he => ?_⟩
  · rw [hpatches, codeFrom_concat, bytesOf_append, ← h.code, hbytes, Assembler.append,
      Array.toList_append]
  · rw [placesOf_concat, ← h.marks, hmarks]
  · rw [hpatches] at he
    rw [placesOf_concat]
    exact List.mem_append_left _ (h.patches e he)

/-- A target that is filled in replaces the one before it. -/
private theorem Follows.fill (h : Follows calls s) (hc : ∀ c ∈ calls, c.WellCoded) {place : Nat}
    {t : UInt32} (hplace : place ∈ placesOf calls)
    (hpatched : c.patched (placesOf calls) (extent calls) = [(place, t)]) :
    ∃ asm, s.asm.patch? place t = some asm
      ∧ ∀ positions, Follows (calls ++ [c]) ⟨asm, s.marks, positions⟩ := by
  obtain ⟨front, old, back, hold, hfront, hnew⟩ :=
    bytes_retarget (lastTarget (patchesOf calls)) t hc hplace
  obtain rfl : front.length = place := by omega
  obtain ⟨asm, hasm, hcode⟩ := Assembler.patch?_eq (h.code.trans hold) t
  have hpatches : patchesOf (calls ++ [c]) = patchesOf calls ++ [(front.length, t)] := by
    rw [patchesOf_concat, hpatched]
  have hroom : c.room (extent calls) = [] ∧ ∀ u, c.instr? u = none := by
    cases c with
    | patch | patchAt => exact ⟨rfl, fun _ => rfl⟩
    | emit | invoke | placeholder => cases hpatched
  have hplaces : placesOf (calls ++ [c]) = placesOf calls := by
    rw [placesOf_concat, hroom.1, List.append_nil]
  refine ⟨asm, hasm, fun positions => ⟨?_, h.marks.trans hplaces.symm, fun e he => ?_⟩⟩
  · rw [hpatches, lastTarget_concat, codeFrom_concat, hroom.2, hcode, ← hnew]
    simp
  · rw [hplaces]
    rw [hpatches] at he
    rcases List.mem_append.mp he with he | he
    · exact h.patches e he
    · rwa [List.mem_singleton.mp he]

/-- One more call does what it asks for. -/
private theorem Follows.step (h : Follows calls s) (hcalls : ∀ c ∈ calls, c.WellCoded)
    (hc : c.WellCoded) (ha : c.AimsAt (placesOf calls)) :
    ∃ s', s.step? c = some s' ∧ Follows (calls ++ [c]) s' := by
  have hpos := h.position hcalls
  cases c with
  | emit i =>
    have hbytes : bytesOf [i] = i.bytes := by rw [bytesOf_cons, bytesOf_nil, List.append_nil]
    exact ⟨_, rfl, h.add (c := .emit i) rfl hbytes (List.append_nil _).symm _⟩
  | invoke op slot argc =>
    obtain ⟨o, rfl⟩ := hc.exists_invokeOp
    refine ⟨_, rfl, h.add rfl ?_ (by simp [AssemblerCall.room]) _⟩
    cases o <;> rfl
  | placeholder op =>
    -- no target has been filled in where the next byte goes
    have htarget : lastTarget (patchesOf calls) (extent calls + 1) = 0 := by
      refine lastTarget_of_absent fun e he => ?_
      have := (bounds_of_mem_placesFrom (h.patches e he)).2
      omega
    refine ⟨_, rfl, h.add rfl ?_ ?_ _⟩
    · rw [htarget]
      rcases hc with rfl | rfl <;> rfl
    · simp [AssemblerCall.room, hpos]
  | patch mark target =>
    obtain ⟨place, hplace⟩ : ∃ place, (placesOf calls)[mark]? = some place :=
      ⟨_, List.getElem?_eq_getElem ha⟩
    have hpatched : (AssemblerCall.patch mark target).patched (placesOf calls) (extent calls)
        = [(place, target.getD (extent calls).toUInt32)] := by
      simp [AssemblerCall.patched, hplace]
    obtain ⟨asm, hasm, hfollows⟩ := h.fill hcalls (List.mem_of_getElem? hplace) hpatched
    have hmark : s.marks[mark]? = some place := by
      rw [← Array.getElem?_toList, h.marks, hplace]
    refine ⟨_, ?_, hfollows (s.positions.push asm.position)⟩
    simp [Assembly.step?, Assembly.perform?, hmark, hpos, hasm]
  | patchAt place target =>
    obtain ⟨asm, hasm, hfollows⟩ := h.fill (c := .patchAt place target) hcalls ha rfl
    refine ⟨_, ?_, hfollows (s.positions.push asm.position)⟩
    simp [Assembly.step?, Assembly.perform?, hasm]

/-- Calls that are proper are all carried out. -/
private theorem Proper.exists_run (h : Proper calls) : ∃ s, run? calls = some s ∧ Follows calls s := by
  induction calls using List.reverseRecOn with
  | nil => exact ⟨{}, rfl, rfl, rfl, nofun⟩
  | append_singleton calls c ih =>
    obtain ⟨s, hs, hfollows⟩ := ih h.left
    obtain ⟨s', hs', hfollows'⟩ := hfollows.step h.left.coded (h.coded c (by simp))
      (by simpa using h.aimed calls.length (by simp))
    refine ⟨s', ?_, hfollows'⟩
    have hrun : calls.foldlM step? {} = some s := hs
    rw [run?, List.foldlM_append, hrun]
    exact (bind_pure (s.step? c)).trans hs'

instance (calls : List AssemblerCall) : Decidable (Proper calls) :=
  decidable_of_iff ((∀ c ∈ calls, c.WellCoded)
      ∧ ∀ k, (h : k < calls.length) → calls[k].AimsAt (placesOf (calls.take k)))
    ⟨fun h => ⟨h.1, h.2⟩, fun h => ⟨h.coded, h.aimed⟩⟩

/-- The instruction that a call adds stands where the calls before it end. -/
private theorem exists_linesFrom_of_instr? {target : Nat → UInt32} {k : Nat} (hk : k < calls.length)
    {i : Instr} (hi : calls[k].instr? (target (extent (calls.take k) + 1)) = some i) :
    ∃ rest, linesFrom target 0 calls
      = linesFrom target 0 (calls.take k) ++ (extent (calls.take k), i) :: rest := by
  have hsplit : calls = calls.take k ++ calls[k] :: calls.drop (k + 1) := by
    rw [← List.drop_eq_getElem_cons hk, List.take_append_drop]
  refine ⟨linesFrom target (extent (calls.take k) + calls[k].size) (calls.drop (k + 1)), ?_⟩
  refine (congrArg (linesFrom target 0) hsplit).trans ?_
  rw [linesFrom_append, linesFrom, Nat.zero_add, hi]
  rfl

/-- Proper calls are all carried out, and the code lists as the instructions that they ask for: with
the operands given, and with the target filled in last where room was left. Each instruction stands
at the position before its call. -/
theorem assembled_code_reads_back (h : Proper calls) :
    ∃ s, run? calls = some s ∧ s.marks.toList = placesOf calls
      ∧ listing s.asm.code = .ok (linesOf calls)
      ∧ ∀ k, (hk : k < calls.length) → ∃ s', run? (calls.take k) = some s'
        ∧ (s.asm.code.size < 4294967296 → s'.asm.position.toUInt32.toNat = s'.asm.position)
        ∧ ∀ i, calls[k].instr? (lastTarget (patchesOf calls) (s'.asm.position + 1)) = some i →
            (s'.asm.position, i) ∈ linesOf calls
              ∧ Instr.decodeAt s.asm.code s'.asm.position = .ok i := by
  obtain ⟨s, hs, hfollows⟩ := h.exists_run
  refine ⟨s, hs, hfollows.marks, ?_, fun k hk => ?_⟩
  · rw [listing_of_toList hfollows.code, linesOf, linesFrom_eq_placed _ h.coded]
  have hbefore : Proper (calls.take k) := .left (by rwa [List.take_append_drop k calls])
  obtain ⟨s', hs', hfollows'⟩ := hbefore.exists_run
  have hpos := hfollows'.position hbefore.coded
  refine ⟨s', hs', fun hsize => ?_, fun i hi => ?_⟩
  · have hle : s'.asm.position ≤ s.asm.position := by
      rw [hpos, hfollows.position h.coded, ← congrArg extent (List.take_append_drop k calls),
        extent_append]
      exact Nat.le_add_right _ _
    exact Nat.mod_eq_of_lt (Nat.lt_of_le_of_lt hle hsize)
  · rw [hpos] at hi ⊢
    obtain ⟨rest, hrest⟩ := exists_linesFrom_of_instr? hk hi
    refine ⟨by simp [linesOf, hrest], ?_⟩
    have hcode : CodeAt s.asm.code 0 (codeFrom (lastTarget (patchesOf calls)) 0 (calls.take k)
        ++ i :: rest.map Prod.snd) := by
      refine ⟨[], [], ?_, rfl⟩
      rw [hfollows.code]
      simp [codeFrom, hrest]
    have hat := hcode.right
    rw [Nat.zero_add, length_bytes_codeFrom _ hbefore.coded] at hat
    exact hat.decodeAt_eq

/-- Two branches filled in out of order, one of them twice, around a call. -/
theorem assembled_code_reads_back_branches :
    let calls : List AssemblerCall := [.emit .ldthis, .placeholder .brfalse, .invoke .callSafe 3 0,
      .placeholder .br, .patchAt 2 77, .emit (.br 6), .patch 1 (some 9), .patch 0 none]
    Proper calls ∧ linesOf calls = [(0, .ldthis), (1, .brfalse 20), (6, .invoke .callSafe 3 0),
        (10, .br 9), (15, .br 6)]
      ∧ ∃ s, run? calls = some s ∧ listing s.asm.code = .ok (linesOf calls) := by
  intro calls
  have hproper : Proper calls := by decide
  obtain ⟨s, hs, -, hlisting, -⟩ := assembled_code_reads_back hproper
  exact ⟨hproper, by decide, s, hs, hlisting⟩

end Assembly

end CachedDispatch
