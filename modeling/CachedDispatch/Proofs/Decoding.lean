import CachedDispatch.Lang.Compile

/-!
Code in place. Instructions are read back from their bytes wherever they stand, so that assembled
code decodes to the instructions it was made of.
-/
namespace CachedDispatch

private theorem word16_bytes16 (n : UInt16) : word16 n.toUInt8 (n >>> 8).toUInt8 = n := by
  apply UInt16.eq_of_toBitVec_eq
  ext i hi
  simp only [word16, UInt16.toBitVec_or, UInt16.toBitVec_shiftLeft, UInt8.toBitVec_toUInt16,
    UInt16.toBitVec_toUInt8, UInt16.toBitVec_shiftRight]
  simp [BitVec.getElem_or, BitVec.getElem_setWidth]
  grind

private theorem word32_bytes32 (n : UInt32) :
    word32 n.toUInt8 (n >>> 8).toUInt8 (n >>> 16).toUInt8 (n >>> 24).toUInt8 = n := by
  apply UInt32.eq_of_toBitVec_eq
  ext i hi
  simp only [word32, UInt32.toBitVec_or, UInt32.toBitVec_shiftLeft, UInt8.toBitVec_toUInt32,
    UInt32.toBitVec_toUInt8, UInt32.toBitVec_shiftRight]
  simp [BitVec.getElem_or, BitVec.getElem_setWidth]
  grind

/-- The bytes of instructions that follow each other. -/
def bytesOf (is : List Instr) : List UInt8 := is.flatMap Instr.bytes

@[simp] theorem bytesOf_nil : bytesOf [] = [] := rfl

@[simp] theorem bytesOf_cons (i : Instr) (is : List Instr) :
    bytesOf (i :: is) = i.bytes ++ bytesOf is :=
  rfl

@[simp] theorem bytesOf_append (is js : List Instr) : bytesOf (is ++ js) = bytesOf is ++ bytesOf js :=
  List.flatMap_append

/-- The instructions stand at `pos` in the code. -/
def CodeAt (code : Array UInt8) (pos : Nat) (is : List Instr) : Prop :=
  ∃ before after, code.toList = before ++ bytesOf is ++ after ∧ before.length = pos

namespace CodeAt

variable {code : Array UInt8} {pos : Nat} {i : Instr} {is js : List Instr}

theorem left (h : CodeAt code pos (is ++ js)) : CodeAt code pos is := by
  obtain ⟨before, after, hcode, hpos⟩ := h
  exact ⟨before, bytesOf js ++ after, by simp [hcode], hpos⟩

theorem right (h : CodeAt code pos (is ++ js)) : CodeAt code (pos + (bytesOf is).length) js := by
  obtain ⟨before, after, hcode, hpos⟩ := h
  exact ⟨before ++ bytesOf is, after, by simp [hcode], by simp [hpos]⟩

theorem tail (h : CodeAt code pos (i :: is)) : CodeAt code (pos + i.size) is := by
  have ht : CodeAt code (pos + (bytesOf [i]).length) is := right h
  simpa [Instr.size] using ht

theorem end_le (h : CodeAt code pos is) : pos + (bytesOf is).length ≤ code.size := by
  obtain ⟨before, after, hcode, rfl⟩ := h
  have hlength := congrArg List.length hcode
  simp only [Array.length_toList, List.length_append] at hlength
  omega

private theorem read8_eq {b : UInt8} {k : Nat} (h : CodeAt code pos (i :: is))
    (hk : i.bytes[k]? = some b) : Instr.read8 code (pos + k) = .ok b := by
  obtain ⟨before, after, hcode, rfl⟩ := h
  have hlt : k < i.bytes.length := (List.getElem?_eq_some_iff.mp hk).1
  have hget : code[before.length + k]? = some b := by
    rw [← Array.getElem?_toList, hcode, List.append_assoc, List.getElem?_append_right (by omega),
      Nat.add_sub_cancel_left, bytesOf_cons, List.append_assoc, List.getElem?_append_left hlt, hk]
  rw [Instr.read8, hget]

private theorem readOperands_eq (h : CodeAt code pos (i :: is)) :
    Instr.readOperands code (pos + 1) i.opcode = .ok i := by
  have hread (k : Nat) (b : UInt8) (hk : i.operands[k]? = some b) :
      Instr.read8 code (pos + 1 + k) = .ok b := by
    rw [Nat.add_assoc, Nat.add_comm 1 k]
    exact read8_eq h hk
  have hread16 (n : UInt16) (h0 : i.operands[0]? = some n.toUInt8)
      (h1 : i.operands[1]? = some (n >>> 8).toUInt8) : Instr.read16 code (pos + 1) = .ok n := by
    rw [Instr.read16, hread 0 _ h0, hread 1 _ h1]
    exact congrArg _ (word16_bytes16 n)
  have hread32 (n : UInt32) (hn : i.operands = bytes32 n) : Instr.read32 code (pos + 1) = .ok n := by
    rw [Instr.read32, hread 0 _ (by rw [hn]; rfl), hread 1 _ (by rw [hn]; rfl),
      hread 2 _ (by rw [hn]; rfl), hread 3 _ (by rw [hn]; rfl)]
    exact congrArg _ (word32_bytes32 n)
  cases i with
  | ldc n | br n | brfalse n => simp only [Instr.opcode, Instr.readOperands, hread32 n rfl]; rfl
  | ldloc n | stloc n => simp only [Instr.opcode, Instr.readOperands, hread 0 n rfl]; rfl
  | ldclass n | newList n | newMap n | wrap n =>
    simp only [Instr.opcode, Instr.readOperands, hread16 n rfl rfl]; rfl
  | getProp safe n =>
    cases safe <;> simp only [Instr.opcode, Instr.readOperands, hread16 n rfl rfl] <;> rfl
  | invoke op slot argc =>
    cases op <;>
      simp only [Instr.opcode, InvokeOp.opcode, Instr.readOperands, Instr.readOperands.invocation,
        hread16 slot rfl rfl, hread 2 argc rfl] <;> rfl
  | _ => rfl

/-- An instruction is read where it stands. -/
theorem decodeAt_eq (h : CodeAt code pos (i :: is)) : Instr.decodeAt code pos = .ok i := by
  have h0 : Instr.read8 code pos = .ok i.opcode.byte := read8_eq (k := 0) h rfl
  simp only [Instr.decodeAt, h0, bind, Except.bind, Opcode.ofByte?_byte]
  exact readOperands_eq h

end CodeAt

/-- The bytes of instructions hold these instructions from the start. -/
theorem codeAt_of_toList {code : Array UInt8} {is : List Instr} (h : code.toList = bytesOf is) :
    CodeAt code 0 is :=
  ⟨[], [], by simp [h], rfl⟩

namespace Lang

theorem codeSize_eq (code : Array Instr) : codeSize code = (bytesOf code.toList).length := by
  have h (is : List Instr) (n : Nat) :
      is.foldl (fun n i => n + i.size) n = n + (bytesOf is).length := by
    induction is generalizing n with
    | nil => rfl
    | cons i is ih => rw [List.foldl_cons, ih, bytesOf_cons, List.length_append, Instr.size, Nat.add_assoc]
  rw [codeSize, ← Array.foldl_toList, h, Nat.zero_add]

theorem toList_assemble (code : Array Instr) : (assemble code).toList = bytesOf code.toList := by
  have h (is : List Instr) (bytes : Array UInt8) :
      (is.foldl (fun bytes i => bytes ++ i.bytes.toArray) bytes).toList
        = bytes.toList ++ bytesOf is := by
    induction is generalizing bytes with
    | nil => simp
    | cons i is ih => simp [ih]
  rw [assemble, ← Array.foldl_toList, h]
  rfl

end Lang

end CachedDispatch
