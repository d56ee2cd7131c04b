import CachedDispatch.Proofs.Decoding

/-!
Code read from one end to the other. Each instruction is sought right behind the one before it, as a
machine without branches would, and assembled code reads back as the instructions it was made of.
-/
namespace CachedDispatch

private theorem Instr.size_pos (i : Instr) : 0 < i.size := Nat.succ_pos _

private theorem Instr.lt_size_of_decodeAt {code : Array UInt8} {pos : Nat} {i : Instr}
    (h : decodeAt code pos = .ok i) : pos < code.size := by
  refine Nat.lt_of_not_le fun hge => ?_
  have hnone : code[pos]? = none := Array.getElem?_eq_none hge
  simp [decodeAt, read8, hnone, bind, Except.bind] at h

/-- The instructions from `pos` to the end of the code, each with its place. They have to use up the
code to the last byte. -/
def listingFrom (code : Array UInt8) (pos : Nat) : Except DecodeError (List (Nat × Instr)) :=
  if pos = code.size then .ok []
  else
    match _h : Instr.decodeAt code pos with
    | .error e => .error e
    | .ok i => (listingFrom code (pos + i.size)).map ((pos, i) :: ·)
termination_by code.size - pos
decreasing_by
  have hlt := Instr.lt_size_of_decodeAt _h
  have hpos := i.size_pos
  omega

/-- All instructions of the code, each with its place. -/
def listing (code : Array UInt8) : Except DecodeError (List (Nat × Instr)) := listingFrom code 0

/-- Instructions with the places that they have when the first one is at `pos`. -/
def placed (pos : Nat) : List Instr → List (Nat × Instr)
  | [] => []
  | i :: is => (pos, i) :: placed (pos + i.size) is

@[simp] theorem map_snd_placed (pos : Nat) (is : List Instr) : (placed pos is).map Prod.snd = is := by
  induction is generalizing pos with
  | nil => rfl
  | cons i is ih => simp [placed, ih]

private theorem listingFrom_of_codeAt {code : Array UInt8} {pos : Nat} {is : List Instr}
    (h : CodeAt code pos is) (hend : pos + (bytesOf is).length = code.size) :
    listingFrom code pos = .ok (placed pos is) := by
  induction is generalizing pos with
  | nil =>
    rw [listingFrom, if_pos (by simpa using hend)]
    rfl
  | cons i is ih =>
    have hrest : listingFrom code (pos + i.size) = .ok (placed (pos + i.size) is) := by
      refine ih h.tail ?_
      rw [bytesOf_cons, List.length_append] at hend
      rw [← hend, Instr.size, Nat.add_assoc]
    have hne : pos ≠ code.size := by
      have hpos := i.size_pos
      rw [bytesOf_cons, List.length_append] at hend
      unfold Instr.size at hpos
      omega
    rw [listingFrom, if_neg hne]
    split
    · rename_i e he
      rw [h.decodeAt_eq] at he
      cases he
    · rename_i j hj
      obtain rfl := Except.ok.inj (h.decodeAt_eq.symm.trans hj)
      rw [hrest]
      rfl

/-- The bytes of instructions list as these instructions. -/
theorem listing_of_toList {code : Array UInt8} {is : List Instr} (h : code.toList = bytesOf is) :
    listing code = .ok (placed 0 is) := by
  refine listingFrom_of_codeAt (codeAt_of_toList h) ?_
  rw [Nat.zero_add, ← h, Array.length_toList]

end CachedDispatch
