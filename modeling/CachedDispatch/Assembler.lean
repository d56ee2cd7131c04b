import CachedDispatch.Instr

/-!
Code under construction. A branch whose target is not known yet leaves room for it, to be filled in
later.
-/
namespace CachedDispatch

structure Assembler where
  code : Array UInt8 := #[]
deriving DecidableEq, Repr, Inhabited

namespace Assembler

/-- The place of the next byte. -/
def position (a : Assembler) : Nat := a.code.size

def append (a : Assembler) (bytes : List UInt8) : Assembler := ⟨a.code ++ bytes.toArray⟩

def emit (a : Assembler) (i : Instr) : Assembler := a.append i.bytes

/-- An operation code with the operands of an invocation. -/
def invoke (a : Assembler) (op : Opcode) (slot : UInt16) (argc : UInt8) : Assembler :=
  a.append (op.byte :: bytes16 slot ++ [argc])

/-- An operation code with room for a target, and the place of that room. -/
def placeholder (a : Assembler) (op : Opcode) : Nat × Assembler :=
  (a.position + 1, a.append (op.byte :: bytes32 0))

/-- Fills in a target; `none` when there is no room for one at that place. -/
def patch? (a : Assembler) (place : Nat) (target : UInt32) : Option Assembler :=
  if place + 4 ≤ a.code.size then
    some ⟨((bytes32 target).zipIdx place).foldl (fun code e => code.setIfInBounds e.2 e.1) a.code⟩
  else none

end Assembler

/-- One call of an assembler. -/
inductive AssemblerCall
  | emit (i : Instr)
  | invoke (op : Opcode) (slot : UInt16) (argc : UInt8)
  | placeholder (op : Opcode)
  /-- Fills in the room that an earlier placeholder left, with the current position by default. -/
  | patch (mark : Nat) (target : Option UInt32)
  | patchAt (place : Nat) (target : UInt32)
deriving DecidableEq, Repr, Inhabited

/-- An assembler at work: the places of all placeholders and the position after each call. -/
structure Assembly where
  asm : Assembler := {}
  marks : Array Nat := #[]
  positions : Array Nat := #[]
deriving Repr, Inhabited

namespace Assembly

/-- What a call does to the code and the marks; `none` when it writes past the end. -/
def perform? (s : Assembly) : AssemblerCall → Option (Assembler × Array Nat)
  | .emit i => some (s.asm.emit i, s.marks)
  | .invoke op slot argc => some (s.asm.invoke op slot argc, s.marks)
  | .placeholder op =>
    let (place, asm) := s.asm.placeholder op
    some (asm, s.marks.push place)
  | .patch mark target => do
    let place ← s.marks[mark]?
    let asm ← s.asm.patch? place (target.getD s.asm.position.toUInt32)
    pure (asm, s.marks)
  | .patchAt place target => do
    let asm ← s.asm.patch? place target
    pure (asm, s.marks)

def step? (s : Assembly) (c : AssemblerCall) : Option Assembly := do
  let (asm, marks) ← s.perform? c
  pure ⟨asm, marks, s.positions.push asm.position⟩

def run? (calls : List AssemblerCall) : Option Assembly := calls.foldlM step? {}

end Assembly

end CachedDispatch
