import CachedDispatch.Form
import CachedDispatch.Opcode

/-!
Instructions and their bytes: an operation code, then the operands, lowest byte first.
-/
namespace CachedDispatch

/-- The invocations that take arguments. -/
inductive InvokeOp
  | call | callSafe | callCurrent | callStatic | callNew
deriving DecidableEq, Repr, Inhabited

def InvokeOp.opcode : InvokeOp → Opcode
  | call => .call
  | callSafe => .callSafe
  | callCurrent => .callCurrent
  | callStatic => .callStatic
  | callNew => .callNew

def InvokeOp.siteKind : InvokeOp → SiteKind
  | call | callSafe => .call
  | callCurrent => .callCurrent
  | callStatic => .callStatic
  | callNew => .callConstructor

def InvokeOp.form : InvokeOp → Form
  | call => .call
  | callSafe => .callSafe
  | callCurrent => .callCurrent
  | callStatic => .callStatic
  | callNew => .callConstructor

inductive Instr
  | nop
  | ret
  | ldc (index : UInt32)
  | ldnull
  | ldloc (index : UInt8)
  | stloc (index : UInt8)
  | ldthis
  | ldclass (index : UInt16)
  | pop
  | dup
  | br (target : UInt32)
  | brfalse (target : UInt32)
  | not
  | newList (size : UInt16)
  | newMap (size : UInt16)
  | newRange
  | wrap (index : UInt16)
  | invoke (op : InvokeOp) (slot : UInt16) (argc : UInt8)
  | getProp (safe : Bool) (slot : UInt16)
deriving DecidableEq, Repr, Inhabited

/-- The two bytes of a number, lowest first. -/
def bytes16 (n : UInt16) : List UInt8 := [n.toUInt8, (n >>> 8).toUInt8]

/-- The four bytes of a number, lowest first. -/
def bytes32 (n : UInt32) : List UInt8 :=
  [n.toUInt8, (n >>> 8).toUInt8, (n >>> 16).toUInt8, (n >>> 24).toUInt8]

def word16 (a b : UInt8) : UInt16 := a.toUInt16 ||| (b.toUInt16 <<< 8)

def word32 (a b c d : UInt8) : UInt32 :=
  a.toUInt32 ||| (b.toUInt32 <<< 8) ||| (c.toUInt32 <<< 16) ||| (d.toUInt32 <<< 24)

namespace Instr

def opcode : Instr → Opcode
  | nop => .nop
  | ret => .ret
  | ldc _ => .ldc
  | ldnull => .ldnull
  | ldloc _ => .ldloc
  | stloc _ => .stloc
  | ldthis => .ldthis
  | ldclass _ => .ldclass
  | pop => .pop
  | dup => .dup
  | br _ => .br
  | brfalse _ => .brfalse
  | not => .not
  | newList _ => .newList
  | newMap _ => .newMap
  | newRange => .newRange
  | wrap _ => .wrap
  | invoke op _ _ => op.opcode
  | getProp safe _ => if safe then .getPropSafe else .getProp

def operands : Instr → List UInt8
  | ldc n | br n | brfalse n => bytes32 n
  | ldloc n | stloc n => [n]
  | ldclass n | newList n | newMap n | wrap n | getProp _ n => bytes16 n
  | invoke _ slot argc => bytes16 slot ++ [argc]
  | _ => []

def bytes (i : Instr) : List UInt8 := i.opcode.byte :: i.operands

def size (i : Instr) : Nat := i.bytes.length

end Instr

/-- Why no instruction can be read. -/
inductive DecodeError
  | outOfBounds
  | invalidOpcode (byte : UInt8)
deriving DecidableEq, Repr, Inhabited

namespace Instr

def read8 (code : Array UInt8) (pos : Nat) : Except DecodeError UInt8 :=
  match code[pos]? with
  | some b => .ok b
  | none => .error .outOfBounds

def read16 (code : Array UInt8) (pos : Nat) : Except DecodeError UInt16 := do
  pure (word16 (← read8 code pos) (← read8 code (pos + 1)))

def read32 (code : Array UInt8) (pos : Nat) : Except DecodeError UInt32 := do
  pure (word32 (← read8 code pos) (← read8 code (pos + 1)) (← read8 code (pos + 2))
    (← read8 code (pos + 3)))

/-- The operands that follow an operation code. -/
def readOperands (code : Array UInt8) (pos : Nat) : Opcode → Except DecodeError Instr
  | .nop => .ok nop
  | .ret => .ok ret
  | .ldc => ldc <$> read32 code pos
  | .ldnull => .ok ldnull
  | .ldloc => ldloc <$> read8 code pos
  | .stloc => stloc <$> read8 code pos
  | .ldthis => .ok ldthis
  | .ldclass => ldclass <$> read16 code pos
  | .pop => .ok pop
  | .dup => .ok dup
  | .br => br <$> read32 code pos
  | .brfalse => brfalse <$> read32 code pos
  | .not => .ok not
  | .newList => newList <$> read16 code pos
  | .newMap => newMap <$> read16 code pos
  | .newRange => .ok newRange
  | .wrap => wrap <$> read16 code pos
  | .call => invocation .call
  | .callSafe => invocation .callSafe
  | .callCurrent => invocation .callCurrent
  | .callStatic => invocation .callStatic
  | .callNew => invocation .callNew
  | .getProp => getProp false <$> read16 code pos
  | .getPropSafe => getProp true <$> read16 code pos
where
  invocation (op : InvokeOp) : Except DecodeError Instr := do
    pure (invoke op (← read16 code pos) (← read8 code (pos + 2)))

/-- The instruction that stands at a place in the code. -/
def decodeAt (code : Array UInt8) (pos : Nat) : Except DecodeError Instr := do
  let b ← read8 code pos
  match Opcode.ofByte? b with
  | some op => readOperands code (pos + 1) op
  | none => throw (.invalidOpcode b)

end Instr

end CachedDispatch
