import CachedDispatch.SiteKind

/-!
Operation codes: one byte each, numbered without gaps from zero.
-/
namespace CachedDispatch

inductive Opcode
  | nop | ret | ldc | ldnull | ldloc | stloc | ldthis | ldclass | pop | dup | br | brfalse
  | not | newList | newMap | newRange | wrap
  | call | callSafe | callCurrent | callStatic | callNew | getProp | getPropSafe
deriving DecidableEq, Repr, Inhabited

namespace Opcode

/-- Every operation code, in the order of the bytes. -/
def all : List Opcode :=
  [nop, ret, ldc, ldnull, ldloc, stloc, ldthis, ldclass, pop, dup, br, brfalse,
    not, newList, newMap, newRange, wrap,
    call, callSafe, callCurrent, callStatic, callNew, getProp, getPropSafe]

def byte : Opcode → UInt8
  | nop => 0x00
  | ret => 0x01
  | ldc => 0x02
  | ldnull => 0x03
  | ldloc => 0x04
  | stloc => 0x05
  | ldthis => 0x06
  | ldclass => 0x07
  | pop => 0x08
  | dup => 0x09
  | br => 0x0a
  | brfalse => 0x0b
  | not => 0x0c
  | newList => 0x0d
  | newMap => 0x0e
  | newRange => 0x0f
  | wrap => 0x10
  | call => 0x11
  | callSafe => 0x12
  | callCurrent => 0x13
  | callStatic => 0x14
  | callNew => 0x15
  | getProp => 0x16
  | getPropSafe => 0x17

def ofByte? (b : UInt8) : Option Opcode := all[b.toNat]?

def mnemonic : Opcode → String
  | nop => "nop"
  | ret => "ret"
  | ldc => "ldc"
  | ldnull => "ldnull"
  | ldloc => "ldloc"
  | stloc => "stloc"
  | ldthis => "ldthis"
  | ldclass => "ldclass"
  | pop => "pop"
  | dup => "dup"
  | br => "br"
  | brfalse => "brfalse"
  | not => "not"
  | newList => "newlist"
  | newMap => "newmap"
  | newRange => "newrange"
  | wrap => "wrap"
  | call => "call"
  | callSafe => "call.safe"
  | callCurrent => "call.current"
  | callStatic => "call.static"
  | callNew => "call.new"
  | getProp => "getprop"
  | getPropSafe => "getprop.safe"

def ofMnemonic? (s : String) : Option Opcode := all.find? (·.mnemonic = s)

/-- The kind of call site that an invocation goes through. -/
def siteKind? : Opcode → Option SiteKind
  | call | callSafe => some .call
  | callCurrent => some .callCurrent
  | callStatic => some .callStatic
  | callNew => some .callConstructor
  | getProp | getPropSafe => some .getProperty
  | _ => none

theorem ofByte?_byte (op : Opcode) : ofByte? op.byte = some op := by
  cases op <;> rfl

theorem ofMnemonic?_mnemonic (op : Opcode) : ofMnemonic? op.mnemonic = some op := by
  cases op <;> decide

end Opcode

end CachedDispatch
