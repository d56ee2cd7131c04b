import CachedDispatch.Manifest
import CachedDispatch.Site
import CachedDispatch.Value

/-!
Compiled programs, before and after they are bound to a runtime.
-/
namespace CachedDispatch

structure Program where
  constants : Array Value := #[]
  code : Array UInt8 := #[]
  /-- The number of local variables. -/
  locals : Nat := 0
  /-- The names of the classes that the code refers to. -/
  classes : Array String := #[]
  manifest : Manifest := {}
deriving Repr, Inhabited

/-- A program whose class names are resolved and whose call sites have a table. -/
structure LoadedUnit where
  program : Program
  owner : TypeId
  classes : Array TypeId
  table : TableRef
deriving Repr, Inhabited

inductive MachineError
  | stackUnderflow
  | typeMismatch (expected : String)
  | invalidConstant (index : Nat)
  | invalidLocal (index : Nat)
  | invalidClass (index : Nat)
  | unknownClass (name : String)
  | invalidOpcode (byte : UInt8)
  | codeBounds
  | dispatch (fault : Fault)
deriving DecidableEq, Repr, Inhabited

/-- The two upper case hexadecimal digits of a byte. -/
def hexByte (b : UInt8) : String :=
  let ds := (Nat.toDigits 16 b.toNat).map Char.toUpper
  String.ofList (List.replicate (2 - ds.length) '0' ++ ds)

def MachineError.message : MachineError → String
  | stackUnderflow => "stack underflow"
  | typeMismatch expected => s!"type mismatch: expected {expected}"
  | invalidConstant index => s!"invalid constant index {index}"
  | invalidLocal index => s!"invalid local index {index}"
  | invalidClass index => s!"invalid class index {index}"
  | unknownClass name => s!"unknown class '{name}'"
  | invalidOpcode byte => "invalid opcode 0x" ++ hexByte byte
  | codeBounds => "bytecode read out of bounds"
  | dispatch fault => fault.message

end CachedDispatch
