import CachedDispatch.Fault
import CachedDispatch.Primitive
import CachedDispatch.Text.Casing
import CachedDispatch.Value.Display

/-!
What the builtin operations do. An operation gets a receiver, arguments, and a fresh allocation
number for the list or map that it may build. Integers are 64 bits wide and wrap around.
-/
namespace CachedDispatch

/-- A receiver or argument of the wrong type. -/
def mismatch (names : Naming) (expected : BuiltinType) (v : Value) : Fault :=
  .coercion expected.name (v.typeName names)

namespace Value

def needInt (names : Naming) (v : Value) : Except Fault Int64 :=
  match v.asInt? with
  | some n => .ok n
  | none => .error (mismatch names .integer v)

/-- Integers pass for floats. -/
def needFloat (names : Naming) : Value → Except Fault Double
  | float x => .ok x
  | int n => .ok (.ofInt n)
  | v => .error (mismatch names .double v)

def needBool (names : Naming) (v : Value) : Except Fault Bool :=
  match v.asBool? with
  | some b => .ok b
  | none => .error (mismatch names .boolean v)

def needText (names : Naming) (v : Value) : Except Fault String :=
  match v.asText? with
  | some s => .ok s
  | none => .error (mismatch names .string v)

def needList (names : Naming) (v : Value) : Except Fault (List Value) :=
  match v.asList? with
  | some items => .ok items
  | none => .error (mismatch names .list v)

def needMap (names : Naming) (v : Value) : Except Fault (List (String × Value)) :=
  match v.asMap? with
  | some entries => .ok entries
  | none => .error (mismatch names .map v)

end Value

/-- The sign of a comparison; incomparable numbers count as equal. -/
def orderingValue : Option Ordering → Value
  | some .lt => .int (-1)
  | some .gt => .int 1
  | _ => .int 0

def divisionByZero : Fault := .thrown "ArithmeticException" "Division by zero"

def outOfRange (kind : String) (index : Int64) (length : Nat) : Fault :=
  .thrown "IndexOutOfBoundsException"
    s!"{kind} index {index.toInt} out of range for length {length}"

def emptyList (operation : String) : Fault :=
  .thrown "NoSuchElementException" s!"Cannot access {operation}() element from an empty List"

/-- A position in a sequence of length `n`; negative indices count from the end. -/
def position? (i : Int64) (n : Nat) : Option Nat :=
  let k := if i.toInt < 0 then (n : Int) + i.toInt else i.toInt
  if 0 ≤ k ∧ k < n then some k.toNat else none

/-- Writes the entries of `b` over those of `a`; new keys follow in their order. -/
def mergeEntries (a b : List (String × Value)) : List (String × Value) :=
  b.foldl (fun merged e => Assoc.set merged e.1 e.2) a

/-- Whether `part` occurs in `whole` without a gap. -/
def occursIn (part : List Char) : List Char → Bool
  | [] => part.isEmpty
  | c :: whole => part.isPrefixOf (c :: whole) || occursIn part whole

/-- The first argument; operations without parameters never ask for it. -/
def firstArg (args : List Value) : Value := args.headD .null

def ObjectOp.apply (names : Naming) (receiver : Value) (args : List Value) : ObjectOp → Value
  | toString => .text (receiver.display names)
  | equals => .bool (receiver.equal (firstArg args))
  | hashCode => .int (receiver.hashCode names)
  | is => .bool (receiver.same (firstArg args))

def NullOp.apply (names : Naming) (args : List Value) : NullOp → Except Fault Value
  | toString => .ok (.text "null")
  | equals => .ok (.bool (firstArg args).isNull)
  | is => .ok (.bool (firstArg args).isNull)
  | hashCode => .ok (.int 0)
  | asBoolean => .ok (.bool false)
  | plus => do
    let s ← (firstArg args).needText names
    pure (.text ("null" ++ s))

def BooleanOp.apply (names : Naming) (receiver : Value) (args : List Value) :
    BooleanOp → Except Fault Value
  | asBoolean => .ok receiver
  | compareTo => do
    let a ← receiver.needBool names
    let b ← (firstArg args).needBool names
    pure (orderingValue (some (compare a b)))

def IntegerOp.apply (names : Naming) (receiver : Value) (args : List Value) :
    IntegerOp → Except Fault Value
  | plus => do
    pure (.int ((← receiver.needInt names) + (← (firstArg args).needInt names)))
  | plusDouble => do
    pure (.float ((Double.ofInt (← receiver.needInt names)).add (← (firstArg args).needFloat names)))
  | minus => do
    pure (.int ((← receiver.needInt names) - (← (firstArg args).needInt names)))
  | minusDouble => do
    pure (.float ((Double.ofInt (← receiver.needInt names)).sub (← (firstArg args).needFloat names)))
  | multiply => do
    pure (.int ((← receiver.needInt names) * (← (firstArg args).needInt names)))
  | multiplyDouble => do
    pure (.float ((Double.ofInt (← receiver.needInt names)).mul (← (firstArg args).needFloat names)))
  | div => do
    let b ← (firstArg args).needInt names
    if b = 0 then throw divisionByZero
    pure (.float ((Double.ofInt (← receiver.needInt names)).div (.ofInt b)))
  | divDouble => do
    pure (.float ((Double.ofInt (← receiver.needInt names)).div (← (firstArg args).needFloat names)))
  | intdiv => do
    let b ← (firstArg args).needInt names
    if b = 0 then throw divisionByZero
    pure (.int ((← receiver.needInt names) / b))
  | mod => do
    let b ← (firstArg args).needInt names
    if b = 0 then throw divisionByZero
    pure (.int ((← receiver.needInt names) % b))
  | compareTo => do
    let a ← receiver.needInt names
    let b ← (firstArg args).needInt names
    pure (orderingValue (some (compare a.toInt b.toInt)))
  | compareToDouble => do
    let a ← receiver.needInt names
    let b ← (firstArg args).needFloat names
    pure (orderingValue ((Double.ofInt a).cmp? b))
  | negative => do
    pure (.int (-(← receiver.needInt names)))
  | asBoolean => do
    pure (.bool ((← receiver.needInt names) != 0))

def DoubleOp.apply (names : Naming) (receiver : Value) (args : List Value) :
    DoubleOp → Except Fault Value
  | plus => do
    pure (.float ((← receiver.needFloat names).add (← (firstArg args).needFloat names)))
  | minus => do
    pure (.float ((← receiver.needFloat names).sub (← (firstArg args).needFloat names)))
  | multiply => do
    pure (.float ((← receiver.needFloat names).mul (← (firstArg args).needFloat names)))
  | div => do
    pure (.float ((← receiver.needFloat names).div (← (firstArg args).needFloat names)))
  | compareTo => do
    let a ← receiver.needFloat names
    let b ← (firstArg args).needFloat names
    pure (orderingValue (a.cmp? b))
  | negative => do
    pure (.float (← receiver.needFloat names).neg)
  | asBoolean => do
    pure (.bool !(← receiver.needFloat names).isZero)

def StringOp.apply (names : Naming) (receiver : Value) (args : List Value) :
    StringOp → Except Fault Value
  | plus => do
    pure (.text ((← receiver.needText names) ++ (firstArg args).display names))
  | multiply => do
    let n ← (firstArg args).needInt names
    let s ← receiver.needText names
    pure (.text (if s.isEmpty then s else String.join (List.replicate n.toInt.toNat s)))
  | size => do
    pure (.int (Int64.ofNat (← receiver.needText names).length))
  | isEmpty => do
    pure (.bool (← receiver.needText names).isEmpty)
  | getAt => do
    let cs := (← receiver.needText names).toList
    let i ← (firstArg args).needInt names
    match (position? i cs.length).bind (cs[·]?) with
    | some c => pure (.text (String.ofList [c]))
    | none => throw (outOfRange "String" i cs.length)
  | contains => do
    let s ← receiver.needText names
    let part ← (firstArg args).needText names
    pure (.bool (occursIn part.toList s.toList))
  | compareTo => do
    let s ← receiver.needText names
    let t ← (firstArg args).needText names
    pure (orderingValue (some (if s < t then .lt else if t < s then .gt else .eq)))
  | toUpperCase => do
    pure (.text (Text.upper (← receiver.needText names)))
  | toLowerCase => do
    pure (.text (Text.lower (← receiver.needText names)))
  | asBoolean => do
    pure (.bool !(← receiver.needText names).isEmpty)

def ListOp.apply (names : Naming) (alloc : Nat) (receiver : Value) (args : List Value) :
    ListOp → Except Fault Value
  | size => do
    pure (.int (Int64.ofNat (← receiver.needList names).length))
  | isEmpty => do
    pure (.bool (← receiver.needList names).isEmpty)
  | getAt => do
    let xs ← receiver.needList names
    let i ← (firstArg args).needInt names
    pure (((position? i xs.length).bind (xs[·]?)).getD .null)
  | get => do
    let xs ← receiver.needList names
    let i ← (firstArg args).needInt names
    match if i.toInt < 0 then none else xs[i.toInt.toNat]? with
    | some v => pure v
    | none => throw (outOfRange "List" i xs.length)
  | contains => do
    let xs ← receiver.needList names
    pure (.bool (xs.any fun x => x.equal (firstArg args)))
  | first => do
    match (← receiver.needList names).head? with
    | some v => pure v
    | none => throw (emptyList "first")
  | last => do
    match (← receiver.needList names).getLast? with
    | some v => pure v
    | none => throw (emptyList "last")
  | plusList => do
    let xs ← receiver.needList names
    let ys ← (firstArg args).needList names
    pure (.list alloc (xs ++ ys))
  | plus => do
    let xs ← receiver.needList names
    pure (.list alloc (xs ++ [firstArg args]))
  | asBoolean => do
    pure (.bool !(← receiver.needList names).isEmpty)

def MapOp.apply (names : Naming) (alloc : Nat) (receiver : Value) (args : List Value) :
    MapOp → Except Fault Value
  | size => do
    pure (.int (Int64.ofNat (← receiver.needMap names).length))
  | isEmpty => do
    pure (.bool (← receiver.needMap names).isEmpty)
  | get | getAt => do
    let key ← (firstArg args).needText names
    pure ((Assoc.get? (← receiver.needMap names) key).getD .null)
  | containsKey => do
    let key ← (firstArg args).needText names
    pure (.bool (Assoc.contains (← receiver.needMap names) key))
  | plus => do
    let a ← receiver.needMap names
    let b ← (firstArg args).needMap names
    pure (.map alloc (mergeEntries a b))
  | asBoolean => do
    pure (.bool !(← receiver.needMap names).isEmpty)

def Primitive.apply (names : Naming) (alloc : Nat) (receiver : Value) (args : List Value) :
    Primitive → Except Fault Value
  | object op => .ok (op.apply names receiver args)
  | nullObject op => op.apply names args
  | boolean op => op.apply names receiver args
  | integer op => op.apply names receiver args
  | double op => op.apply names receiver args
  | string op => op.apply names receiver args
  | list op => op.apply names alloc receiver args
  | map op => op.apply names alloc receiver args

end CachedDispatch
