import CachedDispatch.Dispatch
import CachedDispatch.Instr

/-!
The stack machine. One instruction either changes the machine, ends the run, or asks for a dispatch
whose answer goes on the stack; a run carries out one after another.
-/
namespace CachedDispatch

structure Machine where
  /-- The place of the next instruction. -/
  ip : Nat := 0
  /-- The operands, topmost first. -/
  stack : List Value := []
  locals : Array Value
  this : Value
deriving Repr, Inhabited

inductive Effect
  | next (m : Machine)
  | done (v : Value)
  | fail (e : MachineError)
  /-- The machine waits for the answer; `safe` lets null answer null. -/
  | dispatch (slot : Nat) (safe : Bool) (request : Request) (m : Machine)
deriving Inhabited

/-- The integers from one to another, both included, upwards or downwards. -/
def rangeValues (first last : Int64) : List Value :=
  let span (lo hi : Int) := (List.range (hi - lo + 1).toNat).map fun k : Nat => Int64.ofInt (lo + k)
  if first ≤ last then (span first.toInt last.toInt).map .int
  else (span last.toInt first.toInt).reverse.map .int

/-- Pairs keys with the values that follow them; `none` when a key is no text. -/
def pairEntries? : List Value → Option (List (String × Value))
  | .text k :: v :: rest => (pairEntries? rest).map ((k, v) :: ·)
  | _ :: _ :: _ => none
  | _ => some []

/-- Booleans are conditions, and null counts as false. -/
def Value.asCondition? : Value → Option Bool
  | bool b => some b
  | null => some false
  | _ => none

namespace Machine

def push (m : Machine) (v : Value) : Machine := { m with stack := v :: m.stack }

/-- Takes operands off the stack, the one pushed first in front. -/
def popMany? (m : Machine) (n : Nat) : Option (List Value × Machine) :=
  if n ≤ m.stack.length then
    some ((m.stack.take n).reverse, { m with stack := m.stack.drop n })
  else none

/-- A branch may go to the end of the code, but not past it. -/
def jump (u : LoadedUnit) (m : Machine) (target : Nat) : Effect :=
  if target ≤ u.program.code.size then .next { m with ip := target } else .fail .codeBounds

/-- Takes a condition off the stack. -/
def withCondition (m : Machine) (k : Bool → Machine → Effect) : Effect :=
  match m.stack with
  | [] => .fail .stackUnderflow
  | v :: stack =>
    match v.asCondition? with
    | some b => k b { m with stack }
    | none => .fail (.typeMismatch "bool")

/-- The request that an invocation makes of its slot. -/
def requestFor (op : InvokeOp) (receiver : Value) (args : List Value) :
    Except MachineError Request :=
  match op, receiver with
  | .call, _ | .callSafe, _ => .ok (.call false receiver args)
  | .callCurrent, _ => .ok (.call true receiver args)
  | .callStatic, .classLiteral t => .ok (.static t args)
  | .callNew, .classLiteral t => .ok (.construct t args)
  | _, _ => .error (.typeMismatch "class")

/-- Takes arguments and a receiver off the stack. -/
def invocation (m : Machine) (op : InvokeOp) (slot argc : Nat) : Effect :=
  match m.popMany? argc with
  | none => .fail .stackUnderflow
  | some (args, m) =>
    match m.stack with
    | [] => .fail .stackUnderflow
    | receiver :: stack =>
      match requestFor op receiver args with
      | .ok request => .dispatch slot (op = .callSafe) request { m with stack }
      | .error e => .fail e

/-- Builds a value from operands, giving it a fresh allocation number. -/
def build (m : Machine) (make : Nat → Value) : Update Effect := do
  let alloc ← modifyGet (·.allocate)
  pure (.next (m.push (make alloc)))

/-- Carries out one instruction, the machine already standing behind it. -/
def exec (u : LoadedUnit) (m : Machine) : Instr → Update Effect
  | .nop => pure (.next m)
  | .ret =>
    match m.stack with
    | v :: _ => pure (.done v)
    | [] => pure (.fail .stackUnderflow)
  | .ldc i =>
    match u.program.constants[i.toNat]? with
    | some v => pure (.next (m.push v))
    | none => pure (.fail (.invalidConstant i.toNat))
  | .ldnull => pure (.next (m.push .null))
  | .ldloc i =>
    match m.locals[i.toNat]? with
    | some v => pure (.next (m.push v))
    | none => pure (.fail (.invalidLocal i.toNat))
  | .stloc i =>
    match m.stack with
    | [] => pure (.fail .stackUnderflow)
    | v :: stack =>
      if i.toNat < m.locals.size then
        pure (.next { m with stack, locals := m.locals.setIfInBounds i.toNat v })
      else pure (.fail (.invalidLocal i.toNat))
  | .ldthis => pure (.next (m.push m.this))
  | .ldclass i =>
    match u.classes[i.toNat]? with
    | some t => pure (.next (m.push (.classLiteral t)))
    | none => pure (.fail (.invalidClass i.toNat))
  | .pop =>
    match m.stack with
    | _ :: stack => pure (.next { m with stack })
    | [] => pure (.fail .stackUnderflow)
  | .dup =>
    match m.stack with
    | v :: _ => pure (.next (m.push v))
    | [] => pure (.fail .stackUnderflow)
  | .br target => pure (m.jump u target.toNat)
  | .brfalse target =>
    pure (m.withCondition fun b m => if b then .next m else m.jump u target.toNat)
  | .not => pure (m.withCondition fun b m => .next (m.push (.bool !b)))
  | .newList n =>
    match m.popMany? n.toNat with
    | some (items, m) => m.build (.list · items)
    | none => pure (.fail .stackUnderflow)
  | .newMap n =>
    match m.popMany? (2 * n.toNat) with
    | none => pure (.fail .stackUnderflow)
    | some (operands, m) =>
      match pairEntries? operands with
      | some entries => m.build (.map · entries)
      | none => pure (.fail (.typeMismatch "string map key"))
  | .newRange =>
    match m.stack with
    | [] => pure (.fail .stackUnderflow)
    | .int last :: .int first :: stack =>
      { m with stack }.build (.list · (rangeValues first last))
    | [.int _] => pure (.fail .stackUnderflow)
    | _ => pure (.fail (.typeMismatch "int"))
  | .wrap i =>
    match u.classes[i.toNat]?, m.stack with
    | none, _ => pure (.fail (.invalidClass i.toNat))
    | some _, [] => pure (.fail .stackUnderflow)
    | some t, v :: stack => { m with stack }.build (.wrapper · v t)
  | .invoke op slot argc => pure (m.invocation op slot.toNat argc.toNat)
  | .getProp safe slot =>
    match m.stack with
    | receiver :: stack => pure (.dispatch slot.toNat safe (.property receiver) { m with stack })
    | [] => pure (.fail .stackUnderflow)

/-- The machine at the beginning of a unit. -/
def start (u : LoadedUnit) (this : Value) : Machine where
  locals := Array.replicate u.program.locals .null
  this

/-- The machine at the beginning again, with its local variables as they are. -/
def restart (m : Machine) : Machine := { m with ip := 0, stack := [] }

def decodeFault : DecodeError → MachineError
  | .outOfBounds => .codeBounds
  | .invalidOpcode b => .invalidOpcode b

/-- How a machine stands after an instruction. -/
inductive Status
  | running (m : Machine)
  /-- Over, with the machine as it was for its local variables. -/
  | ended (result : Except MachineError Value) (m : Machine)
deriving Inhabited

/-- The answer that a machine waits for. -/
def answer (runner : Runner) (t : TableRef) (slot : Nat) (safe : Bool) (request : Request) :
    Exec Fault Value :=
  if safe then dispatchSafe runner t slot request else dispatch runner t slot request

/-- Carries out the next instruction, with the dispatch that it asks for. -/
def step (runner : Runner) (u : LoadedUnit) (m : Machine) : Act Status :=
  match Instr.decodeAt u.program.code m.ip with
  | .error e => pure (.ended (.error (decodeFault e)) m)
  | .ok i => do
    match ← Act.ofUpdate (exec u { m with ip := m.ip + i.size } i) with
    | .next m' => pure (.running m')
    | .done v => pure (.ended (.ok v) m)
    | .fail e => pure (.ended (.error e) m)
    | .dispatch slot safe request m' =>
      match ← (answer runner u.table slot safe request).result with
      | .ok v => pure (.running (m'.push v))
      | .error f => pure (.ended (.error (.dispatch f)) m)

/-- Runs to the end, for at most `fuel` instructions. Gives the machine back for its local
variables. -/
def run (runner : Runner) (u : LoadedUnit) :
    Nat → Machine → Act (Except MachineError Value × Machine)
  | 0, _ => Act.stop .exhausted
  | fuel + 1, m => do
    match ← step runner u m with
    | .running m => run runner u fuel m
    | .ended result m => pure (result, m)

end Machine

/-- Binds a program to a runtime. The owner becomes a class if there is none of that name, even when
another name then turns out to be unknown. -/
def load (rt : Nat) (p : Program) : Update (Except MachineError LoadedUnit) := do
  let owner ← modifyGet fun w =>
    match (w.registry rt).lookup? p.manifest.owner with
    | some t => (t, w)
    | none =>
      let (t, _, w) := w.defineClass rt none { name := p.manifest.owner }
      (t, w)
  let registry := (← get).registry rt
  let classes := p.classes.mapM fun name =>
    match registry.lookup? name with
    | some t => Except.ok t
    | none => .error (MachineError.unknownClass name)
  match classes with
  | .error e => pure (.error e)
  | .ok classes =>
    let sites := p.manifest.sites.toList.map fun d => (d.name, d.kind)
    let table ← modifyGet (·.addTable (.ofSites owner rt sites))
    pure (.ok ⟨p, owner, classes, table⟩)

end CachedDispatch
