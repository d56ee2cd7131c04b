import CachedDispatch.Ranking

/-!
Arguments on their way into a method. Wrappers are taken off and integers become floats where the
signature asks for it; a shape records what decides which of the two steps can be left out.
-/
namespace CachedDispatch

/-- What a cache check sees of an argument. -/
structure ShapeKey where
  type : TypeId
  wrapped : Bool
deriving DecidableEq, Repr, Inhabited

def ShapeKey.of (lin : Lineage) : Value → ShapeKey
  | .wrapper _ _ declared => ⟨declared, true⟩
  | v => ⟨v.typeId lin, false⟩

abbrev Shape := List ShapeKey

def Shape.of (lin : Lineage) (args : List Value) : Shape := args.map (ShapeKey.of lin)

/-- How much preparation the arguments of a cached call need. -/
inductive Tier
  | noUnwrapNoCoerce
  | noUnwrap
  | baseline
deriving DecidableEq, Repr, Inhabited

def noWrappers (args : List Value) : Bool := !args.any (·.isWrapper)

def noCoercion (lin : Lineage) (params : List ParamType) (args : List Value) : Bool :=
  (params.zip args).all fun e => directlyAssignable lin e.1 e.2

def selectTier (lin : Lineage) (m : Method) (args : List Value) : Tier :=
  if !noWrappers args then .baseline
  else if noCoercion lin m.params args then .noUnwrapNoCoerce
  else .noUnwrap

def unwrapArgs (args : List Value) : List Value := args.map (·.unwrap)

/-- What an argument turns into on its way into `p`, if it does not stay as it is. -/
def coerce? : ParamType → Value → Option Value
  | .exact t, .int n => if t = .float then some (.float (.ofInt n)) else none
  | _, _ => none

def coerceArg (p : ParamType) (v : Value) : Value := (coerce? p v).getD v

/-- Arguments without a parameter are left out, but only when some argument is coerced. -/
def coerceArgs (params : List ParamType) (args : List Value) : List Value :=
  if (params.zip args).any fun e => (coerce? e.1 e.2).isSome then params.zipWith coerceArg args
  else args

/-- The arguments as the code of `m` gets them, leaving out the steps that `tier` says are idle. -/
def prepare (m : Method) (args : List Value) : Tier → List Value
  | .noUnwrapNoCoerce => args
  | .noUnwrap => coerceArgs m.params args
  | .baseline => coerceArgs m.params (unwrapArgs args)

end CachedDispatch
