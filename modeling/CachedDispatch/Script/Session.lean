import CachedDispatch.Script.Step

/-!
Sessions. Fuel bounds how deep bodies and steps nest, and how many instructions a unit executes; a
run that needs more is reported as exhausted.
-/
namespace CachedDispatch.Script

/-- Performs a step with a trace of its own. -/
def withTrace (step : Act Answer) : Act Reply := do
  let outer := (← get).scope.trace
  updateScope fun s => { s with trace := [] }
  let answer ← step
  let trace := (← get).scope.trace.reverse
  updateScope fun s => { s with trace := outer }
  pure (.mk answer trace)

mutual

/-- Evaluates a body. -/
def evalBody : Nat → Body → Frame → Exec Fault Value
  | 0, _, _ => Exec.stop .exhausted
  | fuel + 1, body, frame => body.evalWith (evalBody fuel) (performSteps fuel) frame

/-- Performs steps in order. -/
def performSteps : Nat → List Step → Act (List Reply)
  | 0, _ => Act.stop .exhausted
  | fuel + 1, steps =>
    steps.mapM fun step =>
      withTrace (step.exec (.ofScripts (evalBody fuel)) (performSteps fuel) fuel)

end

/-- Fuel for more than any session needs. -/
def sessionFuel : Nat := 1000000000000

/-- The replies of a session that starts with one runtime. -/
def runSession (config : Config) (steps : List Step) (embedding : Embedding := {}) :
    Except Stop (List Reply) := do
  let (replies, _) ← (performSteps sessionFuel steps).run (.initial config embedding)
  pure replies

end CachedDispatch.Script
