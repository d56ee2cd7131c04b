import CachedDispatch.Dispatch.Cached
import CachedDispatch.Dispatch.Resolve

/-!
Dispatch through a slot of a table. The occupant of the slot serves the request from what it
remembers, or the slot is specialized for it, or a full lookup is made; a slot that has been
specialized too often becomes megamorphic and stays so.
-/
namespace CachedDispatch

/-- What a lookup for a slot depends on. -/
def World.siteContext (w : World) (t : TableRef) (s : Slot) : Site.Context :=
  ⟨(w.table t).runtime, (w.table t).owner, s.name⟩

/-- Puts a specialized site into the slot that the header names. -/
def install (t : TableRef) (header : SiteHeader) (rt : Nat) (site : Site) : Update Unit := do
  modify (·.updateSlot t header.index fun s => { s with header, site, installs := s.installs + 1 })
  modify (·.updateStats rt fun s => { s with installs := s.installs + 1 })

/-- Makes a slot megamorphic, unless it already is. -/
def giveUp (t : TableRef) (header : SiteHeader) (rt : Nat) : Update Unit := do
  match (← get).slot? t header.index with
  | none => pure ()
  | some slot =>
    if slot.site.tag ≠ .megamorphic then
      modify (·.updateSlot t header.index fun s => { s with header, site := .megamorphic })
      modify (·.updateStats rt fun s =>
        { s with megamorphicTransitions := s.megamorphicTransitions + 1 })

/-- Installs a site for the request; `none` when only a full lookup can serve it. -/
def specialize (t : TableRef) (header : SiteHeader) (c : Site.Context) (request : Request) :
    Update (Option Site) := do
  let w ← get
  let config := (w.runtime c.runtime).config
  if !config.cacheEnabled || w.hasActiveCategory then pure none
  else if config.threshold ≤ ((w.slot? t header.index).map (·.installs)).getD 0 then
    giveUp t header c.runtime
    pure none
  else
    match ← resolve c request with
    | none => pure none
    | some site =>
      install t header c.runtime site
      pure (some site)

/-- The plan for a request that goes to null. -/
def planOnNull (c : Site.Context) : Request → Update Plan
  | .call _ _ args => planNullCall c args
  | .property _ => planNullProperty c
  | request => planFully c request

def lookedUp (u : Update Plan) : Update Decision := do
  pure ⟨.lookup, ← u⟩

/-- The plan for a request that the occupant of the slot does not serve. A site that has just been
installed gets the request too, and should it not serve it either, the plan is `again`. -/
def planWith (t : TableRef) (header : SiteHeader) (c : Site.Context) (request : Request)
    (again : Update Decision) : Update Decision := do
  if request.onNull then lookedUp (planOnNull c request)
  else
    match ← specialize t header c request with
    | none => lookedUp (planFully c request)
    | some site =>
      match site.cached? (← get) request with
      | some plan => pure ⟨.memory, plan⟩
      | none => again

/-- Specializes the slot until a site serves the request; `attempts` bounds how often, as the
threshold does. -/
def planGenerically (t : TableRef) (header : SiteHeader) (c : Site.Context) (request : Request) :
    Nat → Update Decision
  | 0 => planWith t header c request (lookedUp (planFully c request))
  | attempts + 1 => planWith t header c request (planGenerically t header c request attempts)

/-- The plan that a slot makes for a request. -/
def planAt (t : TableRef) (slot : Slot) (request : Request) : Update Decision := do
  let w ← get
  let c := w.siteContext t slot
  match slot.site with
  | .megamorphic => lookedUp (planFully c request)
  | site =>
    match site.cached? w request with
    | some plan => pure ⟨.memory, plan⟩
    | none => planGenerically t slot.header c request (w.runtime c.runtime).config.threshold

/-- Failures leave the computation without the layers that they were carried in. -/
def stripped {α : Type} (x : Exec Fault α) : Exec Fault α := ExceptT.adapt Fault.bare x

/-- Runs the code that sets one property after another. Setters are always looked up. -/
def setProperties (run : Runner) (rt : Nat) (target : Value) :
    List (String × Value) → Exec Fault Unit
  | [] => pure ()
  | (name, v) :: entries => do
    match ← Exec.ofUpdate (planSetProperty rt target name v) with
    | .setField o field v => modify (·.setField o field v)
    | .invoke m receiver args => do
      let _ ← ExceptT.adapt Fault.carried (m.invoke run receiver args)
    | .fail f => throw f
    | _ => pure ()
    setProperties run rt target entries

/-- Carries out a plan. -/
def Plan.run (run : Runner) (rt : Nat) (origin : Origin) : Plan → Exec Fault Value
  | .invoke m receiver args => ExceptT.adapt origin.pass (m.invoke run receiver args)
  | .hook body receiver name args =>
    ExceptT.adapt origin.pass (run (.script body) { receiver, args, calledName := some name })
  | .construct cls m args => ExceptT.adapt origin.pass (m.construct run cls args)
  | .bean cls m args entries => do
    let target ← ExceptT.adapt origin.pass (m.construct run cls args)
    match origin with
    | .lookup => setProperties run rt target entries
    | .memory => stripped (setProperties run rt target entries)
    pure target
  | .answer v => pure v
  | .setField o name v => do
    modify (·.setField o name v)
    pure .null
  | .fail f => throw f

/-- What a slot makes of a request. -/
def serve (run : Runner) (t : TableRef) (i : Nat) (request : Request) : Exec Fault Value := do
  match (← get).slot? t i with
  | none => throw (.invalidSlot i)
  | some slot =>
    let decision ← Exec.ofUpdate (planAt t slot request)
    decision.plan.run run ((← get).table t).runtime decision.origin

/-- Dispatches a request through a slot. -/
def dispatch (run : Runner) (t : TableRef) (i : Nat) (request : Request) : Exec Fault Value := do
  modify (·.record (.asked t i request))
  let answer ← ExceptT.lift (stripped (serve run t i request)).result
  modify (·.record (.answered answer))
  ExceptT.mk (pure answer)

/-- Dispatches, except that null answers null without a look at the slot. -/
def dispatchSafe (run : Runner) (t : TableRef) (i : Nat) (request : Request) :
    Exec Fault Value :=
  if request.onNull then pure .null else dispatch run t i request

end CachedDispatch
