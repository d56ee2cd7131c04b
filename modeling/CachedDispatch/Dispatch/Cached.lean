import CachedDispatch.Dispatch.Plan

/-!
Plans that specialized sites make from what they remember, when everything that they depend on still
holds: the receiver passes the guard, the class has its old version, the arguments have the old
shape, and no category is active.
-/
namespace CachedDispatch

def Guard.admits (w : World) : Guard → Value → Bool
  | .instanceOf cls, .object o => w.classOfObject o = cls
  | .instanceOf _, _ => false
  | .valueOf _, .object _ => false
  | .valueOf t, v => v.typeId w.lineage = t
  | .literalOf t, .classLiteral u => t = u
  | .literalOf _, _ => false

/-- Whether the remembered method is still the one for these arguments. -/
def Target.isValid (w : World) (t : Target) (args : List Value) : Bool :=
  w.version t.cls = t.version && t.shape = Shape.of w.lineage args && !w.hasActiveCategory

def Target.invoke (w : World) (t : Target) (receiver : Value) (args : List Value) : Plan :=
  .invoke t.method (receiverFor (w.cls t.cls).id t.method receiver) (prepare t.method args t.tier)

/-- How a remembered access reads its property. -/
def Access.read (w : World) (cls : ClassRef) (receiver : Value) : Access → Plan
  | .field name =>
    match receiver with
    | .object o => .answer ((w.field? o name).getD .null)
    | _ => .answer .null
  | .accessor m => .invoke m (receiverFor (w.cls cls).id m receiver) []
  | .entry key => .answer ((receiver.entry? key).getD .null)
  | .staticField name => .answer (((w.hierarchy cls).staticField? name).getD .null)

/-- The plan of a site that may answer the request from what it remembers. A site remembered for
calls on the current object serves no plain calls, and the other way round; static calls are served
by both. -/
def Site.cached? (w : World) : Site → Request → Option Plan
  | .method guard target current, .call current' receiver args =>
    if current = current' && guard.admits w receiver && target.isValid w args then
      some (target.invoke w receiver args)
    else none
  | .method guard target _, .static t args =>
    if guard.admits w (.classLiteral t) && target.isValid w args then
      some (target.invoke w (.classLiteral t) args)
    else none
  | .constructor type target, .construct t args =>
    if t = type && target.isValid w args then
      some (.construct target.cls target.method (prepare target.method args target.tier))
    else none
  | .bean type target, .construct t args =>
    match beanSplit? args with
    | some (positional, entries) =>
      if t = type && target.isValid w positional then
        some (.bean target.cls target.method (prepare target.method positional target.tier) entries)
      else none
    | none => none
  | .property guard cls version access, .property receiver =>
    if guard.admits w receiver && w.version cls = version && !w.hasActiveCategory then
      some (access.read w cls receiver)
    else none
  | _, _ => none

end CachedDispatch
