import CachedDispatch.Exec
import CachedDispatch.Text.Quoted

/-!
Snapshots of values and classes. An object is shown with its fields the first time it occurs in a
report, and only by its number after that, so that cycles come to an end.
-/
namespace CachedDispatch.Script

/-- The objects shown so far: in all reports, and in the present one. -/
structure Showing where
  shown : List ObjectRef
  seen : List ObjectRef := []
deriving Inhabited

abbrev Show := StateM Showing

/-- The number of an object, which gets the next one when it is new. -/
def numberOf (o : ObjectRef) : Show Nat := do
  let s ← get
  match s.shown.idxOf? o with
  | some n => pure n
  | none =>
    set { s with shown := s.shown ++ [o] }
    pure s.shown.length

mutual

def showValue (showObject : ObjectRef → Show Snapshot) : Value → Show Snapshot
  | .null => pure .null
  | .bool b => pure (.bool b)
  | .int n => pure (.int n)
  | .float x => pure (.float x)
  | .text s => pure (.text (Text.maskAddresses s))
  | .list _ items => do pure (.list (← showItems showObject items))
  | .map _ entries => do pure (.map (← showEntries showObject entries))
  | .classLiteral t => pure (.classLiteral t)
  | .object o => showObject o
  | .host _ t label => pure (.host t label)
  | .wrapper _ v t => do pure (.wrapper (← showValue showObject v) t)

def showItems (showObject : ObjectRef → Show Snapshot) : List Value → Show (List Snapshot)
  | [] => pure []
  | v :: vs => do
    let s ← showValue showObject v
    let ss ← showItems showObject vs
    pure (s :: ss)

def showEntries (showObject : ObjectRef → Show Snapshot) :
    List (String × Value) → Show (List (String × Snapshot))
  | [] => pure []
  | (k, v) :: es => do
    let s ← showValue showObject v
    let ss ← showEntries showObject es
    pure ((Text.maskAddresses k, s) :: ss)

end

/-- The fields that an object has, in the order in which its class declares them. -/
def objectFields (w : World) (o : ObjectRef) : List (String × Value) :=
  (w.hierarchy (w.classOfObject o)).declaredFields.filterMap fun name =>
    (w.field? o name).map (name, ·)

/-- Shows an object; `depth` bounds how deep objects can be nested. -/
def showObject (w : World) : Nat → ObjectRef → Show Snapshot
  | 0, o => do pure (.seen (← numberOf o))
  | depth + 1, o => do
    let number ← numberOf o
    if (← get).seen.contains o then pure (.seen number)
    else
      modify fun s => { s with seen := o :: s.seen }
      let fields ← (objectFields w o).mapM fun (name, v) => do
        pure (name, ← showValue (showObject w depth) v)
      pure (.object number (w.naming.className o) fields)

/-- Shows a value as a report of its own. No object is nested in itself, so the number of objects
bounds the depth. -/
def snapshot (v : Value) : Update Snapshot := modifyGet fun w =>
  let (s, showing) :=
    (showValue (showObject w (w.objects.size + 1)) v).run { shown := w.scope.shown }
  (s, { w with scope := { w.scope with shown := showing.shown } })

def snapshots (vs : List Value) : Update (List Snapshot) := vs.mapM snapshot

def classView (w : World) (r : ClassRef) : ClassView :=
  let h := w.hierarchy r
  { id := h.id
    name := h.name
    kind := h.own.kind
    version := h.version
    parent := h.ancestors.head?.map (·.id)
    fields := h.declaredFields
    constructors := h.own.constructors.length
    hasHook := h.own.hook.isSome }

/-- The text of a class for its developers. -/
def ClassView.describe (c : ClassView) : String :=
  "MetaClass \x7b name: " ++ Text.quote c.name ++ ", type_id: TypeId(" ++ toString c.id.number
    ++ "), kind: " ++ c.kind.label ++ ", version: " ++ toString c.version ++ " \x7d"

def siteView (slot : Option Slot) : SiteView where
  tag := slot.map (·.site.tag)
  tier := slot.bind (·.site.tier?)
  installs := (slot.map (·.installs)).getD 0

def slotView (slot : Option Slot) : SlotView where
  name := slot.map (·.name)
  kind := slot.map (·.kind)
  site := siteView slot

def propertyView : Property → PropertyView
  | .field name => .field name
  | .accessor m => .accessor m
  | .staticField name => .staticField name

end CachedDispatch.Script
