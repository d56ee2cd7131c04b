import CachedDispatch.Proofs.Discipline
import CachedDispatch.Proofs.Serving

/-!
What a specialized site remembers, and that it stays true. A site holds the outcome of a lookup; as
long as the version has not moved, the same lookup made now has the same outcome.
-/
namespace CachedDispatch

/-- The lookups whose outcome a site can remember. A bean is looked up by the arguments before the
map, provided that no constructor takes the map too. -/
inductive Query
  | call (owner : TypeId) (current : Bool) (name : String)
  | static (owner : TypeId) (name : String)
  | constructor
  | bean

namespace Query

/-- What a full lookup selects for these arguments. -/
def select (lin : Lineage) (h : Hierarchy) (args : List Value) : Query → Option Method
  | call owner current name => h.pickForCall lin owner current name args
  | static owner name => h.pickMethod lin name args (.staticsFor owner)
  | constructor => h.pickConstructor lin args
  | bean =>
    if (h.pickConstructor lin (args ++ [.map 0 []])).isSome then none
    else h.pickConstructor lin args

/-- What a lookup that sees only the keys of the arguments selects. -/
def find (line : TypeId → List TypeId) (h : Hierarchy) (shape : Shape) : Query → Option Method
  | call owner true name =>
    (pickByShape line (h.candidates name (.currentFor owner h.id)) shape).or
      (pickByShape line (h.candidates name (Lookup.currentFor owner h.id).asStatics) shape)
  | call owner false name => pickByShape line (h.candidates name (.instanceFor owner)) shape
  | static owner name => pickByShape line (h.candidates name (.staticsFor owner)) shape
  | constructor => pickByShape line h.own.constructors shape
  | bean =>
    if (pickByShape line h.own.constructors (shape ++ [⟨.map, false⟩])).isSome then none
    else pickByShape line h.own.constructors shape

theorem select_eq_find {lin : Lineage} {line : TypeId → List TypeId} {args : List Value}
    (h : ∀ v ∈ args, v.RankedByKey lin line) (hmap : (Value.map 0 []).RankedByKey lin line)
    (k : Hierarchy) (q : Query) : q.select lin k args = q.find line k (Shape.of lin args) := by
  have hpick := pick_eq_pickByShape h
  cases q with
  | call owner current name =>
    cases current with
    | true => simp only [select, find, Hierarchy.pickForCall, Hierarchy.pickMethod, hpick, if_true]
    | false => exact hpick _
  | static owner name => exact hpick _
  | constructor => exact hpick _
  | bean =>
    have hall : ∀ v ∈ args ++ [Value.map 0 []], v.RankedByKey lin line := by
      intro v hv
      rcases List.mem_append.mp hv with hv | hv
      · exact h v hv
      · rw [List.mem_singleton.mp hv]
        exact hmap
    have hshape : Shape.of lin (args ++ [.map 0 []]) = Shape.of lin args ++ [⟨.map, false⟩] := by
      simp [Shape.of, ShapeKey.of, Value.typeId]
    simp only [select, find, Hierarchy.pickConstructor, hpick, pick_eq_pickByShape hall, hshape]

/-- Only the members of the classes and the lines of the keys matter. -/
private theorem find_congr {line line' : TypeId → List TypeId} {f g : ClassRef → Class} {r : ClassRef}
    {rs : List ClassRef} {shape : Shape} (hm : ∀ q ∈ r :: rs, (f q).SameMembers (g q))
    (hid : (g r).id = (f r).id) (hline : ∀ k ∈ shape, k.wrapped = false → line k.type = line' k.type)
    (hmap : line .map = line' .map) (q : Query) :
    q.find line' (.along g r rs) shape = q.find line (.along f r rs) shape := by
  have hown : (Hierarchy.along g r rs).own.constructors = (Hierarchy.along f r rs).own.constructors :=
    (hm r (by simp)).constructors
  have hids : (Hierarchy.along g r rs).id = (Hierarchy.along f r rs).id := hid
  have hpick (ms : List Method) : pickByShape line' ms shape = pickByShape line ms shape :=
    (pickByShape_congr ms hline).symm
  cases q with
  | call owner current name =>
    cases current <;> simp only [find, Hierarchy.candidates_congr hm, hids, hpick]
  | static owner name => simp only [find, Hierarchy.candidates_congr hm, hpick]
  | constructor => simp only [find, hown, hpick]
  | bean =>
    have hbean (ms : List Method) : pickByShape line' ms (shape ++ [⟨.map, false⟩])
        = pickByShape line ms (shape ++ [⟨.map, false⟩]) := by
      refine (pickByShape_congr ms fun k hk hw => ?_).symm
      rcases List.mem_append.mp hk with hk | hk
      · exact hline k hk hw
      · rw [List.mem_singleton.mp hk]
        exact hmap
    simp only [find, hown, hpick, hbean]

end Query

/-- The outcome of `q` is remembered truthfully. -/
structure Target.Remembers (w : World) (q : Query) (t : Target) : Prop where
  placed : w.Placed t.cls
  version : t.version ≤ w.version t.cls
  known : ∀ k ∈ t.shape, k.wrapped = false → w.Known k.type
  fits : t.tier.Fits t.method t.shape
  found : w.version t.cls = t.version →
    q.find w.line (w.hierarchy t.cls) t.shape = some t.method

namespace World

variable {w w' : World}

private theorem Onward.version_le (h : w.Onward w') {r : ClassRef} (hr : w.Placed r) :
    w.version r ≤ w'.version r := by
  obtain ⟨hw', hl⟩ := h.grows.hierarchy_later h.orderly hr
  unfold World.version
  rw [hw']
  exact Hierarchy.version_le hl

/-- While the version stays, so do the members of the whole line. -/
private theorem Onward.sameMembers (h : w.Onward w') {r : ClassRef} (hr : w.Placed r)
    (hv : w.version r = w'.version r) :
    w'.hierarchy r = .along w'.cls r (w.cls r).ancestors
      ∧ ∀ q ∈ r :: (w.cls r).ancestors, (w.cls q).SameMembers (w'.cls q) := by
  obtain ⟨hw', hl⟩ := h.grows.hierarchy_later h.orderly hr
  refine ⟨hw', Hierarchy.sameMembers_of_version_eq hl ?_⟩
  unfold World.version at hv
  rw [hw'] at hv
  exact hv

end World

private theorem Target.Remembers.onward {w w' : World} (ho : w.Onward w') {q : Query} {t : Target}
    (h : t.Remembers w q) : t.Remembers w' q where
  placed := ho.grows.placed h.placed
  version := Nat.le_trans h.version (ho.version_le h.placed)
  known k hk hw := ho.grows.known (h.known k hk hw)
  fits := h.fits
  found hv := by
    have hle := ho.version_le h.placed
    have hle' := h.version
    obtain ⟨hw', hm⟩ := ho.sameMembers h.placed (by omega)
    rw [← h.found (by omega), hw', World.hierarchy_eq_along]
    refine Query.find_congr hm (ho.grows.later _ h.placed.lt).id ?_ ?_ q
    · exact fun k hk hw => (ho.line_eq (h.known k hk hw)).symm
    · exact (ho.line_eq (.builtin .map)).symm

/-- The values that pass the guard belong to this class. -/
def Guard.Pins (w : World) (cls : ClassRef) : Guard → Prop
  | .instanceOf r => r = cls
  | .valueOf t => w.StandsFor t cls ∧ t ≠ .null ∧ t ≠ .classLiteral
  | .literalOf t => w.StandsFor t cls

/-- What is looked up for calls on the values that pass the guard. -/
def Guard.query (c : Site.Context) (current : Bool) : Guard → Query
  | .literalOf _ => .static c.owner c.name
  | _ => .call c.owner current c.name

/-- How the property of the values that pass the guard is read. Maps are read without a lookup. -/
def Guard.access (w : World) (cls : ClassRef) (name : String) : Guard → Option Access
  | .valueOf t => if t = .map then some (.entry name) else accessFor w cls name .null (.valueOf t)
  | guard => accessFor w cls name .null guard

private theorem Guard.Pins.onward {w w' : World} (ho : w.Onward w') {cls : ClassRef} {guard : Guard}
    (h : guard.Pins w cls) : guard.Pins w' cls := by
  cases guard with
  | instanceOf r => exact h
  | valueOf t => exact h.imp_left (ho.grows.entries t cls)
  | literalOf t => exact ho.grows.entries t cls h

theorem Hierarchy.property?_congr {f g : ClassRef → Class} {r : ClassRef}
    {rs : List ClassRef} (hm : ∀ q ∈ r :: rs, (f q).SameMembers (g q)) (hid : (g r).id = (f r).id)
    (lin lin' : Lineage) (name : String) :
    (Hierarchy.along g r rs).property? lin' name = (Hierarchy.along f r rs).property? lin name := by
  have hids : (Hierarchy.along g r rs).id = (Hierarchy.along f r rs).id := hid
  simp only [Hierarchy.property?, Hierarchy.pickMethod, hasField_congr hm, candidates_congr hm, hids,
    pick_nil lin' lin]

theorem Hierarchy.staticProperty?_congr {f g : ClassRef → Class} {r : ClassRef}
    {rs : List ClassRef} (hm : ∀ q ∈ r :: rs, (f q).SameMembers (g q)) (hid : (g r).id = (f r).id)
    (lin lin' : Lineage) (name : String) :
    (Hierarchy.along g r rs).staticProperty? lin' name
      = (Hierarchy.along f r rs).staticProperty? lin name := by
  have hids : (Hierarchy.along g r rs).id = (Hierarchy.along f r rs).id := hid
  simp only [Hierarchy.staticProperty?, Hierarchy.pickMethod, isSome_staticField?_congr hm,
    candidates_congr hm, hids, pick_nil lin' lin]

private theorem Guard.access_onward {w w' : World} (ho : w.Onward w') {cls : ClassRef}
    (hc : w.Placed cls) (hv : w.version cls = w'.version cls) (name : String) (guard : Guard) :
    guard.access w' cls name = guard.access w cls name := by
  obtain ⟨hw', hm⟩ := ho.sameMembers hc hv
  have hid := (ho.grows.later _ hc.lt).id
  have hprop := Hierarchy.property?_congr hm hid w.lineage w'.lineage name
  have hstat := Hierarchy.staticProperty?_congr hm hid w.lineage w'.lineage name
  rw [← hw', ← World.hierarchy_eq_along] at hprop hstat
  cases guard with
  | instanceOf r => simp only [access, accessFor, hprop]
  | valueOf t => simp only [access, accessFor, hprop]
  | literalOf t => simp only [access, accessFor, hstat]

/-- The method that a site remembers, with what it depends on. -/
def Site.target? : Site → Option Target
  | .method _ target _ | .constructor _ target | .bean _ target => some target
  | _ => none

/-- All that the site remembers for requests in this context is true. -/
def Site.Faithful (w : World) (c : Site.Context) : Site → Prop
  | .generic | .null | .megamorphic => True
  | .method guard target current =>
    guard.Pins w target.cls ∧ target.Remembers w (guard.query c current)
      ∧ ((∀ t, guard ≠ .literalOf t) → (w.cls target.cls).hook = none)
  | .constructor type target => w.StandsFor type target.cls ∧ target.Remembers w .constructor
  | .bean type target => w.StandsFor type target.cls ∧ target.Remembers w .bean
  | .property guard cls version access =>
    guard.Pins w cls ∧ w.Placed cls ∧ version ≤ w.version cls
      ∧ (w.version cls = version → guard.access w cls c.name = some access)

theorem Site.Faithful.onward {w w' : World} (ho : w.Onward w') {c : Site.Context} {site : Site}
    (h : site.Faithful w c) : site.Faithful w' c := by
  cases site with
  | generic | null | megamorphic => trivial
  | method guard target current =>
    obtain ⟨hp, hr, hk⟩ := h
    exact ⟨hp.onward ho, hr.onward ho, fun hg => by
      rw [(ho.grows.later _ hr.placed.lt).hook]; exact hk hg⟩
  | constructor type target => exact ⟨ho.grows.entries _ _ h.1, h.2.onward ho⟩
  | bean type target => exact ⟨ho.grows.entries _ _ h.1, h.2.onward ho⟩
  | property guard cls version access =>
    obtain ⟨hp, hc, hle, hf⟩ := h
    have hle' := ho.version_le hc
    refine ⟨hp.onward ho, ho.grows.placed hc, Nat.le_trans hle hle', fun hv => ?_⟩
    rw [Guard.access_onward ho hc (by omega), hf (by omega)]

end CachedDispatch
