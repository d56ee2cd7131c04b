import CachedDispatch.Proofs.Same

/-!
Operations on matched worlds. Whatever is done to both of two worlds that lookups cannot tell apart
has the same outcome in both, and leaves them so.
-/
namespace CachedDispatch

namespace World

namespace Same

variable {w₁ w₂ : World}

theorem record (h : w₁.Same w₂) (e : Event) : (w₁.record e).Same (w₂.record e) :=
  ⟨h.runtimes, h.classes, h.cls, h.ancestors, h.names, h.begun, h.objects, h.tables, h.active, h.fresh,
    h.scope, congrArg (e :: ·) h.history, h.drafts, h.embedding⟩

theorem allocate (h : w₁.Same w₂) : w₁.allocate.2.Same w₂.allocate.2 :=
  ⟨h.runtimes, h.classes, h.cls, h.ancestors, h.names, h.begun, h.objects, h.tables, h.active,
    congrArg (· + 1) h.fresh, h.scope, h.history, h.drafts, h.embedding⟩

theorem setField (h : w₁.Same w₂) (o : ObjectRef) (name : String) (v : Value) :
    (w₁.setField o name v).Same (w₂.setField o name v) := by
  refine ⟨h.runtimes, h.classes, h.cls, h.ancestors, h.names, h.begun, ?_, h.tables, h.active, h.fresh,
    h.scope, h.history, h.drafts, h.embedding⟩
  simp only [World.setField, h.objects]

theorem activate (h : w₁.Same w₂) (active : List Category) :
    ({ w₁ with active } : World).Same { w₂ with active } :=
  ⟨h.runtimes, h.classes, h.cls, h.ancestors, h.names, h.begun, h.objects, h.tables, rfl, h.fresh,
    h.scope, h.history, h.drafts, h.embedding⟩

theorem rescope (h : w₁.Same w₂) {s₁ s₂ : Scope} (hs : s₁.plain = s₂.plain) :
    ({ w₁ with scope := s₁ } : World).Same { w₂ with scope := s₂ } :=
  ⟨h.runtimes, h.classes, h.cls, h.ancestors, h.names, h.begun, h.objects, h.tables, h.active, h.fresh,
    hs, h.history, h.drafts, h.embedding⟩

private theorem withDrafts (h : w₁.Same w₂) (drafts : List (String × Draft)) :
    ({ w₁ with drafts } : World).Same { w₂ with drafts } :=
  ⟨h.runtimes, h.classes, h.cls, h.ancestors, h.names, h.begun, h.objects, h.tables, h.active, h.fresh,
    h.scope, h.history, rfl, h.embedding⟩

theorem addTable (h : w₁.Same w₂) (t : Table) :
    (w₁.addTable t).1 = (w₂.addTable t).1 ∧ (w₁.addTable t).2.Same (w₂.addTable t).2 := by
  have hsize : w₁.tables.size = w₂.tables.size := by
    simpa using congrArg Array.size h.tables
  refine ⟨congrArg TableRef.mk hsize, h.runtimes, h.classes, h.cls, h.ancestors, h.names, h.begun,
    h.objects, ?_, h.active, h.fresh, h.scope, h.history, h.drafts, h.embedding⟩
  simp only [World.addTable, Array.map_push, h.tables]

private theorem updateClass (h : w₁.Same w₂) (r : ClassRef) {f : Class → Class}
    (hf : ∀ c : Class, (f c).detached = f c.detached)
    (ha : ∀ c : Class, (f c).ancestors = c.ancestors) :
    (w₁.updateClass r f).Same (w₂.updateClass r f) := by
  refine ⟨h.runtimes, by simp [h.classes], fun q => ?_, fun q hq => ?_, h.names, h.begun, h.objects,
    h.tables, h.active, h.fresh, h.scope, h.history, h.drafts, h.embedding⟩
  · rw [cls_updateClass, cls_updateClass, h.classes]
    split
    · rw [hf, hf, h.cls]
    · exact h.cls q
  · rw [cls_updateClass, cls_updateClass, h.classes]
    split
    · rw [ha, ha, h.ancestors q hq]
    · exact h.ancestors q hq

theorem mutate (h : w₁.Same w₂) (r : ClassRef) (mu : Mutation) :
    (w₁.updateClass r mu.apply).Same (w₂.updateClass r mu.apply) := by
  refine h.updateClass r (fun c => ?_) (Class.ancestors_mutation · mu)
  cases mu with
  | addMethod m =>
    simp only [Mutation.apply, Class.addMethod, Class.putMethod, Class.detached]
    split <;> rfl
  | addConstructor m => rfl
  | removeMethod name =>
    have hd : c.detached.declares name = c.declares name := rfl
    simp only [Mutation.apply, Class.removeMethod, hd]
    split <;> rfl
  | addField name =>
    have hd : c.detached.fields = c.fields := rfl
    simp only [Mutation.apply, Class.addField, Class.putField, hd]
    by_cases hf : c.fields.contains name = true
    · simp only [if_pos hf]
    · simp only [if_neg hf]
      rfl
  | setStatic name v =>
    have hd : c.detached.staticFields = c.staticFields := rfl
    simp only [Mutation.apply, Class.setStatic, hd]
    split <;> rfl

private theorem bump (h : w₁.Same w₂) (r : ClassRef) :
    (w₁.updateClass r Class.bump).Same (w₂.updateClass r Class.bump) :=
  h.updateClass r (fun _ => rfl) fun _ => rfl

/-- Both registries are told the same. -/
private theorem updateRegistry (h : w₁.Same w₂) (hs : w₂.runtimes.size = 1) {f g : Registry → Registry}
    (hnames : ∀ name, (f (w₁.registry 0)).lookup? name = (g (w₂.registry 0)).lookup? name)
    (hbegun : (f (w₁.registry 0)).begun = (g (w₂.registry 0)).begun) :
    (w₁.updateRegistry 0 f).Same (w₂.updateRegistry 0 g) := by
  have hreg₁ := registry_updateRegistry w₁ f (h.runtimes.trans hs)
  have hreg₂ := registry_updateRegistry w₂ g hs
  exact ⟨by simp [h.runtimes], h.classes, h.cls, h.ancestors, fun n => hreg₁ ▸ hreg₂ ▸ hnames n,
    hreg₁ ▸ hreg₂ ▸ hbegun, h.objects, h.tables, h.active, h.fresh, h.scope, h.history, h.drafts,
    h.embedding⟩

private theorem register (h : w₁.Same w₂) (hs : w₂.runtimes.size = 1) (r : ClassRef) :
    (w₁.register 0 r).Same (w₂.register 0 r) := by
  refine h.updateRegistry hs (f := (·.register (w₁.cls r).name (w₁.cls r).id r))
    (g := (·.register (w₂.cls r).name (w₂.cls r).id r)) (fun n => ?_) h.begun
  rw [Registry.lookup?_register, Registry.lookup?_register, h.id, h.name, h.names]

private theorem handOut (h : w₁.Same w₂) (hs : w₂.runtimes.size = 1) :
    (w₁.updateRegistry 0 Registry.handOut).Same (w₂.updateRegistry 0 Registry.handOut) :=
  h.updateRegistry hs h.names (congrArg (· + 1) h.begun)

private theorem addClass (h : w₁.Same w₂) (c : Class) :
    (w₁.addClass c).1 = (w₂.addClass c).1 ∧ (w₁.addClass c).2.Same (w₂.addClass c).2 := by
  refine ⟨congrArg ClassRef.mk h.classes, h.runtimes, by simp [h.classes], fun q => ?_, fun q hq => ?_,
    h.names, h.begun, h.objects, h.tables, h.active, h.fresh, h.scope, h.history, h.drafts,
    h.embedding⟩
  · rw [cls_addClass, cls_addClass, h.classes]
    split
    · rfl
    · exact h.cls q
  · rw [cls_addClass, cls_addClass, h.classes]
    split
    · rfl
    · exact h.ancestors q hq

/-- A draft is built in both, below a class that has the same ancestors in both. -/
private theorem buildClass (h : w₁.Same w₂) (hs : w₂.runtimes.size = 1) {d : Draft} (hd : d.runtime = 0)
    {parent : Option ClassRef}
    (ha : (w₁.cls (parent.getD d.root)).ancestors = (w₂.cls (parent.getD d.root)).ancestors)
    (members : ClassMembers) :
    (w₁.buildClass d parent members).1 = (w₂.buildClass d parent members).1
      ∧ (w₁.buildClass d parent members).2.Same (w₂.buildClass d parent members).2 := by
  simp only [World.buildClass, ha, hd]
  generalize ClassMembers.toClass _ _ _ = c
  obtain ⟨hplace, hadded⟩ := h.addClass c
  rw [hplace]
  exact ⟨rfl, hadded.register hs _⟩

end Same

/-- A class that stands for its type replaces itself, and gets a new stamp. -/
theorem Entered.replaceClass_eq {w : World} {r : ClassRef} (h : w.Entered r) :
    w.replaceClass 0 r = (some r, (w.register 0 r).updateClass r Class.bump) := by
  have hs : Assoc.get? (w.registry 0).entries (w.cls r).id = some r := h.stands
  simp only [World.replaceClass, hs]

namespace Matched

variable {w₁ w₂ : World}

theorem findClass (h : w₁.Matched w₂) (t : TypeId) :
    (w₁.findClass 0 t).2.Matched (w₂.findClass 0 t).2 := by
  obtain ⟨ho₁, hg₁⟩ := h.orderly₁.findClass t
  obtain ⟨ho₂, hg₂⟩ := h.orderly₂.findClass t
  have hs₁ := Same.findClass h.orderly₁ t
  have hs₂ := Same.findClass h.orderly₂ t
  exact ⟨ho₁, ho₂, h.housed₁.of_sameRest (w₁.sameRest_findClass 0 t) hg₁,
    h.housed₂.of_sameRest (w₂.sameRest_findClass 0 t) hg₂, hs₁.symm.tame h.tame₁,
    hs₂.symm.tame h.tame₂, hs₁.symm.trans (h.same.trans hs₂)⟩

theorem rootClass (h : w₁.Matched w₂) {b : BuiltinType} (hb : b.isRoot = true) :
    (w₁.rootClass 0 b).2.Matched (w₂.rootClass 0 b).2 := by
  obtain ⟨ho₁, hg₁⟩ := h.orderly₁.rootClass hb
  obtain ⟨ho₂, hg₂⟩ := h.orderly₂.rootClass hb
  have hs₁ := Same.rootClass h.orderly₁ b
  have hs₂ := Same.rootClass h.orderly₂ b
  exact ⟨ho₁, ho₂, h.housed₁.of_sameRest (w₁.sameRest_rootClass 0 b) hg₁,
    h.housed₂.of_sameRest (w₂.sameRest_rootClass 0 b) hg₂, hs₁.symm.tame h.tame₁,
    hs₂.symm.tame h.tame₂, hs₁.symm.trans (h.same.trans hs₂)⟩

theorem newObject (h : w₁.Matched w₂) {r : ClassRef} (hr₁ : w₁.Placed r) (hr₂ : w₂.Placed r) :
    (w₁.newObject r).1 = (w₂.newObject r).1 ∧ (w₁.newObject r).2.Same (w₂.newObject r).2 := by
  have hs := h.same
  refine ⟨by simp only [World.newObject, hs.objects], hs.runtimes, hs.classes, hs.cls, hs.ancestors,
    hs.names, hs.begun, ?_, hs.tables, hs.active, hs.fresh, hs.scope, hs.history, hs.drafts,
    hs.embedding⟩
  simp only [World.newObject, hs.objects, h.hierarchy hr₁ hr₂]

theorem replaceClass (h : w₁.Matched w₂) {r : ClassRef} (hr₁ : w₁.Entered r)
    (hr₂ : w₂.Entered r) : (w₁.replaceClass 0 r).1 = (w₂.replaceClass 0 r).1
      ∧ (w₁.replaceClass 0 r).2.Same (w₂.replaceClass 0 r).2 := by
  rw [hr₁.replaceClass_eq, hr₂.replaceClass_eq]
  exact ⟨rfl, (h.same.register h.tame₂.single r).bump r⟩

/-- What is above a class on which a definition is based. -/
private theorem ancestors_parent (h : w₁.Matched w₂) {parent : Option ClassRef}
    (hp₁ : ∀ p ∈ parent, w₁.Placed p) (hp₂ : ∀ p ∈ parent, w₂.Placed p) :
    (w₁.cls (parent.getD ⟨0⟩)).ancestors = (w₂.cls (parent.getD ⟨0⟩)).ancestors := by
  cases parent with
  | none => exact congrArg Class.ancestors (h.cls h.orderly₁.placed_zero h.orderly₂.placed_zero)
  | some p => exact congrArg Class.ancestors (h.cls (hp₁ p rfl) (hp₂ p rfl))

private theorem beginClass (h : w₁.Matched w₂) (name : String) (isHost : Bool) :
    (w₁.beginClass 0 name isHost).1 = (w₂.beginClass 0 name isHost).1
      ∧ (w₁.beginClass 0 name isHost).2.Same (w₂.beginClass 0 name isHost).2 := by
  have hroot := h.rootClass (b := .object) rfl
  have hnext : ((w₁.rootClass 0 .object).2.registry 0).next
      = ((w₂.rootClass 0 .object).2.registry 0).next := congrArg TypeId.defined hroot.same.begun
  refine ⟨?_, hroot.same.handOut hroot.tame₂.single⟩
  simp only [World.beginClass, hnext, h.orderly₁.rootClass_fst, h.orderly₂.rootClass_fst]

theorem defineClass (h : w₁.Matched w₂) {parent : Option ClassRef}
    (hp₁ : ∀ p ∈ parent, w₁.Placed p) (hp₂ : ∀ p ∈ parent, w₂.Placed p) (members : ClassMembers) :
    (w₁.defineClass 0 parent members).1 = (w₂.defineClass 0 parent members).1
      ∧ (w₁.defineClass 0 parent members).2.1 = (w₂.defineClass 0 parent members).2.1
      ∧ (w₁.defineClass 0 parent members).2.2.Same (w₂.defineClass 0 parent members).2.2 := by
  have hg₁ := (h.orderly₁.rootClass (b := .object) rfl).2
  have hg₂ := (h.orderly₂.rootClass (b := .object) rfl).2
  have ha := (h.rootClass (b := .object) rfl).ancestors_parent
    (fun p hp => hg₁.placed (hp₁ p hp)) fun p hp => hg₂.placed (hp₂ p hp)
  have hone : (w₂.beginClass 0 members.name members.isHost).2.runtimes.size = 1 :=
    (runtimes_size_beginClass ..).trans h.tame₂.single
  have hroot : (w₂.beginClass 0 members.name members.isHost).1.root = ⟨0⟩ := h.orderly₂.rootClass_fst
  obtain ⟨hdraft, hbegun⟩ := h.beginClass members.name members.isHost
  rw [← hroot] at ha
  simp only [World.defineClass, hdraft]
  exact ⟨trivial, hbegun.buildClass hone rfl ha members⟩

theorem draftClass (h : w₁.Matched w₂) (key name : String) (isHost : Bool) :
    (w₁.draftClass key 0 name isHost).1 = (w₂.draftClass key 0 name isHost).1
      ∧ (w₁.draftClass key 0 name isHost).2.Same (w₂.draftClass key 0 name isHost).2 := by
  obtain ⟨hdraft, hbegun⟩ := h.beginClass name isHost
  simp only [World.draftClass, hdraft, hbegun.drafts]
  exact ⟨trivial, hbegun.withDrafts _⟩

theorem finishClass (h : w₁.Matched w₂) {key : String} {d : Draft}
    (hd : Assoc.get? w₂.drafts key = some d) {parent : Option ClassRef}
    (hp₁ : ∀ p ∈ parent, w₁.Placed p) (hp₂ : ∀ p ∈ parent, w₂.Placed p) (members : ClassMembers) :
    (w₁.finishClass key d parent members).1 = (w₂.finishClass key d parent members).1
      ∧ (w₁.finishClass key d parent members).2.Same (w₂.finishClass key d parent members).2 := by
  have hpending := h.orderly₂.drafts key d hd
  have ha := h.ancestors_parent hp₁ hp₂
  rw [← hpending.root] at ha
  obtain ⟨hplace, hbuilt⟩ := h.same.buildClass h.tame₂.single hpending.runtime ha members
  simp only [World.finishClass, hplace, hbuilt.drafts]
  exact ⟨trivial, hbuilt.withDrafts _⟩

end Matched

end World

end CachedDispatch
