import CachedDispatch.Proofs.Scripts
import CachedDispatch.Script.Session

/-!
Caching is transparent. A session gets the same replies from every configuration of the caches, and
the same things happen at its call sites.
-/
namespace CachedDispatch

open World

variable {α β γ : Type} {P : Lasting}

/-- A look at the world of which nothing shows afterwards. -/
private theorem Alike.forget {view : α → β} {R : β → Lasting} {k : World → Act α}
    (h : ∀ w w', Alike P view R (k w) (k w')) : Alike P view R (get >>= k) (get >>= k) := by
  refine Alike.read (fun _ => ()) (Q := fun _ => .none) (fun w => w) k k
    (fun _ _ _ => trivial) (fun _ _ _ _ _ => rfl) fun w w' _ => ?_
  exact (h w w').weaken P.entails_self.right fun b => (R b).entails_self

private theorem Steady.change {f : World → World} (hm : ∀ w, w.Reachable → P.holds w → Move w (f w))
    (hf : ∀ w₁ w₂, w₁.Matched w₂ → P.holds w₁ → P.holds w₂ → (f w₁).Same (f w₂)) :
    Steady P (fun _ => .none) (modify f : Act PUnit) :=
  .act (fun w => ((), f w)) (fun w hr hp => ⟨.single (hm w hr hp), trivial⟩) fun w₁ w₂ h h₁ h₂ =>
    ⟨rfl, hf w₁ w₂ h h₁ h₂⟩

private theorem Steady.mutate {r : ClassRef} (h : P.Entails (.has r)) (mu : Mutation) :
    Steady P (fun _ => .none) (modify (·.updateClass r mu.apply) : Act PUnit) :=
  .change (fun w _ hp => .mutate (h w hp) mu) fun _ _ hm _ _ => hm.same.mutate r mu

private theorem Steady.setField (o : ObjectRef) (name : String) (v : Value) :
    Steady P (fun _ => .none) (modify (·.setField o name v) : Act PUnit) :=
  .change (fun w _ _ => .setField w o name v) fun _ _ hm _ _ => hm.same.setField o name v

private theorem Steady.activate (f : List Category → List Category) :
    Steady P (fun _ => .none) (modify (fun w => { w with active := f w.active }) : Act PUnit) :=
  .change (fun w _ _ => .activate w _) fun _ _ hm _ _ => hm.same.active ▸ hm.same.activate _

namespace Script

private theorem steady_answer (a : Answer) : Steady P (fun _ => .none) (pure a) :=
  Steady.pure a (Lasting.entails_none _)

/-- What both worlds answer from what they agree on. -/
private theorem steady_ask (φ : World → α)
    (hφ : ∀ w₁ w₂, w₁.Matched w₂ → P.holds w₁ → P.holds w₂ → φ w₁ = φ w₂) :
    Steady P (fun _ => .none) (do let w ← get; pure (φ w)) :=
  Alike.ask φ (fun _ _ _ => trivial) hφ

private theorem hierarchy_eq {r : ClassRef} (h : P.Entails (.placed r)) {w₁ w₂ : World}
    (hm : w₁.Matched w₂) (h₁ : P.holds w₁) (h₂ : P.holds w₂) :
    w₁.hierarchy r = w₂.hierarchy r := (hm.lookup h h₁ h₂).1

private theorem steady_viewClass {r : ClassRef} (h : P.Entails (.placed r)) :
    Steady P (fun _ => .none) (viewClass r) :=
  steady_ask _ fun w₁ w₂ hm h₁ h₂ => by simp only [classView, hierarchy_eq h hm h₁ h₂]

private theorem steady_versionOf {r : ClassRef} (h : P.Entails (.placed r)) :
    Steady P (fun _ => .none) (versionOf r) :=
  steady_ask _ fun w₁ w₂ hm h₁ h₂ => by simp only [World.version, hierarchy_eq h hm h₁ h₂]

private theorem has_placed {Q : Lasting} (r : ClassRef) : ((Lasting.has r).and Q).Entails (.placed r) :=
  (Lasting.has_entails_placed r).left

private theorem steady_changeClass (cls : TypeRef) (mu : Mutation) :
    Steady P (fun changed => .has changed.1) (changeClass cls mu.apply) := by
  refine (steady_resolveClass cls).bind fun r => ?_
  refine (Steady.mutate (Lasting.entails_self _).left mu).bind fun _ => ?_
  refine (steady_versionOf (has_placed r).right).bind fun version => ?_
  exact Steady.pure _ (Lasting.entails_self (.has r)).left.right.right

private theorem steady_setLabel {name : String} {r : ClassRef} (h : P.Entails (.has r)) :
    Steady P (fun _ => .none) (setLabel name r) := by
  have hmove (w : World) (hr : w.Reachable) (hp : P.holds w) :
      Move w { w with scope := { w.scope with labels := Assoc.set w.scope.labels name r } } := by
    refine .rescope (fun hone => (hr.housed hone).scope) fun n q hn hone => ?_
    rcases Assoc.eq_or_of_get?_set hn with ⟨-, rfl⟩ | hold
    · exact h w hp hone
    · exact (hr.housed hone).labels n q hold
  refine alike_updateScope (fun s₁ s₂ hs => ?_) hmove hmove
  exact (congrArg (fun s : Scope => { s with labels := Assoc.set s.labels name r }) hs :)

private theorem steady_resolveMembers (spec : MembersSpec Body) :
    Steady P (fun found => .ofOption .has found.1) spec.resolve := by
  refine (Steady.mapM_option (fun _ r => steady_resolveClass r) spec.parent).bind fun parent => ?_
  refine (Steady.mapM (fun P e => ?_) spec.statics).bind fun statics => ?_
  · exact (steady_eval P e.2).bind fun _ => Steady.pure _ (Lasting.entails_none _)
  refine (Steady.mapM (fun _ m => steady_resolveMethod m) spec.methods).bind fun methods => ?_
  exact Steady.pure _ (Lasting.entails_self _).left.right.right

private theorem steady_makeClass (spec : ClassSpec Body) :
    Steady P (fun _ => .none) (makeClass spec) := by
  refine steady_currentRuntime.bind fun rt => ?_
  refine (steady_resolveMembers spec.toMembersSpec).bind fun ⟨parent, members⟩ => ?_
  refine (Steady.defineClass (Lasting.entails_self _).left.right (fun p hp => ?_) _).bind fun made => ?_
  · obtain rfl : parent = some p := hp
    exact (Lasting.entails_self (.has p)).left
  · exact (steady_setLabel (Lasting.entails_self _).left).bind fun _ => steady_answer _

private theorem steady_draftClass (draft name : String) (isHost : Bool) :
    Steady P (fun _ => .none) (draftClass draft name isHost) := by
  refine steady_currentRuntime.bind fun rt => ?_
  exact (Steady.draftClass (Lasting.entails_self _).left draft name isHost).bind fun _ => steady_answer _

private theorem steady_finishClass (draft : String) (spec : MembersSpec Body) :
    Steady P (fun _ => .none) (finishClass draft spec) := by
  refine (steady_resolveMembers spec).bind fun ⟨parent, members⟩ => ?_
  refine (Steady.buildDraft (fun p hp => ?_) draft members).bind fun made => ?_
  · obtain rfl : parent = some p := hp
    exact (Lasting.entails_self (.has p)).left
  · refine (steady_bound (Q := fun made => .has made.2) draft fun m hm => ?_).bind fun made => ?_
    · obtain rfl : made = some m := hm
      exact (Lasting.entails_self _).left
    · exact (steady_setLabel (Lasting.entails_self _).left).bind fun _ => steady_answer _

private theorem steady_answerValue {x : Exec Fault Value} (h : Exec.Steady P (fun _ => .none) x) :
    Steady P (fun _ => .none) (answerValue x) := by
  refine Steady.bind h fun result => ?_
  cases result with
  | ok v => exact (steady_snapshot v).bind fun _ => steady_answer _
  | error f => exact steady_answer _

private theorem steady_answerOptional (v : Option Value) :
    Steady P (fun _ => .none) (answerOptional v) := by
  cases v with
  | none => exact steady_answer _
  | some v => exact (steady_snapshot v).bind fun _ => steady_answer _

private theorem steady_inspectValue (v : Value) : Steady P (fun _ => .none) (inspectValue v) := by
  refine Steady.look _ (fun w₁ w₂ hm _ _ => ?_) fun w => (steady_snapshot v).bind fun _ => steady_answer _
  simp only [World.typeName, hm.lineage, hm.same.naming]

private theorem steady_select {r : ClassRef} (h : P.Entails (.placed r)) (selector : Selector)
    (args : List Value) : Steady P (fun _ => .none) (select r selector args) := by
  cases selector with
  | constructor =>
    exact steady_ask _ fun w₁ w₂ hm h₁ h₂ => by simp only [hierarchy_eq h hm h₁ h₂, hm.lineage]
  | method name lookup =>
    refine (steady_resolveLookup lookup).bind fun l => ?_
    exact steady_ask _ fun w₁ w₂ hm h₁ h₂ => by simp only [hierarchy_eq h.right hm h₁ h₂, hm.lineage]

section Running

variable {run : Runner}

/-- The result of a dispatch shows, but not what the slot holds. -/
private theorem alike_dispatchStep (hrun : run.Steady) (table : String) (slot : Nat) (form : Form)
    (receiver : Literal) (args : List Literal) (into : Option String) :
    Alike P Answer.plain (fun _ => .none) (dispatchStep run table slot form receiver args into)
      (dispatchStep run table slot form receiver args into) := by
  refine (steady_findTable table).bind fun t => (steady_eval _ receiver).bind fun receiver => ?_
  refine (steady_evalItems _ args).bind fun args => ?_
  refine Steady.bind (steady_invokeForm hrun t slot form receiver args) fun result => ?_
  have hview (shown : Except Fault Snapshot) (P : Lasting) :
      Alike P Answer.plain (fun _ => .none)
        (do let w ← get; pure (.dispatched shown (siteView (w.slot? t slot))
          (w.runtime (w.table t).runtime).stats))
        (do let w ← get; pure (.dispatched shown (siteView (w.slot? t slot))
          (w.runtime (w.table t).runtime).stats)) :=
    .forget fun _ _ => Alike.pure rfl (Lasting.entails_none _)
  cases result with
  | ok v => exact (steady_store into v).bind fun _ => (steady_snapshot v).bind fun s => hview (.ok s) _
  | error f => exact hview (.error f) _

private theorem alike_withCategory {perform : List Step → Act (List Reply)}
    (hperform : PerformsAlike perform) (name : String) (steps : List Step) :
    Alike P Answer.plain (fun _ => .none) (withCategory perform name steps)
      (withCategory perform name steps) := by
  refine Steady.look _ (fun w₁ w₂ hm _ _ => ?_) fun w => ?_
  · have hcategories : w₁.scope.categories = w₂.scope.categories :=
      (congrArg Scope.categories hm.same.scope :)
    rw [hcategories]
  refine Steady.bind (Q := fun _ => .none) (steady_bound _ fun _ _ => Lasting.entails_none _)
    fun category => ?_
  refine Steady.look _ (fun w₁ w₂ hm _ _ => by rw [hm.same.hasActiveCategory]) fun before => ?_
  refine (Steady.activate (category :: ·)).bind fun _ => ?_
  refine Steady.look _ (fun w₁ w₂ hm _ _ => by rw [hm.same.hasActiveCategory]) fun inside => ?_
  refine (hperform _ steps).bind fun rs rs' hrs => ?_
  refine Alike.bind (Steady.activate List.tail) fun _ _ _ => ?_
  let used (rs : List Reply) (after : Bool) : Act Answer :=
    pure (.used before.hasActiveCategory inside.hasActiveCategory after rs)
  refine Alike.read id (Q := fun _ => .none) World.hasActiveCategory (used rs) (used rs')
    (fun _ _ _ => trivial) (fun _ _ hm _ _ => hm.same.hasActiveCategory) fun b b' hb => ?_
  obtain rfl : b = b' := hb
  refine Alike.pure ?_ (Lasting.entails_none _)
  rw [Answer.plain, Answer.plain, plainReplies_eq_map, plainReplies_eq_map, hrs]

private theorem steady_loadAs (name : String) (p : Program) :
    Steady P (fun _ => .none) (loadAs name p) := by
  refine steady_currentRuntime.bind fun rt => ?_
  refine (steady_load (Lasting.entails_self _).left p).bind fun result => ?_
  cases result with
  | ok u =>
    refine (steady_updateScope (f := fun s => { s with units := Assoc.set s.units name u })
      (fun s₁ s₂ hs => ?_) (fun _ => rfl) fun _ => rfl).bind fun _ => ?_
    · exact (congrArg (fun s : Scope => { s with units := Assoc.set s.units name u }) hs :)
    · exact steady_ask _ fun w₁ w₂ hm _ _ => by rw [hm.same.tableOwner]
  | error e =>
    refine (steady_updateScope (f := fun s => { s with units := Assoc.erase s.units name })
      (fun s₁ s₂ hs => ?_) (fun _ => rfl) fun _ => rfl).bind fun _ => steady_answer _
    exact (congrArg (fun s : Scope => { s with units := Assoc.erase s.units name }) hs :)

private theorem steady_runTimes (hrun : run.Steady) (fuel : Nat) (u : LoadedUnit) (this : Value)
    (keep : Bool) (into : Option String) (times : Nat) (m : Machine) :
    Steady P (fun _ => .none) (runTimes run fuel u this keep into times m) := by
  induction times generalizing P m with
  | zero => exact Steady.pure _ (Lasting.entails_none _)
  | succ times ih =>
    unfold runTimes
    refine (Machine.steady_run hrun u fuel _).bind fun out => ?_
    obtain ⟨result, m⟩ := out
    have hrest (P : Lasting) (shown : Except MachineError Snapshot) : Steady P (fun _ => .none) (do
        let locals ← Act.ofUpdate (snapshots m.locals.toList)
        let rest ← runTimes run fuel u this keep into times (if keep then m else .start u this)
        pure (⟨shown, locals⟩ :: rest)) :=
      (steady_snapshots _).bind fun _ => (ih _).bind fun _ => Steady.pure _ (Lasting.entails_none _)
    cases result with
    | ok v => exact (steady_store into v).bind fun _ => (steady_snapshot v).bind fun s => hrest _ (.ok s)
    | error e => exact hrest _ (.error e)

private theorem alike_runUnitTimes (hrun : run.Steady) (fuel : Nat) (name : String) (this : Literal)
    (times : Nat) (keep : Bool) (into : Option String) :
    Alike P Answer.plain (fun _ => .none) (runUnitTimes run fuel name this times keep into)
      (runUnitTimes run fuel name this times keep into) := by
  refine Steady.look _ (fun w₁ w₂ hm _ _ => ?_) fun w => ?_
  · have hunits : w₁.scope.units = w₂.scope.units := (congrArg Scope.units hm.same.scope :)
    rw [hunits]
  split
  · exact (steady_answer _).coarsen _
  · refine (steady_eval _ this).bind fun this => ?_
    refine (steady_runTimes hrun fuel _ this keep into times _).bind fun runs => ?_
    exact .forget fun _ _ => Alike.pure rfl (Lasting.entails_none _)

private theorem steady_compileAndRun (hrun : run.Steady) (fuel : Nat) (owner : String)
    (stmts : List Lang.Stmt) :
    Steady P (fun _ => .none) (compileAndRun run fuel owner stmts) := by
  unfold compileAndRun
  split
  · exact steady_answer _
  refine steady_currentRuntime.bind fun rt => ?_
  refine (steady_load (Lasting.entails_self _).left _).bind fun result => ?_
  cases result with
  | error e => exact steady_answer _
  | ok u =>
    refine (Machine.steady_run hrun u fuel _).bind fun out => ?_
    split
    · exact (steady_snapshot _).bind fun _ => steady_answer _
    · exact steady_answer _

end Running

private theorem steady_setRuntime {rt : Nat} (h : P.Entails (.hosts rt)) :
    Steady P (fun _ => .none) (updateScope fun s => { s with runtime := rt }) := by
  have hmove (w : World) (hr : w.Reachable) (hp : P.holds w) :
      Move w { w with scope := { w.scope with runtime := rt } } :=
    .rescope (h w hp) fun name r hn hone => (hr.housed hone).labels name r hn
  refine alike_updateScope (fun s₁ s₂ hs => ?_) hmove hmove
  exact (congrArg (fun s : Scope => { s with runtime := rt }) hs :)

/-- A second runtime ends the discipline. -/
private theorem steady_newRuntime (config : Config) :
    Steady P .hosts (modifyGet (·.newRuntime config)) := by
  have hsize (w : World) (hr : w.Reachable) : (w.newRuntime config).2.runtimes.size ≠ 1 := by
    obtain ⟨c, e, hm⟩ := hr
    have hone : (initial c e).runtimes.size = 1 := rfl
    have hle := Moves.runtimes_size_le hm
    simp only [World.newRuntime, Array.size_push]
    omega
  have steps : Steps P .hosts (modifyGet (·.newRuntime config) : Act Nat) := by
    rintro w _ _ hr - ⟨⟩
    exact ⟨.single (.newRuntime w config), fun hone => absurd hone.single (hsize w hr)⟩
  refine ⟨steps, steps, ?_⟩
  rintro w₁ w₂ _ _ - hr₂ - - - ⟨⟩ hd
  exact absurd hd.single (hsize w₂ hr₂)

private theorem steady_switchRuntime (index : Nat) :
    Steady P (fun _ => .none) (do
      if index < (← get).runtimes.size then
        updateScope fun s => { s with runtime := index }
        pure (.number index)
      else Act.stop (.unbound s!"runtime {index}") : Act Answer) := by
  refine Steady.read (Q := fun size => if index < size then .hosts index else .none)
    (fun w => w.runtimes.size) (fun size => if index < size then do
        updateScope fun s => { s with runtime := index }
        pure (Answer.number index)
      else Act.stop (.unbound s!"runtime {index}")) (fun w _ _ => ?_)
    (fun _ _ hm _ _ => hm.same.runtimes) fun size => ?_
  · split
    · rename_i hlt
      exact fun hone => Nat.lt_one_iff.mp (hone.single ▸ hlt)
    · trivial
  · split
    · exact (steady_setRuntime (Lasting.entails_self _).left).bind fun _ => steady_answer _
    · exact Alike.stop _ _

private theorem steady_replaceClass {rt : Nat} {r : ClassRef} (h : P.Entails (.hosts rt))
    (hr : P.Entails (.has r)) :
    Steady P (.ofOption .has) (modifyGet (·.replaceClass rt r)) := by
  refine .act _ (fun w hreach hp => ⟨.single (.replaceClass (h w hp) (hr w hp)), ?_⟩)
    fun w₁ w₂ hm h₁ h₂ => ?_
  · have hm : Moves w (w.replaceClass rt r).2 := .single (.replaceClass (h w hp) (hr w hp))
    rcases hprev : (w.replaceClass rt r).1 with _ | q
    · trivial
    · intro hone
      have hone' := hreach.lone_of_moves hm hone
      obtain rfl := h w hp hone'
      rw [(hr w hp hone').replaceClass_eq] at hprev
      obtain rfl := Option.some.inj hprev
      exact (Lasting.has r).stable hreach hm (hr w hp) hone
  · obtain rfl := h w₂ h₂ hm.tame₂.toLone
    exact hm.replaceClass (hr w₁ h₁ hm.tame₁.toLone) (hr w₂ h₂ hm.tame₂.toLone)

private theorem slotView_plain_eq {w₁ w₂ : World} (hs : w₁.Same w₂) (t : TableRef) (i : Nat) :
    (slotView (w₁.slot? t i)).plain = (slotView (w₂.slot? t i)).plain := by
  have hview (s : Option Slot) : (slotView s).plain
      = ⟨(s.map Slot.plain).map (·.name), (s.map Slot.plain).map (·.kind), ⟨none, none, 0⟩⟩ := by
    cases s <;> rfl
  rw [hview, hview, hs.slot?]

private theorem slots_size_eq {w₁ w₂ : World} (hs : w₁.Same w₂) (t : TableRef) :
    (w₁.table t).slots.size = (w₂.table t).slots.size := by
  simpa [Table.plain] using congrArg (·.slots.size) (hs.table t)

/-- Every step behaves alike, and its answer looks the same. -/
private theorem alike_exec {run : Runner} (hrun : run.Steady) {perform : List Step → Act (List Reply)}
    (hperform : PerformsAlike perform) (fuel : Nat) (step : Step) :
    Alike P Answer.plain (fun _ => .none) (step.exec run perform fuel)
      (step.exec run perform fuel) := by
  have plainly {x : Act Answer} (h : Steady P (fun _ => .none) x) :
      Alike P Answer.plain (fun _ => .none) x x := h.coarsen _
  cases step with
  | defineClass spec => exact plainly (steady_makeClass spec)
  | beginClass draft name isHost => exact plainly (steady_draftClass draft name isHost)
  | buildClass draft spec => exact plainly (steady_finishClass draft spec)
  | newObject cls into =>
    refine plainly ((steady_resolveClass cls).bind fun r => ?_)
    refine (Steady.newObject (Lasting.entails_self _).left).bind fun o => ?_
    exact (steady_store _ _).bind fun _ => (steady_snapshot _).bind fun _ => steady_answer _
  | bind into value =>
    refine plainly ((steady_eval _ value).bind fun v => ?_)
    exact (steady_store _ _).bind fun _ => (steady_snapshot _).bind fun _ => steady_answer _
  | inspect value => exact plainly ((steady_eval _ value).bind fun v => steady_inspectValue v)
  | compare left right =>
    exact plainly ((steady_eval _ left).bind fun _ => (steady_eval _ right).bind fun _ => steady_answer _)
  | mapEntry value key =>
    exact plainly ((steady_eval _ value).bind fun _ => steady_answerOptional _)
  | getField value name =>
    refine plainly ((steady_eval _ value).bind fun v => ?_)
    exact Steady.look _ (fun w₁ w₂ hm _ _ => by simp only [hm.same.field?]) fun _ =>
      steady_answerOptional _
  | setField target name value =>
    refine plainly ((steady_eval _ target).bind fun target => (steady_eval _ value).bind fun v => ?_)
    cases target with
    | object o =>
      refine Steady.look _ (fun w₁ w₂ hm _ _ => by rw [hm.same.field?]) fun w => ?_
      split
      · exact (Steady.setField o name v).bind fun _ => steady_answer _
      · exact steady_answer _
    | _ => exact steady_answer _
  | addMethod cls method =>
    refine plainly ((steady_resolveMethod method).bind fun m => ?_)
    exact (steady_changeClass cls (.addMethod m)).bind fun _ => steady_answer _
  | addConstructor cls method =>
    refine plainly ((steady_resolveMethod method).bind fun m => ?_)
    refine (steady_changeClass cls (.addConstructor m)).bind fun changed => ?_
    exact steady_ask _ fun w₁ w₂ hm h₁ h₂ => by
      have hcls := congrArg (·.own.constructors) (hierarchy_eq (has_placed _) hm h₁ h₂)
      rw [show (w₁.cls changed.1).constructors = (w₂.cls changed.1).constructors from hcls]
  | removeMethod cls name =>
    refine plainly ((steady_resolveClass cls).bind fun r => ?_)
    refine Steady.look _ (fun w₁ w₂ hm h₁ h₂ => ?_) fun w => ?_
    · have hcls : w₁.cls r = w₂.cls r := congrArg (·.own) (hierarchy_eq (has_placed r) hm h₁ h₂)
      rw [hcls]
    · refine (Steady.mutate (Lasting.entails_self _).left (.removeMethod name)).bind fun _ => ?_
      exact (steady_versionOf (has_placed r).right).bind fun _ => steady_answer _
  | addField cls name =>
    exact plainly ((steady_changeClass cls (.addField name)).bind fun _ => steady_answer _)
  | setStatic cls name value =>
    refine plainly ((steady_eval _ value).bind fun v => ?_)
    exact (steady_changeClass cls (.setStatic name v)).bind fun _ => steady_answer _
  | staticField cls name =>
    refine plainly ((steady_resolveClass cls).bind fun r => ?_)
    exact Steady.look _ (fun w₁ w₂ hm h₁ h₂ => by rw [hierarchy_eq (has_placed r) hm h₁ h₂]) fun _ =>
      steady_answerOptional _
  | describe cls =>
    refine plainly ((steady_resolveClass cls).bind fun r => ?_)
    exact (steady_viewClass (has_placed r)).bind fun _ => steady_answer _
  | hasMember cls name =>
    refine plainly ((steady_resolveClass cls).bind fun r => ?_)
    exact steady_ask _ fun w₁ w₂ hm h₁ h₂ => by simp only [hierarchy_eq (has_placed r) hm h₁ h₂]
  | depth cls ancestor =>
    refine plainly ((steady_resolveClass cls).bind fun r => (steady_resolve ancestor).bind fun t => ?_)
    exact steady_ask _ fun w₁ w₂ hm h₁ h₂ => by simp only [hierarchy_eq (has_placed r).right hm h₁ h₂]
  | pick cls selector args =>
    refine plainly ((steady_resolveClass cls).bind fun r => (steady_evalItems _ args).bind fun args => ?_)
    exact (steady_select (has_placed r).right selector args).bind fun _ => steady_answer _
  | invokePicked cls selector receiver args =>
    refine plainly ((steady_resolveClass cls).bind fun r => (steady_eval _ receiver).bind fun v => ?_)
    refine (steady_evalItems _ args).bind fun args => ?_
    refine (steady_select (has_placed r).right.right selector args).bind fun found => ?_
    cases found with
    | some m => exact steady_answerValue (m.steady_invoke hrun v args)
    | none => exact steady_answer _
  | sameSignature left right =>
    exact plainly ((steady_resolveMethod left).bind fun _ => (steady_resolveMethod right).bind fun _ =>
      steady_answer _)
  | property cls name =>
    refine plainly ((steady_resolveClass cls).bind fun r => ?_)
    exact steady_ask _ fun w₁ w₂ hm h₁ h₂ => by
      simp only [hierarchy_eq (has_placed r) hm h₁ h₂, hm.lineage]
  | staticProperty cls name =>
    refine plainly ((steady_resolveClass cls).bind fun r => ?_)
    exact steady_ask _ fun w₁ w₂ hm h₁ h₂ => by
      simp only [hierarchy_eq (has_placed r) hm h₁ h₂, hm.lineage]
  | setter cls name value =>
    refine plainly ((steady_resolveClass cls).bind fun r => (steady_eval _ value).bind fun v => ?_)
    exact steady_ask _ fun w₁ w₂ hm h₁ h₂ => by
      simp only [hierarchy_eq (has_placed r).right hm h₁ h₂, hm.lineage]
  | runHook cls receiver name args =>
    refine plainly ((steady_resolveClass cls).bind fun r => (steady_eval _ receiver).bind fun v => ?_)
    refine (steady_evalItems _ args).bind fun args => ?_
    refine Steady.look _ (fun w₁ w₂ hm _ _ => by rw [hm.same.hook]) fun w => ?_
    split
    · exact steady_answerValue (hrun _ _ _)
    · exact steady_answer _
  | distance param arg =>
    refine plainly ((steady_resolveParam param).bind fun p => (steady_eval _ arg).bind fun v => ?_)
    exact steady_ask _ fun w₁ w₂ hm _ _ => by rw [hm.lineage]
  | lookup name =>
    refine plainly (steady_currentRuntime.bind fun rt => ?_)
    refine steady_ask _ fun w₁ w₂ hm h₁ _ => ?_
    obtain rfl := h₁.1 hm.tame₁.toLone
    rw [hm.same.names]
  | findClass type =>
    refine plainly (steady_currentRuntime.bind fun rt => (steady_resolve type).bind fun t => ?_)
    refine (Steady.findClass (Lasting.entails_self (.hosts rt)).left.right t).bind fun found => ?_
    cases found with
    | some r => exact (steady_viewClass (has_placed r)).bind fun _ => steady_answer _
    | none => exact steady_answer _
  | classCount =>
    exact .forget fun _ _ => Alike.bind steady_currentRuntime fun _ _ _ =>
      Alike.pure rfl (Lasting.entails_none _)
  | classOf value =>
    refine plainly ((steady_eval _ value).bind fun v => steady_currentRuntime.bind fun rt => ?_)
    refine (Steady.classOrFault (Lasting.entails_self (.hosts rt)).left v).bind fun found => ?_
    cases found with
    | ok r => exact (steady_viewClass (Lasting.entails_self _).left).bind fun _ => steady_answer _
    | error f => exact steady_answer _
  | roots =>
    refine plainly (steady_currentRuntime.bind fun rt => ?_)
    have hrt := (Lasting.entails_self (.hosts rt)).left (q := P)
    refine (Steady.rootClass hrt rfl).bind fun object => ?_
    refine (Steady.rootClass hrt.right rfl).bind fun null => ?_
    refine (steady_viewClass (has_placed object).right).bind fun _ => ?_
    exact (steady_viewClass (has_placed null).right).bind fun _ => steady_answer _
  | label cls name =>
    refine plainly ((steady_resolveClass cls).bind fun r => ?_)
    refine (steady_setLabel (Lasting.entails_self _).left).bind fun _ => ?_
    exact (steady_viewClass (has_placed r).right).bind fun _ => steady_answer _
  | replaceClass cls =>
    refine plainly (steady_currentRuntime.bind fun rt => (steady_resolveClass cls).bind fun r => ?_)
    have hrt := (Lasting.entails_self (.hosts rt)).left (q := P)
    refine (steady_replaceClass hrt.right (Lasting.entails_self _).left).bind fun previous => ?_
    have hprevious (Q : Lasting) : Steady ((Lasting.ofOption .has previous).and Q) (fun _ => .none)
        (previous.mapM viewClass) := by
      cases previous with
      | none => exact Steady.pure _ (Lasting.entails_none _)
      | some p =>
        have heq : (some p).mapM viewClass = viewClass p >>= fun v => Pure.pure (some v) := by
          rw [Option.mapM_some, map_eq_pure_bind]
        rw [heq]
        exact (steady_viewClass (has_placed p)).bind fun _ => Steady.pure _ (Lasting.entails_none _)
    refine (hprevious _).bind fun _ => ?_
    exact (steady_viewClass (has_placed r).right.right).bind fun _ => steady_answer _
  | newRuntime config =>
    refine plainly ((steady_newRuntime config).bind fun rt => ?_)
    exact (steady_setRuntime (Lasting.entails_self _).left).bind fun _ => steady_answer _
  | switchRuntime index => exact plainly (steady_switchRuntime index)
  | stats =>
    exact .forget fun _ _ => Alike.bind steady_currentRuntime fun _ _ _ =>
      Alike.pure rfl (Lasting.entails_none _)
  | newTable name owner sites =>
    refine plainly ((steady_resolve owner).bind fun owner => steady_currentRuntime.bind fun rt => ?_)
    refine (Steady.addTable (Lasting.entails_self _).left owner sites).bind fun t => ?_
    refine (steady_updateScope (f := fun s => { s with tables := Assoc.set s.tables name t })
      (fun s₁ s₂ hs => ?_) (fun _ => rfl) fun _ => rfl).bind fun _ => steady_answer _
    exact (congrArg (fun s : Scope => { s with tables := Assoc.set s.tables name t }) hs :)
  | call table slot form receiver args into =>
    exact alike_dispatchStep hrun table slot form receiver args into
  | slots table =>
    refine (steady_findTable table).bind fun t => ?_
    refine Alike.ask _ (fun _ _ _ => trivial) fun w₁ w₂ hm _ _ => ?_
    simp only [Answer.plain, slots_size_eq hm.same, List.map_map]
    exact congrArg Answer.slots (List.map_congr_left fun i _ => slotView_plain_eq hm.same t i)
  | defineCategory name methods =>
    refine plainly ((Steady.mapM (fun P e => ?_) methods).bind fun entries => ?_)
    · exact (steady_resolve e.1).bind fun _ => (steady_resolveMethod e.2).bind fun _ =>
        Steady.pure _ (Lasting.entails_none _)
    · refine (steady_updateScope
        (f := fun s => { s with categories := Assoc.set s.categories name ⟨name, entries⟩ })
        (fun s₁ s₂ hs => ?_) (fun _ => rfl) fun _ => rfl).bind fun _ => steady_answer _
      exact (congrArg
        (fun s : Scope => { s with categories := Assoc.set s.categories name ⟨name, entries⟩ }) hs :)
  | useCategory name steps => exact alike_withCategory hperform name steps
  | load name owner stmts =>
    refine plainly ?_
    simp only [Step.exec]
    split
    · refine (steady_updateScope (f := fun s => { s with units := Assoc.erase s.units name })
        (fun s₁ s₂ hs => ?_) (fun _ => rfl) fun _ => rfl).bind fun _ => steady_answer _
      exact (congrArg (fun s : Scope => { s with units := Assoc.erase s.units name }) hs :)
    · exact steady_loadAs name _
  | loadRaw name owner code constants locals classes sites =>
    exact plainly ((steady_evalItems _ constants).bind fun _ => steady_loadAs name _)
  | runUnit name this times keep into => exact alike_runUnitTimes hrun fuel name this times keep into
  | runProgram owner stmts => exact plainly (steady_compileAndRun hrun fuel owner stmts)

private theorem alike_setTrace {es es' : List Entry} (h : es.map Entry.plain = es'.map Entry.plain) :
    Alike P id (fun _ => .none) (updateScope fun s => { s with trace := es })
      (updateScope fun s => { s with trace := es' }) := by
  refine alike_updateScope (fun s₁ s₂ hs => ?_) (fun w hr _ => ?_) fun w hr _ => ?_
  · have hall := congrArg (fun s : Scope => { s with trace := es.map Entry.plain }) hs
    simpa only [Scope.plain, h] using hall
  · exact Move.rescope_of_keeps hr rfl rfl
  · exact Move.rescope_of_keeps hr rfl rfl

private theorem alike_trace {view : α → β} {R : β → Lasting} (k k' : List Entry → Act α)
    (hk : ∀ es es', es.map Entry.plain = es'.map Entry.plain → Alike P view R (k es) (k' es')) :
    Alike P view R (get >>= fun w => k w.scope.trace) (get >>= fun w => k' w.scope.trace) := by
  have hask : Alike P (List.map Entry.plain) (fun _ => .none)
      (do let w ← get; pure w.scope.trace : Act (List Entry)) (do let w ← get; pure w.scope.trace) :=
    .ask _ (fun _ _ _ => trivial) fun _ _ hm _ _ => (congrArg Scope.trace hm.same.scope :)
  refine hask.bind fun es es' hes => ?_
  exact (hk es es' hes).weaken P.entails_self.right fun b => (R b).entails_self

/-- A step's own trace shows as it is, whatever was traced around it. -/
private theorem alike_withTrace {step : Act Answer}
    (h : ∀ P, Alike P Answer.plain (fun _ => .none) step step) :
    Alike P Reply.plain (fun _ => .none) (withTrace step) (withTrace step) := by
  let finish (outer : List Entry) (answer : Answer) (trace : List Entry) : Act Reply := do
    updateScope fun s => { s with trace := outer }
    pure (.mk answer trace.reverse)
  let start (outer : List Entry) : Act Reply := do
    updateScope fun s => { s with trace := [] }
    let answer ← step
    let w ← get
    finish outer answer w.scope.trace
  refine alike_trace start start fun outer outer' houter => ?_
  refine (alike_setTrace rfl).bind fun _ _ _ => (h _).bind fun a a' ha => ?_
  refine alike_trace (finish outer a) (finish outer' a') fun es es' hes => ?_
  refine (alike_setTrace houter).bind fun _ _ _ => Alike.pure ?_ (Lasting.entails_none _)
  rw [Reply.plain, Reply.plain, plainEntries_eq_map, plainEntries_eq_map, ha, List.map_reverse,
    List.map_reverse, hes]

/-- Bodies and steps behave alike, however deep they nest. -/
private theorem alike_session (fuel : Nat) :
    (∀ P body frame, Exec.Steady P (fun _ => .none) (evalBody fuel body frame))
      ∧ PerformsAlike (performSteps fuel) := by
  induction fuel with
  | zero => exact ⟨fun _ _ _ => Exec.Steady.lift (Alike.stop _ _), fun _ _ => Alike.stop _ _⟩
  | succ fuel ih =>
    obtain ⟨heval, hperform⟩ := ih
    refine ⟨fun P body frame => ?_, fun P steps => ?_⟩
    · rw [evalBody]
      exact steady_evalWith heval hperform frame body
    · rw [performSteps]
      refine Alike.mapM (fun P step => alike_withTrace fun P => ?_) steps
      exact alike_exec (Runner.steady_ofScripts heval) hperform fuel step

end Script

/-- Sessions come to reachable worlds. -/
theorem World.reachable_of_session {fuel : Nat} {steps : List Script.Step} {config : Config}
    {embedding : Embedding} {replies : List Script.Reply} {w : World}
    (h : (Script.performSteps fuel steps).run (initial config embedding) = .ok (replies, w)) :
    w.Reachable :=
  ⟨config, embedding,
    (((Script.alike_session fuel).2 .none steps).left ⟨config, embedding, .refl⟩ trivial h).1⟩

private theorem World.same_initial (c₁ c₂ : Config) (embedding : Embedding) :
    (initial c₁ embedding).Same (initial c₂ embedding) :=
  ⟨rfl, rfl, fun _ => rfl, fun _ _ => rfl, fun _ => rfl, rfl, rfl, rfl, rfl, rfl, rfl, rfl, rfl, rfl⟩

namespace Script

/-- Whatever the caches are set to, a session that keeps to the rules comes to its end in the same
way: the same requests are made of call sites, they run the same code with the same receivers and
arguments and get the same answers, and the replies say the same of everything but the caches. -/
theorem session_independent_of_caching (fuel : Nat) (steps : List Step) (c₁ c₂ : Config)
    (embedding : Embedding) {replies₂ : List Reply} {w₂ : World}
    (h : (performSteps fuel steps).run (initial c₂ embedding) = .ok (replies₂, w₂))
    (hd : w₂.Disciplined) :
    ∃ replies₁ w₁, (performSteps fuel steps).run (initial c₁ embedding) = .ok (replies₁, w₁)
      ∧ w₁.history = w₂.history ∧ replies₁.map Reply.plain = replies₂.map Reply.plain := by
  obtain ⟨-, hperform⟩ := alike_session fuel
  obtain ⟨replies₁, w₁, hrun, hreplies, hs⟩ := (hperform .none steps).same
    ⟨c₁, embedding, .refl⟩ ⟨c₂, embedding, .refl⟩ (same_initial c₁ c₂ embedding) trivial trivial h hd
  exact ⟨replies₁, w₁, hrun, hs.history, hreplies⟩

/-- A session in which a method redefines another one and then calls it through a slot that has
remembered the old one. -/
def redefinition : List Step := [
  .defineClass ⟨⟨"A", none, [], [], [
    { name := "n", params := [.any], body := .receiver },
    { name := "m"
      params := [.any]
      body := .seq [
        .perform [.addMethod (.named "A") { name := "n", params := [.any], body := .arg 0 }],
        .invoke .call "t" 0 .receiver [.arg 0]] }], none⟩, "A", false⟩,
  .newObject (.named "A") "a",
  .newTable "t" (.named "A") [("n", .call), ("m", .call)],
  .call "t" 0 .call (.stored "a") [.int 1] none,
  .call "t" 0 .call (.stored "a") [.int 1] none,
  .call "t" 1 .call (.stored "a") [.int 2] none,
  .call "t" 0 .call (.stored "a") [.int 3] none]

theorem session_independent_of_caching_redefinition :
    ∃ replies₂ w₂, (performSteps 8 redefinition).run (initial .uncached) = .ok (replies₂, w₂)
      ∧ w₂.Disciplined ∧ w₂.history.length = 15
      ∧ ∃ replies₁ w₁, (performSteps 8 redefinition).run (initial ⟨true, 1⟩) = .ok (replies₁, w₁)
        ∧ w₁.history = w₂.history ∧ replies₁.map Reply.plain = replies₂.map Reply.plain := by
  have hcheck : (match (performSteps 8 redefinition).run (initial .uncached) with
      | .ok out => decide (out.2.Disciplined ∧ out.2.history.length = 15)
      | .error _ => false) = true := by decide +kernel
  rcases hrun : (performSteps 8 redefinition).run (initial .uncached) with stop | ⟨replies₂, w₂⟩
  · rw [hrun] at hcheck
    cases hcheck
  · rw [hrun] at hcheck
    obtain ⟨hd, hlength⟩ := of_decide_eq_true hcheck
    exact ⟨replies₂, w₂, rfl, hd, hlength,
      session_independent_of_caching 8 redefinition ⟨true, 1⟩ .uncached {} hrun hd⟩

end Script

end CachedDispatch
