import CachedDispatch.Proofs.Running
import CachedDispatch.Script.Evaluation

/-!
The names, literals and reports of scripts mean the same in worlds that differ only in what dispatch
keeps to itself, and so method bodies behave alike.
-/
namespace CachedDispatch

open World

variable {α β γ ε : Type} {P : Lasting}

/-- Coarser views of equal answers. -/
theorem Steady.coarsen {Q : α → Lasting} {x : Act α} (h : Steady P Q x) (view : α → β) :
    Alike P view (fun _ => .none) x x where
  left _ _ _ hr hp hx := (h.left hr hp hx).imp_right fun _ => trivial
  right _ _ _ hr hp hx := (h.right hr hp hx).imp_right fun _ => trivial
  same _ _ _ _ hr₁ hr₂ hs hp₁ hp₂ hy hd := by
    obtain ⟨a, w₁', hx, hv, hs'⟩ := h.same hr₁ hr₂ hs hp₁ hp₂ hy hd
    exact ⟨a, w₁', hx, congrArg view hv, hs'⟩

theorem Alike.mapM {view : α → β} {f : γ → Act α}
    (hf : ∀ P c, Alike P view (fun _ => .none) (f c) (f c)) (cs : List γ) :
    Alike P (List.map view) (fun _ => .none) (cs.mapM f) (cs.mapM f) := by
  induction cs generalizing P with
  | nil =>
    rw [List.mapM_nil]
    exact Alike.pure rfl (Lasting.entails_none _)
  | cons c cs ih =>
    rw [List.mapM_cons]
    refine (hf P c).bind fun a b hab => ih.bind fun as bs habs => ?_
    exact Alike.pure (by rw [List.map_cons, List.map_cons, hab, habs]) (Lasting.entails_none _)

theorem Steady.mapM {f : γ → Act α} (hf : ∀ P c, Steady P (fun _ => .none) (f c)) (cs : List γ) :
    Steady P (fun _ => .none) (cs.mapM f) := by
  induction cs generalizing P with
  | nil =>
    rw [List.mapM_nil]
    exact Steady.pure _ (Lasting.entails_none _)
  | cons c cs ih =>
    rw [List.mapM_cons]
    exact (hf P c).bind fun _ => ih.bind fun _ => Steady.pure _ (Lasting.entails_none _)

private theorem Exec.Steady.mapM {f : γ → Exec ε α} (hf : ∀ P c, Exec.Steady P (fun _ => .none) (f c))
    (cs : List γ) : Exec.Steady P (fun _ => .none) (cs.mapM f) := by
  induction cs generalizing P with
  | nil =>
    rw [List.mapM_nil]
    exact .pure _ (Lasting.entails_none _)
  | cons c cs ih =>
    rw [List.mapM_cons]
    exact (hf P c).bind fun _ => ih.bind fun _ => .pure _ (Lasting.entails_none _)

theorem Steady.mapM_option {f : γ → Act α} {Q : α → Lasting} (hf : ∀ P c, Steady P Q (f c))
    (c : Option γ) : Steady P (.ofOption Q) (c.mapM f) := by
  cases c with
  | none => exact Steady.pure _ (Lasting.entails_none _)
  | some c =>
    have heq : (some c).mapM f = f c >>= fun a => Pure.pure (some a) := by
      rw [Option.mapM_some, map_eq_pure_bind]
    rw [heq]
    exact (hf P c).bind fun a => Steady.pure _ (Lasting.entails_self (Q a)).left

namespace Script

theorem steady_bound {Q : α → Lasting} (name : String) {found : Option α}
    (hq : ∀ a ∈ found, P.Entails (Q a)) : Steady P Q (bound name found) := by
  cases found with
  | none => exact Alike.stop _ _
  | some a => exact Steady.pure a (hq a rfl)

theorem steady_currentRuntime : Steady P .hosts currentRuntime :=
  Alike.ask (fun w => w.scope.runtime) (fun _ hr _ hone => (hr.housed hone).scope)
    fun _ _ hm _ _ => (congrArg Scope.runtime hm.same.scope :)

theorem steady_resolve (r : TypeRef) : Steady P (fun _ => .none) r.resolve := by
  cases r with
  | id n => exact Steady.pure _ (Lasting.entails_none _)
  | named name =>
    refine Steady.look _ (fun w₁ w₂ hm _ _ => ?_) fun w => ?_
    · have hlabels : w₁.scope.labels = w₂.scope.labels := (congrArg Scope.labels hm.same.scope :)
      rw [hlabels, hm.housed₁.scope, hm.housed₂.scope, hm.same.names]
      simp only [hm.same.id]
    · split
      · exact Steady.pure _ (Lasting.entails_none _)
      · exact steady_bound _ fun _ _ => Lasting.entails_none _

/-- The class that the script has given this name. -/
private def TypeRef.labelled (w : World) : TypeRef → Option ClassRef
  | .named name => Assoc.get? w.scope.labels name
  | .id _ => none

/-- Without a label, the class is looked up in the runtime. -/
private def TypeRef.classAt (r : TypeRef) (at_ : Option ClassRef × Nat) : Act ClassRef :=
  match at_.1 with
  | some c => pure c
  | none => do
    let t ← r.resolve
    bound t.label (← modifyGet (·.findClass at_.2 t))

/-- What the script calls a class is a class that stands for its type. -/
theorem steady_resolveClass (r : TypeRef) : Steady P .has r.resolveClass := by
  refine Steady.read (Q := fun at_ => (Lasting.ofOption .has at_.1).and (.hosts at_.2))
    (fun w => (r.labelled w, w.scope.runtime)) r.classAt (fun w hr _ => ⟨?_, ?_⟩)
    (fun w₁ w₂ hm _ _ => ?_) fun at_ => ?_
  · cases r with
    | id n => trivial
    | named name =>
      dsimp only [TypeRef.labelled]
      rcases hl : Assoc.get? w.scope.labels name with _ | c
      · trivial
      · exact fun hone => (hr.housed hone).labels name c hl
  · exact fun hone => (hr.housed hone).scope
  · have hlabels : w₁.scope.labels = w₂.scope.labels := (congrArg Scope.labels hm.same.scope :)
    have hruntime : w₁.scope.runtime = w₂.scope.runtime := (congrArg Scope.runtime hm.same.scope :)
    simp only [TypeRef.labelled, hlabels, hruntime]
  · obtain ⟨_ | c, rt⟩ := at_
    · refine (steady_resolve r).bind fun t => ?_
      have hrt := (((Lasting.entails_self (.hosts rt)).right (p := .none)).left (q := P)).right
        (p := .none)
      refine (Steady.findClass hrt t).bind fun found => ?_
      refine steady_bound _ fun c hc => ?_
      obtain rfl : found = some c := hc
      exact (Lasting.entails_self _).left
    · exact Steady.pure c (Lasting.entails_self _).left.left

theorem steady_resolveParam (r : ParamRef) : Steady P (fun _ => .none) r.resolve := by
  cases r with
  | any => exact Steady.pure _ (Lasting.entails_none _)
  | exact r => exact (steady_resolve r).bind fun _ => Steady.pure _ (Lasting.entails_none _)

mutual

theorem steady_eval (P : Lasting) : ∀ l : Literal, Steady P (fun _ => .none) l.eval
  | .null => Steady.pure _ (Lasting.entails_none _)
  | .bool _ => Steady.pure _ (Lasting.entails_none _)
  | .int _ => Steady.pure _ (Lasting.entails_none _)
  | .float _ => Steady.pure _ (Lasting.entails_none _)
  | .text _ => Steady.pure _ (Lasting.entails_none _)
  | .list items => by
    rw [Literal.eval]
    exact (steady_evalItems P items).bind fun _ => Steady.allocate.bind fun _ =>
      Steady.pure _ (Lasting.entails_none _)
  | .map entries => by
    rw [Literal.eval]
    exact (steady_evalEntries P entries).bind fun _ => Steady.allocate.bind fun _ =>
      Steady.pure _ (Lasting.entails_none _)
  | .classLiteral r => by
    rw [Literal.eval]
    exact (steady_resolve r).bind fun _ => Steady.pure _ (Lasting.entails_none _)
  | .wrapper v r => by
    rw [Literal.eval]
    exact (steady_eval P v).bind fun _ => (steady_resolve r).bind fun _ => Steady.allocate.bind fun _ =>
      Steady.pure _ (Lasting.entails_none _)
  | .host r label => by
    rw [Literal.eval]
    exact (steady_resolve r).bind fun _ => Steady.allocate.bind fun _ =>
      Steady.pure _ (Lasting.entails_none _)
  | .stored name => by
    rw [Literal.eval]
    refine Steady.look _ (fun w₁ w₂ hm _ _ => ?_) fun w => steady_bound _ fun _ _ => Lasting.entails_none _
    have hstored : w₁.scope.stored = w₂.scope.stored := (congrArg Scope.stored hm.same.scope :)
    rw [hstored]

theorem steady_evalItems (P : Lasting) : ∀ ls : List Literal, Steady P (fun _ => .none) (evalItems ls)
  | [] => Steady.pure _ (Lasting.entails_none _)
  | l :: ls => by
    rw [evalItems]
    exact (steady_eval P l).bind fun _ => (steady_evalItems _ ls).bind fun _ =>
      Steady.pure _ (Lasting.entails_none _)

private theorem steady_evalEntries (P : Lasting) :
    ∀ ls : List (String × Literal), Steady P (fun _ => .none) (evalEntries ls)
  | [] => Steady.pure _ (Lasting.entails_none _)
  | (k, l) :: ls => by
    rw [evalEntries]
    exact (steady_eval P l).bind fun _ => (steady_evalEntries _ ls).bind fun _ =>
      Steady.pure _ (Lasting.entails_none _)

end

theorem steady_resolveMethod (m : MethodSpec Body) : Steady P (fun _ => .none) m.resolve :=
  (Steady.mapM (fun _ r => steady_resolveParam r) m.params).bind fun _ =>
    Steady.pure _ (Lasting.entails_none _)

theorem steady_resolveLookup (l : LookupSpec) : Steady P (fun _ => .none) l.resolve := by
  refine (steady_resolve l.sender).bind fun sender => ?_
  refine (Steady.mapM_option (fun _ r => steady_resolve r) l.current).bind fun current => ?_
  exact Steady.pure _ (Lasting.entails_none _)

/-- A change of the scope that is the same up to what reports say of caches. -/
theorem alike_updateScope {f g : Scope → Scope}
    (hfg : ∀ s₁ s₂ : Scope, s₁.plain = s₂.plain → (f s₁).plain = (g s₂).plain)
    (hf : ∀ w, w.Reachable → P.holds w → Move w { w with scope := f w.scope })
    (hg : ∀ w, w.Reachable → P.holds w → Move w { w with scope := g w.scope }) :
    Alike P id (fun _ => .none) (updateScope f) (updateScope g) := by
  refine ⟨?_, ?_, ?_⟩
  · rintro w _ _ hr hp ⟨⟩
    exact ⟨.single (hf w hr hp), trivial⟩
  · rintro w _ _ hr hp ⟨⟩
    exact ⟨.single (hg w hr hp), trivial⟩
  · rintro w₁ w₂ _ _ - - hs - - ⟨⟩ -
    exact ⟨(), _, rfl, rfl, hs.rescope (hfg _ _ hs.scope)⟩

/-- The scope keeps the labels and the runtime. -/
theorem Move.rescope_of_keeps {w : World} (hr : w.Reachable) {s : Scope}
    (hl : s.labels = w.scope.labels) (hrt : s.runtime = w.scope.runtime) :
    Move w { w with scope := s } :=
  .rescope (fun hone => hrt.trans (hr.housed hone).scope) fun name r hn hone =>
    (hr.housed hone).labels name r (hl ▸ hn)

theorem steady_updateScope {f : Scope → Scope}
    (hf : ∀ s₁ s₂ : Scope, s₁.plain = s₂.plain → (f s₁).plain = (f s₂).plain)
    (hl : ∀ s, (f s).labels = s.labels) (hrt : ∀ s, (f s).runtime = s.runtime) :
    Steady P (fun _ => .none) (updateScope f) :=
  have hmove (w : World) (hr : w.Reachable) : Move w { w with scope := f w.scope } :=
    Move.rescope_of_keeps hr (hl _) (hrt _)
  alike_updateScope hf (fun w hr _ => hmove w hr) fun w hr _ => hmove w hr

theorem steady_store (into : Option String) (v : Value) :
    Steady P (fun _ => .none) (store into v) := by
  cases into with
  | none => exact Steady.pure _ (Lasting.entails_none _)
  | some name =>
    refine steady_updateScope (f := fun s => { s with stored := Assoc.set s.stored name v })
      (fun s₁ s₂ hs => ?_) (fun _ => rfl) fun _ => rfl
    exact (congrArg (fun s : Scope => { s with stored := Assoc.set s.stored name v }) hs :)

private theorem alike_addTrace {e e' : Entry} (h : e.plain = e'.plain) :
    Alike P id (fun _ => .none) (addTrace e) (addTrace e') := by
  refine alike_updateScope (fun s₁ s₂ hs => ?_) (fun w hr _ => ?_) fun w hr _ => ?_
  · have hall := congrArg (fun s : Scope => { s with trace := e.plain :: s.trace }) hs
    simpa only [Scope.plain, List.map_cons, h] using hall
  · exact Move.rescope_of_keeps hr rfl rfl
  · exact Move.rescope_of_keeps hr rfl rfl

private theorem showObject_eq {w₁ w₂ : World} (hm : w₁.Matched w₂) (depth : Nat) :
    showObject w₁ depth = showObject w₂ depth := by
  induction depth with
  | zero => rfl
  | succ depth ih =>
    funext o
    have hfields : objectFields w₁ o = objectFields w₂ o := by
      have hp := hm.housed₁.objects o
      unfold objectFields
      rw [hm.same.classOfObject] at hp ⊢
      rw [hm.hierarchy hp (hm.housed₂.objects o)]
      simp only [hm.same.field?]
    simp only [showObject, ih, hfields, hm.same.naming]

theorem steady_snapshot (v : Value) : Steady P (fun _ => .none) (Act.ofUpdate (snapshot v)) := by
  refine Steady.ofUpdate_modifyGet (.act _ (fun w hr _ => ⟨.single ?_, trivial⟩) fun w₁ w₂ hm _ _ => ?_)
  · exact Move.rescope_of_keeps hr rfl rfl
  · have hshown : w₁.scope.shown = w₂.scope.shown := (congrArg Scope.shown hm.same.scope :)
    have hrun : (showValue (showObject w₁ (w₁.objects.size + 1)) v).run { shown := w₁.scope.shown }
        = (showValue (showObject w₂ (w₂.objects.size + 1)) v).run { shown := w₂.scope.shown } := by
      rw [showObject_eq hm, hm.same.objects, hshown]
    simp only [hrun]
    generalize (showValue (showObject w₂ (w₂.objects.size + 1)) v).run _ = out
    refine ⟨rfl, hm.same.rescope ?_⟩
    exact (congrArg (fun s : Scope => { s with shown := out.2.shown }) hm.same.scope :)

theorem steady_snapshots (vs : List Value) :
    Steady P (fun _ => .none) (Act.ofUpdate (snapshots vs)) := by
  induction vs generalizing P with
  | nil => exact Steady.ofUpdate_pure _ (Lasting.entails_none _)
  | cons v vs ih =>
    unfold snapshots
    rw [List.mapM_cons]
    exact (steady_snapshot v).ofUpdate_bind fun _ => ih.ofUpdate_bind fun _ =>
      Steady.ofUpdate_pure _ (Lasting.entails_none _)

theorem steady_findTable (name : String) : Steady P (fun _ => .none) (findTable name) := by
  refine Steady.look _ (fun w₁ w₂ hm _ _ => ?_) fun w => steady_bound _ fun _ _ => Lasting.entails_none _
  have htables : w₁.scope.tables = w₂.scope.tables := (congrArg Scope.tables hm.same.scope :)
  rw [htables]

theorem steady_invokeForm {run : Runner} (hrun : run.Steady) (t : TableRef) (i : Nat) (form : Form)
    (receiver : Value) (args : List Value) :
    Exec.Steady P (fun _ => .none) (invokeForm run t i form receiver args) := by
  have hrequest : Steady P (fun _ => .none) (requestFor form receiver args) := by
    unfold requestFor
    split <;> first | exact Steady.pure _ (Lasting.entails_none _) | exact Alike.stop _ _
  refine (Exec.Steady.lift hrequest).bind fun request => ?_
  split
  · exact steady_dispatchSafe hrun t i request
  · exact steady_dispatch hrun t i request

/-- What steps reply looks the same in both worlds. -/
def PerformsAlike (perform : List Step → Act (List Reply)) : Prop :=
  ∀ P steps, Alike P (List.map Reply.plain) (fun _ => .none) (perform steps) (perform steps)

private theorem alike_traceReplies {rs rs' : List Reply}
    (h : rs.map Reply.plain = rs'.map Reply.plain) :
    Alike P id (fun _ => .none) (rs.forM fun r => addTrace (.reply r))
      (rs'.forM fun r => addTrace (.reply r)) := by
  induction rs generalizing P rs' with
  | nil =>
    obtain rfl : rs' = [] := List.map_eq_nil_iff.mp h.symm
    exact Alike.pure rfl (Lasting.entails_none _)
  | cons r rs ih =>
    obtain ⟨r', rs', rfl, hr, hrs⟩ := List.map_eq_cons_iff.mp h.symm
    refine (alike_addTrace ?_).bind fun _ _ _ => ih hrs.symm
    rw [Entry.plain, Entry.plain, hr]

/-- One layer of a body behaves alike, if its parts and steps do. -/
theorem steady_evalWith {eval : Body → Frame → Exec Fault Value}
    {perform : List Step → Act (List Reply)}
    (heval : ∀ P body frame, Exec.Steady P (fun _ => .none) (eval body frame))
    (hperform : PerformsAlike perform) (frame : Frame) (body : Body) :
    Exec.Steady P (fun _ => .none) (body.evalWith eval perform frame) := by
  have hparts (P : Lasting) (parts : List Body) :
      Exec.Steady P (fun _ => .none) (parts.mapM (eval · frame)) :=
    .mapM (fun P part => heval P part frame) parts
  have hallocate (P : Lasting) : Exec.Steady P (fun _ => .none) (ExceptT.lift allocate : Exec Fault Nat) :=
    .lift Steady.allocate
  have hpure {P : Lasting} (v : Value) : Exec.Steady P (fun _ => .none) (pure v : Exec Fault Value) :=
    .pure v (Lasting.entails_none _)
  cases body with
  | const v => exact .lift (steady_eval P v)
  | receiver | arg | calledName => exact hpure _
  | args => exact (hallocate _).bind fun _ => hpure _
  | list items => exact (hparts _ items).bind fun _ => (hallocate _).bind fun _ => hpure _
  | seq parts => exact (hparts _ parts).bind fun _ => hpure _
  | cond test ifTrue otherwise =>
    simp only [Body.evalWith]
    refine (heval _ test frame).bind fun v => ?_
    split <;> exact heval _ _ frame
  | fail fault => exact .throw fault
  | getField name =>
    simp only [Body.evalWith]
    split
    · exact .look (fun w₁ w₂ hm _ _ => by rw [hm.same.field?]) fun _ => hpure _
    · exact hpure _
  | setField name value =>
    simp only [Body.evalWith]
    refine (heval _ value frame).bind fun v => ?_
    split
    · refine .look (fun w₁ w₂ hm _ _ => by rw [hm.same.field?]) fun w => ?_
      split
      · exact (Exec.Steady.setField _ name v).bind fun _ => hpure _
      · exact hpure _
    · exact hpure _
  | trace value =>
    simp only [Body.evalWith]
    refine (heval _ value frame).bind fun v => ?_
    refine (Exec.Steady.ofUpdate (steady_snapshot v)).bind fun s => ?_
    exact (Exec.Steady.lift (alike_addTrace rfl)).bind fun _ => hpure _
  | invoke form table slot target operands =>
    simp only [Body.evalWith]
    refine (heval _ target frame).bind fun v => (hparts _ operands).bind fun vs => ?_
    refine (Exec.Steady.lift (steady_findTable table)).bind fun t => ?_
    exact steady_invokeForm (Runner.steady_ofScripts heval) t slot form v vs
  | perform steps =>
    have heq : (Body.evalWith eval perform frame (.perform steps)).run = (do
        let replies ← perform steps
        replies.forM fun r => addTrace (.reply r)
        pure (.ok .null)) := by
      simp only [Body.evalWith, ExceptT.run_bind, ExceptT.run_lift, ExceptT.run_pure,
        map_eq_pure_bind, bind_assoc, pure_bind]
    unfold Exec.Steady
    rw [heq]
    refine (hperform P steps).bind fun rs rs' hrs => (alike_traceReplies hrs).bind fun _ _ _ => ?_
    exact Steady.pure _ (Lasting.entails_none _)

end Script

end CachedDispatch
