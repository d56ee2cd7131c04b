import CachedDispatch.Proofs.Simulation

/-!
Compiled programs from source to result. A unit loaded from compiled code ends exactly as a direct
evaluation of its source does, and meets none of the errors that only ill-formed code can raise.
-/
namespace CachedDispatch

open Machine

section Loading

variable {α β ε : Type} {f : α → Except ε β}

private theorem getElem?_of_mapM_list {xs : List α} {ys : List β} (h : xs.mapM f = .ok ys) {i : Nat}
    {x : α} (hx : xs[i]? = some x) : ∃ y, f x = .ok y ∧ ys[i]? = some y := by
  induction xs generalizing ys i with
  | nil => cases hx
  | cons a xs ih =>
    rw [List.mapM_cons] at h
    rcases ha : f a with e | b <;> rw [ha] at h
    · cases h
    rcases hxs : xs.mapM f with e | bs <;> rw [hxs] at h <;> cases h
    cases i with
    | zero =>
      cases hx
      exact ⟨b, ha, rfl⟩
    | succ i => exact ih hxs hx

private theorem getElem?_of_mapM {xs : Array α} {ys : Array β} (h : xs.mapM f = .ok ys) {i : Nat}
    {x : α}
    (hx : xs[i]? = some x) : ∃ y, f x = .ok y ∧ ys[i]? = some y := by
  have hlist : xs.toList.mapM f = .ok ys.toList := by
    rw [← Array.toList_mapM, h]
    rfl
  rw [← Array.getElem?_toList] at hx ⊢
  exact getElem?_of_mapM_list hlist hx

/-- What is bound when a program is loaded. -/
structure Binds (rt : Nat) (p : Program) (u : LoadedUnit) (w : World) : Prop where
  program : u.program = p
  classes : ∀ (i : Nat) (name : String), p.classes[i]? = some name →
    ∃ type, (w.registry rt).lookup? name = some type ∧ u.classes[i]? = some type
  table : w.table u.table
    = .ofSites u.owner rt (p.manifest.sites.toList.map fun d => (d.name, d.kind))

theorem binds_of_load {rt : Nat} {p : Program} {u : LoadedUnit} {w w' : World}
    (h : (load rt p).run w = (.ok u, w')) : Binds rt p u w' := by
  rw [load, Update.run_bind] at h
  -- Only the registry that stands after the owner is found matters.
  generalize StateT.run (modifyGet _ : Update TypeId) w = found at h
  obtain ⟨owner, w₁⟩ := found
  rw [Update.run_get_bind] at h
  dsimp only at h
  split at h
  · cases h
  · rename_i classes hclasses
    cases h
    refine ⟨rfl, fun i name hi => ?_, ?_⟩
    · obtain ⟨type, htype, hget⟩ := getElem?_of_mapM hclasses hi
      refine ⟨type, ?_, hget⟩
      change (w₁.registry rt).lookup? name = some type
      split at htype
      · rename_i hlookup
        cases htype
        exact hlookup
      · cases htype
    · simp [World.table]

end Loading

namespace Lang

/-- The setting of statements in a unit: the call sites are those of the text, and classes are looked
up in the registry that the unit was loaded with. -/
def settingOf (stmts : List Stmt) (runner : Runner) (u : LoadedUnit) (registry : Registry)
    (this : Value) : Setting where
  runner
  table := u.table
  sites := blockSites stmts
  typeOf := registry.lookup?
  this

/-- The local variables in the order in which they are declared. -/
def finalLocals (stmts : List Stmt) (env : Locals) : Array Value :=
  ((declaredIn stmts).eraseDups.map env).toArray

section Runs

variable {owner : String} {stmts : List Stmt} {p : Program} {t : Tables} {u : LoadedUnit} {rt : Nat}
  {w₀ w₁ : World}

private theorem Compiled.bound (hc : Compiled stmts t p) (hl : Binds rt p u w₁)
    (hsize : p.code.size < 4294967296) (runner : Runner) (this : Value) :
    Bound (settingOf stmts runner u (w₁.registry rt) this) u t where
  table := rfl
  constants i k hk := by
    rw [hl.program, hc.constants, Array.getElem?_map, hk]
    rfl
  classes name i hi := hl.classes _ _ (by rw [hc.classes]; exact hi)
  sites := hc.sites.symm
  slots := by rw [hl.program, hc.manifest]
  locals := by
    rw [hc.locals]
    exact nodup_eraseDups _
  size := by rwa [hl.program]

private theorem Compiled.frame_eq (hc : Compiled stmts t p) (env : Locals) :
    t.frame env = finalLocals stmts env := by
  rw [finalLocals, ← hc.locals, Tables.frame, ← Array.toList_map, Array.toArray_toList]

private theorem Compiled.start_eq (hc : Compiled stmts t p) (hl : Binds rt p u w₁) (c : Setting) :
    start u c.this = c.machine (t.frame fun _ => .null) 0 [] := by
  rw [start, hl.program, hc.size, Tables.frame, NameTable.size, Setting.machine]
  simp [Array.map_const']

/-- What a machine does from the start of a unit while its source is evaluated. Where repetitions run
out, it has made as many steps. -/
private theorem runs_as_evaluated (h : compile owner stmts = .ok p) (hsize : p.code.size < 4294967296)
    (hl : (load rt p).run w₀ = (.ok u, w₁)) (runner : Runner) (this : Value) (fuel : Nat) (w : World) :
    match (evaluate (settingOf stmts runner u (w₁.registry rt) this) fuel stmts).run w with
    | .ok ((out, env), w') => Finishes runner u (start u this) w out (finalLocals stmts env) w'
    | .error s => Stops runner u (start u this) w s
      ∨ s = .exhausted ∧ ∃ j m' w', fuel ≤ j ∧ SoundSteps runner u j (start u this) w m' w' := by
  obtain ⟨t, hc⟩ := exists_compiled h
  have hbinds := binds_of_load hl
  have hb := hc.bound hbinds hsize runner this
  obtain ⟨is, his, hbytes⟩ := hc.code
  rw [← hbinds.program] at hbytes
  have hat := codeAt_of_toList hbytes
  have hblock := carries_block hb fuel stmts his hat.left (fun _ => .null) w
  rw [← hc.start_eq hbinds] at hblock
  rw [run_evaluate]
  rcases hrun : (execAll (settingOf stmts runner u (w₁.registry rt) this) fuel 0 stmts
    fun _ => .null).run w with s | ⟨⟨_ | out, env⟩, w'⟩ <;> rw [hrun] at hblock <;> dsimp only
  · exact hblock
  · obtain ⟨j, hs⟩ := hblock
    rw [← hc.frame_eq]
    exact hs.finishes (finishes_end hat.right _ w')
  · rw [← hc.frame_eq]
    exact hblock

private theorem table_of_load (h : compile owner stmts = .ok p)
    (hl : (load rt p).run w₀ = (.ok u, w₁)) :
    w₁.table u.table = .ofSites u.owner rt (blockSites stmts) := by
  obtain ⟨t, hc⟩ := exists_compiled h
  rw [(binds_of_load hl).table, hc.manifest, ← hc.sites]
  rfl

/-- All machines that a unit comes to are sound. -/
private theorem sound_of_steps (h : compile owner stmts = .ok p) (hsize : p.code.size < 4294967296)
    (hl : (load rt p).run w₀ = (.ok u, w₁)) {runner : Runner} {this : Value} {k : Nat} {m : Machine}
    {w w' : World} (hs : Steps runner u k (start u this) w m w') : m.Sound u := by
  have hspec := runs_as_evaluated h hsize hl runner this (k + 1) w
  rcases heval : (evaluate (settingOf stmts runner u (w₁.registry rt) this) (k + 1) stmts).run w with
    s | ⟨⟨out, env⟩, w''⟩ <;> rw [heval] at hspec
  · rcases hspec with hstops | ⟨-, j, m', w'', hj, hsound⟩
    · exact hstops.sound hs
    · exact hsound.sound hs hj
  · exact hspec.sound hs

/-- A unit that is loaded from compiled statements has a slot for each of their invocations, in order.
Its runs end in a result exactly when the evaluation of the statements does: in the same value or
error, with the same local variables and in the same world. -/
theorem run_iff_evaluate (h : compile owner stmts = .ok p) (hsize : p.code.size < 4294967296)
    (hl : (load rt p).run w₀ = (.ok u, w₁)) :
    w₁.table u.table = .ofSites u.owner rt (blockSites stmts)
      ∧ ∀ runner this w out locals w',
        (∃ fuel m, (run runner u fuel (start u this)).run w = .ok ((out, m), w') ∧ m.locals = locals)
          ↔ ∃ fuel env, (evaluate (settingOf stmts runner u (w₁.registry rt) this) fuel stmts).run w
              = .ok ((out, env), w') ∧ finalLocals stmts env = locals := by
  refine ⟨table_of_load h hl, fun runner this w out locals w' => ⟨?_, ?_⟩⟩
  · rintro ⟨fuel, m, hrun, rfl⟩
    -- With more repetitions than the machine makes steps, the evaluation cannot run out of them.
    have hspec := runs_as_evaluated h hsize hl runner this (fuel + 1) w
    rcases heval : (evaluate (settingOf stmts runner u (w₁.registry rt) this) (fuel + 1) stmts).run w
      with s | ⟨⟨out', env⟩, w''⟩ <;> rw [heval] at hspec
    · rcases hspec with hstops | ⟨-, j, m', w'', hj, hs⟩
      · exact absurd hrun (hstops.run_ne fuel _)
      · exact absurd (hs.le_of_run hrun) (Nat.not_le.mpr hj)
    · obtain ⟨rfl, hlocals, rfl⟩ := hspec.of_run hrun
      exact ⟨fuel + 1, env, heval, hlocals.symm⟩
  · rintro ⟨fuel, env, heval, rfl⟩
    have hspec := runs_as_evaluated h hsize hl runner this fuel w
    rw [heval] at hspec
    exact hspec.run_eq

/-- Doubles a number once, in a loop that null ends. -/
def doubling : List Stmt :=
  [.declare "n" (.int 1), .declare "more" (.bool true),
    .loop (.var "more") [.assign "n" (.binary .add (.var "n") (.var "n")), .assign "more" .null],
    .cond (.var "more") [.declare "skipped" (.int 3)] [], .ret (.var "n")]

/-- The program calls no scripts. -/
def doublingRunner : Runner := Runner.ofScripts fun _ _ => pure .null

/-- Whether it is compiled, loaded and evaluated to two. -/
private def doublingIsTwo : Bool :=
  match compile "Main" doubling with
  | .ok p =>
    match (load 0 p).run (World.initial ⟨true, 1⟩) with
    | (.ok u, w₁) =>
      match (evaluate (settingOf doubling doublingRunner u (w₁.registry 0) .null) 2 doubling).run w₁ with
      | .ok ((.ok (.int 2), env), _) =>
        match env "n", env "more", env "skipped" with
        | .int 2, .null, .null => p.code.size < 4294967296
        | _, _, _ => false
      | _ => false
    | _ => false
  | _ => false

private theorem doubling_evaluates : ∃ p u w₁ env w', compile "Main" doubling = .ok p
    ∧ p.code.size < 4294967296 ∧ (load 0 p).run (World.initial ⟨true, 1⟩) = (.ok u, w₁)
    ∧ (evaluate (settingOf doubling doublingRunner u (w₁.registry 0) .null) 2 doubling).run w₁
      = .ok ((.ok (.int 2), env), w')
    ∧ finalLocals doubling env = #[.int 2, .null, .null] := by
  have hcheck : doublingIsTwo = true := by decide +kernel
  unfold doublingIsTwo at hcheck
  rcases hp : compile "Main" doubling with _ | p <;> rw [hp] at hcheck
  · cases hcheck
  rcases hl : (load 0 p).run (World.initial ⟨true, 1⟩) with ⟨_ | u, w₁⟩ <;> simp only [hl] at hcheck
  · cases hcheck
  split at hcheck
  · rename_i env w' heval
    split at hcheck
    · rename_i hn hmore hskipped
      refine ⟨p, u, w₁, env, w', rfl, of_decide_eq_true hcheck, hl, heval, ?_⟩
      change #[env "n", env "more", env "skipped"] = _
      rw [hn, hmore, hskipped]
      rfl
    · cases hcheck
  · cases hcheck

theorem run_iff_evaluate_doubling : ∃ p u w₁, compile "Main" doubling = .ok p
    ∧ p.code.size < 4294967296 ∧ (load 0 p).run (World.initial ⟨true, 1⟩) = (.ok u, w₁)
    ∧ ∃ fuel m w', (run doublingRunner u fuel (start u .null)).run w₁ = .ok ((.ok (.int 2), m), w')
      ∧ m.locals = #[.int 2, .null, .null] := by
  obtain ⟨p, u, w₁, env, w', hp, hsize, hl, heval, hlocals⟩ := doubling_evaluates
  obtain ⟨-, hiff⟩ := run_iff_evaluate hp hsize hl
  obtain ⟨fuel, m, hrun, hm⟩ := (hiff _ _ _ _ _ _).mpr ⟨2, env, heval, hlocals⟩
  exact ⟨p, u, w₁, hp, hsize, hl, fuel, m, w', hrun, hm⟩

/-- A run of a unit that is loaded from compiled statements meets sound machines only: every
instruction can be read, a return finds one value on the stack, dispatches go through slots of the
table, and operands are as the instruction needs them but for ranges of other values than integers
and conditions that are none. So nothing else comes out of it, but for the faults of dispatches. -/
theorem compiled_run_sound (h : compile owner stmts = .ok p) (hsize : p.code.size < 4294967296)
    (hl : (load rt p).run w₀ = (.ok u, w₁)) :
    u.program.manifest.size = (w₁.table u.table).slots.size
      ∧ ∀ runner this w, (∀ k m w', Steps runner u k (start u this) w m w' → m.Sound u)
        ∧ ∀ fuel e m w', (run runner u fuel (start u this)).run w = .ok ((.error e, m), w') →
          e = .typeMismatch "int" ∨ e = .typeMismatch "bool" ∨ ∃ f, e = .dispatch f := by
  refine ⟨?_, fun runner this w => ⟨fun k m w' hs => sound_of_steps h hsize hl hs, ?_⟩⟩
  · obtain ⟨t, hc⟩ := exists_compiled h
    rw [table_of_load h hl, (binds_of_load hl).program, hc.manifest, ← t.length_sites, hc.sites]
    simp [Table.ofSites]
  · intro fuel e m w' hrun
    obtain ⟨k, m₁, w₂, hs, hend⟩ := exists_steps_of_run hrun
    exact (sound_of_steps h hsize hl hs).error_of_ended hend

theorem compiled_run_sound_doubling : ∃ p u w₁, compile "Main" doubling = .ok p
    ∧ p.code.size < 4294967296 ∧ (load 0 p).run (World.initial ⟨true, 1⟩) = (.ok u, w₁)
    ∧ u.program.manifest.size = (w₁.table u.table).slots.size
    ∧ ∀ k m w', Steps doublingRunner u k (start u .null) w₁ m w' → m.Sound u := by
  obtain ⟨p, u, w₁, -, -, hp, hsize, hl, -⟩ := doubling_evaluates
  obtain ⟨hslots, hruns⟩ := compiled_run_sound hp hsize hl
  exact ⟨p, u, w₁, hp, hsize, hl, hslots, (hruns doublingRunner .null w₁).1⟩

end Runs

end Lang

end CachedDispatch
