import CachedDispatch.Proofs.Correctness
import CachedDispatch.Proofs.Numbering
import CachedDispatch.Proofs.Restarts

/-!
Variables that are written before they are read. Where no path through the text of a program reads a
variable before it has written it, a machine that runs the program again starts afresh.
-/
namespace CachedDispatch

open Machine

namespace Lang

def Expr.var? : Expr → Option String
  | .var name => some name
  | _ => none

/-- The variables that an expression reads. -/
def Expr.reads (e : Expr) : List String := e.postorder.filterMap Expr.var?

mutual

/-- Some path through the statement to its end does not write the variable. -/
def Stmt.passes (x : String) : Stmt → Bool
  | .declare name _ | .assign name _ => name != x
  | .cond _ thenBranch elseBranch => blockPasses x thenBranch || blockPasses x elseBranch
  | .expr _ | .loop _ _ => true
  | .ret _ => false

def blockPasses (x : String) : List Stmt → Bool
  | [] => true
  | s :: ss => s.passes x && blockPasses x ss

end

mutual

/-- Some path into the statement reads the variable and has not written it before. -/
def Stmt.exposes (x : String) : Stmt → Bool
  | .declare _ value | .assign _ value | .expr value | .ret value => value.reads.contains x
  | .cond condition thenBranch elseBranch =>
    condition.reads.contains x || blockExposes x thenBranch || blockExposes x elseBranch
  | .loop condition body => condition.reads.contains x || blockExposes x body

def blockExposes (x : String) : List Stmt → Bool
  | [] => false
  | s :: ss => s.exposes x || s.passes x && blockExposes x ss

end

private theorem mem_reads {x : String} {e : Expr} : x ∈ e.reads ↔ .var x ∈ e.postorder := by
  rw [Expr.reads, List.mem_filterMap]
  constructor
  · rintro ⟨e', he', hx⟩
    cases e' <;> cases hx
    exact he'
  · exact fun h => ⟨_, h, rfl⟩

/-- Code without branches that stores nothing and loads only variables among the expressions. -/
private def OnlyLoads (t : Tables) (es : List Expr) (code : List Instr) : Prop :=
  ∀ j ∈ code, j.isPlain = true ∨ ∃ x k, .var x ∈ es ∧ t.Local x k ∧ j = .ldloc k

namespace OnlyLoads

variable {t : Tables} {es es' : List Expr} {code code' : List Instr}

private theorem append (h : OnlyLoads t es code) (h' : OnlyLoads t es' code') :
    OnlyLoads t (es ++ es') (code ++ code') := by
  intro j hj
  rcases List.mem_append.mp hj with hj | hj
  · exact (h j hj).imp_right fun ⟨x, k, hx, hrest⟩ => ⟨x, k, List.mem_append_left _ hx, hrest⟩
  · exact (h' j hj).imp_right fun ⟨x, k, hx, hrest⟩ => ⟨x, k, List.mem_append_right _ hx, hrest⟩

private theorem plain {j : Instr} (hj : j.isPlain = true) (es : List Expr) : OnlyLoads t es [j] := by
  intro j' hj'
  obtain rfl := List.mem_singleton.mp hj'
  exact .inl hj

private theorem load {c : Const} (h : t.Loads c code) (es : List Expr) : OnlyLoads t es code := by
  obtain ⟨i, -, rfl⟩ := h
  exact .plain rfl es

end OnlyLoads

section Expressions

variable {t : Tables}

mutual

/-- The code of an expression loads the variables that it reads. -/
private theorem onlyLoads_expr : (e : Expr) → {n : Nat} → {code : List Instr} → e.Emits t n code →
    OnlyLoads t e.postorder code
  | .null, _, _, h | .this, _, _, h => by
    cases h
    exact .plain rfl _
  | .bool _, _, _, h | .int _, _, _, h | .float _, _, _, h | .text _, _, _, h => .load h _
  | .var x, _, _, h => by
    obtain ⟨i, hi, rfl⟩ := h
    intro j hj
    exact .inr ⟨x, i, List.mem_singleton.mpr rfl, hi, List.mem_singleton.mp hj⟩
  | .classLiteral _, _, _, h => by
    obtain ⟨i, -, rfl⟩ := h
    exact .plain rfl _
  | .list items, _, _, h => by
    obtain ⟨is, k, his, -, rfl⟩ := h
    exact (onlyLoads_exprs items his).append (.plain rfl _)
  | .map entries, _, _, h => by
    obtain ⟨is, k, his, -, rfl⟩ := h
    exact (onlyLoads_entries entries his).append (.plain rfl _)
  | .range first last, _, _, h => by
    obtain ⟨is, js, his, hjs, rfl⟩ := h
    exact ((onlyLoads_expr first his).append (onlyLoads_expr last hjs)).append (.plain rfl _)
  | .cast value _, _, _, h => by
    obtain ⟨is, i, his, -, rfl⟩ := h
    exact (onlyLoads_expr value his).append (.plain rfl _)
  | .call receiver _ args _, _, _, h => by
    obtain ⟨is, js, slot, argc, his, hjs, -, -, rfl⟩ := h
    exact ((onlyLoads_expr receiver his).append (onlyLoads_exprs args hjs)).append (.plain rfl _)
  | .callCurrent _ args, _, _, h => by
    obtain ⟨is, slot, argc, his, -, -, rfl⟩ := h
    exact ((OnlyLoads.plain rfl []).append (onlyLoads_exprs args his)).append (.plain rfl _)
  | .callStatic _ _ args, _, _, h | .construct _ args, _, _, h => by
    obtain ⟨i, is, slot, argc, -, his, -, -, rfl⟩ := h
    exact ((OnlyLoads.plain rfl []).append (onlyLoads_exprs args his)).append (.plain rfl _)
  | .property receiver _ _, _, _, h => by
    obtain ⟨is, slot, his, -, rfl⟩ := h
    exact (onlyLoads_expr receiver his).append (.plain rfl _)
  | .binary _ left right, _, _, h => by
    obtain ⟨is, js, slot, his, hjs, -, rfl⟩ := h
    exact ((onlyLoads_expr left his).append (onlyLoads_expr right hjs)).append (.plain rfl _)
  | .neg value, _, _, h => by
    obtain ⟨is, slot, his, -, rfl⟩ := h
    exact (onlyLoads_expr value his).append (.plain rfl _)
  | .not value, _, _, h => by
    obtain ⟨is, his, rfl⟩ := h
    exact (onlyLoads_expr value his).append (.plain rfl _)

private theorem onlyLoads_exprs :
    (es : List Expr) → {n : Nat} → {code : List Instr} → AllEmit t n es code →
    OnlyLoads t (allPostorder es) code
  | [], _, _, h => by
    cases h
    exact List.forall_mem_nil _
  | e :: es, _, _, h => by
    obtain ⟨is, js, his, hjs, rfl⟩ := h
    exact (onlyLoads_expr e his).append (onlyLoads_exprs es hjs)

private theorem onlyLoads_entries : (es : List (String × Expr)) → {n : Nat} → {code : List Instr} →
    EntriesEmit t n es code → OnlyLoads t (entriesPostorder es) code
  | [], _, _, h => by
    cases h
    exact List.forall_mem_nil _
  | (_, e) :: es, _, _, h => by
    obtain ⟨load, is, js, hload, his, hjs, rfl⟩ := h
    exact ((OnlyLoads.load hload []).append (onlyLoads_expr e his)).append (onlyLoads_entries es hjs)

end

end Expressions

/-- Some path through the code from `pos` loads local variable `i` within `n` instructions and has not
stored it before. -/
private inductive LoadsFirst (code : Array UInt8) (i : Nat) : Nat → Nat → Prop
  | now {n pos : Nat} {k : UInt8} (h : Instr.decodeAt code pos = .ok (.ldloc k)) (hk : k.toNat = i) :
      LoadsFirst code i n pos
  | later {n pos next : Nat} {j : Instr} (h : Instr.decodeAt code pos = .ok j)
      (hj : ∀ k : UInt8, j = .stloc k → k.toNat ≠ i) (hto : j.LeadsTo pos next)
      (hs : LoadsFirst code i n next) : LoadsFirst code i (n + 1) pos

/-- Machines go along paths of the code. -/
private theorem loadsFirst_of_readsFirst {runner : Runner} {u : LoadedUnit} {i : Nat} {m : Machine}
    {w : World} (h : ReadsFirst runner u i m w) : ∃ n, LoadsFirst u.program.code i n m.ip := by
  induction h with
  | now hload =>
    obtain ⟨k, hd, hk⟩ := hload
    exact ⟨0, .now hd hk⟩
  | later hstore hstep _ ih =>
    obtain ⟨n, hs⟩ := ih
    obtain ⟨⟨j, hd, hto⟩, -⟩ := step_leads hstep
    exact ⟨n + 1, .later hd (fun k hj hk => hstore ⟨k, hj ▸ hd, hk⟩) hto hs⟩

namespace LoadsFirst

variable {code : Array UInt8} {i n n' pos : Nat} {t : Tables} {x : String}

private theorem mono (h : LoadsFirst code i n pos) (hn : n ≤ n') : LoadsFirst code i n' pos := by
  induction h generalizing n' with
  | now hd hk => exact .now hd hk
  | later hd hj hto _ ih =>
    obtain ⟨n', rfl⟩ := Nat.exists_eq_add_one_of_ne_zero (Nat.ne_zero_of_lt hn)
    exact .later hd hj hto (ih (Nat.le_of_succ_le_succ hn))

/-- A path goes on behind an instruction that does not load the variable. -/
private theorem next {j : Instr} {is : List Instr} (h : LoadsFirst code i n pos)
    (hat : CodeAt code pos (j :: is)) (hj : ∀ k : UInt8, j = .ldloc k → k.toNat ≠ i) :
    ∃ n' next, n = n' + 1 ∧ (∀ k : UInt8, j = .stloc k → k.toNat ≠ i) ∧ j.LeadsTo pos next
      ∧ LoadsFirst code i n' next := by
  cases h with
  | now hd hk =>
    rw [hat.decodeAt_eq] at hd
    cases hd
    exact absurd hk (hj _ rfl)
  | later hd hstore hto hs =>
    rw [hat.decodeAt_eq] at hd
    cases hd
    exact ⟨_, _, rfl, hstore, hto, hs⟩

/-- A path goes through code that does not load the variable. -/
private theorem through {es : List Expr} {is : List Instr} (h : LoadsFirst code i n pos)
    (hi : t.locals.find? x = some i) (his : OnlyLoads t es is) (hx : .var x ∉ es)
    (hat : CodeAt code pos is) : LoadsFirst code i n (pos + (bytesOf is).length) := by
  induction is generalizing n pos with
  | nil => exact h
  | cons j is ih =>
    have hload (k : UInt8) (hj : j = .ldloc k) : k.toNat ≠ i := by
      rintro rfl
      rcases his j List.mem_cons_self with hplain | ⟨y, k', hy, hk', hj'⟩
      · rw [hj] at hplain
        cases hplain
      · obtain rfl : k = k' := by simpa [hj] using hj'
        exact hx (NameTable.find?_inj hi hk' ▸ hy)
    obtain ⟨n', next, rfl, -, hto, hs⟩ := h.next hat hload
    have hnext : next = pos + j.size := by
      rcases his j List.mem_cons_self with hplain | ⟨y, k', hy, hk', rfl⟩
      · exact (Instr.leadsTo_iff_of_isPlain hplain _ _).mp hto
      · exact hto
    subst hnext
    have hrest := ih hs (fun j hj => his j (List.mem_cons_of_mem _ hj)) hat.tail
    rw [bytesOf_cons, List.length_append, ← Nat.add_assoc]
    exact hrest.mono (Nat.le_succ n')

/-- A path through the code of an expression that does not read the variable. -/
private theorem expr {e : Expr} {site : Nat} {is rest : List Instr} (h : LoadsFirst code i n pos)
    (hi : t.locals.find? x = some i) (he : e.Emits t site is) (hx : e.reads.contains x = false)
    (hat : CodeAt code pos (is ++ rest)) : LoadsFirst code i n (pos + (bytesOf is).length) := by
  refine h.through hi (onlyLoads_expr e he) (fun hmem => ?_) hat.left
  simp [mem_reads.mpr hmem] at hx

private theorem branch {target : Nat} {rest : List Instr} (h : LoadsFirst code i n pos)
    (hat : CodeAt code pos (.br target.toUInt32 :: rest)) (htarget : target < 4294967296) :
    ∃ n', n = n' + 1 ∧ LoadsFirst code i n' target := by
  obtain ⟨n', next, rfl, -, hto, hs⟩ := h.next hat (by simp)
  obtain rfl : next = target := hto.trans (toNat_toUInt32 htarget)
  exact ⟨n', rfl, hs⟩

/-- A path through a test branches or falls through. -/
private theorem test {e : Expr} {site target : Nat} {is rest : List Instr} (h : LoadsFirst code i n pos)
    (hi : t.locals.find? x = some i) (he : e.Emits t site is) (hx : e.reads.contains x = false)
    (hat : CodeAt code pos (is ++ .brfalse target.toUInt32 :: rest)) (htarget : target < 4294967296) :
    ∃ n', n = n' + 1 ∧ (LoadsFirst code i n' target
      ∨ LoadsFirst code i n' (pos + (bytesOf is).length + branchSize)) := by
  obtain ⟨n', next, rfl, -, hto, hs⟩ := (h.expr hi he hx hat).next hat.right (by simp)
  refine ⟨n', rfl, ?_⟩
  rcases hto with rfl | rfl
  · rw [toNat_toUInt32 htarget] at hs
    exact .inl hs
  · exact .inr hs

/-- A path through a loop leaves it, if no round loads the variable first. -/
private theorem loop {e : Expr} {site after : Nat} {is body rest : List Instr}
    (h : LoadsFirst code i n pos)
    (hi : t.locals.find? x = some i) (he : e.Emits t site is) (hx : e.reads.contains x = false)
    (hat : CodeAt code pos (is ++ .brfalse after.toUInt32 :: (body ++ .br pos.toUInt32 :: rest)))
    (hpos : pos < 4294967296) (hafter : after < 4294967296)
    (hbody : ∀ n, LoadsFirst code i n (pos + (bytesOf is).length + branchSize) →
      LoadsFirst code i n (pos + (bytesOf is).length + branchSize + (bytesOf body).length)) :
    LoadsFirst code i n after := by
  have hback : CodeAt code (pos + (bytesOf is).length + branchSize)
      (body ++ .br pos.toUInt32 :: rest) := hat.right.tail
  -- Each round takes instructions, so the path has fewer of them left when it is back.
  induction n using Nat.strongRecOn with
  | ind n ih =>
    obtain ⟨n, rfl, hexit | hround⟩ := h.test hi he hx hat hafter
    · exact hexit.mono (Nat.le_succ n)
    · obtain ⟨n, rfl, hagain⟩ := (hbody n hround).branch hback.right hpos
      exact (ih n (by omega) hagain).mono (Nat.le_add_right n 2)

end LoadsFirst

section Statements

variable {code : Array UInt8} {i : Nat} {t : Tables} {x : String}

mutual

/-- Where a statement does not expose a variable, a path that loads it first goes on behind the
statement, which lets it pass. -/
private theorem loadsFirst_stmt (hsize : code.size < 4294967296) (hi : t.locals.find? x = some i) :
    (s : Stmt) → ∀ {site n pos : Nat} {is : List Instr}, s.Emits t site pos is → CodeAt code pos is →
    s.exposes x = false → LoadsFirst code i n pos →
    LoadsFirst code i n (pos + (bytesOf is).length) ∧ s.passes x = true
  | .declare name value | .assign name value => by
    rintro ⟨is, k, hvalue, hk, rfl⟩ hat hx h
    obtain ⟨n', next, rfl, hstore, rfl, hs⟩ := (h.expr hi hvalue hx hat).next hat.right (by simp)
    rw [length_bytesOf_append]
    refine ⟨hs.mono (Nat.le_succ n'), bne_iff_ne.mpr ?_⟩
    rintro rfl
    exact hstore k rfl (Option.some.inj (hk.symm.trans hi))
  | .expr value => by
    rintro ⟨is, hvalue, rfl⟩ hat hx h
    obtain ⟨n', next, rfl, -, rfl, hs⟩ := (h.expr hi hvalue hx hat).next hat.right (by simp)
    rw [length_bytesOf_append]
    exact ⟨hs.mono (Nat.le_succ n'), rfl⟩
  | .cond condition thenBranch elseBranch => by
    rintro ⟨test, is, js, thenPos, elsePos, htest, rfl, his, rfl, hjs, rfl⟩ hat hx h
    have hend := Nat.lt_of_le_of_lt hat.end_le hsize
    simp only [length_bytesOf_append, length_br, length_brfalse] at hend ⊢
    simp only [List.append_assoc] at hat
    have hthen := hat.right.right
    have helse := hthen.right.right
    simp only [length_br, length_brfalse] at hthen helse
    simp only [Stmt.exposes, Bool.or_eq_false_iff] at hx
    obtain ⟨⟨hxtest, hxthen⟩, hxelse⟩ := hx
    obtain ⟨n', rfl, helse' | hthen'⟩ := h.test hi htest hxtest hat (by omega)
    · obtain ⟨hs, hpass⟩ := loadsFirst_block hsize hi elseBranch hjs helse hxelse helse'
      exact ⟨hs.mono (Nat.le_succ n'), by rw [Stmt.passes, hpass, Bool.or_true]⟩
    · obtain ⟨hs, hpass⟩ := loadsFirst_block hsize hi thenBranch his hthen.left hxthen hthen'
      obtain ⟨n'', rfl, hs'⟩ := hs.branch hthen.right hend
      exact ⟨hs'.mono (Nat.le_add_right n'' 2), by rw [Stmt.passes, hpass, Bool.true_or]⟩
  | .loop condition body => by
    rintro ⟨test, is, bodyPos, htest, rfl, his, rfl⟩ hat hx h
    have hend := Nat.lt_of_le_of_lt hat.end_le hsize
    simp only [length_bytesOf_append, length_br, length_brfalse] at hend ⊢
    simp only [List.append_assoc] at hat
    have hbody := hat.right.right
    simp only [length_brfalse] at hbody
    obtain ⟨hxtest, hxbody⟩ := Bool.or_eq_false_iff.mp hx
    refine ⟨h.loop hi htest hxtest hat (by omega) hend fun n hround => ?_, rfl⟩
    exact (loadsFirst_block hsize hi body his hbody.left hxbody hround).1
  | .ret value => by
    rintro ⟨is, hvalue, rfl⟩ hat hx h
    obtain ⟨n', next, rfl, -, hto, -⟩ := (h.expr hi hvalue hx hat).next hat.right (by simp)
    exact hto.elim

private theorem loadsFirst_block (hsize : code.size < 4294967296) (hi : t.locals.find? x = some i) :
    (ss : List Stmt) → ∀ {site n pos : Nat} {is : List Instr}, BlockEmits t site pos ss is →
    CodeAt code pos is → blockExposes x ss = false → LoadsFirst code i n pos →
    LoadsFirst code i n (pos + (bytesOf is).length) ∧ blockPasses x ss = true
  | [] => by
    rintro rfl _ _ h
    exact ⟨h, rfl⟩
  | s :: ss => by
    rintro ⟨is, js, hs, hss, rfl⟩ hat hx h
    obtain ⟨hxs, hxss⟩ := Bool.or_eq_false_iff.mp hx
    obtain ⟨h, hpass⟩ := loadsFirst_stmt hsize hi s hs hat.left hxs h
    rw [hpass, Bool.true_and] at hxss
    obtain ⟨h, hpasses⟩ := loadsFirst_block hsize hi ss hss hat.right hxss h
    rw [length_bytesOf_append]
    exact ⟨h, Bool.and_eq_true_iff.mpr ⟨hpass, hpasses⟩⟩

end

end Statements

section Programs

variable {owner : String} {stmts : List Stmt} {p : Program} {t : Tables} {u : LoadedUnit} {rt : Nat}
  {w₀ w₁ : World} {this : Value} {m : Machine}

private theorem Compiled.not_loadsFirst (hc : Compiled stmts t p)
    (hsize : p.code.size < 4294967296) {x : String} {i : Nat} (hi : t.locals.find? x = some i)
    (hx : blockExposes x stmts = false) (n : Nat) :
    ¬ LoadsFirst p.code i n 0 := by
  intro h
  obtain ⟨is, his, hbytes⟩ := hc.code
  have hat := codeAt_of_toList hbytes
  obtain ⟨hend, -⟩ := loadsFirst_block hsize hi stmts his hat.left hx h
  -- The end of a program answers null and has no way on.
  obtain ⟨n', next, -, -, rfl, hs⟩ := hend.next hat.right (by simp)
  obtain ⟨n'', next, -, -, hto, -⟩ := hs.next hat.right.tail (by simp)
  exact hto

private theorem Compiled.find?_local (hc : Compiled stmts t p) {i : Nat} (hi : i < p.locals) :
    ∃ x ∈ declaredIn stmts, t.locals.find? x = some i := by
  rw [hc.size] at hi
  have hget : t.locals.names.toList[i]? = some t.locals.names.toList[i] := List.getElem?_eq_getElem hi
  refine ⟨t.locals.names.toList[i], ?_, NameTable.find?_of_nodup ?_ hget⟩
  · rw [← List.mem_eraseDups, ← hc.locals]
    exact List.getElem_mem hi
  · rw [hc.locals]
    exact nodup_eraseDups _

/-- A machine that runs a compiled program again goes the course of a new machine exactly if it holds
null in the local variables that the new machine comes to look at before it writes them, and then it
comes to the same result through the same dispatches. So it is for every program in which no path
reads a variable that it has not written. -/
theorem rerun_starts_afresh_iff (h : compile owner stmts = .ok p)
    (hl : (load rt p).run w₀ = (.ok u, w₁))
    (hm : Used u this m) (runner : Runner) (w : World) :
    (SameCourse runner u (start u this) m.restart w
        ↔ ∀ i v, ReadsFirst runner u i (start u this) w → m.locals[i]? = some v → v = .null)
      ∧ (SameCourse runner u (start u this) m.restart w →
        ∀ fuel, outcome runner u fuel m.restart w = outcome runner u fuel (start u this) w)
      ∧ (p.code.size < 4294967296 → (∀ x ∈ declaredIn stmts, blockExposes x stmts = false) →
        SameCourse runner u (start u this) m.restart w) := by
  refine ⟨hm.sameCourse_iff, hm.outcome_eq, fun hsize hx => hm.sameCourse_iff.mpr ?_⟩
  intro i v hread hv
  obtain ⟨t, hc⟩ := exists_compiled h
  have hprogram := (binds_of_load hl).program
  have hlt : i < p.locals := by
    rw [← hprogram, ← hm.keeps.2]
    exact (Array.getElem?_eq_some_iff.mp hv).1
  obtain ⟨x, hmem, hi⟩ := hc.find?_local hlt
  obtain ⟨n, hload⟩ := loadsFirst_of_readsFirst hread
  rw [hprogram] at hload
  exact absurd hload (hc.not_loadsFirst hsize hi (hx x hmem) n)

/-- Runs a program, then again on the same machine and on a new one, and compares the three values. -/
private def replays (stmts : List Stmt) (alike : Value → Value → Value → Bool) : Bool :=
  match compile "Main" stmts with
  | .error _ => false
  | .ok p =>
    match (load 0 p).run (World.initial ⟨true, 1⟩) with
    | (.error _, _) => false
    | (.ok u, w₁) =>
      match (run doublingRunner u 40 (start u .null)).run w₁ with
      | .ok ((.ok v, m), w₂) =>
        match outcome doublingRunner u 40 m.restart w₂, outcome doublingRunner u 40 (start u .null) w₂ with
        | .ok (.ok again, _), .ok (.ok new, _) => p.code.size < 4294967296 && alike v again new
        | _, _ => false
      | _ => false

private theorem exists_of_replays (stmts : List Stmt) (alike : Value → Value → Value → Bool)
    (hcheck : replays stmts alike = true) : ∃ p u w₁ v m w₂ again new, compile "Main" stmts = .ok p
      ∧ p.code.size < 4294967296 ∧ (load 0 p).run (World.initial ⟨true, 1⟩) = (.ok u, w₁)
      ∧ (run doublingRunner u 40 (start u .null)).run w₁ = .ok ((.ok v, m), w₂)
      ∧ (∃ w', outcome doublingRunner u 40 m.restart w₂ = .ok (.ok again, w'))
      ∧ (∃ w', outcome doublingRunner u 40 (start u .null) w₂ = .ok (.ok new, w'))
      ∧ alike v again new = true := by
  unfold replays at hcheck
  rcases hp : compile "Main" stmts with _ | p <;> rw [hp] at hcheck
  · cases hcheck
  rcases hl : (load 0 p).run (World.initial ⟨true, 1⟩) with ⟨_ | u, w₁⟩ <;> simp only [hl] at hcheck
  · cases hcheck
  split at hcheck
  · rename_i v m w₂ hrun
    split at hcheck
    · rename_i again w' new w'' hagain hnew
      obtain ⟨hsize, halike⟩ := Bool.and_eq_true_iff.mp hcheck
      exact ⟨p, u, w₁, v, m, w₂, again, new, rfl, of_decide_eq_true hsize, hl, hrun, ⟨w', hagain⟩,
        ⟨w'', hnew⟩, halike⟩
    · cases hcheck
  · cases hcheck

theorem rerun_starts_afresh_iff_doubling : ∃ p u w₁ m, compile "Main" doubling = .ok p
    ∧ p.code.size < 4294967296 ∧ (load 0 p).run (World.initial ⟨true, 1⟩) = (.ok u, w₁)
    ∧ Used u .null m ∧ (∀ x ∈ declaredIn doubling, blockExposes x doubling = false)
    ∧ ∀ w, SameCourse doublingRunner u (start u .null) m.restart w
      ∧ ∀ fuel, outcome doublingRunner u fuel m.restart w
        = outcome doublingRunner u fuel (start u .null) w := by
  obtain ⟨p, u, w₁, v, m, w₂, -, -, hp, hsize, hl, hrun, -⟩ :=
    exists_of_replays doubling (fun _ _ _ => true) (by decide +kernel)
  have hm : Used u .null m := .again .new hrun
  have hx : ∀ x ∈ declaredIn doubling, blockExposes x doubling = false := by decide +kernel
  refine ⟨p, u, w₁, m, hp, hsize, hl, hm, hx, fun w => ?_⟩
  obtain ⟨-, houtcome, hcourse⟩ := rerun_starts_afresh_iff hp hl hm doublingRunner w
  exact ⟨hcourse hsize hx, houtcome (hcourse hsize hx)⟩

/-- Reads a variable that only a branch not taken declares, and then writes it. -/
def lateWrite : List Stmt :=
  [.cond (.bool false) [.declare "x" (.int 0)] [], .declare "y" (.var "x"), .assign "x" (.int 1),
    .ret (.var "y")]

private def secondIsOne : Value → Value → Value → Bool
  | .null, .int 1, .null => true
  | _, _, _ => false

/-- The program answers null on every new machine, but one on a machine that ran before. -/
theorem rerun_of_lateWrite_differs : ∃ p u w₁ m w₂, compile "Main" lateWrite = .ok p
    ∧ p.code.size < 4294967296 ∧ (load 0 p).run (World.initial ⟨true, 1⟩) = (.ok u, w₁)
    ∧ (run doublingRunner u 40 (start u .null)).run w₁ = .ok ((.ok .null, m), w₂)
    ∧ (∃ w', outcome doublingRunner u 40 m.restart w₂ = .ok (.ok (.int 1), w'))
    ∧ ∃ w', outcome doublingRunner u 40 (start u .null) w₂ = .ok (.ok .null, w') := by
  obtain ⟨p, u, w₁, v, m, w₂, again, new, hp, hsize, hl, hrun, hagain, hnew, halike⟩ :=
    exists_of_replays lateWrite secondIsOne (by decide +kernel)
  unfold secondIsOne at halike
  split at halike
  · exact ⟨p, u, w₁, m, w₂, hp, hsize, hl, hrun, hagain, hnew⟩
  · cases halike

end Programs

end Lang

end CachedDispatch
