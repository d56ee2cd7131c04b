import CachedDispatch.Proofs.Demands
import Mathlib.Data.List.Induction

/-!
The programs that compile. Whether there is room for everything and whether every variable has been
introduced are questions about the text of a program; the compiler answers them, and a program that
it refuses gets the fault at the first place where something is missing.
-/
namespace CachedDispatch.Lang

/-- The length of a list or map literal. -/
def Expr.elementCount? : Expr → Option Nat
  | .list items => some items.length
  | .map entries => some entries.length
  | _ => none

/-- The number of arguments that a call lists. -/
def Expr.argumentCount? : Expr → Option Nat
  | .call _ _ args _ | .callCurrent _ args | .callStatic _ _ args | .construct _ args =>
    some args.length
  | _ => none

/-- The class that an expression names. -/
def Expr.className? : Expr → Option String
  | .classLiteral name | .cast _ name | .callStatic name _ _ | .construct name _ => some name
  | _ => none

/-- The entries that a pool needs for literals: one for all equal numbers or texts, and one for each
truth value. -/
def entriesNeeded (cs : List Const) : Nat :=
  (cs.filter (·.isShared)).eraseDups.length + cs.countP (!·.isShared)

/-- There is room for all that the program has, and a variable is introduced before it is used. -/
structure Acceptable (stmts : List Stmt) : Prop where
  elements : ∀ e ∈ blockPostorder stmts, ∀ n ∈ e.elementCount?, n ≤ 65535
  arguments : ∀ e ∈ blockPostorder stmts, ∀ n ∈ e.argumentCount?, n ≤ 255
  invocations : (blockPostorder stmts).countP (·.site?.isSome) ≤ 65536
  classes : ((blockPostorder stmts).filterMap Expr.className?).eraseDups.length ≤ 65536
  locals : (declaredIn stmts).eraseDups.length ≤ 255
  introduced : ∀ before name after, blockDemands stmts = before ++ .use name :: after →
    .introduce name ∈ before

/-- All demands up to one can be met, and this one cannot for the reason given. -/
def FirstViolation (stmts : List Stmt) (e : CompileError) : Prop :=
  ∃ done d rest, blockDemands stmts = done ++ d :: rest
    ∧ (∀ earlier d' later, done = earlier ++ d' :: later → d'.fault? earlier = none)
    ∧ d.fault? done = some e

/-- The demands of an expression without those of its parts. -/
private def Expr.ownDemands : Expr → List Demand
  | .null | .this | .range _ _ | .not _ => []
  | .bool b => [.literal (.bool b)]
  | .int n => [.literal (.int n)]
  | .float x => [.literal (.float x)]
  | .text s => [.literal (.text s)]
  | .var name => [.use name]
  | .classLiteral name | .cast _ name => [.className name]
  | .list items => [.elements items.length]
  | .map entries => .elements entries.length :: entries.map fun entry => .literal (.text entry.1)
  | .call _ _ args _ | .callCurrent _ args => [.arguments args.length, .site]
  | .callStatic name _ args | .construct name args => [.className name, .arguments args.length, .site]
  | .property _ _ _ | .binary _ _ _ | .neg _ => [.site]

mutual

private theorem count_demands (d : Demand) : (e : Expr) →
    e.demands.count d = (e.postorder.flatMap Expr.ownDemands).count d
  | .null | .this | .bool _ | .int _ | .float _ | .text _ | .var _ | .classLiteral _ => by
    simp [Expr.demands, Expr.postorder, Expr.ownDemands]
  | .list items => by
    simp [Expr.demands, Expr.postorder, Expr.ownDemands, List.count_cons, count_allDemands d items]
  | .map entries => by
    simp [Expr.demands, Expr.postorder, Expr.ownDemands, List.count_cons, count_entryDemands d entries]
    omega
  | .range first last => by
    simp [Expr.demands, Expr.postorder, Expr.ownDemands, count_demands d first, count_demands d last]
  | .cast value _ | .neg value | .not value => by
    simp [Expr.demands, Expr.postorder, Expr.ownDemands, count_demands d value]
  | .call receiver _ args _ => by
    simp [Expr.demands, Expr.postorder, Expr.ownDemands, List.count_cons, count_demands d receiver,
      count_allDemands d args]
    omega
  | .callCurrent _ args | .callStatic _ _ args | .construct _ args => by
    simp [Expr.demands, Expr.postorder, Expr.ownDemands, List.count_cons, count_allDemands d args]
    omega
  | .property receiver _ _ => by
    simp [Expr.demands, Expr.postorder, Expr.ownDemands, count_demands d receiver]
  | .binary _ left right => by
    simp [Expr.demands, Expr.postorder, Expr.ownDemands, count_demands d left, count_demands d right]

private theorem count_allDemands (d : Demand) : (es : List Expr) →
    (allDemands es).count d = ((allPostorder es).flatMap Expr.ownDemands).count d
  | [] => rfl
  | e :: es => by simp [allDemands, allPostorder, count_demands d e, count_allDemands d es]

/-- The keys are demands of the literal itself. -/
private theorem count_entryDemands (d : Demand) : (es : List (String × Expr)) →
    (entryDemands es).count d = ((entriesPostorder es).flatMap Expr.ownDemands).count d
      + (es.map fun entry => Demand.literal (.text entry.1)).count d
  | [] => rfl
  | (key, e) :: es => by
    simp [entryDemands, entriesPostorder, List.count_cons, count_demands d e, count_entryDemands d es]
    omega

end

private theorem mem_demands_iff {d : Demand} {e : Expr} :
    d ∈ e.demands ↔ d ∈ e.postorder.flatMap Expr.ownDemands := by
  rw [← List.count_pos_iff, count_demands, List.count_pos_iff]

/-- The demand is one of expressions alone: statements add what they ask of variables. -/
private def Demand.OfExpr (d : Demand) : Prop := ∀ name, d ≠ .introduce name ∧ d ≠ .use name

mutual

private theorem count_stmtDemands {d : Demand} (hd : d.OfExpr) : (s : Stmt) →
    s.demands.count d = (s.postorder.flatMap Expr.ownDemands).count d
  | .declare name value => by
    simp [Stmt.demands, Stmt.postorder, count_demands d value, (hd name).1.symm]
  | .assign name value => by
    simp [Stmt.demands, Stmt.postorder, count_demands d value, (hd name).2.symm]
  | .expr value | .ret value => count_demands d value
  | .cond condition thenBranch elseBranch => by
    simp [Stmt.demands, Stmt.postorder, count_demands d condition, count_blockDemands hd thenBranch,
      count_blockDemands hd elseBranch]
  | .loop condition body => by
    simp [Stmt.demands, Stmt.postorder, count_demands d condition, count_blockDemands hd body]

private theorem count_blockDemands {d : Demand} (hd : d.OfExpr) : (ss : List Stmt) →
    (blockDemands ss).count d = ((blockPostorder ss).flatMap Expr.ownDemands).count d
  | [] => rfl
  | s :: ss => by
    simp [blockDemands, blockPostorder, count_stmtDemands hd s, count_blockDemands hd ss]

end

private theorem mem_blockDemands_iff {d : Demand} (hd : d.OfExpr) {stmts : List Stmt} :
    d ∈ blockDemands stmts ↔ ∃ e ∈ blockPostorder stmts, d ∈ e.ownDemands := by
  rw [← List.count_pos_iff, count_blockDemands hd, List.count_pos_iff, List.mem_flatMap]

private theorem introduced_demands (e : Expr) : introduced e.demands = [] := by
  refine List.filterMap_eq_nil_iff.mpr fun d hd => ?_
  obtain ⟨x, -, hx⟩ := List.mem_flatMap.mp (mem_demands_iff.mp hd)
  cases d with
  | introduce name => cases x <;> simp [Expr.ownDemands] at hx
  | _ => rfl

mutual

private theorem introduced_stmt : (s : Stmt) → introduced s.demands = s.declared
  | .declare name value => by simp [Stmt.demands, Stmt.declared, introduced_demands, Demand.introduced?]
  | .assign _ value | .expr value | .ret value => by
    simp [Stmt.demands, Stmt.declared, introduced_demands, Demand.introduced?]
  | .cond condition thenBranch elseBranch => by
    simp [Stmt.demands, Stmt.declared, introduced_demands, introduced_block thenBranch,
      introduced_block elseBranch]
  | .loop condition body => by
    simp [Stmt.demands, Stmt.declared, introduced_demands, introduced_block body]

private theorem introduced_block : (ss : List Stmt) → introduced (blockDemands ss) = declaredIn ss
  | [] => rfl
  | s :: ss => by simp [blockDemands, declaredIn, introduced_stmt s, introduced_block ss]

end

private theorem elements_mem_iff {stmts : List Stmt} {n : Nat} :
    .elements n ∈ blockDemands stmts ↔ ∃ e ∈ blockPostorder stmts, e.elementCount? = some n := by
  rw [mem_blockDemands_iff fun name => by simp]
  refine exists_congr fun e => and_congr_right fun _ => ?_
  cases e <;> simp [Expr.ownDemands, Expr.elementCount?, eq_comm]

private theorem arguments_mem_iff {stmts : List Stmt} {n : Nat} :
    .arguments n ∈ blockDemands stmts ↔ ∃ e ∈ blockPostorder stmts, e.argumentCount? = some n := by
  rw [mem_blockDemands_iff fun name => by simp]
  refine exists_congr fun e => and_congr_right fun _ => ?_
  cases e <;> simp [Expr.ownDemands, Expr.argumentCount?, eq_comm]

private theorem className_mem_iff {stmts : List Stmt} {c : String} :
    .className c ∈ blockDemands stmts ↔ ∃ e ∈ blockPostorder stmts, e.className? = some c := by
  rw [mem_blockDemands_iff fun name => by simp]
  refine exists_congr fun e => and_congr_right fun _ => ?_
  cases e <;> simp [Expr.ownDemands, Expr.className?, eq_comm]

private theorem count_site (stmts : List Stmt) :
    (blockDemands stmts).count .site = (blockPostorder stmts).countP (·.site?.isSome) := by
  have hown (e : Expr) : e.ownDemands.count .site = if e.site?.isSome then 1 else 0 := by
    cases e <;> simp [Expr.ownDemands, Expr.site?, List.count_eq_zero]
  rw [count_blockDemands fun name => by simp]
  induction blockPostorder stmts with
  | nil => rfl
  | cons e es ih => rw [List.flatMap_cons, List.count_append, ih, hown, List.countP_cons, Nat.add_comm]

/-- The number of different names depends on which names there are only. -/
private theorem length_eraseDups_congr {α : Type} [DecidableEq α] {xs ys : List α}
    (h : ∀ x, x ∈ xs ↔ x ∈ ys) : xs.eraseDups.length = ys.eraseDups.length := by
  refine ((List.perm_ext_iff_of_nodup (nodup_eraseDups xs) (nodup_eraseDups ys)).mpr ?_).length_eq
  intro x
  rw [List.mem_eraseDups, List.mem_eraseDups, h]

private theorem mem_classNames {ds : List Demand} {c : String} :
    c ∈ classNames ds ↔ .className c ∈ ds := by
  have hview (d : Demand) : d.className? = some c ↔ d = .className c := by
    cases d <;> simp [Demand.className?]
  simp [classNames, hview]

private theorem mem_introduced {ds : List Demand} {x : String} :
    x ∈ introduced ds ↔ .introduce x ∈ ds := by
  have hview (d : Demand) : d.introduced? = some x ↔ d = .introduce x := by
    cases d <;> simp [Demand.introduced?]
  simp [introduced, hview]

private theorem length_classNames (stmts : List Stmt) :
    (classNames (blockDemands stmts)).eraseDups.length
      = ((blockPostorder stmts).filterMap Expr.className?).eraseDups.length := by
  apply length_eraseDups_congr
  intro c
  rw [mem_classNames, className_mem_iff, List.mem_filterMap]

private theorem mem_poolOf {cs : List Const} {c : Const} : c ∈ poolOf cs ↔ c ∈ cs := by
  induction cs using List.reverseRecOn with
  | nil => rfl
  | append_singleton cs x ih =>
    rw [poolOf_snoc, pooled, List.mem_append, List.mem_singleton, ← ih]
    split
    · rename_i hx
      exact ⟨.inl, fun h => h.elim id fun hc => hc ▸ hx.2⟩
    · simp

private theorem length_poolOf (cs : List Const) : (poolOf cs).length = entriesNeeded cs := by
  induction cs using List.reverseRecOn with
  | nil => rfl
  | append_singleton cs c ih =>
    rw [entriesNeeded] at ih
    simp only [poolOf_snoc, pooled, mem_poolOf, entriesNeeded, List.filter_append, List.countP_append]
    by_cases hshared : c.isShared = true
    · by_cases hmem : c ∈ cs <;> simp [hshared, hmem, eraseDups_snoc, ih]; omega
    · simp [hshared, ih]
      omega

/-- There is room for all these demands, and variables are introduced before they are used. -/
@[mk_iff]
structure Feasible (ds : List Demand) : Prop where
  elements : ∀ n, .elements n ∈ ds → n ≤ 65535
  arguments : ∀ n, .arguments n ∈ ds → n ≤ 255
  pool : (poolOf (literals ds)).length ≤ 4294967296
  classes : (classNames ds).eraseDups.length ≤ 65536
  sites : ds.count .site ≤ 65536
  locals : (introduced ds).eraseDups.length ≤ 255
  introduced : ∀ before name after, ds = before ++ .use name :: after → .introduce name ∈ before

private theorem length_eraseDups_snoc_le {xs : List String} {x : String} {bound : Nat} :
    (xs ++ [x]).eraseDups.length ≤ bound
      ↔ xs.eraseDups.length ≤ bound ∧ (x ∈ xs ∨ xs.eraseDups.length < bound) := by
  rw [eraseDups_snoc]
  split
  · rename_i h
    simp [h]
  · rename_i h
    simp only [h, false_or, List.length_append, List.length_singleton]
    omega

private theorem length_pooled_le {pool : List Const} {c : Const} {bound : Nat} :
    (pooled pool c).length ≤ bound
      ↔ pool.length ≤ bound ∧ (c.isShared ∧ c ∈ pool ∨ pool.length < bound) := by
  rw [pooled]
  split
  · rename_i h
    simp [h]
  · rename_i h
    simp only [h, false_or, List.length_append, List.length_singleton]
    omega

/-- A variable that is used last has to be among the ones introduced. -/
private theorem introduced_snoc_iff {ds : List Demand} {d : Demand} :
    (∀ before name after, ds ++ [d] = before ++ .use name :: after → .introduce name ∈ before)
      ↔ (∀ before name after, ds = before ++ .use name :: after → .introduce name ∈ before)
        ∧ ∀ name, d = .use name → .introduce name ∈ ds := by
  constructor
  · intro h
    refine ⟨fun before name after hds => h before name (after ++ [d]) (by simp [hds]), ?_⟩
    rintro name rfl
    exact h ds name [] rfl
  · rintro ⟨hearlier, hlast⟩ before name after hds
    rcases List.eq_nil_or_concat after with rfl | ⟨rest, x, rfl⟩
    · obtain ⟨rfl, hd⟩ := List.append_inj' hds rfl
      exact hlast name (List.singleton_inj.mp hd)
    · rw [List.concat_eq_append, ← List.cons_append, ← List.append_assoc] at hds
      exact hearlier before name rest (List.append_inj' hds rfl).1

/-- One more demand is feasible if it has no fault behind the others. -/
private theorem feasible_snoc {ds : List Demand} {d : Demand} :
    Feasible (ds ++ [d]) ↔ Feasible ds ∧ d.fault? ds = none := by
  rw [feasible_iff, feasible_iff, introduced_snoc_iff]
  cases d with
  | elements n | arguments n =>
    simp [Demand.fault?, Demand.literal?, Demand.className?, Demand.introduced?, or_imp, forall_and]
    tauto
  | literal c =>
    simp [Demand.fault?, Demand.literal?, Demand.className?, Demand.introduced?, poolOf_snoc,
      length_pooled_le]
    tauto
  | className name | introduce name =>
    simp [Demand.fault?, Demand.literal?, Demand.className?, Demand.introduced?,
      length_eraseDups_snoc_le]
    tauto
  | site =>
    have hcount : ds.count .site + 1 ≤ 65536
        ↔ ds.count .site ≤ 65536 ∧ ds.count .site < 65536 := by omega
    simp [Demand.fault?, Demand.literal?, Demand.className?, Demand.introduced?, hcount]
    tauto
  | use name =>
    simp [Demand.fault?, Demand.literal?, Demand.className?, Demand.introduced?, mem_introduced]
    tauto

private theorem firstFault?_eq_none_iff {ds : List Demand} :
    firstFault? [] ds = none ↔ Feasible ds := by
  induction ds using List.reverseRecOn with
  | nil =>
    have hempty : Feasible [] :=
      ⟨by simp, by simp, by decide, by decide, by decide, by decide, by simp⟩
    exact ⟨fun _ => hempty, fun _ => rfl⟩
  | append_singleton ds d ih =>
    rw [firstFault?_append, List.nil_append, firstFault?_singleton, Option.or_eq_none_iff, ih,
      feasible_snoc]

private theorem feasible_iff_acceptable {stmts : List Stmt}
    (hpool : entriesNeeded (literals (blockDemands stmts)) ≤ 4294967296) :
    Feasible (blockDemands stmts) ↔ Acceptable stmts := by
  constructor
  · intro h
    exact {
      elements := fun e he n hn => h.elements n (elements_mem_iff.mpr ⟨e, he, hn⟩)
      arguments := fun e he n hn => h.arguments n (arguments_mem_iff.mpr ⟨e, he, hn⟩)
      invocations := by rw [← count_site]; exact h.sites
      classes := by rw [← length_classNames]; exact h.classes
      locals := by rw [← introduced_block]; exact h.locals
      introduced := h.introduced }
  · intro h
    refine {
      elements := fun n hn => ?_
      arguments := fun n hn => ?_
      pool := by rwa [length_poolOf]
      classes := by rw [length_classNames]; exact h.classes
      sites := by rw [count_site]; exact h.invocations
      locals := by rw [introduced_block]; exact h.locals
      introduced := h.introduced }
    · obtain ⟨e, he, hcount⟩ := elements_mem_iff.mp hn
      exact h.elements e he n hcount
    · obtain ⟨e, he, hcount⟩ := arguments_mem_iff.mp hn
      exact h.arguments e he n hcount

/-- No fault up to the end of a list is no fault at any of its places. -/
private theorem firstFault?_eq_none_iff_forall {ds : List Demand} :
    firstFault? [] ds = none
      ↔ ∀ earlier d later, ds = earlier ++ d :: later → d.fault? earlier = none := by
  constructor
  · rintro h earlier d later rfl
    rw [firstFault?_append, Option.or_eq_none_iff, firstFault?, Option.or_eq_none_iff] at h
    simpa using h.2.1
  · intro h
    rcases hfault : firstFault? [] ds with _ | e
    · rfl
    · obtain ⟨done, d, rest, hds, -, hd⟩ := firstFault?_eq_some_iff.mp hfault
      rw [List.nil_append, h done d rest hds] at hd
      cases hd

private theorem firstViolation_iff {stmts : List Stmt} {e : CompileError} :
    FirstViolation stmts e ↔ firstFault? [] (blockDemands stmts) = some e := by
  simp only [FirstViolation, ← firstFault?_eq_none_iff_forall, firstFault?_eq_some_iff,
    List.nil_append]

/-- A program whose literals fit into the pool compiles exactly if it is acceptable. The result has a
local for each name and the classes in the order in which they are first named; a program that is not
acceptable is refused for what is missing first. -/
theorem compile_accepts_acceptable (owner : String) (stmts : List Stmt)
    (hpool : entriesNeeded (literals (blockDemands stmts)) ≤ 4294967296) :
    ((∃ p, compile owner stmts = .ok p) ↔ Acceptable stmts)
      ∧ (∀ p, compile owner stmts = .ok p → p.locals = (declaredIn stmts).eraseDups.length
        ∧ p.classes.toList = (classNames (blockDemands stmts)).eraseDups)
      ∧ ∀ e, compile owner stmts = .error e ↔ FirstViolation stmts e := by
  refine ⟨?_, fun p hp => ?_, fun e => ?_⟩
  · rw [exists_compile_eq_ok_iff, firstFault?_eq_none_iff, feasible_iff_acceptable hpool]
  · have hsupplies := (compile_eq_ok hp).2
    exact ⟨by rw [hsupplies.locals, introduced_block], hsupplies.classes⟩
  · rw [compile_eq_error_iff, firstViolation_iff]

/-- A variable in its own initial value, in front of one that nobody introduces. -/
def circular : List Stmt :=
  [.declare "list" (.list [.int 1, .construct "Box" []]),
    .cond (.var "list") [.declare "x" (.cast (.var "x") "List")] [.assign "y" (.var "list")],
    .ret (.callStatic "Box" "count" [.classLiteral "List"])]

theorem compile_accepts_acceptable_circular :
    FirstViolation circular (.unknownLocal "x") ∧ ¬Acceptable circular
      ∧ Acceptable (circular.eraseIdx 1) := by
  obtain ⟨hiff, -, hviolation⟩ := compile_accepts_acceptable "Main" circular (by decide +kernel)
  obtain ⟨hiff', -⟩ := compile_accepts_acceptable "Main" (circular.eraseIdx 1) (by decide +kernel)
  have herror : compile "Main" circular = .error (.unknownLocal "x") :=
    compile_eq_error_iff.mpr (by decide +kernel)
  refine ⟨(hviolation _).mp herror, fun h => ?_, hiff'.mp ?_⟩
  · obtain ⟨p, hp⟩ := hiff.mpr h
    rw [herror] at hp
    cases hp
  · exact exists_compile_eq_ok_iff.mpr (by decide +kernel)

end CachedDispatch.Lang
