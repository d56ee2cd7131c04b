import CachedDispatch.Proofs.Emission
import CachedDispatch.Proofs.Listing

/-!
Call sites in the order of the code. The invocations of a program, each behind its own operands, are
its call sites one by one, and the code goes through them in the same order, each once.
-/
namespace CachedDispatch

namespace Instr

/-- The call site that an invocation goes through. -/
def slot? : Instr → Option UInt16
  | invoke _ slot _ => some slot
  | getProp _ slot => some slot
  | _ => none

def isInvocation (i : Instr) : Bool := i.opcode.siteKind?.isSome

end Instr

namespace Lang

/-- What an invocation asks its call site for. -/
def Expr.site? : Expr → Option (String × SiteKind)
  | .call _ name _ _ => some (name, .call)
  | .callCurrent name _ => some (name, .callCurrent)
  | .callStatic _ name _ => some (name, .callStatic)
  | .construct _ _ => some (Method.constructorName, .callConstructor)
  | .property _ name _ => some (name, .getProperty)
  | .binary op _ _ => some (op.methodName, .call)
  | .neg _ => some ("negative", .call)
  | _ => none

mutual

/-- All parts of an expression, each behind its own parts, and the expression itself last. -/
def Expr.postorder : Expr → List Expr
  | .list items => allPostorder items ++ [.list items]
  | .map entries => entriesPostorder entries ++ [.map entries]
  | .range first last => first.postorder ++ last.postorder ++ [.range first last]
  | .cast value name => value.postorder ++ [.cast value name]
  | .call receiver name args safe =>
    receiver.postorder ++ allPostorder args ++ [.call receiver name args safe]
  | .callCurrent name args => allPostorder args ++ [.callCurrent name args]
  | .callStatic className name args => allPostorder args ++ [.callStatic className name args]
  | .construct className args => allPostorder args ++ [.construct className args]
  | .property receiver name safe => receiver.postorder ++ [.property receiver name safe]
  | .binary op left right => left.postorder ++ right.postorder ++ [.binary op left right]
  | .neg value => value.postorder ++ [.neg value]
  | .not value => value.postorder ++ [.not value]
  | e => [e]

def allPostorder : List Expr → List Expr
  | [] => []
  | e :: es => e.postorder ++ allPostorder es

def entriesPostorder : List (String × Expr) → List Expr
  | [] => []
  | (_, e) :: es => e.postorder ++ entriesPostorder es

end

mutual

/-- All expressions of a statement in the order of the text. -/
def Stmt.postorder : Stmt → List Expr
  | .declare _ value | .assign _ value | .expr value | .ret value => value.postorder
  | .cond condition thenBranch elseBranch =>
    condition.postorder ++ blockPostorder thenBranch ++ blockPostorder elseBranch
  | .loop condition body => condition.postorder ++ blockPostorder body

def blockPostorder : List Stmt → List Expr
  | [] => []
  | s :: ss => s.postorder ++ blockPostorder ss

end

mutual

private theorem sites_eq_postorder : (e : Expr) → e.sites = e.postorder.filterMap Expr.site?
  | .null | .bool _ | .int _ | .float _ | .text _ | .var _ | .this | .classLiteral _ => rfl
  | .list items => by simp [Expr.sites, Expr.postorder, Expr.site?, allSites_eq_postorder items]
  | .map entries => by simp [Expr.sites, Expr.postorder, Expr.site?, entrySites_eq_postorder entries]
  | .range first last => by
    simp [Expr.sites, Expr.postorder, Expr.site?, sites_eq_postorder first, sites_eq_postorder last]
  | .cast value _ | .not value => by
    simp [Expr.sites, Expr.postorder, Expr.site?, sites_eq_postorder value]
  | .call receiver _ args _ => by
    simp [Expr.sites, Expr.postorder, Expr.site?, sites_eq_postorder receiver,
      allSites_eq_postorder args]
  | .callCurrent _ args | .callStatic _ _ args | .construct _ args => by
    simp [Expr.sites, Expr.postorder, Expr.site?, allSites_eq_postorder args]
  | .property receiver _ _ => by
    simp [Expr.sites, Expr.postorder, Expr.site?, sites_eq_postorder receiver]
  | .binary _ left right => by
    simp [Expr.sites, Expr.postorder, Expr.site?, sites_eq_postorder left, sites_eq_postorder right]
  | .neg value => by simp [Expr.sites, Expr.postorder, Expr.site?, sites_eq_postorder value]

private theorem allSites_eq_postorder :
    (es : List Expr) → allSites es = (allPostorder es).filterMap Expr.site?
  | [] => rfl
  | e :: es => by simp [allSites, allPostorder, sites_eq_postorder e, allSites_eq_postorder es]

private theorem entrySites_eq_postorder :
    (es : List (String × Expr)) → entrySites es = (entriesPostorder es).filterMap Expr.site?
  | [] => rfl
  | (_, e) :: es => by
    simp [entrySites, entriesPostorder, sites_eq_postorder e, entrySites_eq_postorder es]

end

mutual

private theorem stmtSites_eq_postorder : (s : Stmt) → s.sites = s.postorder.filterMap Expr.site?
  | .declare _ value | .assign _ value | .expr value | .ret value => sites_eq_postorder value
  | .cond condition thenBranch elseBranch => by
    simp [Stmt.sites, Stmt.postorder, sites_eq_postorder condition,
      blockSites_eq_postorder thenBranch, blockSites_eq_postorder elseBranch]
  | .loop condition body => by
    simp [Stmt.sites, Stmt.postorder, sites_eq_postorder condition, blockSites_eq_postorder body]

private theorem blockSites_eq_postorder :
    (ss : List Stmt) → blockSites ss = (blockPostorder ss).filterMap Expr.site?
  | [] => rfl
  | s :: ss => by
    simp [blockSites, blockPostorder, stmtSites_eq_postorder s, blockSites_eq_postorder ss]

end

/-- The call site that an instruction goes through, if it is an invocation, and for which kind. -/
private def visit? (i : Instr) : Option (Nat × SiteKind) :=
  i.slot?.bind fun slot => i.opcode.siteKind?.map (slot.toNat, ·)

/-- The invocations in the code go through these call sites, numbered from `n`. -/
private def Numbered (n : Nat) (sites : List (String × SiteKind)) (code : List Instr) : Prop :=
  code.filterMap visit? = (sites.zipIdx n).map fun e => (e.2, e.1.2)

namespace Numbered

variable {n : Nat} {sites sites' : List (String × SiteKind)} {code code' : List Instr}

private theorem append (h : Numbered n sites code) (h' : Numbered (n + sites.length) sites' code') :
    Numbered n (sites ++ sites') (code ++ code') := by
  unfold Numbered at h h' ⊢
  rw [List.filterMap_append, h, h', List.zipIdx_append, List.map_append]

/-- Code with one more instruction that is no invocation. -/
private theorem snoc (h : Numbered n sites code) {i : Instr} (hi : visit? i = none) :
    Numbered n sites (code ++ [i]) := by
  have hsilent : Numbered (n + sites.length) [] [i] := by simp [Numbered, hi]
  simpa using h.append hsilent

/-- Code with one more invocation. -/
private theorem visit (h : Numbered n sites code) {i : Instr} {name : String} {kind : SiteKind}
    (hi : visit? i = some (n + sites.length, kind)) :
    Numbered n (sites ++ [(name, kind)]) (code ++ [i]) :=
  h.append (by simp [Numbered, hi])

end Numbered

private theorem visit?_invoke (op : InvokeOp) (slot : UInt16) (argc : UInt8) :
    visit? (.invoke op slot argc) = some (slot.toNat, op.siteKind) := by cases op <;> rfl

private theorem visit?_getProp (safe : Bool) (slot : UInt16) :
    visit? (.getProp safe slot) = some (slot.toNat, .getProperty) := by cases safe <;> rfl

private theorem Numbered.invoke {n : Nat} {sites : List (String × SiteKind)} {code : List Instr}
    (h : Numbered n sites code) {op : InvokeOp} {slot : UInt16} {argc : UInt8} {name : String}
    {kind : SiteKind} (hkind : op.siteKind = kind) (hslot : slot.toNat = n + sites.length) :
    Numbered n (sites ++ [(name, kind)]) (code ++ [.invoke op slot argc]) :=
  h.visit (by rw [visit?_invoke, hkind, hslot])

private theorem numbered_load {t : Tables} {c : Const} {n : Nat} {code : List Instr}
    (h : t.Loads c code) : Numbered n [] code := by
  obtain ⟨i, -, rfl⟩ := h
  rfl

mutual

private theorem numbered_expr {t : Tables} {n : Nat} : (e : Expr) → {code : List Instr} →
    e.Emits t n code → Numbered n e.sites code
  | .null, _, h | .this, _, h => by
    cases h
    rfl
  | .bool _, _, h | .int _, _, h | .float _, _, h | .text _, _, h => numbered_load h
  | .var _, _, h | .classLiteral _, _, h => by
    obtain ⟨i, -, rfl⟩ := h
    rfl
  | .list items, _, h => by
    obtain ⟨is, k, his, -, rfl⟩ := h
    exact (numbered_exprs items his).snoc rfl
  | .map entries, _, h => by
    obtain ⟨is, k, his, -, rfl⟩ := h
    exact (numbered_entries entries his).snoc rfl
  | .range first last, _, h => by
    obtain ⟨is, js, his, hjs, rfl⟩ := h
    exact ((numbered_expr first his).append (numbered_expr last hjs)).snoc rfl
  | .cast value _, _, h => by
    obtain ⟨is, i, his, -, rfl⟩ := h
    exact (numbered_expr value his).snoc rfl
  | .call receiver name args safe, _, h => by
    obtain ⟨is, js, slot, argc, his, hjs, hslot, -, rfl⟩ := h
    refine ((numbered_expr receiver his).append (numbered_exprs args hjs)).invoke ?_ ?_
    · cases safe <;> rfl
    · rw [hslot.1, List.length_append, Nat.add_assoc]
  | .callCurrent name args, _, h => by
    obtain ⟨is, slot, argc, his, hslot, -, rfl⟩ := h
    have hload : Numbered n [] [.ldthis] := rfl
    exact (hload.append (numbered_exprs args his)).invoke rfl hslot.1
  | .callStatic _ name args, _, h => by
    obtain ⟨i, is, slot, argc, -, his, hslot, -, rfl⟩ := h
    have hload : Numbered n [] [.ldclass i] := rfl
    exact (hload.append (numbered_exprs args his)).invoke rfl hslot.1
  | .construct _ args, _, h => by
    obtain ⟨i, is, slot, argc, -, his, hslot, -, rfl⟩ := h
    have hload : Numbered n [] [.ldclass i] := rfl
    exact (hload.append (numbered_exprs args his)).invoke rfl hslot.1
  | .property receiver name safe, _, h => by
    obtain ⟨is, slot, his, hslot, rfl⟩ := h
    refine (numbered_expr receiver his).visit ?_
    rw [visit?_getProp, hslot.1]
  | .binary op left right, _, h => by
    obtain ⟨is, js, slot, his, hjs, hslot, rfl⟩ := h
    refine ((numbered_expr left his).append (numbered_expr right hjs)).invoke rfl ?_
    rw [hslot.1, List.length_append, Nat.add_assoc]
  | .neg value, _, h => by
    obtain ⟨is, slot, his, hslot, rfl⟩ := h
    exact (numbered_expr value his).invoke rfl hslot.1
  | .not value, _, h => by
    obtain ⟨is, his, rfl⟩ := h
    exact (numbered_expr value his).snoc rfl

private theorem numbered_exprs {t : Tables} {n : Nat} : (es : List Expr) → {code : List Instr} →
    AllEmit t n es code → Numbered n (allSites es) code
  | [], _, h => by
    cases h
    rfl
  | e :: es, _, h => by
    obtain ⟨is, js, his, hjs, rfl⟩ := h
    exact (numbered_expr e his).append (numbered_exprs es hjs)

private theorem numbered_entries {t : Tables} {n : Nat} : (es : List (String × Expr)) →
    {code : List Instr} → EntriesEmit t n es code → Numbered n (entrySites es) code
  | [], _, h => by
    cases h
    rfl
  | (_, e) :: es, _, h => by
    obtain ⟨load, is, js, hload, his, hjs, rfl⟩ := h
    exact ((numbered_load hload).append (numbered_expr e his)).append (numbered_entries es hjs)

end

mutual

private theorem numbered_stmt {t : Tables} {n pos : Nat} : (s : Stmt) → {code : List Instr} →
    s.Emits t n pos code → Numbered n s.sites code
  | .declare _ value, _, h | .assign _ value, _, h => by
    obtain ⟨is, i, his, -, rfl⟩ := h
    exact (numbered_expr value his).snoc rfl
  | .expr value, _, h | .ret value, _, h => by
    obtain ⟨is, his, rfl⟩ := h
    exact (numbered_expr value his).snoc rfl
  | .cond condition thenBranch elseBranch, _, h => by
    obtain ⟨test, is, js, thenPos, elsePos, htest, -, his, -, hjs, rfl⟩ := h
    refine ((((numbered_expr condition htest).snoc rfl).append
      (numbered_block thenBranch his)).snoc rfl).append ?_
    rw [List.length_append, ← Nat.add_assoc]
    exact numbered_block elseBranch hjs
  | .loop condition body, _, h => by
    obtain ⟨test, is, bodyPos, htest, -, his, rfl⟩ := h
    exact (((numbered_expr condition htest).snoc rfl).append (numbered_block body his)).snoc rfl

private theorem numbered_block {t : Tables} {n pos : Nat} : (ss : List Stmt) → {code : List Instr} →
    BlockEmits t n pos ss code → Numbered n (blockSites ss) code
  | [], _, h => by
    cases h
    rfl
  | s :: ss, _, h => by
    obtain ⟨is, js, his, hjs, rfl⟩ := h
    exact (numbered_stmt s his).append (numbered_block ss hjs)

end

/-- An instruction's slot and the kind of its call site are what it visits. -/
private theorem visit?_cases (i : Instr) : i.isInvocation = (visit? i).isSome
    ∧ i.slot?.map UInt16.toNat = (visit? i).map Prod.fst
    ∧ i.opcode.siteKind? = (visit? i).map Prod.snd := by
  cases i with
  | invoke op slot argc => cases op <;> exact ⟨rfl, rfl, rfl⟩
  | getProp safe slot => cases safe <;> exact ⟨rfl, rfl, rfl⟩
  | _ => exact ⟨rfl, rfl, rfl⟩

/-- What can be read off the instructions can be read off the invocations in the code. -/
private theorem map_filter_isInvocation {α : Type} {read : Instr → Option α} {view : Nat × SiteKind → α}
    (h : ∀ i, read i = (visit? i).map view) (code : List Instr) :
    (code.filter Instr.isInvocation).map read = (code.filterMap visit?).map (some ∘ view) := by
  induction code with
  | nil => rfl
  | cons i code ih =>
    have hi := (visit?_cases i).1
    have hread := h i
    rcases hv : visit? i with _ | e <;> rw [hv] at hi hread
    · rw [List.filter_cons_of_neg (by simp [hi]), List.filterMap_cons_none hv, ih]
    · rw [List.filter_cons_of_pos (by simp [hi]), List.filterMap_cons_some hv, List.map_cons,
        List.map_cons, ih, hread]
      rfl

/-- The call sites of a compiled program are the invocations of its source, each behind its own
operands, and its code, read from one end to the other, goes through them in this order, each once
and by an instruction of its kind. -/
theorem sites_in_order_of_code {owner : String} {stmts : List Stmt} {p : Program}
    (h : compile owner stmts = .ok p) :
    p.manifest.isDense = true
      ∧ p.manifest.size = (blockPostorder stmts).countP (·.site?.isSome)
      ∧ p.manifest.sites.toList.map (fun d => (d.name, d.kind))
          = (blockPostorder stmts).filterMap Expr.site?
      ∧ ∃ lines, listing p.code = .ok lines
        ∧ ((lines.map Prod.snd).filter Instr.isInvocation).map (fun i => i.slot?.map UInt16.toNat)
            = (List.range p.manifest.size).map some
        ∧ ((lines.map Prod.snd).filter Instr.isInvocation).map (fun i => i.opcode.siteKind?)
            = p.manifest.sites.toList.map fun d => some d.kind := by
  obtain ⟨t, hc⟩ := exists_compiled h
  obtain ⟨is, his, hbytes⟩ := hc.code
  have hsites : blockSites stmts = p.manifest.sites.toList.map fun d => (d.name, d.kind) := by
    rw [hc.manifest, ← hc.sites]
    rfl
  have hsize : (blockSites stmts).length = p.manifest.size := by
    rw [hsites, List.length_map, Manifest.size, Array.length_toList]
  have hnumbered : Numbered 0 (blockSites stmts) (is ++ [.ldnull, .ret]) := by
    have hend (n : Nat) : Numbered n [] [.ldnull, .ret] := rfl
    simpa using (numbered_block stmts his).append (hend _)
  refine ⟨hc.manifest ▸ hc.bounded.dense, ?_, ?_, _, listing_of_toList hbytes, ?_, ?_⟩
  · rw [← hsize, blockSites_eq_postorder, List.length_filterMap_eq_countP]
  · rw [← hsites, blockSites_eq_postorder]
  · rw [map_snd_placed, map_filter_isInvocation fun i => (visit?_cases i).2.1, hnumbered, List.map_map]
    change ((blockSites stmts).zipIdx).map (some ∘ Prod.snd) = _
    rw [← List.map_map, List.zipIdx_map_snd, hsize, List.range_eq_range']
  · rw [map_snd_placed, map_filter_isInvocation fun i => (visit?_cases i).2.2, hnumbered, List.map_map]
    change ((blockSites stmts).zipIdx).map ((fun s : String × SiteKind => some s.2) ∘ Prod.fst) = _
    rw [← List.map_map, List.zipIdx_map_fst, hsites, List.map_map]
    rfl

/-- Invocations among the operands of invocations, in a loop. -/
def nested : List Stmt :=
  [.loop (.property .this "open" true)
      [.expr (.call (.neg (.int 1)) "put" [.binary .add (.callCurrent "next" []) (.construct "Box" [])]
        true)],
    .ret (.callStatic "Box" "count" [])]

theorem sites_in_order_of_code_nested : ∃ p, compile "Main" nested = .ok p
    ∧ p.manifest.sites.toList.map (fun d => (d.name, d.kind))
      = [("open", .getProperty), ("negative", .call), ("next", .callCurrent), ("<init>", .callConstructor),
        ("plus", .call), ("put", .call), ("count", .callStatic)]
    ∧ ∃ lines, listing p.code = .ok lines
      ∧ ((lines.map Prod.snd).filter Instr.isInvocation).map (fun i => i.slot?.map UInt16.toNat)
          = [some 0, some 1, some 2, some 3, some 4, some 5, some 6] := by
  have hok : (compile "Main" nested).toBool = true := by decide +kernel
  rcases hp : compile "Main" nested with e | p
  · rw [hp] at hok
    cases hok
  · obtain ⟨-, hsize, hsites, lines, hlines, hslots, -⟩ := sites_in_order_of_code hp
    have hseven : p.manifest.size = 7 := hsize.trans (by decide +kernel)
    rw [hseven] at hslots
    exact ⟨p, rfl, hsites.trans (by decide +kernel), lines, hlines, hslots⟩

end Lang

end CachedDispatch
