import CachedDispatch.Proofs.Numbering
import Mathlib.Data.List.Nodup
import Mathlib.Data.List.Perm.Basic

/-!
What a program asks of the compiler, in the order of its text: room for its literals, numbers for its
names, call sites. The compiler fails at the first demand that the ones before it leave no room for,
and otherwise its tables hold what was asked for and nothing else.
-/
namespace CachedDispatch

/-- The constant that an instruction loads, by its number. -/
def Instr.load? : Instr → Option Nat
  | ldc i => some i.toNat
  | _ => none

namespace Lang

/-- One thing that a program asks of the compiler. -/
inductive Demand
  | elements (count : Nat)
  | arguments (count : Nat)
  | literal (c : Const)
  | className (name : String)
  | site
  | introduce (name : String)
  | use (name : String)
deriving DecidableEq

namespace Demand

def literal? : Demand → Option Const
  | literal c => some c
  | _ => none

def className? : Demand → Option String
  | className name => some name
  | _ => none

def introduced? : Demand → Option String
  | introduce name => some name
  | _ => none

end Demand

def literals (ds : List Demand) : List Const := ds.filterMap Demand.literal?

def classNames (ds : List Demand) : List String := ds.filterMap Demand.className?

def introduced (ds : List Demand) : List String := ds.filterMap Demand.introduced?

@[simp] theorem literals_append (ds ds' : List Demand) :
    literals (ds ++ ds') = literals ds ++ literals ds' := List.filterMap_append

@[simp] theorem classNames_append (ds ds' : List Demand) :
    classNames (ds ++ ds') = classNames ds ++ classNames ds' := List.filterMap_append

@[simp] theorem introduced_append (ds ds' : List Demand) :
    introduced (ds ++ ds') = introduced ds ++ introduced ds' := List.filterMap_append

@[simp] theorem literals_nil : literals [] = [] := rfl

@[simp] theorem literals_cons (d : Demand) (ds : List Demand) :
    literals (d :: ds) = d.literal?.toList ++ literals ds := by
  cases d <;> rfl

@[simp] theorem classNames_nil : classNames [] = [] := rfl

@[simp] theorem classNames_cons (d : Demand) (ds : List Demand) :
    classNames (d :: ds) = d.className?.toList ++ classNames ds := by
  cases d <;> rfl

@[simp] theorem introduced_nil : introduced [] = [] := rfl

@[simp] theorem introduced_cons (d : Demand) (ds : List Demand) :
    introduced (d :: ds) = d.introduced?.toList ++ introduced ds := by
  cases d <;> rfl

mutual

/-- The demands of an expression. A literal asks for its length before its elements, a call for its
class before its arguments and for its call site behind them. -/
def Expr.demands : Expr → List Demand
  | .null | .this => []
  | .bool b => [.literal (.bool b)]
  | .int n => [.literal (.int n)]
  | .float x => [.literal (.float x)]
  | .text s => [.literal (.text s)]
  | .var name => [.use name]
  | .classLiteral name => [.className name]
  | .list items => [.elements items.length] ++ allDemands items
  | .map entries => [.elements entries.length] ++ entryDemands entries
  | .range first last => first.demands ++ last.demands
  | .cast value name => value.demands ++ [.className name]
  | .call receiver _ args _ => receiver.demands ++ [.arguments args.length] ++ allDemands args ++ [.site]
  | .callCurrent _ args => [.arguments args.length] ++ allDemands args ++ [.site]
  | .callStatic name _ args | .construct name args =>
    [.className name, .arguments args.length] ++ allDemands args ++ [.site]
  | .property receiver _ _ => receiver.demands ++ [.site]
  | .binary _ left right => left.demands ++ right.demands ++ [.site]
  | .neg value => value.demands ++ [.site]
  | .not value => value.demands

def allDemands : List Expr → List Demand
  | [] => []
  | e :: es => e.demands ++ allDemands es

/-- A key is a literal in front of its value. -/
def entryDemands : List (String × Expr) → List Demand
  | [] => []
  | (key, e) :: es => [.literal (.text key)] ++ e.demands ++ entryDemands es

end

mutual

/-- The demands of a statement. A variable is introduced behind its initial value. -/
def Stmt.demands : Stmt → List Demand
  | .declare name value => value.demands ++ [.introduce name]
  | .assign name value => value.demands ++ [.use name]
  | .expr value | .ret value => value.demands
  | .cond condition thenBranch elseBranch =>
    condition.demands ++ blockDemands thenBranch ++ blockDemands elseBranch
  | .loop condition body => condition.demands ++ blockDemands body

def blockDemands : List Stmt → List Demand
  | [] => []
  | s :: ss => s.demands ++ blockDemands ss

end

/-- The pool after one more literal: equal numbers and texts share an entry. -/
def pooled (pool : List Const) (c : Const) : List Const :=
  if c.isShared ∧ c ∈ pool then pool else pool ++ [c]

/-- The pool of these literals. -/
def poolOf (cs : List Const) : List Const := cs.foldl pooled []

/-- The entry that a literal gets behind the ones in the pool. -/
def place (pool : List Const) (c : Const) : Nat :=
  if c.isShared then pool.idxOf c else pool.length

/-- The entries that literals get one after another. -/
def placesAfter (pool : List Const) : List Const → List Nat
  | [] => []
  | c :: cs => place pool c :: placesAfter (pooled pool c) cs

private theorem poolOf_append (cs cs' : List Const) :
    poolOf (cs ++ cs') = cs'.foldl pooled (poolOf cs) :=
  List.foldl_append ..

theorem poolOf_snoc (cs : List Const) (c : Const) : poolOf (cs ++ [c]) = pooled (poolOf cs) c :=
  poolOf_append cs [c]

private theorem placesAfter_append (pool : List Const) (cs cs' : List Const) :
    placesAfter pool (cs ++ cs') = placesAfter pool cs ++ placesAfter (cs.foldl pooled pool) cs' := by
  induction cs generalizing pool with
  | nil => rfl
  | cons c cs ih => simp [placesAfter, ih]

/-- Why a demand cannot be met behind the ones before it. -/
def Demand.fault? (before : List Demand) : Demand → Option CompileError
  | elements count => if count ≤ 65535 then none else some (.tooManyElements count)
  | arguments count => if count ≤ 255 then none else some (.tooManyArguments count)
  | literal c =>
    if c.isShared ∧ c ∈ poolOf (literals before) ∨ (poolOf (literals before)).length < 4294967296
    then none else some .tooManyConstants
  | className name =>
    if name ∈ classNames before ∨ (classNames before).eraseDups.length < 65536
    then none else some .tooManyClasses
  | site => if before.count site < 65536 then none else some .tooManyCallSites
  | introduce name =>
    if name ∈ introduced before ∨ (introduced before).eraseDups.length < 255
    then none else some .tooManyLocals
  | use name => if name ∈ introduced before then none else some (.unknownLocal name)

/-- The fault of the first demand that cannot be met. -/
def firstFault? (before : List Demand) : List Demand → Option CompileError
  | [] => none
  | d :: ds => (d.fault? before).or (firstFault? (before ++ [d]) ds)

theorem firstFault?_append (before ds ds' : List Demand) :
    firstFault? before (ds ++ ds')
      = (firstFault? before ds).or (firstFault? (before ++ ds) ds') := by
  induction ds generalizing before with
  | nil => simp [firstFault?]
  | cons d ds ih => simp [firstFault?, ih, Option.or_assoc]

theorem firstFault?_singleton (before : List Demand) (d : Demand) :
    firstFault? before [d] = d.fault? before := by simp [firstFault?]

theorem firstFault?_eq_some_iff {before ds : List Demand} {e : CompileError} :
    firstFault? before ds = some e ↔ ∃ done d rest, ds = done ++ d :: rest
      ∧ firstFault? before done = none ∧ d.fault? (before ++ done) = some e := by
  constructor
  · intro h
    induction ds generalizing before with
    | nil => cases h
    | cons d ds ih =>
      rcases hd : d.fault? before with _ | e'
      · rw [firstFault?, hd, Option.none_or] at h
        obtain ⟨done, d', rest, rfl, hdone, hd'⟩ := ih h
        refine ⟨d :: done, d', rest, rfl, ?_, ?_⟩
        · rw [firstFault?, hd, Option.none_or, hdone]
        · rwa [List.append_assoc, List.singleton_append] at hd'
      · rw [firstFault?, hd, Option.some_or] at h
        exact ⟨[], d, ds, rfl, rfl, by rw [List.append_nil, hd, h]⟩
  · rintro ⟨done, d, rest, rfl, hdone, hd⟩
    rw [firstFault?_append, hdone, Option.none_or, firstFault?, hd, Option.some_or]

/-- The tables hold what was asked for and nothing else, in the order of asking. -/
private structure Tables.Records (t : Tables) (ds : List Demand) : Prop where
  constants : t.constants.toList = poolOf (literals ds)
  classes : t.classes.names.toList = (classNames ds).eraseDups
  locals : t.locals.names.toList = (introduced ds).eraseDups
  sites : t.manifest.size = ds.count .site
  numbered : t.constants.size ≤ 4294967296

/-- The action meets these demands behind any others and leaves `Q` of what it makes, or it fails
with the fault of the first that cannot be met. -/
private structure Meets {α : Type} (x : Compile α) (ds : List Demand) (Q : List Demand → α → Prop) :
    Prop where
  ok : ∀ {before t a t'}, t.Records before → x.run t = .ok (a, t') →
    firstFault? before ds = none ∧ t'.Records (before ++ ds) ∧ Q before a
  error : ∀ {before t e}, t.Records before → x.run t = .error e → firstFault? before ds = some e

namespace Meets

variable {α β : Type} {x : Compile α} {ds ds' : List Demand} {Q Q' : List Demand → α → Prop}

private theorem pure (a : α) : Meets (pure a) [] fun _ b => b = a where
  ok := by
    intro before t b t' ht h
    obtain ⟨rfl, rfl⟩ := Prod.mk.inj (Except.ok.inj h)
    exact ⟨rfl, by rwa [List.append_nil], rfl⟩
  error := by
    intro before t e _ h
    cases h

private theorem weaken (h : Meets x ds Q) (hQ : ∀ before a, Q before a → Q' before a) :
    Meets x ds Q' where
  ok ht hx := (h.ok ht hx).imp_right fun hq => hq.imp_right (hQ _ _)
  error := h.error

private theorem cast (h : Meets x ds Q) (hds : ds = ds') : Meets x ds' Q := hds ▸ h

private theorem bind {f : α → Compile β} {R : α → List Demand → β → Prop} (hx : Meets x ds Q)
    (hf : ∀ a, Meets (f a) ds' (R a)) :
    Meets (x >>= f) (ds ++ ds') fun before b => ∃ a, Q before a ∧ R a (before ++ ds) b where
  ok := by
    intro before t b t'' ht h
    rcases hrun : x.run t with e | ⟨a, t'⟩ <;> rw [StateT.run_bind, hrun] at h
    · cases h
    · obtain ⟨hnone, hrec, hq⟩ := hx.ok ht hrun
      obtain ⟨hnone', hrec', hr⟩ := (hf a).ok hrec h
      refine ⟨?_, by rwa [← List.append_assoc], a, hq, hr⟩
      rw [firstFault?_append, hnone, Option.none_or, hnone']
  error := by
    intro before t e ht h
    rw [firstFault?_append]
    rcases hrun : x.run t with e' | ⟨a, t'⟩ <;> rw [StateT.run_bind, hrun] at h
    · rw [hx.error ht hrun, Option.some_or]
      exact congrArg some (Except.error.inj h)
    · obtain ⟨hnone, hrec, -⟩ := hx.ok ht hrun
      rw [hnone, Option.none_or]
      exact (hf a).error hrec h

end Meets

/-- An action for one demand. -/
private theorem Meets.of_cases {α : Type} {x : Compile α} {d : Demand} {Q : List Demand → α → Prop}
    (h : ∀ before t, t.Records before →
      (∃ a t', x.run t = .ok (a, t') ∧ d.fault? before = none ∧ t'.Records (before ++ [d])
        ∧ Q before a)
      ∨ ∃ e, x.run t = .error e ∧ d.fault? before = some e) : Meets x [d] Q where
  ok := by
    intro before t a t' ht hrun
    rw [firstFault?_singleton]
    obtain ⟨b, u, hok, hmet⟩ | ⟨e, herror, -⟩ := h before t ht
    · obtain ⟨rfl, rfl⟩ := Prod.mk.inj (Except.ok.inj (hok.symm.trans hrun))
      exact hmet
    · cases herror.symm.trans hrun
  error := by
    intro before t e ht hrun
    rw [firstFault?_singleton]
    obtain ⟨b, u, hok, -⟩ | ⟨e', herror, hfault⟩ := h before t ht
    · cases hok.symm.trans hrun
    · rw [hfault, Except.error.inj (herror.symm.trans hrun)]

theorem eraseDups_snoc {α : Type} [DecidableEq α] (xs : List α) (x : α) :
    (xs ++ [x]).eraseDups = if x ∈ xs then xs.eraseDups else xs.eraseDups ++ [x] := by
  rw [List.eraseDups_append]
  split <;> simp_all [List.removeAll, List.eraseDups_cons]

/-- A table of names either has a name or takes it as its next. -/
private theorem find?_cases {t : NameTable} {xs : List String} (h : t.names.toList = xs.eraseDups)
    (name : String) :
    (name ∈ xs ∧ (xs ++ [name]).eraseDups = xs.eraseDups ∧ ∃ i, t.find? name = some i)
    ∨ (name ∉ xs ∧ t.find? name = none
      ∧ (t.intern name).names.toList = (xs ++ [name]).eraseDups) := by
  rcases hfind : t.find? name with _ | i
  · have hnew : name ∉ xs := by
      rw [← List.mem_eraseDups, ← h]
      exact NameTable.find?_eq_none_iff.mp hfind
    refine .inr ⟨hnew, rfl, ?_⟩
    rw [NameTable.names_intern_of_new hfind, Array.toList_push, h, eraseDups_snoc, if_neg hnew]
  · have hmem : name ∈ xs := by
      rw [← List.mem_eraseDups, ← h]
      exact List.mem_of_getElem? (NameTable.getElem?_of_find? hfind)
    exact .inl ⟨hmem, by rw [eraseDups_snoc, if_pos hmem], i, rfl⟩

private theorem size_of_names {t : NameTable} {xs : List String} (h : t.names.toList = xs.eraseDups) :
    t.size = xs.eraseDups.length := by
  rw [← h, NameTable.size, Array.length_toList]

/-- A demand that needs no entry of any table. -/
private theorem Tables.Records.skip {t : Tables} {before : List Demand} (h : t.Records before)
    {d : Demand} (hl : d.literal? = none) (hc : d.className? = none) (hi : d.introduced? = none)
    (hs : d ≠ .site) : t.Records (before ++ [d]) where
  constants := by simp [hl, h.constants]
  classes := by simp [hc, h.classes]
  locals := by simp [hi, h.locals]
  sites := by simp [hs, h.sites]
  numbered := h.numbered

private theorem meets_elementCount (n : Nat) :
    Meets (elementCount n) [.elements n] fun _ _ => True := by
  apply Meets.of_cases
  intro before t ht
  rw [elementCount, maxElements]
  by_cases hle : n ≤ 65535
  · refine .inl ⟨n.toUInt16, t, by rw [if_pos hle]; rfl, if_pos hle, ?_, trivial⟩
    exact ht.skip rfl rfl rfl (by simp)
  · exact .inr ⟨_, by rw [if_neg hle]; rfl, if_neg hle⟩

private theorem meets_argumentCount (n : Nat) :
    Meets (argumentCount n) [.arguments n] fun _ _ => True := by
  apply Meets.of_cases
  intro before t ht
  rw [argumentCount, maxArguments]
  by_cases hle : n ≤ 255
  · refine .inl ⟨n.toUInt8, t, by rw [if_pos hle]; rfl, if_pos hle, ?_, trivial⟩
    exact ht.skip rfl rfl rfl (by simp)
  · exact .inr ⟨_, by rw [if_neg hle]; rfl, if_neg hle⟩

private theorem meets_callSite (name : String) (kind : SiteKind) :
    Meets (callSite name kind) [.site] fun _ _ => True := by
  apply Meets.of_cases
  intro before t ht
  rw [callSite, Compile.run_get_bind, Manifest.capacity]
  dsimp only
  by_cases hlt : t.manifest.size < 65536
  · refine .inl ⟨_, { t with manifest := t.manifest.push name kind }, by rw [if_pos hlt]; rfl,
      if_pos (by rwa [← ht.sites]), ?_, trivial⟩
    exact { ht with
      constants := by simpa [Demand.literal?] using ht.constants
      classes := by simpa [Demand.className?] using ht.classes
      locals := by simpa [Demand.introduced?] using ht.locals
      sites := by simp [Manifest.size, Manifest.push, ← ht.sites] }
  · exact .inr ⟨.tooManyCallSites, by rw [if_neg hlt]; rfl, if_neg (by rwa [← ht.sites])⟩

private theorem meets_classIndex (name : String) :
    Meets (classIndex name) [.className name] fun _ _ => True := by
  apply Meets.of_cases
  intro before t ht
  rw [classIndex, Compile.run_get_bind]
  dsimp only
  -- The other tables stay, whatever becomes of the classes.
  have hrecords {classes : NameTable}
      (h : classes.names.toList = (classNames before ++ [name]).eraseDups) :
      Tables.Records { t with classes } (before ++ [.className name]) :=
    { constants := by simpa [Demand.literal?] using ht.constants
      classes := by simpa [Demand.className?] using h
      locals := by simpa [Demand.introduced?] using ht.locals
      sites := by simpa using ht.sites
      numbered := ht.numbered }
  obtain ⟨hmem, hsame, i, hi⟩ | ⟨hmem, hnone, hnames⟩ := find?_cases ht.classes name
  · exact .inl ⟨i.toUInt16, t, by rw [hi]; rfl, if_pos (.inl hmem),
      hrecords (ht.classes.trans hsame.symm), trivial⟩
  rw [hnone]
  dsimp only
  by_cases hlt : t.classes.size < 65536
  · refine .inl ⟨_, { t with classes := t.classes.intern name }, by rw [maxClasses, if_pos hlt]; rfl,
      if_pos (.inr ?_), hrecords hnames, trivial⟩
    rwa [← size_of_names ht.classes]
  · refine .inr ⟨.tooManyClasses, by rw [maxClasses, if_neg hlt]; rfl, if_neg (not_or.mpr ⟨hmem, ?_⟩)⟩
    rwa [← size_of_names ht.classes]

private theorem meets_declareLocal (name : String) :
    Meets (declareLocal name) [.introduce name] fun _ _ => True := by
  apply Meets.of_cases
  intro before t ht
  rw [declareLocal, Compile.run_get_bind]
  dsimp only
  have hrecords {locals : NameTable}
      (h : locals.names.toList = (introduced before ++ [name]).eraseDups) :
      Tables.Records { t with locals } (before ++ [.introduce name]) :=
    { constants := by simpa [Demand.literal?] using ht.constants
      classes := by simpa [Demand.className?] using ht.classes
      locals := by simpa [Demand.introduced?] using h
      sites := by simpa using ht.sites
      numbered := ht.numbered }
  obtain ⟨hmem, hsame, i, hi⟩ | ⟨hmem, hnone, hnames⟩ := find?_cases ht.locals name
  · exact .inl ⟨i.toUInt8, t, by rw [hi]; rfl, if_pos (.inl hmem),
      hrecords (ht.locals.trans hsame.symm), trivial⟩
  rw [hnone]
  dsimp only
  by_cases hlt : t.locals.size < 255
  · refine .inl ⟨_, { t with locals := t.locals.intern name }, by rw [maxLocals, if_pos hlt]; rfl,
      if_pos (.inr ?_), hrecords hnames, trivial⟩
    rwa [← size_of_names ht.locals]
  · refine .inr ⟨.tooManyLocals, by rw [maxLocals, if_neg hlt]; rfl, if_neg (not_or.mpr ⟨hmem, ?_⟩)⟩
    rwa [← size_of_names ht.locals]

private theorem meets_localIndex (name : String) :
    Meets (localIndex name) [.use name] fun _ _ => True := by
  apply Meets.of_cases
  intro before t ht
  rw [localIndex, Compile.run_get_bind]
  obtain ⟨hmem, -, i, hi⟩ | ⟨hmem, hnone, -⟩ := find?_cases ht.locals name
  · exact .inl ⟨i.toUInt8, t, by rw [hi]; rfl, if_pos hmem, ht.skip rfl rfl rfl (by simp), trivial⟩
  · exact .inr ⟨.unknownLocal name, by rw [hnone]; rfl, if_neg hmem⟩

/-- The tables of the pool find a constant where it stands first. -/
private theorem find?_pool {pool : ConstantPool} {cs : List Const} (h : pool.constants.toList = cs)
    (c : Const) : pool.find? c = if c.isShared = true ∧ c ∈ cs then some (cs.idxOf c) else none := by
  rw [ConstantPool.find?_eq, h]
  by_cases hshared : c.isShared = true
  · rw [if_pos hshared]
    split
    · rename_i hmem
      exact List.findIdx?_eq_some_iff_findIdx_eq.mpr ⟨List.idxOf_lt_length_iff.mpr hmem.2, rfl⟩
    · rename_i hmem
      refine List.findIdx?_eq_none_iff.mpr fun x hx => decide_eq_false fun hc => hmem ⟨hshared, ?_⟩
      rwa [hc] at hx
  · rw [if_neg hshared, if_neg fun hmem => hshared hmem.1]

private theorem meets_constant (c : Const) :
    Meets (constant c) [.literal c] fun before i => i.toNat = place (poolOf (literals before)) c := by
  apply Meets.of_cases
  intro before t ht
  have hsize : t.constants.size = (poolOf (literals before)).length := by
    rw [← ht.constants, Array.length_toList]
  have hrecords {pool : ConstantPool}
      (h : pool.constants.toList = pooled (poolOf (literals before)) c)
      (hle : pool.constants.size ≤ 4294967296) :
      Tables.Records { t with pool } (before ++ [.literal c]) :=
    { constants := by simpa [Demand.literal?, poolOf_snoc] using h
      classes := by simpa [Demand.className?] using ht.classes
      locals := by simpa [Demand.introduced?] using ht.locals
      sites := by simpa using ht.sites
      numbered := hle }
  have hfind := find?_pool ht.constants c
  by_cases hfound : c.isShared = true ∧ c ∈ poolOf (literals before)
  · rw [if_pos hfound] at hfind
    refine .inl ⟨((poolOf (literals before)).idxOf c).toUInt32, t, run_constant_of_found hfind,
      if_pos (.inl hfound), hrecords ?_ ht.numbered, ?_⟩
    · rw [pooled, if_pos hfound]
      exact ht.constants
    · have hlt := List.idxOf_lt_length_iff.mpr hfound.2
      have hle := ht.numbered
      rw [place, if_pos hfound.1, toNat_toUInt32 (by omega)]
  rw [if_neg hfound] at hfind
  rw [run_constant_of_new hfind, maxConstants]
  by_cases hlt : t.constants.size < 4294967296
  · refine .inl ⟨t.constants.size.toUInt32, { t with pool := t.pool.push c hfind }, if_pos hlt,
      if_pos (.inr (by omega)), hrecords ?_ ?_, ?_⟩
    · rw [pooled, if_neg hfound, ← ht.constants]
      exact Array.toList_push
    · change (t.constants.push c).size ≤ 4294967296
      rw [Array.size_push]
      omega
    · rw [place, toNat_toUInt32 hlt, hsize]
      split
      · rename_i hshared
        exact (List.idxOf_eq_length fun hmem => hfound ⟨hshared, hmem⟩).symm
      · rfl
  · exact .inr ⟨.tooManyConstants, if_neg hlt, if_neg (not_or.mpr ⟨hfound, by omega⟩)⟩

/-- The constants that code loads, by their numbers. -/
def loads (code : List Instr) : List Nat := code.filterMap Instr.load?

@[simp] theorem loads_append (code code' : List Instr) :
    loads (code ++ code') = loads code ++ loads code' := List.filterMap_append

@[simp] theorem loads_nil : loads [] = [] := rfl

@[simp] theorem loads_cons (i : Instr) (code : List Instr) :
    loads (i :: code) = i.load?.toList ++ loads code := by
  cases i <;> rfl

/-- The action makes code that goes on from the code given and loads the literals among the
demands. -/
private abbrev MeetsCode (x : Compile (Array Instr)) (code : Array Instr) (ds : List Demand) : Prop :=
  Meets x ds fun before out =>
    loads out.toList = loads code.toList ++ placesAfter (poolOf (literals before)) (literals ds)

private theorem meets_loadConstant (c : Const) :
    Meets (loadConstant c) [.literal c] fun before i =>
      i.load? = some (place (poolOf (literals before)) c) := by
  have hmap : loadConstant c = constant c >>= fun i => pure (Instr.ldc i) := map_eq_pure_bind _ _
  rw [hmap]
  refine ((meets_constant c).bind fun i => .pure _).weaken ?_
  rintro before _ ⟨i, hi, rfl⟩
  exact congrArg some hi

/-- A literal alone. -/
private theorem meets_literal (c : Const) :
    MeetsCode (do pure #[← loadConstant c]) #[] [.literal c] := by
  refine ((meets_loadConstant c).bind fun i => .pure _).weaken ?_
  rintro before _ ⟨i, hi, rfl⟩
  simp [hi, Demand.literal?, placesAfter]

private theorem meets_invokeSite (code : Array Instr) (op : InvokeOp) (name : String) (argc : UInt8) :
    MeetsCode (invokeSite code op name argc) code [.site] := by
  refine ((meets_callSite name op.siteKind).bind fun slot => .pure _).weaken ?_
  rintro before _ ⟨slot, -, rfl⟩
  simp [Instr.load?, Demand.literal?, placesAfter]

mutual

private theorem meets_expr : (e : Expr) → MeetsCode (compileExpr e) #[] e.demands
  | .null | .this => (Meets.pure _).weaken fun _ _ h => by rw [h]; rfl
  | .bool b => meets_literal (.bool b)
  | .int n => meets_literal (.int n)
  | .float x => meets_literal (.float x)
  | .text s => meets_literal (.text s)
  | .var name => by
    refine ((meets_localIndex name).bind fun i => .pure _).weaken ?_
    rintro before _ ⟨i, -, rfl⟩
    rfl
  | .classLiteral name => by
    refine ((meets_classIndex name).bind fun i => .pure _).weaken ?_
    rintro before _ ⟨i, -, rfl⟩
    rfl
  | .list items => by
    refine (((meets_elementCount _).bind fun n => (meets_exprs #[] items).bind fun code =>
      .pure _).cast (by simp [Expr.demands])).weaken ?_
    rintro before _ ⟨n, -, code, hitems, rfl⟩
    simpa [Expr.demands, Instr.load?, Demand.literal?] using hitems
  | .map entries => by
    refine (((meets_elementCount _).bind fun n => (meets_entries #[] entries).bind fun code =>
      .pure _).cast (by simp [Expr.demands])).weaken ?_
    rintro before _ ⟨n, -, code, hentries, rfl⟩
    simpa [Expr.demands, Instr.load?, Demand.literal?] using hentries
  | .range first last => by
    refine (((meets_expr first).bind fun code => (meets_expr last).bind fun code' =>
      .pure _).cast (by simp [Expr.demands])).weaken ?_
    rintro before _ ⟨code, hfirst, code', hlast, rfl⟩
    simp [Expr.demands, Instr.load?, hfirst, hlast, poolOf_append, placesAfter_append]
  | .cast value name => by
    refine (((meets_expr value).bind fun code => (meets_classIndex name).bind fun i =>
      .pure _).cast (by simp [Expr.demands])).weaken ?_
    rintro before _ ⟨code, hvalue, i, -, rfl⟩
    simp [Expr.demands, Instr.load?, Demand.literal?, hvalue]
  | .call receiver name args safe => by
    refine (((meets_expr receiver).bind fun code => (meets_argumentCount _).bind fun argc =>
      (meets_exprs code args).bind fun code' => meets_invokeSite code' _ name argc).cast
        (by simp [Expr.demands])).weaken ?_
    rintro before out ⟨code, hreceiver, argc, -, code', hargs, hout⟩
    simp [Expr.demands, Demand.literal?, hout, hargs, hreceiver, poolOf_append, placesAfter_append,
      placesAfter]
  | .callCurrent name args => by
    refine (((meets_argumentCount _).bind fun argc => (meets_exprs #[.ldthis] args).bind fun code =>
      meets_invokeSite code .callCurrent name argc).cast (by simp [Expr.demands])).weaken ?_
    rintro before out ⟨argc, -, code, hargs, hout⟩
    simp [Expr.demands, Instr.load?, Demand.literal?, hout, hargs, placesAfter]
  | .callStatic className name args => by
    refine (((meets_classIndex className).bind fun i => (meets_argumentCount _).bind fun argc =>
      (meets_exprs #[.ldclass i] args).bind fun code =>
        meets_invokeSite code .callStatic name argc).cast (by simp [Expr.demands])).weaken ?_
    rintro before out ⟨i, -, argc, -, code, hargs, hout⟩
    simp [Expr.demands, Instr.load?, Demand.literal?, hout, hargs, placesAfter]
  | .construct className args => by
    refine (((meets_classIndex className).bind fun i => (meets_argumentCount _).bind fun argc =>
      (meets_exprs #[.ldclass i] args).bind fun code =>
        meets_invokeSite code .callNew Method.constructorName argc).cast
          (by simp [Expr.demands])).weaken ?_
    rintro before out ⟨i, -, argc, -, code, hargs, hout⟩
    simp [Expr.demands, Instr.load?, Demand.literal?, hout, hargs, placesAfter]
  | .property receiver name safe => by
    refine (((meets_expr receiver).bind fun code => (meets_callSite name .getProperty).bind
      fun slot => .pure _).cast (by simp [Expr.demands])).weaken ?_
    rintro before _ ⟨code, hreceiver, slot, -, rfl⟩
    simp [Expr.demands, Instr.load?, Demand.literal?, hreceiver]
  | .binary op left right => by
    refine (((meets_expr left).bind fun code => (meets_expr right).bind fun code' =>
      meets_invokeSite (code ++ code') .call op.methodName 1).cast (by simp [Expr.demands])).weaken ?_
    rintro before out ⟨code, hleft, code', hright, hout⟩
    simp [Expr.demands, Demand.literal?, hout, hleft, hright, poolOf_append, placesAfter_append,
      placesAfter]
  | .neg value => by
    refine (((meets_expr value).bind fun code => meets_invokeSite code .call "negative" 0).cast
      (by simp [Expr.demands])).weaken ?_
    rintro before out ⟨code, hvalue, hout⟩
    simp [Expr.demands, Demand.literal?, hout, hvalue, placesAfter]
  | .not value => by
    refine (((meets_expr value).bind fun code => .pure _).cast (by simp [Expr.demands])).weaken ?_
    rintro before _ ⟨code, hvalue, rfl⟩
    simpa [Expr.demands, Instr.load?] using hvalue

private theorem meets_exprs (code : Array Instr) : (es : List Expr) →
    MeetsCode (compileExprs code es) code (allDemands es)
  | [] => (Meets.pure _).weaken fun _ _ h => by simp [h, allDemands, placesAfter]
  | e :: es => by
    refine ((meets_expr e).bind fun next => meets_exprs (code ++ next) es).weaken ?_
    rintro before out ⟨next, he, hout⟩
    simp [allDemands, hout, he, poolOf_append, placesAfter_append]

private theorem meets_entries (code : Array Instr) : (es : List (String × Expr)) →
    MeetsCode (compileEntries code es) code (entryDemands es)
  | [] => (Meets.pure _).weaken fun _ _ h => by simp [h, entryDemands, placesAfter]
  | (key, e) :: es => by
    refine (((meets_loadConstant (.text key)).bind fun load => (meets_expr e).bind fun next =>
      meets_entries (code.push load ++ next) es).cast (by simp [entryDemands])).weaken ?_
    rintro before out ⟨load, hload, next, he, hout⟩
    simp [entryDemands, Demand.literal?, hout, he, hload, poolOf_append, placesAfter_append,
      placesAfter]

end

mutual

private theorem meets_stmt (pos : Nat) : (s : Stmt) → MeetsCode (compileStmt pos s) #[] s.demands
  | .declare name value => by
    refine (((meets_expr value).bind fun code => (meets_declareLocal name).bind fun i =>
      .pure _).cast (by simp [Stmt.demands])).weaken ?_
    rintro before _ ⟨code, hvalue, i, -, rfl⟩
    simp [Stmt.demands, Instr.load?, Demand.literal?, hvalue]
  | .assign name value => by
    refine (((meets_expr value).bind fun code => (meets_localIndex name).bind fun i =>
      .pure _).cast (by simp [Stmt.demands])).weaken ?_
    rintro before _ ⟨code, hvalue, i, -, rfl⟩
    simp [Stmt.demands, Instr.load?, Demand.literal?, hvalue]
  | .expr value => by
    refine (((meets_expr value).bind fun code => .pure _).cast (by simp [Stmt.demands])).weaken ?_
    rintro before _ ⟨code, hvalue, rfl⟩
    simp [Stmt.demands, Instr.load?, hvalue]
  | .ret value => by
    refine (((meets_expr value).bind fun code => .pure _).cast (by simp [Stmt.demands])).weaken ?_
    rintro before _ ⟨code, hvalue, rfl⟩
    simp [Stmt.demands, Instr.load?, hvalue]
  | .cond condition thenBranch elseBranch => by
    refine (((meets_expr condition).bind fun test =>
      (meets_block (pos + codeSize test + branchSize) #[] thenBranch).bind fun thenCode =>
        (meets_block (pos + codeSize test + branchSize + codeSize thenCode + branchSize) #[]
          elseBranch).bind fun elseCode => .pure _).cast (by simp [Stmt.demands])).weaken ?_
    rintro before _ ⟨test, htest, thenCode, hthen, elseCode, helse, rfl⟩
    simp [Stmt.demands, Instr.load?, htest, hthen, helse, poolOf_append, placesAfter_append]
  | .loop condition body => by
    refine (((meets_expr condition).bind fun test =>
      (meets_block (pos + codeSize test + branchSize) #[] body).bind fun code => .pure _).cast
        (by simp [Stmt.demands])).weaken ?_
    rintro before _ ⟨test, htest, code, hbody, rfl⟩
    simp [Stmt.demands, Instr.load?, htest, hbody, poolOf_append, placesAfter_append]

private theorem meets_block (pos : Nat) (code : Array Instr) : (ss : List Stmt) →
    MeetsCode (compileStmts pos code ss) code (blockDemands ss)
  | [] => (Meets.pure _).weaken fun _ _ h => by simp [h, blockDemands, placesAfter]
  | s :: ss => by
    refine ((meets_stmt pos s).bind fun next =>
      meets_block (pos + codeSize next) (code ++ next) ss).weaken ?_
    rintro before out ⟨next, hs, hout⟩
    simp [blockDemands, hout, hs, poolOf_append, placesAfter_append]

end

/-- The program has what the statements ask for and nothing else: its tables, in the order of asking,
and code that loads the literals one after another. -/
structure Supplies (p : Program) (stmts : List Stmt) : Prop where
  constants : p.constants.toList = (poolOf (literals (blockDemands stmts))).map Const.toValue
  classes : p.classes.toList = (classNames (blockDemands stmts)).eraseDups
  locals : p.locals = (introduced (blockDemands stmts)).eraseDups.length
  code : ∃ is, listing p.code = .ok (placed 0 is)
    ∧ loads is = placesAfter [] (literals (blockDemands stmts))

private theorem Tables.Records.empty (owner : String) : Tables.Records { manifest := { owner } } [] :=
  ⟨rfl, rfl, rfl, rfl, Nat.zero_le _⟩

theorem compile_eq_ok {owner : String} {stmts : List Stmt} {p : Program}
    (h : compile owner stmts = .ok p) :
    firstFault? [] (blockDemands stmts) = none ∧ Supplies p stmts := by
  rcases hrun : (compileStmts 0 #[] stmts).run { manifest := { owner } } with e | ⟨code, t⟩ <;>
    rw [compile, hrun] at h <;> cases h
  obtain ⟨hnone, hrecords, hloads⟩ := (meets_block 0 #[] stmts).ok (.empty owner) hrun
  refine ⟨hnone, ?_, hrecords.classes, ?_, _, listing_of_toList (toList_assemble _), ?_⟩
  · rw [Array.toList_map, hrecords.constants]
    rfl
  · change t.locals.size = _
    rw [size_of_names hrecords.locals]
    rfl
  · simpa [Instr.load?, poolOf] using hloads

private theorem compile_eq_error {owner : String} {stmts : List Stmt} {e : CompileError}
    (h : compile owner stmts = .error e) : firstFault? [] (blockDemands stmts) = some e := by
  rcases hrun : (compileStmts 0 #[] stmts).run { manifest := { owner } } with e' | ⟨code, t⟩ <;>
    rw [compile, hrun] at h <;> cases h
  exact (meets_block 0 #[] stmts).error (.empty owner) hrun

/-- Compilation fails exactly with the fault of the first demand that cannot be met. -/
theorem compile_eq_error_iff {owner : String} {stmts : List Stmt} {e : CompileError} :
    compile owner stmts = .error e ↔ firstFault? [] (blockDemands stmts) = some e := by
  constructor
  · exact compile_eq_error
  · intro h
    rcases hc : compile owner stmts with e' | p
    · rw [compile_eq_error hc] at h
      rw [Option.some.inj h]
    · rw [(compile_eq_ok hc).1] at h
      cases h

theorem exists_compile_eq_ok_iff {owner : String} {stmts : List Stmt} :
    (∃ p, compile owner stmts = .ok p) ↔ firstFault? [] (blockDemands stmts) = none := by
  constructor
  · rintro ⟨p, hp⟩
    exact (compile_eq_ok hp).1
  · intro h
    rcases hc : compile owner stmts with e | p
    · rw [compile_eq_error hc] at h
      cases h
    · exact ⟨p, rfl⟩

end Lang

end CachedDispatch
