import CachedDispatch.Proofs.Decoding
import CachedDispatch.Proofs.Evaluation

/-!
What the compiler emits. Operands are numbers in the tables of the unit; the code of an expression or
a statement is told from its source by these tables, its first call site and its place.
-/
namespace CachedDispatch

namespace NameTable

theorem find?_eq_none_iff {t : NameTable} {s : String} : t.find? s = none ↔ s ∉ t.names.toList := by
  rw [find?_eq_findIdx?, List.findIdx?_eq_none_iff]
  exact ⟨fun h hm => by simpa using h s hm, fun h x hx => by
    simpa using fun hs : x = s => h (hs ▸ hx)⟩

theorem getElem?_of_find? {t : NameTable} {s : String} {i : Nat} (h : t.find? s = some i) :
    t.names.toList[i]? = some s := by
  rw [find?_eq_findIdx?] at h
  obtain ⟨hi, hs, -⟩ := List.findIdx?_eq_some_iff_getElem.mp h
  rw [List.getElem?_eq_getElem hi, eq_of_beq hs]

private theorem lt_of_find? {t : NameTable} {s : String} {i : Nat} (h : t.find? s = some i) :
    i < t.size :=
  (List.getElem?_eq_some_iff.mp (getElem?_of_find? h)).1

/-- No two names have one number. -/
theorem find?_inj {t : NameTable} {s s' : String} {i : Nat} (h : t.find? s = some i)
    (h' : t.find? s' = some i) : s = s' :=
  Option.some.inj ((getElem?_of_find? h).symm.trans (getElem?_of_find? h'))

theorem find?_of_nodup {t : NameTable} {s : String} {i : Nat} (hn : t.names.toList.Nodup)
    (h : t.names.toList[i]? = some s) : t.find? s = some i := by
  rcases hs : t.find? s with _ | j
  · exact absurd (List.mem_of_getElem? h) (find?_eq_none_iff.mp hs)
  · have hlt := (List.getElem?_eq_some_iff.mp h).1
    rw [(List.getElem?_inj hlt hn).mp (h.trans (getElem?_of_find? hs).symm)]

theorem names_intern_of_new {t : NameTable} {s : String} (h : t.find? s = none) :
    (t.intern s).names = t.names.push s := by
  unfold intern
  split
  · rename_i hs
    rw [h] at hs
    cases hs
  · rfl

/-- Numbers stay when names are added. -/
private theorem find?_of_prefix {t t' : NameTable} (hp : t.names.toList <+: t'.names.toList)
    {s : String} {i : Nat} (h : t.find? s = some i) : t'.find? s = some i := by
  obtain ⟨more, hmore⟩ := hp
  rw [find?_eq_findIdx?] at h ⊢
  rw [← hmore, List.findIdx?_append, h]
  rfl

private theorem find?_of_new {t t' : NameTable} {s : String} (h : t.find? s = none)
    (hp : (t.names.push s).toList <+: t'.names.toList) : t'.find? s = some t.names.size := by
  have hs : (t.intern s).find? s = some t.names.size := by
    rw [find?_eq_findIdx?, names_intern_of_new h, Array.toList_push, List.findIdx?_append,
      ← find?_eq_findIdx?, h]
    simp [List.findIdx?_cons]
  exact find?_of_prefix (by rwa [names_intern_of_new h]) hs

end NameTable

namespace Manifest

private theorem isDense_iff {m : Manifest} :
    m.isDense = true ↔ m.sites.toList.map (·.index) = List.range m.size := by
  rw [isDense, List.all_eq_true, size]
  constructor
  · intro h
    refine List.ext_getElem (by simp) fun i hi _ => ?_
    rw [List.length_map] at hi
    have hd := h (m.sites.toList[i], i) (List.mk_mem_zipIdx_iff_getElem?.mpr (by simp))
    simpa using hd
  · rintro h ⟨d, i⟩ hd
    have hi := congrArg (·[i]?) h
    have hget := List.mk_mem_zipIdx_iff_getElem?.mp hd
    have hlt : i < m.sites.size := (List.getElem?_eq_some_iff.mp hget).1
    simpa [List.getElem?_map, hget, List.getElem?_range hlt] using hi

private theorem isDense_push {m : Manifest} (h : m.isDense = true) (name : String) (kind : SiteKind) :
    (m.push name kind).isDense = true := by
  rw [isDense_iff] at h ⊢
  simp [push, h, size, List.range_succ]

end Manifest

namespace Lang

theorem nodup_eraseDups {α : Type} [BEq α] [LawfulBEq α] (xs : List α) : xs.eraseDups.Nodup := by
  match xs with
  | [] => exact List.nodup_nil
  | x :: xs =>
    rw [List.eraseDups_cons, List.nodup_cons, List.mem_eraseDups]
    exact ⟨by simp, nodup_eraseDups _⟩
termination_by xs.length
decreasing_by exact Nat.lt_succ_of_le (List.length_filter_le _ xs)

namespace Tables

/-- All entries are still there, under the same numbers. -/
private structure Le (t t' : Tables) : Prop where
  constants : t.constants.toList <+: t'.constants.toList
  classes : t.classes.names.toList <+: t'.classes.names.toList
  locals : t.locals.names.toList <+: t'.locals.names.toList
  sites : t.manifest.sites.toList <+: t'.manifest.sites.toList

/-- The tables have no more entries than operands can number, and call sites have their place as
number. -/
structure Bounded (t : Tables) : Prop where
  constants : t.constants.size ≤ maxConstants
  classes : t.classes.size ≤ maxClasses
  locals : t.locals.size ≤ maxLocals
  sites : t.manifest.size ≤ Manifest.capacity
  dense : t.manifest.isDense = true

/-- The call sites, without their numbers. -/
def sites (t : Tables) : List (String × SiteKind) :=
  t.manifest.sites.toList.map fun d => (d.name, d.kind)

variable {t t' t'' : Tables}

private theorem Le.refl (t : Tables) : t.Le t :=
  ⟨List.prefix_rfl, List.prefix_rfl, List.prefix_rfl, List.prefix_rfl⟩

private theorem Le.trans (h : t.Le t') (h' : t'.Le t'') : t.Le t'' :=
  ⟨h.constants.trans h'.constants, h.classes.trans h'.classes, h.locals.trans h'.locals,
    h.sites.trans h'.sites⟩

/-- The tables grow by these call sites and by locals for these names. -/
private structure Grows (t : Tables) (sites : List (String × SiteKind)) (names : List String)
    (t' : Tables) : Prop where
  le : t.Le t'
  bounded : t'.Bounded
  sites : t'.sites = t.sites ++ sites
  locals : ∀ xs : List String, t.locals.names.toList = xs.eraseDups →
    t'.locals.names.toList = (xs ++ names).eraseDups

private theorem Grows.refl (h : t.Bounded) : t.Grows [] [] t :=
  ⟨.refl t, h, by simp, fun xs hxs => by simpa using hxs⟩

private theorem Grows.trans {s s' : List (String × SiteKind)} {ns ns' : List String}
    (h : t.Grows s ns t') (h' : t'.Grows s' ns' t'') : t.Grows (s ++ s') (ns ++ ns') t'' := by
  refine ⟨h.le.trans h'.le, h'.bounded, by rw [h'.sites, h.sites, List.append_assoc], fun xs hxs => ?_⟩
  rw [h'.locals _ (h.locals xs hxs), List.append_assoc]

theorem length_sites (t : Tables) : t.sites.length = t.manifest.size := by
  simp [sites, Manifest.size]

private theorem Grows.size_eq {s : List (String × SiteKind)} {ns : List String} (h : t.Grows s ns t') :
    t'.manifest.size = t.manifest.size + s.length := by
  rw [← length_sites, h.sites, List.length_append, length_sites]

end Tables

/-- Code that loads the constant. -/
def Tables.Loads (t : Tables) (c : Const) (code : List Instr) : Prop :=
  ∃ i : UInt32, t.constants[i.toNat]? = some c ∧ code = [.ldc i]

/-- The number of a class. -/
def Tables.Class (t : Tables) (name : String) (i : UInt16) : Prop :=
  t.classes.names[i.toNat]? = some name

/-- The number of a local variable. -/
def Tables.Local (t : Tables) (name : String) (i : UInt8) : Prop := t.locals.find? name = some i.toNat

/-- An operand for call site number `n`, which is for this name and kind. -/
def Tables.Slot (t : Tables) (n : Nat) (name : String) (kind : SiteKind) (slot : UInt16) : Prop :=
  slot.toNat = n ∧ t.sites[n]? = some (name, kind)

mutual

/-- The code of an expression whose first call site is number `n`. -/
def Expr.Emits (t : Tables) (n : Nat) : Expr → List Instr → Prop
  | .null, code => code = [.ldnull]
  | .bool b, code => t.Loads (.bool b) code
  | .int i, code => t.Loads (.int i) code
  | .float x, code => t.Loads (.float x) code
  | .text s, code => t.Loads (.text s) code
  | .var name, code => ∃ i, t.Local name i ∧ code = [.ldloc i]
  | .this, code => code = [.ldthis]
  | .classLiteral name, code => ∃ i, t.Class name i ∧ code = [.ldclass i]
  | .list items, code => ∃ is k, AllEmit t n items is ∧ k.toNat = items.length
      ∧ code = is ++ [.newList k]
  | .map entries, code => ∃ is k, EntriesEmit t n entries is ∧ k.toNat = entries.length
      ∧ code = is ++ [.newMap k]
  | .range first last, code => ∃ is js, first.Emits t n is
      ∧ last.Emits t (n + first.sites.length) js ∧ code = is ++ js ++ [.newRange]
  | .cast value name, code => ∃ is i, value.Emits t n is ∧ t.Class name i ∧ code = is ++ [.wrap i]
  | .call receiver name args safe, code => ∃ is js slot argc, receiver.Emits t n is
      ∧ AllEmit t (n + receiver.sites.length) args js
      ∧ t.Slot (n + receiver.sites.length + (allSites args).length) name .call slot
      ∧ argc.toNat = args.length
      ∧ code = is ++ js ++ [.invoke (if safe then .callSafe else .call) slot argc]
  | .callCurrent name args, code => ∃ is slot argc, AllEmit t n args is
      ∧ t.Slot (n + (allSites args).length) name .callCurrent slot ∧ argc.toNat = args.length
      ∧ code = [.ldthis] ++ is ++ [.invoke .callCurrent slot argc]
  | .callStatic className name args, code => ∃ i is slot argc, t.Class className i ∧ AllEmit t n args is
      ∧ t.Slot (n + (allSites args).length) name .callStatic slot ∧ argc.toNat = args.length
      ∧ code = [.ldclass i] ++ is ++ [.invoke .callStatic slot argc]
  | .construct className args, code => ∃ i is slot argc, t.Class className i ∧ AllEmit t n args is
      ∧ t.Slot (n + (allSites args).length) Method.constructorName .callConstructor slot
      ∧ argc.toNat = args.length
      ∧ code = [.ldclass i] ++ is ++ [.invoke .callNew slot argc]
  | .property receiver name safe, code => ∃ is slot, receiver.Emits t n is
      ∧ t.Slot (n + receiver.sites.length) name .getProperty slot ∧ code = is ++ [.getProp safe slot]
  | .binary op left right, code => ∃ is js slot, left.Emits t n is
      ∧ right.Emits t (n + left.sites.length) js
      ∧ t.Slot (n + left.sites.length + right.sites.length) op.methodName .call slot
      ∧ code = is ++ js ++ [.invoke .call slot 1]
  | .neg value, code => ∃ is slot, value.Emits t n is
      ∧ t.Slot (n + value.sites.length) "negative" .call slot ∧ code = is ++ [.invoke .call slot 0]
  | .not value, code => ∃ is, value.Emits t n is ∧ code = is ++ [.not]

/-- The code of expressions one after another. -/
def AllEmit (t : Tables) (n : Nat) : List Expr → List Instr → Prop
  | [], code => code = []
  | e :: es, code => ∃ is js, e.Emits t n is ∧ AllEmit t (n + e.sites.length) es js ∧ code = is ++ js

/-- The code of keys and values in turn. -/
def EntriesEmit (t : Tables) (n : Nat) : List (String × Expr) → List Instr → Prop
  | [], code => code = []
  | (key, e) :: es, code => ∃ load is js, t.Loads (.text key) load ∧ e.Emits t n is
      ∧ EntriesEmit t (n + e.sites.length) es js ∧ code = load ++ is ++ js

end

mutual

/-- The code of a statement that starts at `pos`. -/
def Stmt.Emits (t : Tables) (n pos : Nat) : Stmt → List Instr → Prop
  | .declare name value, code | .assign name value, code => ∃ is i, value.Emits t n is
      ∧ t.Local name i ∧ code = is ++ [.stloc i]
  | .expr value, code => ∃ is, value.Emits t n is ∧ code = is ++ [.pop]
  | .cond condition thenBranch elseBranch, code => ∃ test is js thenPos elsePos,
      condition.Emits t n test ∧ thenPos = pos + (bytesOf test).length + branchSize
      ∧ BlockEmits t (n + condition.sites.length) thenPos thenBranch is
      ∧ elsePos = thenPos + (bytesOf is).length + branchSize
      ∧ BlockEmits t (n + condition.sites.length + (blockSites thenBranch).length) elsePos elseBranch js
      ∧ code = test ++ [.brfalse elsePos.toUInt32] ++ is
        ++ [.br (elsePos + (bytesOf js).length).toUInt32] ++ js
  | .loop condition body, code => ∃ test is bodyPos, condition.Emits t n test
      ∧ bodyPos = pos + (bytesOf test).length + branchSize
      ∧ BlockEmits t (n + condition.sites.length) bodyPos body is
      ∧ code = test ++ [.brfalse (bodyPos + (bytesOf is).length + branchSize).toUInt32] ++ is
        ++ [.br pos.toUInt32]
  | .ret value, code => ∃ is, value.Emits t n is ∧ code = is ++ [.ret]

/-- The code of statements that start at `pos`. -/
def BlockEmits (t : Tables) (n pos : Nat) : List Stmt → List Instr → Prop
  | [], code => code = []
  | s :: ss, code => ∃ is js, s.Emits t n pos is
      ∧ BlockEmits t (n + s.sites.length) (pos + (bytesOf is).length) ss js ∧ code = is ++ js

end

/-- The action adds these call sites and locals, and what it makes is as `Q` says, in the tables that
it leaves and in all that come after; `Q` is given the number of the first call site. -/
private def Compiles {α : Type} (x : Compile α) (sites : List (String × SiteKind)) (names : List String)
    (Q : Nat → Tables → α → Prop) : Prop :=
  ∀ t a t', t.Bounded → x.run t = .ok (a, t') →
    t.Grows sites names t' ∧ ∀ T, t'.Le T → Q t.manifest.size T a

namespace Compiles

variable {α β : Type} {x : Compile α} {s s' : List (String × SiteKind)} {ns ns' : List String}
  {Q Q' : Nat → Tables → α → Prop}

private theorem pure (a : α) : Compiles (pure a) [] [] fun _ _ b => b = a := by
  intro t b t' ht h
  obtain ⟨rfl, rfl⟩ := Prod.mk.inj (Except.ok.inj h)
  exact ⟨.refl ht, fun _ _ => rfl⟩

private theorem throw (e : CompileError) (s : List (String × SiteKind)) (ns : List String)
    (Q : Nat → Tables → α → Prop) : Compiles (throw e) s ns Q := by
  intro t b t' _ h
  cases h

private theorem weaken (h : Compiles x s ns Q) (hQ : ∀ n T a, Q n T a → Q' n T a) :
    Compiles x s ns Q' :=
  fun t a t' ht hx => (h t a t' ht hx).imp_right fun hq T hT => hQ _ _ _ (hq T hT)

private theorem cast (h : Compiles x s ns Q) (hs : s = s') (hn : ns = ns') : Compiles x s' ns' Q :=
  hs ▸ hn ▸ h

private theorem bind {f : α → Compile β} {R : α → Nat → Tables → β → Prop} (hx : Compiles x s ns Q)
    (hf : ∀ a, Compiles (f a) s' ns' (R a)) :
    Compiles (x >>= f) (s ++ s') (ns ++ ns') fun n T b => ∃ a, Q n T a ∧ R a (n + s.length) T b := by
  intro t b t'' ht h
  rcases hrun : x.run t with e | ⟨a, t'⟩ <;> rw [StateT.run_bind, hrun] at h
  · cases h
  · obtain ⟨hg, hq⟩ := hx t a t' ht hrun
    obtain ⟨hg', hr⟩ := hf a t' b t'' hg.bounded h
    refine ⟨hg.trans hg', fun T hT => ⟨a, hq T (hg'.le.trans hT), ?_⟩⟩
    rw [← hg.size_eq]
    exact hr T hT

end Compiles

theorem Compile.run_get_bind {α : Type} (f : Tables → Compile α) (t : Tables) :
    (get >>= f).run t = (f t).run t := rfl

private theorem getElem?_of_prefix {α : Type} {xs ys : Array α} (h : xs.toList <+: ys.toList) {i : Nat}
    {a : α} (ha : xs[i]? = some a) : ys[i]? = some a := by
  obtain ⟨more, hmore⟩ := h
  rw [← Array.getElem?_toList] at ha ⊢
  rw [← hmore, List.getElem?_append_left (List.getElem?_eq_some_iff.mp ha).1, ha]

private theorem prefix_push {α : Type} (xs : Array α) (a : α) : xs.toList <+: (xs.push a).toList := by
  rw [Array.toList_push]
  exact List.prefix_append _ _

theorem toNat_toUInt32 {n : Nat} (h : n < 4294967296) : n.toUInt32.toNat = n :=
  Nat.mod_eq_of_lt h

private theorem toNat_toUInt16 {n : Nat} (h : n < 65536) : n.toUInt16.toNat = n := Nat.mod_eq_of_lt h

private theorem toNat_toUInt8 {n : Nat} (h : n < 256) : n.toUInt8.toNat = n := Nat.mod_eq_of_lt h

theorem run_constant_of_found {c : Const} {t : Tables} {i : Nat} (h : t.pool.find? c = some i) :
    (constant c).run t = .ok (i.toUInt32, t) := by
  rw [constant, Compile.run_get_bind]
  dsimp only
  split
  · rename_i j hj
    rw [h] at hj
    cases hj
    rfl
  · rename_i hnone
    rw [h] at hnone
    cases hnone

theorem run_constant_of_new {c : Const} {t : Tables} (h : t.pool.find? c = none) :
    (constant c).run t
      = if t.constants.size < maxConstants then
          .ok (t.constants.size.toUInt32, { t with pool := t.pool.push c h })
        else .error .tooManyConstants := by
  rw [constant, Compile.run_get_bind]
  dsimp only
  split
  · rename_i j hj
    rw [h] at hj
    cases hj
  · change StateT.run (if t.constants.size < maxConstants then _ else _) t = _
    split <;> rfl

private theorem compiles_constant (c : Const) :
    Compiles (constant c) [] [] fun _ T i => T.constants[i.toNat]? = some c := by
  intro t i t' ht h
  have hmax := ht.constants
  unfold maxConstants at hmax
  rcases hj : t.pool.find? c with _ | j
  · rw [run_constant_of_new hj] at h
    split at h
    · rename_i hlt
      obtain ⟨rfl, rfl⟩ := Prod.mk.inj (Except.ok.inj h)
      have hle : t.Le { t with pool := t.pool.push c hj } :=
        { Tables.Le.refl t with constants := prefix_push _ c }
      have hsize : (t.constants.push c).size ≤ maxConstants := by
        rw [Array.size_push]
        exact hlt
      refine ⟨⟨hle, { ht with constants := hsize }, by simp [Tables.sites],
        fun xs hxs => by simpa using hxs⟩, fun T hT => ?_⟩
      change T.constants[t.constants.size.toUInt32.toNat]? = some c
      rw [toNat_toUInt32 hlt]
      exact getElem?_of_prefix hT.constants Array.getElem?_push_size
    · cases h
  · rw [run_constant_of_found hj] at h
    obtain ⟨rfl, rfl⟩ := Prod.mk.inj (Except.ok.inj h)
    have hfound : t.constants.toList.findIdx? (· = c) = some j := by
      rw [ConstantPool.find?_eq] at hj
      split at hj
      · exact hj
      · cases hj
    obtain ⟨hlt, heq, -⟩ := List.findIdx?_eq_some_iff_getElem.mp hfound
    have hget : t.constants[j]? = some c := by
      rw [← Array.getElem?_toList, List.getElem?_eq_getElem hlt, of_decide_eq_true heq]
    refine ⟨.refl ht, fun T hT => ?_⟩
    change T.constants[j.toUInt32.toNat]? = some c
    rw [Array.length_toList] at hlt
    rw [toNat_toUInt32 (by omega)]
    exact getElem?_of_prefix hT.constants hget

private theorem compiles_classIndex (name : String) :
    Compiles (classIndex name) [] [] fun _ T i => T.Class name i := by
  intro t i t' ht h
  have hmax := ht.classes
  unfold maxClasses at hmax
  rw [classIndex, Compile.run_get_bind] at h
  dsimp only at h
  split at h
  · rename_i j hj
    obtain ⟨rfl, rfl⟩ := Prod.mk.inj (Except.ok.inj h)
    have hlt := NameTable.lt_of_find? hj
    have hget := NameTable.getElem?_of_find? hj
    rw [Array.getElem?_toList] at hget
    refine ⟨.refl ht, fun T hT => ?_⟩
    change T.classes.names[j.toUInt16.toNat]? = some name
    rw [toNat_toUInt16 (by omega)]
    exact getElem?_of_prefix hT.classes hget
  · rename_i hnew
    split at h
    · rename_i hlt
      obtain ⟨rfl, rfl⟩ := Prod.mk.inj (Except.ok.inj h)
      have hnames := NameTable.names_intern_of_new hnew
      have hle : t.Le { t with classes := t.classes.intern name } :=
        { Tables.Le.refl t with classes := by rw [hnames]; exact prefix_push _ name }
      refine ⟨⟨hle, { ht with classes := ?_ }, by simp [Tables.sites], fun xs hxs => by simpa using hxs⟩,
        fun T hT => ?_⟩
      · rw [NameTable.size, hnames, Array.size_push]
        exact hlt
      · change T.classes.names[t.classes.size.toUInt16.toNat]? = some name
        rw [toNat_toUInt16 hlt]
        refine getElem?_of_prefix hT.classes ?_
        change (t.classes.intern name).names[t.classes.names.size]? = some name
        rw [hnames]
        exact Array.getElem?_push_size
    · cases h

private theorem compiles_localIndex (name : String) :
    Compiles (localIndex name) [] [] fun _ T i => T.Local name i := by
  intro t i t' ht h
  have hmax := ht.locals
  unfold maxLocals at hmax
  rw [localIndex, Compile.run_get_bind] at h
  split at h
  · rename_i j hj
    obtain ⟨rfl, rfl⟩ := Prod.mk.inj (Except.ok.inj h)
    have hlt := NameTable.lt_of_find? hj
    refine ⟨.refl ht, fun T hT => ?_⟩
    change T.locals.find? name = some j.toUInt8.toNat
    rw [toNat_toUInt8 (by omega)]
    exact NameTable.find?_of_prefix hT.locals hj
  · cases h

private theorem compiles_declareLocal (name : String) :
    Compiles (declareLocal name) [] [name] fun _ T i => T.Local name i := by
  intro t i t' ht h
  have hmax := ht.locals
  unfold maxLocals at hmax
  rw [declareLocal, Compile.run_get_bind] at h
  dsimp only at h
  split at h
  · rename_i j hj
    obtain ⟨rfl, rfl⟩ := Prod.mk.inj (Except.ok.inj h)
    have hget := NameTable.getElem?_of_find? hj
    have hlt := NameTable.lt_of_find? hj
    refine ⟨⟨.refl t, ht, by simp, fun xs hxs => ?_⟩, fun T hT => ?_⟩
    · have hmem : name ∈ xs := by
        rw [← List.mem_eraseDups, ← hxs]
        exact List.mem_of_getElem? hget
      rw [hxs, List.eraseDups_append]
      simp [List.removeAll, hmem]
    · change T.locals.find? name = some j.toUInt8.toNat
      rw [toNat_toUInt8 (by omega)]
      exact NameTable.find?_of_prefix hT.locals hj
  · rename_i hnew
    split at h
    · rename_i hlt
      obtain ⟨rfl, rfl⟩ := Prod.mk.inj (Except.ok.inj h)
      have hnames := NameTable.names_intern_of_new hnew
      have hle : t.Le { t with locals := t.locals.intern name } :=
        { Tables.Le.refl t with locals := by rw [hnames]; exact prefix_push _ name }
      refine ⟨⟨hle, { ht with locals := ?_ }, by simp [Tables.sites], fun xs hxs => ?_⟩, fun T hT => ?_⟩
      · rw [NameTable.size, hnames, Array.size_push]
        exact hlt
      · have hmem : name ∉ xs := by
          rw [← List.mem_eraseDups, ← hxs]
          exact NameTable.find?_eq_none_iff.mp hnew
        rw [hnames, Array.toList_push, hxs, List.eraseDups_append]
        simp [List.removeAll, hmem, List.eraseDups_cons]
      · have hbyte : t.locals.size < 256 := Nat.lt_of_lt_of_le hlt (by decide)
        change T.locals.find? name = some t.locals.size.toUInt8.toNat
        rw [toNat_toUInt8 hbyte]
        refine NameTable.find?_of_new hnew ?_
        rw [← hnames]
        exact hT.locals
    · cases h

private theorem compiles_callSite (name : String) (kind : SiteKind) :
    Compiles (callSite name kind) [(name, kind)] [] fun n T slot => T.Slot n name kind slot := by
  intro t i t' ht h
  rw [callSite, Compile.run_get_bind] at h
  dsimp only at h
  split at h
  · rename_i hlt
    obtain ⟨rfl, rfl⟩ := Prod.mk.inj (Except.ok.inj h)
    have hle : t.Le { t with manifest := t.manifest.push name kind } :=
      { Tables.Le.refl t with sites := prefix_push _ _ }
    refine ⟨⟨hle, { ht with sites := ?_, dense := Manifest.isDense_push ht.dense name kind }, ?_,
      fun xs hxs => by simpa using hxs⟩, fun T hT => ?_⟩
    · change (t.manifest.sites.push _).size ≤ Manifest.capacity
      rw [Array.size_push]
      exact hlt
    · simp [Tables.sites, Manifest.push]
    · refine ⟨toNat_toUInt16 hlt, ?_⟩
      have hget := getElem?_of_prefix hT.sites (Array.getElem?_push_size)
      rw [← Array.getElem?_toList] at hget
      rw [Tables.sites, List.getElem?_map]
      exact congrArg (Option.map _) hget
  · cases h

private theorem compiles_elementCount (n : Nat) :
    Compiles (elementCount n) [] [] fun _ _ k => k.toNat = n := by
  unfold elementCount
  split
  · rename_i hle
    refine (Compiles.pure _).weaken fun _ _ k hk => ?_
    rw [hk, toNat_toUInt16 (by unfold maxElements at hle; omega)]
  · exact .throw _ _ _ _

private theorem compiles_argumentCount (n : Nat) :
    Compiles (argumentCount n) [] [] fun _ _ k => k.toNat = n := by
  unfold argumentCount
  split
  · rename_i hle
    refine (Compiles.pure _).weaken fun _ _ k hk => ?_
    rw [hk, toNat_toUInt8 (by unfold maxArguments at hle; omega)]
  · exact .throw _ _ _ _

private theorem compiles_loadConstant (c : Const) :
    Compiles (loadConstant c) [] [] fun _ T i => T.Loads c [i] := by
  have hmap : loadConstant c = constant c >>= fun i => pure (Instr.ldc i) := map_eq_pure_bind _ _
  rw [hmap]
  refine ((compiles_constant c).bind fun i => .pure _).weaken ?_
  rintro n T _ ⟨i, hi, rfl⟩
  exact ⟨i, hi, rfl⟩

private theorem compiles_invokeSite (code : Array Instr) (op : InvokeOp) (name : String)
    (argc : UInt8) : Compiles (invokeSite code op name argc) [(name, op.siteKind)] [] fun n T out =>
      ∃ slot, T.Slot n name op.siteKind slot ∧ out.toList = code.toList ++ [.invoke op slot argc] := by
  refine ((compiles_callSite name op.siteKind).bind fun slot => .pure _).weaken ?_
  rintro n T _ ⟨slot, hslot, rfl⟩
  exact ⟨slot, hslot, Array.toList_push⟩

mutual

private theorem compiles_expr : (e : Expr) →
    Compiles (compileExpr e) e.sites [] fun n T code => e.Emits T n code.toList
  | .null | .this => (Compiles.pure _).weaken fun _ _ _ h => by rw [h]; rfl
  | .bool b => by
    refine ((compiles_loadConstant (.bool b)).bind fun i => .pure _).weaken ?_
    rintro n T _ ⟨i, hi, rfl⟩
    exact hi
  | .int i => by
    refine ((compiles_loadConstant (.int i)).bind fun i => .pure _).weaken ?_
    rintro n T _ ⟨i, hi, rfl⟩
    exact hi
  | .float x => by
    refine ((compiles_loadConstant (.float x)).bind fun i => .pure _).weaken ?_
    rintro n T _ ⟨i, hi, rfl⟩
    exact hi
  | .text s => by
    refine ((compiles_loadConstant (.text s)).bind fun i => .pure _).weaken ?_
    rintro n T _ ⟨i, hi, rfl⟩
    exact hi
  | .var name => by
    refine ((compiles_localIndex name).bind fun i => .pure _).weaken ?_
    rintro n T _ ⟨i, hi, rfl⟩
    exact ⟨i, hi, rfl⟩
  | .classLiteral name => by
    refine ((compiles_classIndex name).bind fun i => .pure _).weaken ?_
    rintro n T _ ⟨i, hi, rfl⟩
    exact ⟨i, hi, rfl⟩
  | .list items => by
    refine (((compiles_elementCount _).bind fun k => (compiles_exprs #[] items).bind fun code =>
      .pure _).cast (by simp [Expr.sites]) rfl).weaken ?_
    rintro n T _ ⟨k, hk, code, ⟨is, his, hcode⟩, rfl⟩
    exact ⟨is, k, his, hk, by simp [hcode]⟩
  | .map entries => by
    refine (((compiles_elementCount _).bind fun k => (compiles_entries #[] entries).bind fun code =>
      .pure _).cast (by simp [Expr.sites]) rfl).weaken ?_
    rintro n T _ ⟨k, hk, code, ⟨is, his, hcode⟩, rfl⟩
    exact ⟨is, k, his, hk, by simp [hcode]⟩
  | .range first last => by
    refine (((compiles_expr first).bind fun code => (compiles_expr last).bind fun code' =>
      .pure _).cast (by simp [Expr.sites]) rfl).weaken ?_
    rintro n T _ ⟨code, hfirst, code', hlast, rfl⟩
    exact ⟨code.toList, code'.toList, hfirst, hlast, by simp⟩
  | .cast value name => by
    refine (((compiles_expr value).bind fun code => (compiles_classIndex name).bind fun i =>
      .pure _).cast (by simp [Expr.sites]) rfl).weaken ?_
    rintro n T _ ⟨code, hvalue, i, hi, rfl⟩
    exact ⟨code.toList, i, hvalue, hi, by simp⟩
  | .call receiver name args safe => by
    have hkind : (if safe then InvokeOp.callSafe else .call).siteKind = .call := by cases safe <;> rfl
    refine (((compiles_expr receiver).bind fun code => (compiles_argumentCount _).bind fun argc =>
      (compiles_exprs code args).bind fun code' => compiles_invokeSite code' _ name argc).cast
        (by simp [Expr.sites, hkind]) rfl).weaken ?_
    rintro n T out ⟨code, hreceiver, argc, hargc, code', ⟨js, hjs, hcode'⟩, slot, hslot, hout⟩
    rw [hkind] at hslot
    exact ⟨code.toList, js, slot, argc, hreceiver, hjs, hslot, hargc, by rw [hout, hcode']⟩
  | .callCurrent name args => by
    refine (((compiles_argumentCount _).bind fun argc => (compiles_exprs #[.ldthis] args).bind fun code =>
      compiles_invokeSite code .callCurrent name argc).cast
        (by simp [Expr.sites, InvokeOp.siteKind]) rfl).weaken ?_
    rintro n T out ⟨argc, hargc, code, ⟨is, his, hcode⟩, slot, hslot, hout⟩
    exact ⟨is, slot, argc, his, hslot, hargc, by rw [hout, hcode]⟩
  | .callStatic className name args => by
    refine (((compiles_classIndex className).bind fun i => (compiles_argumentCount _).bind fun argc =>
      (compiles_exprs #[.ldclass i] args).bind fun code =>
        compiles_invokeSite code .callStatic name argc).cast
          (by simp [Expr.sites, InvokeOp.siteKind]) rfl).weaken ?_
    rintro n T out ⟨i, hi, argc, hargc, code, ⟨is, his, hcode⟩, slot, hslot, hout⟩
    exact ⟨i, is, slot, argc, hi, his, hslot, hargc, by rw [hout, hcode]⟩
  | .construct className args => by
    refine (((compiles_classIndex className).bind fun i => (compiles_argumentCount _).bind fun argc =>
      (compiles_exprs #[.ldclass i] args).bind fun code =>
        compiles_invokeSite code .callNew Method.constructorName argc).cast
          (by simp [Expr.sites, InvokeOp.siteKind]) rfl).weaken ?_
    rintro n T out ⟨i, hi, argc, hargc, code, ⟨is, his, hcode⟩, slot, hslot, hout⟩
    exact ⟨i, is, slot, argc, hi, his, hslot, hargc, by rw [hout, hcode]⟩
  | .property receiver name safe => by
    refine (((compiles_expr receiver).bind fun code => (compiles_callSite name .getProperty).bind
      fun slot => .pure _).cast (by simp [Expr.sites]) rfl).weaken ?_
    rintro n T _ ⟨code, hreceiver, slot, hslot, rfl⟩
    exact ⟨code.toList, slot, hreceiver, hslot, by simp⟩
  | .binary op left right => by
    refine (((compiles_expr left).bind fun code => (compiles_expr right).bind fun code' =>
      compiles_invokeSite (code ++ code') .call op.methodName 1).cast
        (by simp [Expr.sites, InvokeOp.siteKind]) rfl).weaken ?_
    rintro n T out ⟨code, hleft, code', hright, slot, hslot, hout⟩
    exact ⟨code.toList, code'.toList, slot, hleft, hright, hslot, by rw [hout, Array.toList_append]⟩
  | .neg value => by
    refine (((compiles_expr value).bind fun code => compiles_invokeSite code .call "negative" 0).cast
      (by simp [Expr.sites, InvokeOp.siteKind]) rfl).weaken ?_
    rintro n T out ⟨code, hvalue, slot, hslot, hout⟩
    exact ⟨code.toList, slot, hvalue, hslot, hout⟩
  | .not value => by
    refine (((compiles_expr value).bind fun code => .pure _).cast (by simp [Expr.sites]) rfl).weaken ?_
    rintro n T _ ⟨code, hvalue, rfl⟩
    exact ⟨code.toList, hvalue, by simp⟩

private theorem compiles_exprs (code : Array Instr) : (es : List Expr) →
    Compiles (compileExprs code es) (allSites es) [] fun n T out =>
      ∃ is, AllEmit T n es is ∧ out.toList = code.toList ++ is
  | [] => (Compiles.pure _).weaken fun _ _ _ h => ⟨[], rfl, by simp [h]⟩
  | e :: es => by
    refine (((compiles_expr e).bind fun next => compiles_exprs (code ++ next) es).cast rfl rfl).weaken ?_
    rintro n T out ⟨next, he, is, his, hout⟩
    exact ⟨next.toList ++ is, ⟨next.toList, is, he, his, rfl⟩, by simp [hout]⟩

private theorem compiles_entries (code : Array Instr) : (es : List (String × Expr)) →
    Compiles (compileEntries code es) (entrySites es) [] fun n T out =>
      ∃ is, EntriesEmit T n es is ∧ out.toList = code.toList ++ is
  | [] => (Compiles.pure _).weaken fun _ _ _ h => ⟨[], rfl, by simp [h]⟩
  | (key, e) :: es => by
    refine (((compiles_loadConstant (.text key)).bind fun load => (compiles_expr e).bind fun next =>
      compiles_entries (code.push load ++ next) es).cast (by simp [entrySites]) rfl).weaken ?_
    rintro n T out ⟨load, hload, next, he, is, his, hout⟩
    exact ⟨[load] ++ next.toList ++ is, ⟨[load], next.toList, is, hload, he, his, rfl⟩, by simp [hout]⟩

end

mutual

private theorem compiles_stmt (pos : Nat) : (s : Stmt) →
    Compiles (compileStmt pos s) s.sites s.declared fun n T code => s.Emits T n pos code.toList
  | .declare name value => by
    refine (((compiles_expr value).bind fun code => (compiles_declareLocal name).bind fun i =>
      .pure _).cast (by simp [Stmt.sites]) (by simp [Stmt.declared])).weaken ?_
    rintro n T _ ⟨code, hvalue, i, hi, rfl⟩
    exact ⟨code.toList, i, hvalue, hi, by simp⟩
  | .assign name value => by
    refine (((compiles_expr value).bind fun code => (compiles_localIndex name).bind fun i =>
      .pure _).cast (by simp [Stmt.sites]) rfl).weaken ?_
    rintro n T _ ⟨code, hvalue, i, hi, rfl⟩
    exact ⟨code.toList, i, hvalue, hi, by simp⟩
  | .expr value => by
    refine (((compiles_expr value).bind fun code => .pure _).cast (by simp [Stmt.sites]) rfl).weaken ?_
    rintro n T _ ⟨code, hvalue, rfl⟩
    exact ⟨code.toList, hvalue, by simp⟩
  | .cond condition thenBranch elseBranch => by
    refine (((compiles_expr condition).bind fun test =>
      (compiles_block (pos + codeSize test + branchSize) #[] thenBranch).bind fun thenCode =>
        (compiles_block (pos + codeSize test + branchSize + codeSize thenCode + branchSize) #[]
          elseBranch).bind fun elseCode => .pure _).cast
            (by simp [Stmt.sites]) (by simp [Stmt.declared])).weaken ?_
    rintro n T _ ⟨test, htest, thenCode, ⟨is, his, hthen⟩, elseCode, ⟨js, hjs, helse⟩, rfl⟩
    simp only [codeSize_eq, hthen, helse, List.nil_append] at his hjs ⊢
    refine ⟨test.toList, is, js, _, _, htest, rfl, his, rfl, hjs, ?_⟩
    simp [hthen, helse]
  | .loop condition body => by
    refine (((compiles_expr condition).bind fun test =>
      (compiles_block (pos + codeSize test + branchSize) #[] body).bind fun code => .pure _).cast
        (by simp [Stmt.sites]) (by simp [Stmt.declared])).weaken ?_
    rintro n T _ ⟨test, htest, code, ⟨is, his, hcode⟩, rfl⟩
    simp only [codeSize_eq, hcode, List.nil_append] at his ⊢
    refine ⟨test.toList, is, _, htest, rfl, his, ?_⟩
    simp [hcode]
  | .ret value => by
    refine (((compiles_expr value).bind fun code => .pure _).cast (by simp [Stmt.sites]) rfl).weaken ?_
    rintro n T _ ⟨code, hvalue, rfl⟩
    exact ⟨code.toList, hvalue, by simp⟩

private theorem compiles_block (pos : Nat) (code : Array Instr) : (ss : List Stmt) →
    Compiles (compileStmts pos code ss) (blockSites ss) (declaredIn ss) fun n T out =>
      ∃ is, BlockEmits T n pos ss is ∧ out.toList = code.toList ++ is
  | [] => (Compiles.pure _).weaken fun _ _ _ h => ⟨[], rfl, by simp [h]⟩
  | s :: ss => by
    refine ((compiles_stmt pos s).bind fun next =>
      compiles_block (pos + codeSize next) (code ++ next) ss).weaken ?_
    rintro n T out ⟨next, hs, is, his, hout⟩
    rw [codeSize_eq] at his
    exact ⟨next.toList ++ is, ⟨next.toList, is, hs, his, rfl⟩, by simp [hout]⟩

end

/-- The program has the code of these statements, its operands numbered by these tables. -/
structure Compiled (stmts : List Stmt) (t : Tables) (p : Program) : Prop where
  code : ∃ is, BlockEmits t 0 0 stmts is ∧ p.code.toList = bytesOf (is ++ [.ldnull, .ret])
  constants : p.constants = t.constants.map Const.toValue
  classes : p.classes = t.classes.names
  manifest : p.manifest = t.manifest
  size : p.locals = t.locals.size
  sites : t.sites = blockSites stmts
  locals : t.locals.names.toList = (declaredIn stmts).eraseDups
  bounded : t.Bounded

theorem exists_compiled {owner : String} {stmts : List Stmt} {p : Program}
    (h : compile owner stmts = .ok p) : ∃ t, Compiled stmts t p := by
  rcases hrun : (compileStmts 0 #[] stmts).run { manifest := { owner } } with e | ⟨code, t⟩ <;>
    rw [compile, hrun] at h <;> cases h
  have hnil : ({ manifest := { owner } } : Tables).Bounded :=
    ⟨Nat.zero_le _, Nat.zero_le _, Nat.zero_le _, Nat.zero_le _, rfl⟩
  obtain ⟨hgrows, hemits⟩ := compiles_block 0 #[] stmts _ _ _ hnil hrun
  obtain ⟨is, his, hcode⟩ := hemits t (.refl t)
  refine ⟨t, ⟨is, his, ?_⟩, rfl, rfl, rfl, rfl, hgrows.sites, hgrows.locals [] rfl, hgrows.bounded⟩
  rw [toList_assemble]
  simp [hcode]

end Lang

end CachedDispatch
