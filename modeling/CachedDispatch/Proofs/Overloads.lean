import CachedDispatch.Hierarchy
import CachedDispatch.Proofs.Ranking

/-!
Overload resolution up a line of classes. Of the visible methods of a name that accept the arguments,
one of least cost is picked, and of these the first: lower classes come before higher ones, and within
a class the order of declaration counts. So a method hides those of higher classes with its parameters,
and a method that is defined once more stands where it stood.
-/
namespace CachedDispatch

namespace Method

variable {lin : Lineage} {m n : Method} {args : List Value}

/-- There is an argument for each parameter, and each can be passed. -/
def Accepts (lin : Lineage) (m : Method) (args : List Value) : Prop :=
  m.arity = args.length ∧ ∀ e ∈ m.params.zip args, (paramDistance lin e.1 e.2).isSome = true

/-- The distances of all arguments together. -/
def cost (lin : Lineage) (m : Method) (args : List Value) : Nat :=
  (m.params.zip args).foldr (fun e n => (paramDistance lin e.1 e.2).getD 0 + n) 0

private theorem totalDistance_eq_some_iff (ps : List ParamType) (args : List Value) (d : Nat) :
    totalDistance lin ps args = some d ↔
      (ps.length = args.length ∧ ∀ e ∈ ps.zip args, (paramDistance lin e.1 e.2).isSome = true)
        ∧ (ps.zip args).foldr (fun e n => (paramDistance lin e.1 e.2).getD 0 + n) 0 = d := by
  induction ps generalizing args d with
  | nil => cases args <;> simp [totalDistance]
  | cons p ps ih =>
    rcases args with _ | ⟨v, vs⟩
    · simp [totalDistance]
    have hstep : totalDistance lin (p :: ps) (v :: vs) = some d ↔
        ∃ k, paramDistance lin p v = some k
          ∧ ∃ rest, totalDistance lin ps vs = some rest ∧ k + rest = d := by
      simp [totalDistance, Option.bind_eq_some_iff]
    rw [hstep]
    rcases hp : paramDistance lin p v with _ | k
    · simp [hp]
    · simp [ih, hp, and_assoc]

theorem rank?_eq_some_iff {d : Nat} :
    m.rank? lin args = some d ↔ m.Accepts lin args ∧ m.cost lin args = d :=
  totalDistance_eq_some_iff m.params args d

/-- Nothing but the parameters decides about acceptance and cost. -/
private theorem Accepts.of_params (h : m.Accepts lin args) (hp : m.params = n.params) :
    n.Accepts lin args ∧ n.cost lin args = m.cost lin args := by
  unfold Accepts arity cost
  rw [← hp]
  exact ⟨h, rfl⟩

end Method

/-- A place among the overloads of a name in a line of classes: how many steps up, and which overload
of the class. -/
structure Spot where
  level : Nat
  index : Nat
deriving DecidableEq, Repr

/-- Lower classes come first, and within a class earlier entries. -/
def Spot.Before (p q : Spot) : Prop := p.level < q.level ∨ p.level = q.level ∧ p.index < q.index

private theorem Spot.Before.asymm {p q : Spot} (h : p.Before q) : ¬ q.Before p := by
  unfold Before at *
  omega

namespace Hierarchy

variable {h h' : Hierarchy} {lin : Lineage} {name : String} {args : List Value} {l : Lookup}
  {p q : Spot} {m n : Method}

/-- The method of a name at a spot. -/
def methodAt? (h : Hierarchy) (statics : Bool) (name : String) (p : Spot) : Option Method :=
  h.classes[p.level]?.bind fun c => (c.overloads statics name)[p.index]?

/-- All overloads of a name with their spots, from the first on. -/
private def entries (h : Hierarchy) (statics : Bool) (name : String) : List (Spot × Method) :=
  h.classes.zipIdx.flatMap fun c =>
    (c.1.overloads statics name).zipIdx.map fun m => (⟨c.2, m.2⟩, m.1)

private theorem mem_entries {statics : Bool} :
    (p, m) ∈ h.entries statics name ↔ h.methodAt? statics name p = some m := by
  rcases p with ⟨i, j⟩
  simp only [entries, methodAt?, List.mem_flatMap, List.mem_map, Prod.exists, Prod.mk.injEq,
    Spot.mk.injEq, List.mk_mem_zipIdx_iff_getElem?, Option.bind_eq_some_iff]
  constructor
  · rintro ⟨c, i, hc, n, j, hn, ⟨rfl, rfl⟩, rfl⟩
    exact ⟨c, hc, hn⟩
  · rintro ⟨c, hc, hm⟩
    exact ⟨c, i, hc, m, j, hm, ⟨rfl, rfl⟩, rfl⟩

private theorem entries_in_order (h : Hierarchy) (statics : Bool) (name : String) :
    (h.entries statics name).Pairwise fun e f => e.1.Before f.1 := by
  have hzip {α : Type} (xs : List α) : xs.zipIdx.Pairwise fun x y => x.2 < y.2 := by
    rw [← List.pairwise_map, List.zipIdx_map_snd]
    exact List.pairwise_lt_range'
  refine List.pairwise_flatMap.mpr ⟨fun c _ => ?_, (hzip h.classes).imp fun hlt e he f hf => ?_⟩
  · exact List.pairwise_map.mpr ((hzip _).imp fun hlt => Or.inr ⟨rfl, hlt⟩)
  · obtain ⟨m, -, rfl⟩ := List.mem_map.mp he
    obtain ⟨n, -, rfl⟩ := List.mem_map.mp hf
    exact Or.inl hlt

/-- The overloads of a name that the lookup sees. -/
private def visible (h : Hierarchy) (name : String) (l : Lookup) : List (Spot × Method) :=
  (h.entries l.statics name).filter fun e => l.sees e.2

private theorem candidates_eq_visible (h : Hierarchy) (name : String) (l : Lookup) :
    h.candidates name l = (h.visible name l).map Prod.snd := by
  have hfst {α : Type} (xs : List α) : xs.zipIdx.map Prod.fst = xs := List.zipIdx_map_fst 0 xs
  have hlevel (i : Nat) (ms : List Method) :
      ((ms.zipIdx.map fun m => (Spot.mk i m.2, m.1)).filter fun e => l.sees e.2).map Prod.snd
        = ms.filter l.sees := by
    rw [List.filter_map, List.map_map]
    conv => rhs; rw [← hfst ms, List.filter_map]
    rfl
  rw [visible, entries, List.filter_flatMap, List.map_flatMap]
  simp only [hlevel]
  rw [candidates, ← hfst h.classes, List.flatMap_map]
  simp only [hfst]

/-- The method of the name at a spot can answer the call. -/
structure Answers (h : Hierarchy) (lin : Lineage) (name : String) (args : List Value) (l : Lookup)
    (p : Spot) (m : Method) : Prop where
  found : h.methodAt? l.statics name p = some m
  seen : l.sees m = true
  accepts : m.Accepts lin args

/-- No method that can answer the call is cheaper, and none of the same cost comes before. -/
structure Chooses (h : Hierarchy) (lin : Lineage) (name : String) (args : List Value) (l : Lookup)
    (p : Spot) (m : Method) : Prop extends h.Answers lin name args l p m where
  least : ∀ q n, h.Answers lin name args l q n → m.cost lin args ≤ n.cost lin args
  first : ∀ q n, h.Answers lin name args l q n → n.cost lin args = m.cost lin args → q ≠ p → p.Before q

private theorem answers_iff_visible : h.Answers lin name args l p m ↔
    (p, m) ∈ h.visible name l ∧ m.rank? lin args = some (m.cost lin args) := by
  rw [Method.rank?_eq_some_iff, visible, List.mem_filter, mem_entries]
  simp only [and_true]
  exact ⟨fun ha => ⟨⟨ha.found, ha.seen⟩, ha.accepts⟩, fun ha => ⟨ha.1.1, ha.1.2, ha.2⟩⟩

theorem pickMethod_eq_none_iff : h.pickMethod lin name args l = none ↔
    ∀ p m, ¬ h.Answers lin name args l p m := by
  rw [pickMethod, pick, pickBy_eq_none_iff, candidates_eq_visible]
  constructor
  · intro hnone p m ha
    obtain ⟨hmem, hrank⟩ := answers_iff_visible.mp ha
    rw [hnone m (List.mem_map_of_mem hmem)] at hrank
    cases hrank
  · intro hno m hm
    obtain ⟨⟨p, n⟩, hmem, rfl⟩ := List.mem_map.mp hm
    rcases hrank : n.rank? lin args with _ | d
    · rfl
    · obtain ⟨hacc, hcost⟩ := Method.rank?_eq_some_iff.mp hrank
      exact absurd (answers_iff_visible.mpr ⟨hmem, Method.rank?_eq_some_iff.mpr ⟨hacc, rfl⟩⟩) (hno p n)

private theorem exists_chooses_of_pickMethod (hm : h.pickMethod lin name args l = some m) :
    ∃ p, h.Chooses lin name args l p m := by
  rw [pickMethod, pick, candidates_eq_visible] at hm
  obtain ⟨d, hrank, before, after, hsplit, hbefore, hafter⟩ := firstLeast_of_pickBy hm
  obtain ⟨hacc, rfl⟩ := Method.rank?_eq_some_iff.mp hrank
  obtain ⟨es, fs, hes, rfl, hfs⟩ := List.map_eq_append_iff.mp hsplit
  obtain ⟨⟨p, k⟩, fs, rfl, rfl, rfl⟩ := List.map_eq_cons_iff.mp hfs
  have hsorted : (es ++ (p, k) :: fs).Pairwise fun e f => e.1.Before f.1 :=
    hes ▸ (h.entries_in_order l.statics name).filter _
  have hafter_p := (List.pairwise_cons.mp (List.pairwise_append.mp hsorted).2.1).1
  -- what answers stands before the picked entry, is that entry, or stands after it
  have hcases {q : Spot} {n : Method} (ha : h.Answers lin name args l q n) :
      k.cost lin args < n.cost lin args ∨ q = p ∧ n = k
        ∨ k.cost lin args ≤ n.cost lin args ∧ p.Before q := by
    obtain ⟨hmem, hrank⟩ := answers_iff_visible.mp ha
    rw [hes, List.mem_append, List.mem_cons] at hmem
    rcases hmem with hmem | heq | hmem
    · exact Or.inl (hbefore n (List.mem_map_of_mem hmem) _ hrank)
    · exact Or.inr (Or.inl (Prod.mk.inj heq))
    · exact Or.inr (Or.inr ⟨hafter n (List.mem_map_of_mem hmem) _ hrank, hafter_p _ hmem⟩)
  have hanswers : h.Answers lin name args l p k :=
    answers_iff_visible.mpr ⟨by rw [hes]; simp, hrank⟩
  refine ⟨p, hanswers, fun q n ha => ?_, fun q n ha hcost hne => ?_⟩
  · rcases hcases ha with hlt | ⟨-, rfl⟩ | ⟨hle, -⟩
    · exact Nat.le_of_lt hlt
    · exact Nat.le_refl _
    · exact hle
  · rcases hcases ha with hlt | ⟨rfl, -⟩ | ⟨-, hafter⟩
    · exact absurd hcost (Nat.ne_of_gt hlt)
    · exact absurd rfl hne
    · exact hafter

/-- At most one spot is chosen. -/
private theorem Chooses.unique (hp : h.Chooses lin name args l p m)
    (hq : h.Chooses lin name args l q n) : p = q ∧ m = n := by
  have hcost := Nat.le_antisymm (hp.least q n hq.toAnswers) (hq.least p m hp.toAnswers)
  have hpq : p = q := by
    by_cases heq : p = q
    · exact heq
    · exact absurd (hp.first q n hq.toAnswers hcost.symm (Ne.symm heq))
        (hq.first p m hp.toAnswers hcost heq).asymm
  subst hpq
  exact ⟨rfl, Option.some.inj (hp.found.symm.trans hq.found)⟩

private theorem pickMethod_eq_some_iff : h.pickMethod lin name args l = some m ↔
    ∃ p, h.Chooses lin name args l p m := by
  refine ⟨exists_chooses_of_pickMethod, fun ⟨p, hp⟩ => ?_⟩
  rcases hn : h.pickMethod lin name args l with _ | n
  · exact absurd hp.toAnswers (pickMethod_eq_none_iff.mp hn p m)
  · obtain ⟨q, hq⟩ := exists_chooses_of_pickMethod hn
    rw [(hp.unique hq).2]

/-- A visible method hides those of its name and parameters in higher classes. -/
private theorem Chooses.not_hidden (hq : h.Chooses lin name args l q n)
    (hm : h.methodAt? l.statics name p = some m) (hseen : l.sees m = true)
    (hparams : m.params = n.params) : ¬ p.level < q.level := by
  intro hlt
  obtain ⟨hacc, hcost⟩ := hq.accepts.of_params hparams.symm
  have ha : h.Answers lin name args l p m := ⟨hm, hseen, hacc⟩
  have hne : p ≠ q := fun heq => absurd (congrArg Spot.level heq) (Nat.ne_of_lt hlt)
  have hbefore := hq.first p m ha hcost hne
  exact absurd hbefore (Spot.Before.asymm (Or.inl hlt))

/-- At each spot of `h`, `h'` has a method that a lookup takes for the same. -/
private def Mirrors (h h' : Hierarchy) (name : String) (l : Lookup) : Prop :=
  ∀ q m, h.methodAt? l.statics name q = some m → ∃ n, h'.methodAt? l.statics name q = some n
    ∧ m.params = n.params ∧ l.sees n = l.sees m

private theorem Mirrors.answers (hm : h.Mirrors h' name l) (ha : h.Answers lin name args l q m) :
    ∃ n, h'.Answers lin name args l q n ∧ n.cost lin args = m.cost lin args := by
  obtain ⟨n, hn, hparams, hseen⟩ := hm q m ha.found
  obtain ⟨hacc, hcost⟩ := ha.accepts.of_params hparams
  exact ⟨n, ⟨hn, hseen.trans ha.seen, hacc⟩, hcost⟩

private theorem Mirrors.chooses (hm : h.Mirrors h' name l) (hm' : h'.Mirrors h name l)
    (hp : h.Chooses lin name args l p m) : ∃ n, h'.Chooses lin name args l p n := by
  obtain ⟨n, hn, hcost⟩ := hm.answers hp.toAnswers
  refine ⟨n, hn, fun q k hk => ?_, fun q k hk heq hne => ?_⟩
  · obtain ⟨k', hk', hcost'⟩ := hm'.answers hk
    rw [hcost, ← hcost']
    exact hp.least q k' hk'
  · obtain ⟨k', hk', hcost'⟩ := hm'.answers hk
    exact hp.first q k' hk' (hcost'.trans (heq.trans hcost)) hne

end Hierarchy

private theorem getElem?_insertMethod (supersedes : Method → Bool) (m : Method) (ms : List Method)
    (j : Nat) : (insertMethod supersedes m ms)[j]?
      = if j = ms.findIdx supersedes then some m else ms[j]? := by
  induction ms generalizing j with
  | nil => cases j <;> simp [insertMethod]
  | cons n ms ih =>
    rw [insertMethod, List.findIdx_cons]
    cases supersedes n <;> cases j <;> simp [ih]

/-- Where a class has the signature of `m` among the overloads of its name: the end if it does not have
it yet. -/
def Class.indexFor (c : Class) (m : Method) : Nat :=
  (c.overloads m.isStatic m.name).findIdx (·.sameSignature m)

private theorem Class.params_of_indexFor {c : Class} {m n : Method}
    (h : (c.overloads m.isStatic m.name)[c.indexFor m]? = some n) : n.params = m.params := by
  obtain ⟨hlt, rfl⟩ := List.getElem?_eq_some_iff.mp h
  have hsign : (c.overloads m.isStatic m.name)[c.indexFor m].sameSignature m = true :=
    List.findIdx_getElem (p := fun k : Method => k.sameSignature m)
  simp only [Method.sameSignature, Bool.and_eq_true, decide_eq_true_eq] at hsign
  exact hsign.2

private theorem Class.getElem?_overloads_putMethod (c : Class) (m : Method) (statics : Bool)
    (name : String) (j : Nat) :
    ((c.putMethod m).overloads statics name)[j]?
      = if statics = m.isStatic ∧ name = m.name ∧ j = c.indexFor m then some { m with declaring := c.id }
        else (c.overloads statics name)[j]? := by
  rw [c.overloads_putMethod]
  split
  · rename_i hs
    obtain ⟨rfl, rfl⟩ := hs
    simp only [getElem?_insertMethod, Class.indexFor, true_and]
  · rename_i hs
    rw [if_neg fun h => hs ⟨h.1, h.2.1⟩]

namespace Hierarchy

variable {h h' : Hierarchy} {lin : Lineage} {name : String} {args : List Value} {l : Lookup}
  {q : Spot} {m n : Method} {c : Class} {i : Nat}

/-- `h'` differs from `h` in one class, `i` steps up, in which `m` has been defined. -/
def DefinesIn (h h' : Hierarchy) (i : Nat) (c : Class) (m : Method) : Prop :=
  ∃ below above c', below.length = i ∧ h.classes = below ++ c :: above
    ∧ h'.classes = below ++ c' :: above ∧ (c' = c.putMethod m ∨ c' = c.addMethod m)

/-- A definition takes the spot of its signature, and all other spots stay. -/
private theorem DefinesIn.methodAt? (hd : h.DefinesIn h' i c m) (statics : Bool) (name : String)
    (q : Spot) : h'.methodAt? statics name q
      = if statics = m.isStatic ∧ name = m.name ∧ q = ⟨i, c.indexFor m⟩ then
          some { m with declaring := c.id }
        else h.methodAt? statics name q := by
  obtain ⟨below, above, c', rfl, hh, hh', hc⟩ := hd
  have hsame : c'.overloads statics name = (c.putMethod m).overloads statics name := by
    rcases hc with rfl | rfl <;> rfl
  rcases q with ⟨level, j⟩
  unfold Hierarchy.methodAt?
  rw [hh, hh']
  by_cases hlevel : level = below.length
  · subst hlevel
    simp [hsame, c.getElem?_overloads_putMethod m]
  · have hlevels : (below ++ c' :: above)[level]? = (below ++ c :: above)[level]? := by
      rw [List.getElem?_append, List.getElem?_append]
      split
      · rfl
      · rw [List.getElem?_cons, List.getElem?_cons, if_neg (by omega), if_neg (by omega)]
    simp [hlevels, hlevel]

/-- If it is as visible as the method that it takes the place of, every call goes to the spot that it
went to before. -/
private theorem DefinesIn.exists_chooses_iff (hd : h.DefinesIn h' i c m)
    (hn : h.methodAt? m.isStatic m.name ⟨i, c.indexFor m⟩ = some n)
    (hseen : l.sees n = l.sees { m with declaring := c.id }) :
    (∃ k, h'.Chooses lin name args l q k) ↔ ∃ k, h.Chooses lin name args l q k := by
  have hparams : n.params = m.params := by
    obtain ⟨below, above, c', rfl, hh, -⟩ := hd
    exact Class.params_of_indexFor (by simpa [Hierarchy.methodAt?, hh] using hn)
  have hto : h.Mirrors h' name l := by
    intro q k hk
    rw [hd.methodAt?]
    split
    · rename_i hq
      obtain ⟨hs, hname, rfl⟩ := hq
      rw [hs, hname, hn] at hk
      obtain rfl := Option.some.inj hk
      exact ⟨_, rfl, hparams, hseen.symm⟩
    · exact ⟨k, hk, rfl, rfl⟩
  have hfrom : h'.Mirrors h name l := by
    intro q k hk
    rw [hd.methodAt?] at hk
    split at hk
    · rename_i hq
      obtain ⟨hs, hname, rfl⟩ := hq
      obtain rfl := Option.some.inj hk
      exact ⟨n, hs ▸ hname ▸ hn, hparams.symm, hseen⟩
    · exact ⟨k, hk, rfl, rfl⟩
  exact ⟨fun ⟨_, hk⟩ => hfrom.chooses hto hk, fun ⟨_, hk⟩ => hto.chooses hfrom hk⟩

/-- The method that is picked is the first of least cost, so methods hide those of higher classes with
their parameters. Defining a method changes the entry of its signature and no other; a new entry is
the last of its class. -/
theorem pickMethod_first_least (h : Hierarchy) (lin : Lineage) (name : String) (args : List Value)
    (l : Lookup) :
    (h.pickMethod lin name args l = none ↔ ∀ p m, ¬ h.Answers lin name args l p m)
      ∧ (∀ m, h.pickMethod lin name args l = some m ↔ ∃ p, h.Chooses lin name args l p m)
      ∧ (∀ p q m n, h.methodAt? l.statics name p = some m → h.methodAt? l.statics name q = some n →
          p.level < q.level → m.params = n.params → l.sees m = true →
          ¬ h.Chooses lin name args l q n)
      ∧ ∀ h' i c m, h.DefinesIn h' i c m →
          (∀ statics name q, h'.methodAt? statics name q
            = if statics = m.isStatic ∧ name = m.name ∧ q = ⟨i, c.indexFor m⟩ then
                some { m with declaring := c.id }
              else h.methodAt? statics name q)
          ∧ ∀ n, h.methodAt? m.isStatic m.name ⟨i, c.indexFor m⟩ = some n →
              l.sees n = l.sees { m with declaring := c.id } →
              ∀ q, (∃ k, h'.Chooses lin name args l q k) ↔ ∃ k, h.Chooses lin name args l q k :=
  ⟨pickMethod_eq_none_iff, fun _ => pickMethod_eq_some_iff,
    fun _ _ _ _ hm _ hlt hparams hseen hq => hq.not_hidden hm hseen hparams hlt,
    fun _ _ _ _ hd => ⟨hd.methodAt?, fun _ hn hseen _ => hd.exists_chooses_iff hn hseen⟩⟩

def draw (declaring : TypeId) (params : List ParamType) : Method where
  name := "draw"
  declaring
  params
  code := .script (.seq [])

/-- A class with two overloads, the second with the parameters of a method of its parent. -/
def drawn : Hierarchy where
  own := { id := ⟨65⟩, name := "Circle", kind := .dynamic
           methods := [("draw", [draw ⟨65⟩ [.exact .float], draw ⟨65⟩ [.any]])] }
  ancestors := [{ id := ⟨64⟩, name := "Shape", kind := .dynamic
                  methods := [("draw", [draw ⟨64⟩ [.any]])] }]

theorem pickMethod_first_least_drawn :
    drawn.methodAt? false "draw" ⟨1, 0⟩ = some (draw ⟨64⟩ [.any])
      ∧ ¬ drawn.Chooses (fun _ => []) "draw" [.text "a"] (.instanceFor .object) ⟨1, 0⟩ (draw ⟨64⟩ [.any])
      ∧ ∃ p, drawn.Chooses (fun _ => []) "draw" [.text "a"] (.instanceFor .object) p
          (draw ⟨65⟩ [.any]) := by
  obtain ⟨-, hsome, hhides, -⟩ :=
    pickMethod_first_least drawn (fun _ => []) "draw" [.text "a"] (.instanceFor .object)
  exact ⟨rfl, hhides ⟨0, 1⟩ ⟨1, 0⟩ _ _ rfl rfl (by decide) rfl rfl, (hsome _).mp rfl⟩

end Hierarchy

end CachedDispatch
