import CachedDispatch.Proofs.NativeCalls

/-!
Arithmetic on integers. Sums, differences, products and negations wrap around in 64 bits and never fail.
Division goes toward zero and fails by zero only. Quotient and remainder make up the dividend again, also
where the quotient does not fit: the least integer divided by minus one is the least integer.
-/
namespace CachedDispatch

open World

namespace Word

variable {a b : Int64}

/-- The quotient is exact but for the one that does not fit. -/
private theorem toInt_div_of_not_overflow (h : ¬ (a = .minValue ∧ b = -1)) :
    (a / b).toInt = a.toInt.tdiv b.toInt := by
  by_cases ha : a = .minValue
  · exact Int64.toInt_div_of_ne_right a b fun hb => h ⟨ha, hb⟩
  · exact Int64.toInt_div_of_ne_left a b ha

private theorem div_mul_add_mod (a b : Int64) : a / b * b + a % b = a := by
  by_cases h : a = .minValue ∧ b = -1
  · obtain ⟨rfl, rfl⟩ := h
    decide
  · have hexact : (a / b).toInt * b.toInt + (a % b).toInt = a.toInt := by
      rw [toInt_div_of_not_overflow h, Int64.toInt_mod]
      exact Int.tdiv_mul_add_tmod a.toInt b.toInt
    have hwrapped := congrArg Int64.ofInt hexact
    rwa [Int64.ofInt_add, Int64.ofInt_mul, Int64.ofInt_toInt, Int64.ofInt_toInt, Int64.ofInt_toInt,
      Int64.ofInt_toInt] at hwrapped

/-- A remainder other than zero has the sign of the dividend. -/
private theorem sign_mod (a b : Int64) : a % b = 0 ∨ (a % b).toInt.sign = a.toInt.sign := by
  by_cases h : b.toInt ∣ a.toInt
  · left
    rw [← Int64.toInt_inj, Int64.toInt_mod]
    exact Int.tmod_eq_zero_of_dvd h
  · right
    rw [Int64.toInt_mod, Int.sign_tmod, if_neg h]

private theorem natAbs_mod_lt (hb : b ≠ 0) (a : Int64) : (a % b).toInt.natAbs < b.toInt.natAbs := by
  have hpos : 0 < b.toInt.natAbs :=
    Int.natAbs_pos.mpr fun hzero => hb (Int64.toInt_inj.mp hzero)
  rw [Int64.toInt_mod, Int.natAbs_tmod]
  exact Nat.mod_lt _ hpos

end Word

/-- Multiplies the quotient by the divisor and adds the remainder. -/
def recompose (run : Runner) (current : Bool) (intdiv multiply mod plus : SlotRef) (a b : Int64) :
    Exec Fault Value := do
  let quotient ← callAt run current intdiv (.int a) [.int b]
  let product ← callAt run current multiply quotient [.int b]
  let remainder ← callAt run current mod (.int a) [.int b]
  callAt run current plus product [remainder]

/-- What it is to divide one integer by another. -/
structure World.Divides (w : World) (a b q r : Int64) : Prop where
  intdiv : w.Computes (.int a) "intdiv" [.int b] (.ok (.int q))
  mod : w.Computes (.int a) "mod" [.int b] (.ok (.int r))
  /-- The quotient goes toward zero, if it fits. -/
  quotient : if a = .minValue ∧ b = -1 then q = a else q.toInt = a.toInt.tdiv b.toInt
  sign : r = 0 ∨ r.toInt.sign = a.toInt.sign
  bound : r.toInt.natAbs < b.toInt.natAbs
  /-- Quotient and remainder make up the dividend. -/
  whole : ∀ script current intdiv multiply mod plus, w.SlotNamed intdiv "intdiv" →
    w.SlotNamed multiply "multiply" → w.SlotNamed mod "mod" → w.SlotNamed plus "plus" →
    ∃ w', (recompose (.ofScripts script) current intdiv multiply mod plus a b).result.run w
      = .ok (.ok (.int a), w')

/-- What calls on an integer with another one come to. -/
structure World.Calculates (w : World) (a b : Int64) : Prop where
  plus : w.Computes (.int a) "plus" [.int b] (.ok (.int (.ofInt (a.toInt + b.toInt))))
  minus : w.Computes (.int a) "minus" [.int b] (.ok (.int (.ofInt (a.toInt - b.toInt))))
  multiply : w.Computes (.int a) "multiply" [.int b] (.ok (.int (.ofInt (a.toInt * b.toInt))))
  negative : w.Computes (.int a) "negative" [] (.ok (.int (.ofInt (-a.toInt))))
  byZero : b = 0 → w.Computes (.int a) "intdiv" [.int b] (.error divisionByZero)
    ∧ w.Computes (.int a) "mod" [.int b] (.error divisionByZero)
  divides : b ≠ 0 → ∃ q r, w.Divides a b q r

namespace World.Plain

variable {w : World}

/-- Of the operations on two integers that share a name, the one for integers is chosen. -/
private theorem computes_binary (h : w.Plain .integer) {name : String} {op : IntegerOp}
    {ms : List Method} (hoffers : ∀ k, BuiltinType.integer.offers k name
      = { Method.ofPrimitive name [.exact .int] (.integer op) with declaring := .int } :: ms)
    (a b : Int64) {answer : Except Fault Value}
    (happly : ∀ names, (op.apply names (.int a) [.int b]).mapError Fault.bare = answer) :
    w.Computes (.int a) name [.int b] answer :=
  h.computes_exact rfl hoffers rfl [.int] rfl (by decide) (fun _ => rfl) fun names _ => happly names

variable (h : w.Plain .integer) (a b : Int64)
include h

private theorem computes_plus : w.Computes (.int a) "plus" [.int b] (.ok (.int (a + b))) :=
  h.computes_binary (fun k => BuiltinType.offers_eq _ k rfl) a b fun _ => rfl

private theorem computes_multiply : w.Computes (.int a) "multiply" [.int b] (.ok (.int (a * b))) :=
  h.computes_binary (fun k => BuiltinType.offers_eq _ k rfl) a b fun _ => rfl

/-- Division fails by zero only. -/
private theorem computes_division {name : String} {op : IntegerOp} {ms : List Method}
    (hoffers : ∀ k, BuiltinType.integer.offers k name
      = { Method.ofPrimitive name [.exact .int] (.integer op) with declaring := .int } :: ms)
    {c : Int64} (happly : ∀ names, op.apply names (.int a) [.int b]
      = if b = 0 then .error divisionByZero else .ok (.int c)) :
    w.Computes (.int a) name [.int b] (if b = 0 then .error divisionByZero else .ok (.int c)) := by
  refine h.computes_binary hoffers a b fun names => ?_
  rw [happly]
  split <;> rfl

private theorem computes_intdiv : w.Computes (.int a) "intdiv" [.int b]
    (if b = 0 then .error divisionByZero else .ok (.int (a / b))) :=
  h.computes_division a b (fun k => BuiltinType.offers_eq _ k rfl) fun _ => by
    change (if b = 0 then _ else _) = _
    split <;> rfl

private theorem computes_mod : w.Computes (.int a) "mod" [.int b]
    (if b = 0 then .error divisionByZero else .ok (.int (a % b))) :=
  h.computes_division a b (fun k => BuiltinType.offers_eq _ k rfl) fun _ => by
    change (if b = 0 then _ else _) = _
    split <;> rfl

variable {a b}

private theorem result_recompose (hb : b ≠ 0) {intdiv multiply mod plus : SlotRef}
    (hi : w.SlotNamed intdiv "intdiv") (hm : w.SlotNamed multiply "multiply") (hr : w.SlotNamed mod "mod")
    (hp : w.SlotNamed plus "plus") (script : Script.Body → Frame → Exec Fault Value) (current : Bool) :
    ∃ w', (recompose (.ofScripts script) current intdiv multiply mod plus a b).result.run w
      = .ok (.ok (.int a), w') := by
  obtain ⟨w₁, h₁, hw₁, hs₁⟩ := (h.computes_intdiv a b).exists_result h hi script current
  rw [if_neg hb] at h₁
  obtain ⟨w₂, h₂, hw₂, hs₂⟩ :=
    (hw₁.computes_multiply (a / b) b).exists_result hw₁ (hs₁ _ _ hm) script current
  obtain ⟨w₃, h₃, hw₃, hs₃⟩ :=
    (hw₂.computes_mod a b).exists_result hw₂ (hs₂ _ _ (hs₁ _ _ hr)) script current
  rw [if_neg hb] at h₃
  obtain ⟨w₄, h₄, -⟩ := (hw₃.computes_plus (a / b * b) (a % b)).exists_result hw₃
    (hs₃ _ _ (hs₂ _ _ (hs₁ _ _ hp))) script current
  rw [Word.div_mul_add_mod] at h₄
  refine ⟨w₄, ?_⟩
  rw [recompose, Exec.result_bind, h₁]
  dsimp only
  rw [Exec.result_bind, h₂]
  dsimp only
  rw [Exec.result_bind, h₃]
  exact h₄

private theorem divides (hb : b ≠ 0) : w.Divides a b (a / b) (a % b) where
  intdiv := by simpa only [if_neg hb] using h.computes_intdiv a b
  mod := by simpa only [if_neg hb] using h.computes_mod a b
  quotient := by
    split
    · obtain ⟨rfl, rfl⟩ := ‹a = .minValue ∧ b = -1›
      rfl
    · exact Word.toInt_div_of_not_overflow ‹_›
  sign := Word.sign_mod a b
  bound := Word.natAbs_mod_lt hb a
  whole script current _ _ _ _ hi hm hr hp := h.result_recompose hb hi hm hr hp script current

end World.Plain

/-- Where the types of integers and of objects have not been touched and no category is in force,
arithmetic on integers comes to this. -/
theorem integers_calculate {w : World} (h : w.Plain .integer) (a b : Int64) : w.Calculates a b where
  plus := by
    rw [Int64.ofInt_add, Int64.ofInt_toInt, Int64.ofInt_toInt]
    exact h.computes_plus a b
  minus := by
    rw [Int64.ofInt_sub, Int64.ofInt_toInt, Int64.ofInt_toInt]
    exact h.computes_binary (fun k => BuiltinType.offers_eq _ k rfl) a b fun _ => rfl
  multiply := by
    rw [Int64.ofInt_mul, Int64.ofInt_toInt, Int64.ofInt_toInt]
    exact h.computes_multiply a b
  negative := by
    rw [Int64.ofInt_neg, Int64.ofInt_toInt]
    exact h.computes_exact rfl (fun k => BuiltinType.offers_eq _ k rfl) rfl [] rfl (by decide)
      (fun _ => rfl) fun _ _ => rfl
  byZero hb := ⟨by simpa only [if_pos hb] using h.computes_intdiv a b,
    by simpa only [if_pos hb] using h.computes_mod a b⟩
  divides hb := ⟨a / b, a % b, h.divides hb⟩

namespace Divided

/-- A slot has been used to divide. -/
def world : World :=
  ((initial {}).addTable (.ofSites .object 0
    [("intdiv", .call), ("multiply", .call), ("mod", .call), ("plus", .call)])).2.planned
      (.call false (.int 7) [.int 2])

private theorem plain_world : world.Plain .integer := by
  have hfirst : (initial {}).Attained := ⟨{}, {}, .refl⟩
  have huntouched : ∀ b, world.Untouched b := untouched_of_stamps (by decide +kernel)
  exact ⟨(hfirst.deed (.addTable (by decide) .object _)).planned _, huntouched .integer, huntouched .object,
    rfl⟩

end Divided

/-- The slot remembers how to divide. It divides the least integer by minus one and fails by zero. -/
theorem integers_calculate_least : Divided.world.Plain .integer
    ∧ (Divided.world.slot? ⟨0⟩ 0).map (·.site.tag) = some .hostMethod
    ∧ Divided.world.Answers (.ofScripts (Script.evalBody 0)) ⟨0⟩ 0
      (.call false (.int .minValue) [.int (-1)]) (.ok (.int .minValue))
    ∧ Divided.world.Answers (.ofScripts (Script.evalBody 0)) ⟨0⟩ 2
      (.call true (.int .minValue) [.int (-1)]) (.ok (.int 0))
    ∧ (∃ w', (recompose (.ofScripts (Script.evalBody 0)) false ⟨⟨0⟩, 0⟩ ⟨⟨0⟩, 1⟩ ⟨⟨0⟩, 2⟩ ⟨⟨0⟩, 3⟩ .minValue
      (-1)).result.run Divided.world = .ok (.ok (.int .minValue), w'))
    ∧ Divided.world.Answers (.ofScripts (Script.evalBody 0)) ⟨0⟩ 0
      (.call false (.int .minValue) [.int 0])
      (.error (.thrown "ArithmeticException" "Division by zero")) := by
  have hplain := Divided.plain_world
  have hnames : Divided.world.SlotNamed ⟨⟨0⟩, 0⟩ "intdiv" ∧ Divided.world.SlotNamed ⟨⟨0⟩, 1⟩ "multiply"
      ∧ Divided.world.SlotNamed ⟨⟨0⟩, 2⟩ "mod" ∧ Divided.world.SlotNamed ⟨⟨0⟩, 3⟩ "plus" := by
    decide +kernel
  obtain ⟨hi, hm, hr, hp⟩ := hnames
  obtain ⟨q, r, hd⟩ := (integers_calculate hplain .minValue (-1)).divides (by decide)
  obtain rfl : q = .minValue := by simpa only [and_self, if_true] using hd.quotient
  obtain rfl : r = 0 := by
    have hzero : r.toInt.natAbs = 0 := Nat.lt_one_iff.mp hd.bound
    exact Int64.toInt_inj.mp (Int.natAbs_eq_zero.mp hzero)
  obtain ⟨w₁, h₁⟩ := hd.intdiv _ hi (Script.evalBody 0) false
  obtain ⟨w₂, h₂⟩ := hd.mod _ hr (Script.evalBody 0) true
  obtain ⟨w₃, h₃⟩ := ((integers_calculate hplain .minValue 0).byZero rfl).1 _ hi (Script.evalBody 0) false
  exact ⟨hplain, by decide +kernel, h₁.answers, h₂.answers,
    hd.whole (Script.evalBody 0) false _ _ _ _ hi hm hr hp, h₃.answers⟩

end CachedDispatch
