import CachedDispatch.Proofs.Emission
import CachedDispatch.Proofs.Stepping

/-!
Compiled code does what its source says: the machine performs expressions by pushing their values, and
statements by changing local variables, until the program ends or goes on for ever.
-/
namespace CachedDispatch.Lang

open Machine

/-- The unit has the program of these tables, and is bound as the setting says. -/
structure Bound (c : Setting) (u : LoadedUnit) (t : Tables) : Prop where
  table : c.table = u.table
  constants : ∀ (i : Nat) (k : Const), t.constants[i]? = some k →
    u.program.constants[i]? = some k.toValue
  classes : ∀ name i, t.Class name i →
    ∃ type, c.typeOf name = some type ∧ u.classes[i.toNat]? = some type
  sites : c.sites = t.sites
  slots : u.program.manifest.size = t.manifest.size
  locals : t.locals.names.toList.Nodup
  /-- Branches can name every place of the code. -/
  size : u.program.code.size < 4294967296

/-- The local variables as a machine keeps them. -/
def Tables.frame (t : Tables) (env : Locals) : Array Value := t.locals.names.map env

section Frame

variable {t : Tables} {name : String} {i : UInt8}

private theorem Tables.Local.getElem?_names (h : t.Local name i) :
    t.locals.names[i.toNat]? = some name := by
  have hget := NameTable.getElem?_of_find? h
  rwa [Array.getElem?_toList] at hget

private theorem Tables.Local.getElem?_frame (h : t.Local name i) (env : Locals) :
    (t.frame env)[i.toNat]? = some (env name) := by
  rw [frame, Array.getElem?_map, h.getElem?_names]
  rfl

private theorem Tables.Local.lt_frame (h : t.Local name i) (env : Locals) :
    i.toNat < (t.frame env).size := (Array.getElem?_eq_some_iff.mp (h.getElem?_frame env)).1

/-- Each variable has a place of its own. -/
private theorem Tables.Local.set_frame (h : t.Local name i) (hn : t.locals.names.toList.Nodup)
    (env : Locals) (v : Value) :
    (t.frame env).setIfInBounds i.toNat v = t.frame (Function.update env name v) := by
  refine Array.ext_getElem? fun j => ?_
  rw [Array.getElem?_setIfInBounds, if_pos (h.lt_frame env)]
  split
  · rename_i hj
    subst hj
    rw [h.getElem?_frame, Function.update_self]
  · rename_i hj
    rw [frame, frame, Array.getElem?_map, Array.getElem?_map]
    rcases hx : t.locals.names[j]? with _ | x
    · rfl
    · have hne : x ≠ name := by
        rintro rfl
        have hi := h.getElem?_names
        rw [← Array.getElem?_toList] at hx hi
        exact hj ((List.getElem?_inj (List.getElem?_eq_some_iff.mp hi).1 hn).mp (hi.trans hx.symm))
      rw [Option.map_some, Option.map_some, Function.update_of_ne hne]

end Frame

private theorem rangeValues_eq_inclusive (first last : Int64) :
    rangeValues first last = inclusive first last := by
  unfold rangeValues inclusive
  by_cases h : first ≤ last
  · have hle := Int64.le_iff_toInt_le.mp h
    have hlength : (last.toInt - first.toInt + 1).toNat = (last.toInt - first.toInt).natAbs + 1 := by
      omega
    simp only [if_pos h, hlength, List.map_map]
    rfl
  · have hlt : last.toInt < first.toInt := by
      rw [Int64.le_iff_toInt_le] at h
      omega
    have hlength : (first.toInt - last.toInt + 1).toNat = (last.toInt - first.toInt).natAbs + 1 := by
      omega
    -- The machine counts upwards from the smaller end and turns the list around.
    simp only [if_neg h, hlength]
    refine List.ext_getElem (by simp) fun i hi _ => ?_
    simp only [List.length_map, List.length_reverse, List.length_range] at hi
    simp only [List.getElem_map, List.getElem_reverse, List.getElem_range, List.length_map,
      List.length_range]
    congr 2
    omega

/-- Keys and values in turn, as they are pushed. -/
private def operandsOf (entries : List (String × Value)) : List Value :=
  entries.flatMap fun e => [.text e.1, e.2]

private theorem pairEntries?_operandsOf (entries : List (String × Value)) :
    pairEntries? (operandsOf entries) = some entries := by
  induction entries with
  | nil => rfl
  | cons e entries ih =>
    change (pairEntries? (operandsOf entries)).map ((e.1, e.2) :: ·) = _
    rw [ih]
    rfl

private theorem length_operandsOf (entries : List (String × Value)) :
    (operandsOf entries).length = 2 * entries.length := by
  induction entries with
  | nil => rfl
  | cons e entries ih =>
    change (operandsOf entries).length + 2 = 2 * (entries.length + 1)
    omega

/-- As many values as expressions. -/
private theorem length_evalAll (c : Setting) (env : Locals) (n : Nat) (es : List Expr) {w w' : World}
    {vs : List Value} (h : (evalAll c env n es).result.run w = .ok (.ok vs, w')) :
    vs.length = es.length := by
  induction es generalizing n w vs with
  | nil =>
    cases h
    rfl
  | cons e es ih =>
    rw [evalAll] at h
    obtain ⟨v, w₁, -, h⟩ := Exec.bind_eq_ok h
    obtain ⟨us, w₂, hes, h⟩ := Exec.bind_eq_ok h
    cases h
    rw [List.length_cons, List.length_cons, ih _ hes]

private theorem length_evalEntries (c : Setting) (env : Locals) (n : Nat) (es : List (String × Expr))
    {w w' : World} {vs : List (String × Value)}
    (h : (evalEntries c env n es).result.run w = .ok (.ok vs, w')) : vs.length = es.length := by
  induction es generalizing n w vs with
  | nil =>
    cases h
    rfl
  | cons e es ih =>
    obtain ⟨key, e⟩ := e
    rw [evalEntries] at h
    obtain ⟨v, w₁, -, h⟩ := Exec.bind_eq_ok h
    obtain ⟨us, w₂, hes, h⟩ := Exec.bind_eq_ok h
    cases h
    rw [List.length_cons, List.length_cons, ih _ hes]

/-- A machine of the setting. -/
def Setting.machine (c : Setting) (locals : Array Value) (ip : Nat) (stack : List Value) : Machine :=
  ⟨ip, stack, locals, c.this⟩

theorem length_bytesOf_append (pos : Nat) (is js : List Instr) :
    pos + (bytesOf (is ++ js)).length = pos + (bytesOf is).length + (bytesOf js).length := by
  rw [bytesOf_append, List.length_append, Nat.add_assoc]

private theorem length_bytesOf_singleton (i : Instr) : (bytesOf [i]).length = i.size := by
  simp [Instr.size]

section Instructions

variable {c : Setting} {u : LoadedUnit} {t : Tables} {ip pos n : Nat} {stack : List Value}
  {locals : Array Value} {i : Instr} {v : Value}

private theorem popMany?_machine {vs : List Value} (hn : n = vs.length) :
    (c.machine locals ip (vs.reverse ++ stack)).popMany? n = some (vs, c.machine locals ip stack) := by
  subst hn
  simp [popMany?, Setting.machine]

private theorem invocation_machine {op : InvokeOp} {slot : Nat} {args : List Value} {receiver : Value}
    {request : Request} (hn : n = args.length) (hr : requestFor op receiver args = .ok request) :
    (c.machine locals ip (args.reverse ++ receiver :: stack)).invocation op slot n
      = .dispatch slot (op = .callSafe) request (c.machine locals ip stack) := by
  rw [invocation, popMany?_machine hn]
  dsimp only [Setting.machine]
  rw [hr]

/-- The instruction pushes a value. -/
private theorem performs_load (hat : CodeAt u.program.code pos [i]) (hi : i ≠ .ret)
    (he : ∀ ip, exec u (c.machine locals ip stack) i = pure (.next (c.machine locals ip (v :: stack)))) :
    Performs c.runner u locals (c.machine locals pos stack) (pure v)
      fun v => c.machine locals (pos + (bytesOf [i]).length) (v :: stack) := by
  rw [length_bytesOf_singleton]
  exact Performs.next (m := c.machine locals pos stack) hat.decodeAt_eq hi (he _) (.pure rfl)

/-- The instruction makes a value of its operands. -/
private theorem performs_fresh {operands : List Value} {make : Nat → Value}
    (hat : CodeAt u.program.code pos [i]) (hi : i ≠ .ret)
    (he : ∀ ip, exec u (c.machine locals ip operands) i = (c.machine locals ip stack).build make) :
    Performs c.runner u locals (c.machine locals pos operands) (fresh make)
      fun v => c.machine locals (pos + (bytesOf [i]).length) (v :: stack) := by
  rw [length_bytesOf_singleton]
  exact Performs.build (m := c.machine locals pos operands) hat.decodeAt_eq hi (he _)

/-- The instruction asks a call site about its operands. -/
private theorem performs_ask {operands : List Value} {name : String} {kind : SiteKind} {slot : UInt16}
    {safe : Bool} {request : Request} (hb : Bound c u t) (hat : CodeAt u.program.code pos [i])
    (hi : i ≠ .ret) (hslot : t.Slot n name kind slot)
    (he : ∀ ip, exec u (c.machine locals ip operands) i
      = pure (.dispatch slot.toNat safe request (c.machine locals ip stack))) :
    Performs c.runner u locals (c.machine locals pos operands) (c.ask n name kind safe request)
      fun v => c.machine locals (pos + (bytesOf [i]).length) (v :: stack) := by
  obtain ⟨rfl, hsite⟩ := hslot
  have hlt : slot.toNat < u.program.manifest.size := by
    rw [hb.slots, ← t.length_sites]
    exact (List.getElem?_eq_some_iff.mp hsite).1
  rw [Setting.ask, if_pos (hb.sites ▸ hsite), hb.table, length_bytesOf_singleton]
  exact Performs.ask (m := c.machine locals pos operands) hat.decodeAt_eq hi (he _) hlt

private theorem performs_invoke {op : InvokeOp} {slot : UInt16} {argc : UInt8} (args : List Value)
    {receiver : Value} {request : Request} {name : String} {kind : SiteKind} {safe : Bool}
    (hb : Bound c u t) (hat : CodeAt u.program.code pos [.invoke op slot argc])
    (hslot : t.Slot n name kind slot)
    (hargc : argc.toNat = args.length) (hr : requestFor op receiver args = .ok request)
    (hsafe : op = .callSafe ↔ safe) :
    Performs c.runner u locals (c.machine locals pos (args.reverse ++ receiver :: stack))
      (c.ask n name kind safe request)
      fun v => c.machine locals (pos + (bytesOf [.invoke op slot argc]).length) (v :: stack) := by
  refine performs_ask hb hat nofun hslot fun ip => ?_
  rw [exec, invocation_machine hargc hr]
  simp only [hsafe, Bool.decide_eq_true]

/-- Arguments are evaluated over their receiver, and the call site is asked about both. -/
private theorem performs_invocation {op : InvokeOp} {slot : UInt16} {argc : UInt8} {env : Locals}
    {first ip : Nat} {args : List Expr} {receiver : Value} {request : List Value → Request}
    {name : String} {kind : SiteKind} {safe : Bool} (hb : Bound c u t)
    (hargs : Performs c.runner u locals (c.machine locals ip (receiver :: stack))
      (evalAll c env first args) fun vs => c.machine locals pos (vs.reverse ++ receiver :: stack))
    (hat : CodeAt u.program.code pos [.invoke op slot argc]) (hslot : t.Slot n name kind slot)
    (hargc : argc.toNat = args.length) (hr : ∀ vs, requestFor op receiver vs = .ok (request vs))
    (hsafe : op = .callSafe ↔ safe) :
    Performs c.runner u locals (c.machine locals ip (receiver :: stack))
      (evalAll c env first args >>= fun vs => c.ask n name kind safe (request vs))
      fun v => c.machine locals (pos + (bytesOf [.invoke op slot argc]).length) (v :: stack) :=
  hargs.bind_of (length_evalAll c env first args) fun vs hvs =>
    performs_invoke vs hb hat hslot (hargc.trans hvs.symm) (hr vs) hsafe

private theorem performs_constant {k : Const} {code : List Instr} (hb : Bound c u t)
    (h : t.Loads k code)
    (hat : CodeAt u.program.code pos code) :
    Performs c.runner u locals (c.machine locals pos stack) (pure k.toValue)
      fun v => c.machine locals (pos + (bytesOf code).length) (v :: stack) := by
  obtain ⟨i, hi, rfl⟩ := h
  refine performs_load hat nofun fun ip => ?_
  rw [exec, hb.constants _ _ hi]
  rfl

private theorem performs_class {type : TypeId} {i : UInt16} (h : u.classes[i.toNat]? = some type)
    (hat : CodeAt u.program.code pos [.ldclass i]) :
    Performs c.runner u locals (c.machine locals pos stack) (pure (.classLiteral type))
      fun v => c.machine locals (pos + (bytesOf [.ldclass i]).length) (v :: stack) := by
  refine performs_load hat nofun fun ip => ?_
  rw [exec, h]
  rfl

private theorem Bound.type_eq {name : String} {i : UInt16} (hb : Bound c u t) (h : t.Class name i) :
    ∃ type, c.type name = pure type ∧ u.classes[i.toNat]? = some type := by
  obtain ⟨type, htype, hget⟩ := hb.classes name i h
  refine ⟨type, ?_, hget⟩
  rw [Setting.type, htype]

private theorem performs_range (hat : CodeAt u.program.code pos [.newRange]) (a b : Value) :
    Performs c.runner u locals (c.machine locals pos (b :: a :: stack)) (rangeOf a b)
      fun v => c.machine locals (pos + (bytesOf [.newRange]).length) (v :: stack) := by
  by_cases h : ∃ first last, a = .int first ∧ b = .int last
  · obtain ⟨first, last, rfl, rfl⟩ := h
    refine performs_fresh hat nofun fun ip => ?_
    rw [← rangeValues_eq_inclusive]
    rfl
  · have hthrow : rangeOf a b = throw (.typeMismatch "int") := by
      unfold rangeOf
      split
      · exact absurd ⟨_, _, rfl, rfl⟩ h
      · rfl
    have hexec (ip : Nat) : exec u (c.machine locals ip (b :: a :: stack)) .newRange
        = pure (.fail (.typeMismatch "int")) := by
      rw [exec]
      split
      · contradiction
      · rename_i heq
        cases heq
        exact absurd ⟨_, _, rfl, rfl⟩ h
      · rename_i heq
        cases heq
      · rfl
    rw [hthrow]
    exact Performs.fail (m := c.machine locals pos (b :: a :: stack)) hat.decodeAt_eq nofun (hexec _)
      (.inl rfl) _

private theorem condition_eq (v : Value) :
    condition v = match v.asCondition? with
      | some b => pure b
      | none => throw (.typeMismatch "bool") := by
  cases v <;> rfl

/-- The instruction goes where a condition says. -/
private theorem performs_condition {α : Type} {f : Bool → Exec MachineError α} {k : α → Machine}
    {next : Bool → Machine → Effect} (hat : CodeAt u.program.code pos [i]) (hi : i ≠ .ret)
    (he : ∀ m, exec u m i = pure (m.withCondition next))
    (hf : ∀ b, ∃ m, next b (c.machine locals (pos + (bytesOf [i]).length) stack) = .next m
      ∧ Performs c.runner u locals m (f b) k) (v : Value) :
    Performs c.runner u locals (c.machine locals pos (v :: stack)) (condition v >>= f) k := by
  have heffect := he (c.machine locals (pos + i.size) (v :: stack))
  rw [withCondition] at heffect
  rw [condition_eq]
  dsimp only [Setting.machine] at heffect
  rcases hv : v.asCondition? with _ | b <;> rw [hv] at heffect <;> dsimp only at heffect ⊢
  · exact Performs.fail (m := c.machine locals pos (v :: stack)) hat.decodeAt_eq hi heffect (.inr rfl) _
  · obtain ⟨m, hm, hfb⟩ := hf b
    rw [length_bytesOf_singleton] at hm
    rw [pure_bind]
    exact Performs.next (m := c.machine locals pos (v :: stack)) hat.decodeAt_eq hi
      (heffect.trans (congrArg pure hm)) hfb

end Instructions

section Expressions

variable {c : Setting} {u : LoadedUnit} {t : Tables}

mutual

/-- The code of an expression pushes its value. -/
private theorem performs_expr (hb : Bound c u t) (env : Locals) : (e : Expr) → ∀ {n : Nat}
    {code : List Instr} {pos : Nat} {stack : List Value},
    e.Emits t n code → CodeAt u.program.code pos code →
    Performs c.runner u (t.frame env) (c.machine (t.frame env) pos stack) (e.eval c env n)
      fun v => c.machine (t.frame env) (pos + (bytesOf code).length) (v :: stack)
  | .null | .this => by
    rintro rfl hat
    exact performs_load hat nofun fun _ => rfl
  | .bool b => fun h hat => performs_constant hb h hat
  | .int i => fun h hat => performs_constant hb h hat
  | .float x => fun h hat => performs_constant hb h hat
  | .text s => fun h hat => performs_constant hb h hat
  | .var name => by
    rintro ⟨i, hi, rfl⟩ hat
    refine performs_load hat nofun fun ip => ?_
    rw [exec]
    dsimp only [Setting.machine]
    rw [hi.getElem?_frame]
    rfl
  | .classLiteral name => by
    rintro ⟨i, hi, rfl⟩ hat
    obtain ⟨type, htype, hget⟩ := hb.type_eq hi
    rw [Expr.eval, htype, pure_bind]
    exact performs_class hget hat
  | .list items => by
    rintro ⟨is, k, hitems, hk, rfl⟩ hat
    rw [Expr.eval, length_bytesOf_append]
    refine (performs_all hb env items hitems hat.left).bind_of (length_evalAll c env _ items)
      fun vs hvs => ?_
    refine performs_fresh hat.right nofun fun ip => ?_
    rw [exec, popMany?_machine (hk.trans hvs.symm)]
  | .map entries => by
    rintro ⟨is, k, hentries, hk, rfl⟩ hat
    rw [Expr.eval, length_bytesOf_append]
    refine (performs_entries hb env entries hentries hat.left).bind_of
      (length_evalEntries c env _ entries) fun es hes => ?_
    refine performs_fresh hat.right nofun fun ip => ?_
    have hlength : 2 * k.toNat = (operandsOf es).length := by rw [length_operandsOf, hes, hk]
    rw [exec, popMany?_machine hlength]
    dsimp only
    rw [pairEntries?_operandsOf]
  | .range first last => by
    rintro ⟨is, js, hfirst, hlast, rfl⟩ hat
    rw [List.append_assoc] at hat
    rw [Expr.eval, length_bytesOf_append, length_bytesOf_append]
    refine (performs_expr hb env first hfirst hat.left).bind fun a => ?_
    refine (performs_expr hb env last hlast hat.right.left).bind fun b => ?_
    exact performs_range hat.right.right a b
  | .cast value name => by
    rintro ⟨is, i, hvalue, hi, rfl⟩ hat
    obtain ⟨type, htype, hget⟩ := hb.type_eq hi
    rw [Expr.eval, length_bytesOf_append]
    refine (performs_expr hb env value hvalue hat.left).bind fun v => ?_
    rw [htype, pure_bind]
    refine performs_fresh hat.right nofun fun ip => ?_
    rw [exec, hget]
    rfl
  | .call receiver name args safe => by
    rintro ⟨is, js, slot, argc, hreceiver, hargs, hslot, hargc, rfl⟩ hat
    rw [List.append_assoc] at hat
    rw [Expr.eval, length_bytesOf_append, length_bytesOf_append]
    refine (performs_expr hb env receiver hreceiver hat.left).bind fun v => ?_
    cases safe <;> exact performs_invocation hb (performs_all hb env args hargs hat.right.left)
      hat.right.right hslot hargc (fun _ => rfl) (by simp)
  | .callCurrent name args => by
    rintro ⟨is, slot, argc, hargs, hslot, hargc, rfl⟩ hat
    rw [List.append_assoc] at hat
    rw [Expr.eval, length_bytesOf_append, length_bytesOf_append]
    refine (performs_load (v := c.this) hat.left nofun fun _ => rfl).trans ?_
    exact performs_invocation hb (performs_all hb env args hargs hat.right.left)
      hat.right.right hslot hargc (fun _ => rfl) (by simp)
  | .callStatic className name args => by
    rintro ⟨i, is, slot, argc, hi, hargs, hslot, hargc, rfl⟩ hat
    obtain ⟨type, htype, hget⟩ := hb.type_eq hi
    rw [List.append_assoc] at hat
    rw [Expr.eval, length_bytesOf_append, length_bytesOf_append, htype, pure_bind]
    refine (performs_class hget hat.left).trans ?_
    exact performs_invocation hb (performs_all hb env args hargs hat.right.left)
      hat.right.right hslot hargc (fun _ => rfl) (by simp)
  | .construct className args => by
    rintro ⟨i, is, slot, argc, hi, hargs, hslot, hargc, rfl⟩ hat
    obtain ⟨type, htype, hget⟩ := hb.type_eq hi
    rw [List.append_assoc] at hat
    rw [Expr.eval, length_bytesOf_append, length_bytesOf_append, htype, pure_bind]
    refine (performs_class hget hat.left).trans ?_
    exact performs_invocation hb (performs_all hb env args hargs hat.right.left)
      hat.right.right hslot hargc (fun _ => rfl) (by simp)
  | .property receiver name safe => by
    rintro ⟨is, slot, hreceiver, hslot, rfl⟩ hat
    rw [Expr.eval, length_bytesOf_append]
    refine (performs_expr hb env receiver hreceiver hat.left).bind fun v => ?_
    exact performs_ask hb hat.right nofun hslot fun _ => rfl
  | .binary op left right => by
    rintro ⟨is, js, slot, hleft, hright, hslot, rfl⟩ hat
    rw [List.append_assoc] at hat
    rw [Expr.eval, length_bytesOf_append, length_bytesOf_append]
    refine (performs_expr hb env left hleft hat.left).bind fun a => ?_
    refine (performs_expr hb env right hright hat.right.left).bind fun b => ?_
    exact performs_invoke [b] hb hat.right.right hslot rfl rfl (by simp)
  | .neg value => by
    rintro ⟨is, slot, hvalue, hslot, rfl⟩ hat
    rw [Expr.eval, length_bytesOf_append]
    refine (performs_expr hb env value hvalue hat.left).bind fun v => ?_
    exact performs_invoke [] hb hat.right hslot rfl rfl (by simp)
  | .not value => by
    rintro ⟨is, hvalue, rfl⟩ hat
    rw [Expr.eval, length_bytesOf_append]
    refine (performs_expr hb env value hvalue hat.left).bind fun v => ?_
    exact performs_condition hat.right nofun (fun _ => rfl) (fun b => ⟨_, rfl, .pure rfl⟩) v

/-- The code of expressions pushes their values, the last on top. -/
private theorem performs_all (hb : Bound c u t) (env : Locals) : (es : List Expr) → ∀ {n : Nat}
    {code : List Instr} {pos : Nat} {stack : List Value},
    AllEmit t n es code → CodeAt u.program.code pos code →
    Performs c.runner u (t.frame env) (c.machine (t.frame env) pos stack) (evalAll c env n es)
      fun vs => c.machine (t.frame env) (pos + (bytesOf code).length) (vs.reverse ++ stack)
  | [] => by
    rintro rfl _
    exact .pure rfl
  | e :: es => by
    rintro ⟨is, js, he, hes, rfl⟩ hat
    rw [evalAll, length_bytesOf_append]
    refine (performs_expr hb env e he hat.left).bind fun v => ?_
    exact (performs_all hb env es hes hat.right).bind fun vs => .pure (by simp)

/-- The code of entries pushes keys and values in turn. -/
private theorem performs_entries (hb : Bound c u t) (env : Locals) :
    (es : List (String × Expr)) → ∀ {n : Nat} {code : List Instr} {pos : Nat} {stack : List Value},
    EntriesEmit t n es code → CodeAt u.program.code pos code →
    Performs c.runner u (t.frame env) (c.machine (t.frame env) pos stack) (evalEntries c env n es)
      fun vs => c.machine (t.frame env) (pos + (bytesOf code).length) ((operandsOf vs).reverse ++ stack)
  | [] => by
    rintro rfl _
    exact .pure rfl
  | (key, e) :: es => by
    rintro ⟨load, is, js, hload, he, hes, rfl⟩ hat
    rw [List.append_assoc] at hat
    rw [evalEntries, length_bytesOf_append, length_bytesOf_append]
    refine (performs_constant hb hload hat.left).trans ?_
    refine (performs_expr hb env e he hat.right.left).bind fun v => ?_
    exact (performs_entries hb env es hes hat.right.right).bind fun vs =>
      .pure (by simp [operandsOf, Const.toValue])

end

end Expressions

section Statements

variable {c : Setting} {u : LoadedUnit} {t : Tables} {b b' j : Nat} {m m' : Machine} {w w' : World}
  {k k' : Locals → Machine}

/-- Where the machine is led by statements with this result. If they are out of repetitions, it makes
at least `b` steps. -/
def Leads (c : Setting) (u : LoadedUnit) (t : Tables) (b : Nat) (k : Locals → Machine) (m : Machine)
    (w : World) : Except Stop (Ending × World) → Prop
  | .ok ((none, env), w') => ∃ j, SoundSteps c.runner u j m w (k env) w'
  | .ok ((some out, env), w') => Finishes c.runner u m w out (t.frame env) w'
  | .error s => Stops c.runner u m w s
    ∨ s = .exhausted ∧ ∃ j m' w', b ≤ j ∧ SoundSteps c.runner u j m w m' w'

/-- From `m` the machine carries out the statements `x`, and stands at `k env` when they have run
through. -/
def Carries (c : Setting) (u : LoadedUnit) (t : Tables) (b : Nat) (m : Machine) (x : Act Ending)
    (k : Locals → Machine) : Prop :=
  ∀ w, Leads c u t b k m w (x.run w)

/-- Steps before count. -/
private theorem Leads.after (hs : SoundSteps c.runner u j m w m' w') {r : Except Stop (Ending × World)}
    (h : Leads c u t b k m' w' r) : Leads c u t (j + b) k m w r := by
  match r, h with
  | .ok ((none, env), w₂), ⟨i, hi⟩ => exact ⟨j + i, hs.trans hi⟩
  | .ok ((some out, env), w₂), h => exact hs.finishes h
  | .error s, .inl h => exact .inl (hs.stops h)
  | .error s, .inr ⟨hstop, i, m₂, w₂, hb, hi⟩ =>
    exact .inr ⟨hstop, j + i, m₂, w₂, Nat.add_le_add_left hb j, hs.trans hi⟩

private theorem Leads.weaken {r : Except Stop (Ending × World)} (h : Leads c u t b k m w r)
    (hb : b' ≤ b) : Leads c u t b' k m w r := by
  match r, h with
  | .ok ((none, env), w₂), h | .ok ((some out, env), w₂), h => exact h
  | .error s, .inl h => exact .inl h
  | .error s, .inr ⟨hstop, i, m₂, w₂, hi, hs⟩ => exact .inr ⟨hstop, i, m₂, w₂, Nat.le_trans hb hi, hs⟩

namespace Carries

variable {x : Act Ending} {env : Locals}

private theorem weaken (h : Carries c u t b m x k) (hb : b' ≤ b) : Carries c u t b' m x k :=
  fun w => (h w).weaken hb

/-- Steps that leave the world alone come before. -/
private theorem after (hs : ∀ w, SoundSteps c.runner u j m w m' w) (h : Carries c u t b m' x k) :
    Carries c u t (j + b) m x k :=
  fun w => (h w).after (hs w)

private theorem pure (hm : m = k env) : Carries c u t b m (pure (none, env)) k :=
  fun _ => ⟨0, hm ▸ .refl⟩

private theorem afterAnswer {α : Type} {x : Exec MachineError α} {f : α → Act Ending} {k : α → Machine}
    (hx : Performs c.runner u (t.frame env) m x k) (hf : ∀ a, Carries c u t b (k a) (f a) k') :
    Carries c u t b m (afterAnswer x env f) k' := by
  intro w
  rw [run_afterAnswer]
  have hx := hx w
  rcases hrun : x.result.run w with s | ⟨e | a, w'⟩ <;> rw [hrun] at hx <;> dsimp only at hx ⊢
  · exact .inl hx
  · exact hx
  · obtain ⟨j, hs⟩ := hx
    exact ((hf a w').after hs).weaken (Nat.le_add_left b j)

private theorem andThen {f : Locals → Act Ending} (hx : Carries c u t b m x k)
    (hf : ∀ env, Carries c u t b (k env) (f env) k') : Carries c u t b m (andThen x f) k' := by
  intro w
  rw [run_andThen]
  have hx := hx w
  rcases hrun : x.run w with s | ⟨⟨_ | out, env⟩, w'⟩ <;> rw [hrun] at hx <;> dsimp only
  · exact hx
  · obtain ⟨j, hs⟩ := hx
    exact ((hf env w').after hs).weaken (Nat.le_add_left b j)
  · exact hx

/-- Steps that leave the world alone come behind. -/
private theorem before (h : Carries c u t b m x k)
    (hs : ∀ env w, SoundSteps c.runner u j (k env) w (k' env) w) : Carries c u t b m x k' := by
  intro w
  have h := h w
  rcases hrun : x.run w with s | ⟨⟨_ | out, env⟩, w'⟩ <;> rw [hrun] at h
  · exact h
  · obtain ⟨i, hi⟩ := h
    exact ⟨i + j, hi.trans (hs env w')⟩
  · exact h

/-- The body of a loop leads back to its test, so that every repetition makes a step at least. -/
private theorem repeatWhile {test : Locals → Exec MachineError Bool} {body : Locals → Act Ending}
    {fuel : Nat} {start inside last : Locals → Machine}
    (htest : ∀ env, Performs c.runner u (t.frame env) (start env) (test env)
      fun b => if b then inside env else k env)
    (hbody : ∀ env, Carries c u t fuel (inside env) (body env) last)
    (hback : ∀ env w, SoundSteps c.runner u 1 (last env) w (start env) w) (i : Nat) (hi : i ≤ fuel)
    (env : Locals) : Carries c u t i (start env) (repeatWhile test body i env) k := by
  induction i generalizing env with
  | zero => exact fun w => .inr ⟨rfl, 0, start env, w, Nat.le_refl 0, .refl⟩
  | succ i ih =>
    refine .afterAnswer (htest env) fun b => ?_
    cases b with
    | false => exact .pure rfl
    | true =>
      refine .andThen ((hbody env).weaken hi) fun env' => ?_
      -- The step back to the test pays for this repetition.
      rw [Nat.add_comm i 1]
      exact (ih (Nat.le_of_succ_le hi) env').after (hback env')

end Carries

variable {n pos target : Nat} {env : Locals}

theorem length_br (place : UInt32) : (bytesOf [.br place]).length = branchSize := rfl

theorem length_brfalse (place : UInt32) : (bytesOf [.brfalse place]).length = branchSize := rfl

private theorem jump_machine {locals : Array Value} {ip : Nat} {stack : List Value} (hb : Bound c u t)
    (h : target ≤ u.program.code.size) :
    (c.machine locals ip stack).jump u target.toUInt32.toNat
      = .next (c.machine locals target stack) := by
  rw [toNat_toUInt32 (Nat.lt_of_le_of_lt h hb.size), jump, if_pos h]
  rfl

private theorem soundSteps_br (hb : Bound c u t) (hat : CodeAt u.program.code pos [.br target.toUInt32])
    (h : target ≤ u.program.code.size) (locals : Array Value) (w : World) :
    SoundSteps c.runner u 1 (c.machine locals pos []) w (c.machine locals target []) w :=
  soundSteps_one (m := c.machine locals pos []) hat.decodeAt_eq nofun
    (congrArg Pure.pure (jump_machine hb h)) w

/-- A test falls through to the code behind it, or branches. -/
private theorem performs_test {e : Expr} {code rest : List Instr} (hb : Bound c u t)
    (he : e.Emits t n code)
    (hat : CodeAt u.program.code pos (code ++ .brfalse target.toUInt32 :: rest))
    (h : target ≤ u.program.code.size) (env : Locals) :
    Performs c.runner u (t.frame env) (c.machine (t.frame env) pos []) (e.test c env n) fun b =>
      if b then c.machine (t.frame env) (pos + (bytesOf code).length + branchSize) []
      else c.machine (t.frame env) target [] := by
  have hbranch : CodeAt u.program.code (pos + (bytesOf code).length)
      ([.brfalse target.toUInt32] ++ rest) := hat.right
  refine (performs_expr hb env e he hat.left).bind fun v => ?_
  rw [← bind_pure (condition v)]
  refine performs_condition hbranch.left nofun (fun _ => rfl) (fun b => ?_) v
  cases b with
  | false => exact ⟨_, jump_machine hb h, .pure rfl⟩
  | true => exact ⟨_, rfl, .pure rfl⟩

private theorem carries_store {name : String} {i : UInt8} {v : Value} (hb : Bound c u t)
    (hat : CodeAt u.program.code pos [.stloc i]) (hi : t.Local name i) :
    Carries c u t b (c.machine (t.frame env) pos [v]) (pure (none, Function.update env name v))
      fun env => c.machine (t.frame env) (pos + (bytesOf [.stloc i]).length) [] := by
  have hexec (ip : Nat) : exec u (c.machine (t.frame env) ip [v]) (.stloc i)
      = pure (.next (c.machine (t.frame (Function.update env name v)) ip [])) := by
    rw [exec, ← hi.set_frame hb.locals]
    exact if_pos (hi.lt_frame env)
  refine (Carries.after (b := b) (fun w => ?_) (.pure rfl)).weaken (Nat.le_add_left b 1)
  rw [length_bytesOf_singleton]
  exact soundSteps_one (m := c.machine (t.frame env) pos [v]) hat.decodeAt_eq nofun (hexec _) w

private theorem carries_pop {v : Value} (hat : CodeAt u.program.code pos [.pop]) :
    Carries c u t b (c.machine (t.frame env) pos [v]) (pure (none, env))
      fun env => c.machine (t.frame env) (pos + (bytesOf [.pop]).length) [] :=
  (Carries.after (b := b) (fun w => soundSteps_one (m := c.machine (t.frame env) pos [v]) hat.decodeAt_eq
    nofun rfl w) (.pure rfl)).weaken (Nat.le_add_left b 1)

private theorem finishes_ret {v : Value} (hat : CodeAt u.program.code pos [.ret]) (locals : Array Value)
    (w : World) : Finishes c.runner u (c.machine locals pos [v]) w (.ok v) locals w := by
  refine ⟨0, c.machine locals pos [v], w, c.machine locals pos [v], .refl, ?_, ?_, rfl⟩
  · exact ⟨.ret, hat.decodeAt_eq, fun _ => rfl, fun _ => trivial⟩
  · rw [step]
    dsimp only [Setting.machine]
    rw [hat.decodeAt_eq]
    rfl

/-- The end of a program answers null. -/
theorem finishes_end (hat : CodeAt u.program.code pos [.ldnull, .ret]) (locals : Array Value)
    (w : World) : Finishes c.runner u (c.machine locals pos []) w (.ok .null) locals w :=
  (soundSteps_one (m := c.machine locals pos []) hat.decodeAt_eq nofun rfl w).finishes
    (finishes_ret hat.tail locals w)

mutual

/-- The code of a statement carries it out. -/
private theorem carries_stmt (hb : Bound c u t) (fuel : Nat) :
    (s : Stmt) → ∀ {n pos : Nat} {code : List Instr},
    s.Emits t n pos code → CodeAt u.program.code pos code → ∀ env : Locals,
    Carries c u t fuel (c.machine (t.frame env) pos []) (s.exec c fuel n env)
      fun env => c.machine (t.frame env) (pos + (bytesOf code).length) []
  | .declare name value | .assign name value => by
    rintro ⟨is, i, hvalue, hi, rfl⟩ hat env
    rw [Stmt.exec, length_bytesOf_append]
    exact .afterAnswer (performs_expr hb env value hvalue hat.left) fun v =>
      carries_store hb hat.right hi
  | .expr value => by
    rintro ⟨is, hvalue, rfl⟩ hat env
    rw [Stmt.exec, length_bytesOf_append]
    exact .afterAnswer (performs_expr hb env value hvalue hat.left) fun v => carries_pop hat.right
  | .cond condition thenBranch elseBranch => by
    rintro ⟨test, is, js, thenPos, elsePos, htest, rfl, his, rfl, hjs, rfl⟩ hat env
    -- Both branches go to places inside the code, so their targets survive the encoding.
    have hend := hat.end_le
    simp only [length_bytesOf_append, length_br, length_brfalse] at hend ⊢
    simp only [List.append_assoc] at hat
    have hthen := hat.right.right
    have helse := hthen.right.right
    simp only [length_br, length_brfalse] at hthen helse
    rw [Stmt.exec]
    refine .afterAnswer (performs_test hb htest hat (by omega) env) fun b => ?_
    cases b with
    | false => exact carries_block hb fuel elseBranch hjs helse env
    | true =>
      exact (carries_block hb fuel thenBranch his hthen.left env).before fun env' =>
        soundSteps_br hb hthen.right.left hend (t.frame env')
  | .loop condition body => by
    rintro ⟨test, is, bodyPos, htest, rfl, his, rfl⟩ hat env
    have hend := hat.end_le
    simp only [length_bytesOf_append, length_br, length_brfalse] at hend ⊢
    simp only [List.append_assoc] at hat
    have hbody := hat.right.right
    simp only [length_brfalse] at hbody
    rw [Stmt.exec]
    exact .repeatWhile (performs_test hb htest hat hend) (carries_block hb fuel body his hbody.left)
      (fun env' => soundSteps_br hb hbody.right (by omega) (t.frame env')) fuel (Nat.le_refl fuel) env
  | .ret value => by
    rintro ⟨is, hvalue, rfl⟩ hat env
    rw [Stmt.exec]
    exact .afterAnswer (performs_expr hb env value hvalue hat.left) fun v => finishes_ret hat.right _

/-- The code of statements carries them out. -/
theorem carries_block (hb : Bound c u t) (fuel : Nat) : (ss : List Stmt) → ∀ {n pos : Nat}
    {code : List Instr}, BlockEmits t n pos ss code → CodeAt u.program.code pos code → ∀ env : Locals,
    Carries c u t fuel (c.machine (t.frame env) pos []) (execAll c fuel n ss env)
      fun env => c.machine (t.frame env) (pos + (bytesOf code).length) []
  | [] => by
    rintro rfl _ env
    exact .pure rfl
  | s :: ss => by
    rintro ⟨is, js, hs, hss, rfl⟩ hat env
    rw [execAll, length_bytesOf_append]
    exact .andThen (carries_stmt hb fuel s hs hat.left env) fun env' =>
      carries_block hb fuel ss hss hat.right env'

end

end Statements

end CachedDispatch.Lang
