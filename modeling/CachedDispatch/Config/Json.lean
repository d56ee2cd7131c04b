import CachedDispatch.Config

/-!
Settings from a JSON document: an object with the two settings as members, or an array that gives
them in order. What is left out keeps its default. Unknown members are ignored, but a setting that
is given twice, given too many of, or given another type makes the document malformed.
-/
namespace CachedDispatch

/-- A JSON document. A string is `none` when it has an escape that denotes no character, and of a
number only natural numbers written as plain digits are told from the others. -/
inductive Json
  | null
  | bool (b : Bool)
  | natural (n : Nat)
  | number
  | string (s : Option String)
  | array (items : List Json)
  | object (members : List (Option String × Json))
deriving Repr, Inhabited

namespace Json

def isSpace (c : Char) : Bool := c = ' ' || c = '\n' || c = '\t' || c = '\r'

def skipSpace (cs : List Char) : List Char := cs.dropWhile isSpace

def hexValue? (c : Char) : Option Nat :=
  if c.isDigit then some (c.toNat - '0'.toNat)
  else if 'a' ≤ c ∧ c ≤ 'f' then some (c.toNat - 'a'.toNat + 10)
  else if 'A' ≤ c ∧ c ≤ 'F' then some (c.toNat - 'A'.toNat + 10)
  else none

/-- Four hexadecimal digits, and what follows them. -/
def readHex? : List Char → Option (Nat × List Char)
  | a :: b :: c :: d :: rest => do
    let ds ← [a, b, c, d].mapM hexValue?
    pure (ds.foldl (fun n h => 16 * n + h) 0, rest)
  | _ => none

def isHighSurrogate (n : Nat) : Bool := 0xd800 ≤ n && n ≤ 0xdbff

def isLowSurrogate (n : Nat) : Bool := 0xdc00 ≤ n && n ≤ 0xdfff

/-- The units of a string body up to the closing quote: a character, or the number of an escaped
sixteen-bit unit. Controls have to be escaped. -/
def readUnits? : Nat → List Char → Option (List (Char ⊕ Nat) × List Char)
  | 0, _ => none
  | _, [] => none
  | fuel + 1, c :: cs =>
    if c = '"' then some ([], cs)
    else if c = '\\' then
      match cs with
      | 'u' :: rest => do
        let (n, rest) ← readHex? rest
        let (us, rest) ← readUnits? fuel rest
        pure (.inr n :: us, rest)
      | e :: rest => do
        let d ← match e with
          | '"' => some '"'
          | '\\' => some '\\'
          | '/' => some '/'
          | 'b' => some '\x08'
          | 'f' => some '\x0c'
          | 'n' => some '\n'
          | 'r' => some '\r'
          | 't' => some '\t'
          | _ => none
        let (us, rest) ← readUnits? fuel rest
        pure (.inl d :: us, rest)
      | [] => none
    else if c.toNat < 0x20 then none
    else do
      let (us, rest) ← readUnits? fuel cs
      pure (.inl c :: us, rest)

/-- Joins surrogate pairs; a surrogate on its own denotes no character. -/
def joinUnits? : List (Char ⊕ Nat) → Option (List Char)
  | [] => some []
  | .inl c :: us => (joinUnits? us).map (c :: ·)
  | .inr n :: .inr m :: us =>
    if isHighSurrogate n then
      if isLowSurrogate m then
        (joinUnits? us).map (Char.ofNat (0x10000 + (n - 0xd800) * 0x400 + (m - 0xdc00)) :: ·)
      else none
    else if isLowSurrogate n then none
    else (joinUnits? (.inr m :: us)).map (Char.ofNat n :: ·)
  | .inr n :: us =>
    if isHighSurrogate n || isLowSurrogate n then none
    else (joinUnits? us).map (Char.ofNat n :: ·)

/-- A string whose opening quote is already read. -/
def readString? (cs : List Char) : Option (Option String × List Char) := do
  let (us, rest) ← readUnits? (cs.length + 1) cs
  pure ((joinUnits? us).map String.ofList, rest)

/-- The digits of an integer without superfluous zeros, and what follows. -/
def readInteger? (cs : List Char) : Option (List Char × List Char) :=
  let ds := cs.takeWhile Char.isDigit
  match ds with
  | [] => none
  | '0' :: _ :: _ => none
  | _ => some (ds, cs.dropWhile Char.isDigit)

/-- At least one digit; gives what follows. -/
def skipDigits? (cs : List Char) : Option (List Char) :=
  if (cs.takeWhile Char.isDigit).isEmpty then none else some (cs.dropWhile Char.isDigit)

/-- An optional exponent; tells whether there was one. -/
def skipExponent? : List Char → Option (Bool × List Char)
  | c :: cs =>
    if c = 'e' ∨ c = 'E' then
      let cs := if cs.head? = some '+' ∨ cs.head? = some '-' then cs.tail else cs
      (skipDigits? cs).map (true, ·)
    else some (false, c :: cs)
  | [] => some (false, [])

/-- An optional fraction; tells whether there was one. -/
def skipFraction? : List Char → Option (Bool × List Char)
  | '.' :: cs => (skipDigits? cs).map (true, ·)
  | cs => some (false, cs)

def readNumber? (cs : List Char) : Option (Json × List Char) := do
  let negative := cs.head? = some '-'
  let (ds, rest) ← readInteger? (if negative then cs.tail else cs)
  let (fraction, rest) ← skipFraction? rest
  let (exponent, rest) ← skipExponent? rest
  if negative || fraction || exponent then pure (.number, rest)
  else pure (.natural (ds.foldl (fun n c => 10 * n + (c.toNat - '0'.toNat)) 0), rest)

/-- Drops `word` from the front. -/
def expect? (word : String) (cs : List Char) : Option (List Char) :=
  if word.toList.isPrefixOf cs then some (cs.drop word.length) else none

mutual

/-- One value, white space before it allowed; the fuel bounds the length of the text. -/
def readValue? : Nat → List Char → Option (Json × List Char)
  | 0, _ => none
  | fuel + 1, cs =>
    match skipSpace cs with
    | [] => none
    | 'n' :: cs => (expect? "ull" cs).map (.null, ·)
    | 't' :: cs => (expect? "rue" cs).map (.bool true, ·)
    | 'f' :: cs => (expect? "alse" cs).map (.bool false, ·)
    | '"' :: cs => do
      let (s, rest) ← readString? cs
      pure (.string s, rest)
    | '[' :: cs =>
      match skipSpace cs with
      | ']' :: rest => some (.array [], rest)
      | cs => do
        let (items, rest) ← readItems? fuel cs
        pure (.array items, rest)
    | '\x7b' :: cs =>
      match skipSpace cs with
      | '\x7d' :: rest => some (.object [], rest)
      | cs => do
        let (members, rest) ← readMembers? fuel cs
        pure (.object members, rest)
    | cs => readNumber? cs

/-- The items of an array up to the closing bracket. -/
def readItems? : Nat → List Char → Option (List Json × List Char)
  | 0, _ => none
  | fuel + 1, cs => do
    let (v, rest) ← readValue? fuel cs
    match skipSpace rest with
    | ',' :: rest => do
      let (vs, rest) ← readItems? fuel rest
      pure (v :: vs, rest)
    | ']' :: rest => pure ([v], rest)
    | _ => none

/-- The members of an object up to the closing brace. -/
def readMembers? : Nat → List Char → Option (List (Option String × Json) × List Char)
  | 0, _ => none
  | fuel + 1, cs => do
    let '"' :: cs := skipSpace cs | none
    let (key, rest) ← readString? cs
    let ':' :: rest := skipSpace rest | none
    let (v, rest) ← readValue? fuel rest
    match skipSpace rest with
    | ',' :: rest => do
      let (ms, rest) ← readMembers? fuel rest
      pure ((key, v) :: ms, rest)
    | '\x7d' :: rest => pure ([(key, v)], rest)
    | _ => none

end

/-- A document is one value with nothing but white space around it. -/
def ofString? (s : String) : Option Json := do
  let cs := s.toList
  let (v, rest) ← readValue? (2 * cs.length + 2) cs
  if (skipSpace rest).isEmpty then pure v else none

end Json

namespace Config

def switchOfJson? : Json → Option Bool
  | .bool b => some b
  | _ => none

def thresholdOfJson? : Json → Option Nat
  | .natural n => if n ≤ maxThreshold then some n else none
  | _ => none

/-- The value of the member `key`, or `default` when there is none. -/
def member? {α : Type} (members : List (String × Json)) (key : String)
    (read? : Json → Option α) (default : α) : Option α :=
  match members.filter (·.1 = key) with
  | [] => some default
  | [(_, v)] => read? v
  | _ => none

def ofDocument? : Json → Option Config
  | .object members => do
    let members ← members.mapM fun (key, v) => key.map (·, v)
    let cache ← member? members "cache_enabled" switchOfJson? ({} : Config).cacheEnabled
    let threshold ← member? members "megamorphic_threshold" thresholdOfJson? ({} : Config).threshold
    pure ⟨cache, threshold⟩
  | .array [] => some {}
  | .array [c] => (switchOfJson? c).map (⟨·, ({} : Config).threshold⟩)
  | .array [c, t] => do pure ⟨← switchOfJson? c, ← thresholdOfJson? t⟩
  | _ => none

def ofJson (s : String) : Except ConfigError Config :=
  match (Json.ofString? s).bind ofDocument? with
  | some c => .ok c
  | none => .error .malformed

end Config

end CachedDispatch
