import CachedDispatch.Text.CaseTable

/-!
Full case mapping of text. Upper case maps each character on its own. So does lower case, except for
a capital sigma, which has a form of its own at the end of a word.
-/
namespace CachedDispatch.Text

def CaseRun.apply? (r : CaseRun) (n : Nat) : Option Nat :=
  if r.first ≤ n && n ≤ r.last && (n - r.first) % r.step = 0 then some ((n : Int) + r.shift).toNat
  else none

/-- Looks the character up among those with several images, then among those with one. -/
def mapCase (special : Array (Nat × List Nat)) (runs : Array CaseRun) (c : Char) : List Char :=
  match special.find? fun e => e.1 = c.toNat with
  | some e => e.2.map Char.ofNat
  | none =>
    match runs.findSome? fun r => r.apply? c.toNat with
    | some n => [Char.ofNat n]
    | none => [c]

def upperChar (c : Char) : List Char := mapCase upperSpecial upperRuns c

def lowerChar (c : Char) : List Char := mapCase lowerSpecial lowerRuns c

def inRanges (ranges : Array (Nat × Nat)) (c : Char) : Bool :=
  ranges.any fun r => r.1 ≤ c.toNat && c.toNat ≤ r.2

def isCased (c : Char) : Bool := inRanges casedRanges c

def isCaseIgnorable (c : Char) : Bool := inRanges ignorableRanges c

/-- Whether the first character that is not ignorable is a cased one. -/
def meetsCased (cs : List Char) : Bool :=
  ((cs.dropWhile isCaseIgnorable).head?.map isCased).getD false

/-- Lower case of the rest of a text, `before` being what precedes it, last character first. -/
def lowerFrom : List Char → List Char → List Char
  | _, [] => []
  | before, c :: rest =>
    let image :=
      if c = 'Σ' then if meetsCased before && !meetsCased rest then ['ς'] else ['σ']
      else lowerChar c
    image ++ lowerFrom (c :: before) rest

def upper (s : String) : String := String.ofList (s.toList.flatMap upperChar)

def lower (s : String) : String := String.ofList (lowerFrom [] s.toList)

/-- The text with its first character in upper case. -/
def capitalize (s : String) : String :=
  match s.toList with
  | [] => ""
  | c :: rest => String.ofList (upperChar c ++ rest)

end CachedDispatch.Text
