import CachedDispatch.Text.Casing
import CachedDispatch.Text.HiddenTable

/-!
Text between double quotes. Quotes, backslashes and the usual controls are escaped by a letter, and
characters without a glyph of their own by their number.
-/
namespace CachedDispatch.Text

def isHidden (c : Char) : Bool := inRanges hiddenRanges c

/-- The number of a character in lower case hexadecimal, in braces. -/
def escapeNumber (c : Char) : String :=
  "\\u\x7b" ++ String.ofList (Nat.toDigits 16 c.toNat) ++ "\x7d"

def escapeChar (c : Char) : String :=
  if c = '\x00' then "\\0"
  else if c = '\t' then "\\t"
  else if c = '\r' then "\\r"
  else if c = '\n' then "\\n"
  else if c = '\\' then "\\\\"
  else if c = '"' then "\\\""
  else if isHidden c then escapeNumber c
  else String.ofList [c]

def quote (s : String) : String :=
  "\"" ++ String.join (s.toList.map escapeChar) ++ "\""

end CachedDispatch.Text
