/-!
The kinds of call sites, and the codes that stand for them.
-/
namespace CachedDispatch

inductive SiteKind
  | call | callCurrent | callStatic | callConstructor | getProperty
deriving DecidableEq, Repr, Inhabited

namespace SiteKind

/-- Every kind, in the order of the codes. -/
def all : List SiteKind := [call, callCurrent, callStatic, callConstructor, getProperty]

def code : SiteKind → Nat
  | call => 0
  | callCurrent => 1
  | callStatic => 2
  | callConstructor => 3
  | getProperty => 4

def ofCode? (n : Nat) : Option SiteKind := all[n]?

def mnemonic : SiteKind → String
  | call => "call"
  | callCurrent => "call.current"
  | callStatic => "call.static"
  | callConstructor => "call.new"
  | getProperty => "getprop"

def ofMnemonic? (s : String) : Option SiteKind := all.find? (·.mnemonic = s)

/-- Whether the receiver at such a site is a type and not an arbitrary value. -/
def takesType : SiteKind → Bool
  | callStatic | callConstructor => true
  | _ => false

theorem ofCode?_code (k : SiteKind) : ofCode? k.code = some k := by
  cases k <;> rfl

theorem ofMnemonic?_mnemonic (k : SiteKind) : ofMnemonic? k.mnemonic = some k := by
  cases k <;> decide

end SiteKind

end CachedDispatch
