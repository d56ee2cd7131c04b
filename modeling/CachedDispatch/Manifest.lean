import CachedDispatch.SiteKind

/-!
The call sites of one unit. Each invocation gets a site of its own, so equal names are not merged,
and sites are numbered with sixteen bits.
-/
namespace CachedDispatch

structure SiteDescriptor where
  index : Nat
  name : String
  kind : SiteKind
deriving DecidableEq, Repr, Inhabited

structure Manifest where
  owner : String := ""
  sites : Array SiteDescriptor := #[]
deriving DecidableEq, Repr, Inhabited

namespace Manifest

/-- The version that a rendered manifest states. -/
def version : Nat := 1

/-- The longest argument list that has an entry point of its own. -/
def maxFixedArity : Nat := 4

/-- The largest number of sites. -/
def capacity : Nat := 65536

def size (m : Manifest) : Nat := m.sites.size

/-- Appends a site under the next index. -/
def push (m : Manifest) (name : String) (kind : SiteKind) : Manifest :=
  { m with sites := m.sites.push ⟨m.sites.size, name, kind⟩ }

/-- Appends a site, if an index is left for it, and gives its index. -/
def add (m : Manifest) (name : String) (kind : SiteKind) : Option Nat × Manifest :=
  if m.size < capacity then (some m.size, m.push name kind) else (none, m)

/-- Appends equal sites and gives what the last one got. -/
def addTimes (name : String) (kind : SiteKind) : Nat → Manifest → Option Nat × Manifest
  | 0, m => (none, m)
  | 1, m => m.add name kind
  | n + 2, m => addTimes name kind (n + 1) (m.add name kind).2

/-- The manifest of sites that are numbered in order, as many as there are indices. -/
def ofSites (owner : String) (sites : List (String × SiteKind)) : Manifest :=
  sites.foldl (fun m s => (m.add s.1 s.2).2) { owner }

def get? (m : Manifest) (i : Nat) : Option SiteDescriptor := m.sites[i]?

def names (m : Manifest) : List String := m.sites.toList.map (·.name)

/-- Whether each site stands at the place that its index says. -/
def isDense (m : Manifest) : Bool :=
  m.sites.toList.zipIdx.all fun e => e.1.index = e.2

def renderSite (d : SiteDescriptor) : String :=
  s!"{d.index} {d.kind.mnemonic} {d.name}\n"

def render (m : Manifest) : String :=
  s!"; call sites v{version} owner={m.owner}\n" ++ String.join (m.sites.toList.map renderSite)

end Manifest

end CachedDispatch
