import CachedDispatch.Assembler
import CachedDispatch.Config.Environment
import CachedDispatch.Config.Json
import CachedDispatch.Script.Session
import CachedDispatch.Proofs.Ranking
import CachedDispatch.Proofs.Preparation
import CachedDispatch.Proofs.Stamp
import CachedDispatch.Proofs.Store
import CachedDispatch.Proofs.Alike
import CachedDispatch.Proofs.Lookups
import CachedDispatch.Proofs.Running
import CachedDispatch.Proofs.Scripts
import CachedDispatch.Proofs.Transparency
import CachedDispatch.Proofs.HitSoundness
import CachedDispatch.Proofs.Correctness
import CachedDispatch.Proofs.Books
import CachedDispatch.Proofs.Changes
import CachedDispatch.Proofs.Course
import CachedDispatch.Proofs.Failures
import CachedDispatch.Proofs.Ledger
import CachedDispatch.Proofs.Reentry
import CachedDispatch.Proofs.Versions
import CachedDispatch.Proofs.RegistryAnswers
import CachedDispatch.Proofs.Retirement
import CachedDispatch.Proofs.Encapsulation
import CachedDispatch.Proofs.Overlay
import CachedDispatch.Proofs.Assembling
import CachedDispatch.Proofs.Numbering
import CachedDispatch.Proofs.Tiers
import CachedDispatch.Proofs.Overloads
import CachedDispatch.Proofs.LastResort
import CachedDispatch.Proofs.Lines
import CachedDispatch.Proofs.DeclaredTypes
import CachedDispatch.Proofs.NullReceivers
import CachedDispatch.Proofs.Beans
import CachedDispatch.Proofs.Acceptance
import CachedDispatch.Proofs.Interning
import CachedDispatch.Proofs.Directories
import CachedDispatch.Proofs.NativeCalls
import CachedDispatch.Proofs.Concatenation
import CachedDispatch.Proofs.Merging
import CachedDispatch.Proofs.Equality
import CachedDispatch.Proofs.SessionHeaps
import CachedDispatch.Proofs.Comparison
import CachedDispatch.Proofs.Division
import CachedDispatch.Proofs.Indexing
import CachedDispatch.Proofs.Loading
import CachedDispatch.Proofs.Assignments
import CachedDispatch.Proofs.Settings
import CachedDispatch.Proofs.Members
