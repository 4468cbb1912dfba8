import PinnedPool.Memory.AlignedBuffer

/-! # Prefetch hints

A hint names an address and changes no memory. A range is hinted by one address per cache line,
counted from its start.
-/
namespace PinnedPool

inductive PrefetchIntent where
  | read
  | write
deriving DecidableEq, Repr

/-- How long a line should stay in the caches, from shortest to longest. -/
inductive Locality where
  | none
  | low
  | moderate
  | high
deriving DecidableEq, Repr

namespace Locality

def name : Locality → String
  | none => "None"
  | low => "Low"
  | moderate => "Moderate"
  | high => "High"

def rank : Locality → Nat
  | none => 0
  | low => 1
  | moderate => 2
  | high => 3

instance : Ord Locality := ⟨fun a b => compare a.rank b.rank⟩

/-- From shortest to longest; equal ones keep their order. -/
def sort (ls : List Locality) : List Locality := ls.mergeSort fun a b => a.rank ≤ b.rank

/-- The longest one. -/
def longest? : List Locality → Option Locality
  | [] => .none
  | l :: ls => some (ls.foldl (fun m x => if m.rank ≤ x.rank then x else m) l)

end Locality

structure Prefetch where
  address : Nat
  intent : PrefetchIntent
  locality : Locality
deriving DecidableEq, Repr

namespace Prefetch

/-- A line that is about to be read, for every cache level. -/
def line (address : Nat) : Prefetch := ⟨address, .read, .high⟩

/-- One hint for each cache line's length that begins inside the range. Addresses are words, which
wrap around. -/
def range (start len : UInt64) : List Prefetch :=
  (List.range ((len.toNat + AlignedBuffer.cacheLine - 1) / AlignedBuffer.cacheLine)).map fun k =>
    line (start + .ofNat (k * AlignedBuffer.cacheLine)).toNat

end Prefetch

/-- A buffer after some hints, which is the same. -/
@[inline]
def AlignedBuffer.hinted (b : AlignedBuffer) (_ : List Prefetch) : AlignedBuffer := b

end PinnedPool
