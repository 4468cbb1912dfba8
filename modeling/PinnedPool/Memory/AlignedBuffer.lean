import PinnedPool.Error
import Std.Data.TreeMap

/-! # Aligned buffers

A zeroed block whose size is a multiple of its alignment. Sizes are worked out on machine words.
Contents are kept as one background byte and the bytes that were written over it, so a buffer may be
large.
-/
namespace PinnedPool

/-- A size and an alignment that an allocator can be asked for. -/
structure Layout where
  size : UInt64
  alignment : UInt64
deriving DecidableEq, Repr

namespace Layout

def isPowerOfTwo (a : UInt64) : Bool := (1 : UInt64) <<< a.log2 = a

/-- The sum of two words, if it is a word. -/
def checkedAdd (a b : UInt64) : Option UInt64 :=
  let sum := a + b
  if sum < a then none else some sum

/-- The least multiple of `a` from `n` on, if it is a word. -/
def nextMultiple? (n a : UInt64) : Option UInt64 :=
  let past := n % a
  if past = 0 then some n else checkedAdd n (a - past)

/-- No block reaches this far, not even when it is rounded up to its alignment. -/
def maxExtent : UInt64 := (1 : UInt64) <<< 63

def ofSize? (size alignment : UInt64) : Option Layout :=
  if maxExtent - alignment < size then none else some ⟨size, alignment⟩

/-- Even an empty request takes a byte. -/
def taken (size : UInt64) : UInt64 := if size = 0 then 1 else size

/-- The layout of the block for a request. -/
def forRequest? (size alignment : UInt64) : Option Layout :=
  (nextMultiple? (taken size) alignment).bind (ofSize? · alignment)

end Layout

structure AlignedBuffer where
  size : Nat
  alignment : Nat
  background : UInt8 := 0
  written : Std.TreeMap Nat UInt8 := ∅

namespace AlignedBuffer

/-- The alignment of a cache line. -/
def cacheLine : Nat := 64

/-- A new block of zeroes. -/
def zeroed (l : Layout) : AlignedBuffer := { size := l.size.toNat, alignment := l.alignment.toNat }

/-- A zeroed buffer of at least `size` bytes, or why there is no layout for it. -/
def new (size alignment : UInt64) : Except PoolError AlignedBuffer :=
  if !Layout.isPowerOfTwo alignment then .error (.invalidAlignment alignment.toNat)
  else
    match Layout.forRequest? size alignment with
    | some l => .ok (zeroed l)
    | none => .error (.allocationTooLarge size.toNat alignment.toNat)

/-- An index or a range that is not inside a buffer. -/
inductive OutOfBounds where
  | index (i size : Nat)
  | start (i size : Nat)
  | stop (i size : Nat)
  | reversed (start stop : Nat)
deriving DecidableEq, Repr

def OutOfBounds.message : OutOfBounds → String
  | index i n => "index out of bounds: the len is " ++ toString n ++ " but the index is " ++ toString i
  | start i n =>
    "range start index " ++ toString i ++ " out of range for slice of length " ++ toString n
  | stop i n => "range end index " ++ toString i ++ " out of range for slice of length " ++ toString n
  | reversed i j => "slice index starts at " ++ toString i ++ " but ends at " ++ toString j

variable (b : AlignedBuffer)

def byteAt (i : Nat) : UInt8 := b.written.getD i b.background

def get (i : Nat) : Except OutOfBounds UInt8 :=
  if i < b.size then .ok (b.byteAt i) else .error (.index i b.size)

/-- Writes one byte without a check. -/
def put (i : Nat) (v : UInt8) : AlignedBuffer := { b with written := b.written.insert i v }

def set (i : Nat) (v : UInt8) : Except OutOfBounds AlignedBuffer :=
  if i < b.size then .ok (b.put i v) else .error (.index i b.size)

def fill (v : UInt8) : AlignedBuffer := { b with background := v, written := ∅ }

/-- Checks the range from `i` up to `j`. -/
def checkRange (i j : Nat) : Except OutOfBounds Unit :=
  if b.size < i then .error (.start i b.size)
  else if b.size < j then .error (.stop j b.size)
  else if j < i then .error (.reversed i j)
  else .ok ()

/-- Writes consecutive bytes without a check. -/
def putAll : AlignedBuffer → Nat → List UInt8 → AlignedBuffer
  | b, _, [] => b
  | b, i, v :: vs => putAll (b.put i v) (i + 1) vs

def copy (i : Nat) (vs : List UInt8) : Except OutOfBounds AlignedBuffer :=
  match b.checkRange i (i + vs.length) with
  | .ok () => .ok (b.putAll i vs)
  | .error e => .error e

def read (i j : Nat) : Except OutOfBounds (List UInt8) :=
  match b.checkRange i j with
  | .ok () => .ok ((List.range (j - i)).map fun k => b.byteAt (i + k))
  | .error e => .error e

/-- The sum of all bytes. -/
def sum : Nat :=
  (b.size - b.written.size) * b.background.toNat
    + b.written.foldl (fun sum _ v => sum + v.toNat) 0

/-- How many bytes are not zero. -/
def nonzero : Nat :=
  (if b.background = 0 then 0 else b.size - b.written.size)
    + b.written.foldl (fun n _ v => if v = 0 then n else n + 1) 0

/-- The buffer as a term; `address` stands for its first byte. -/
def term (address : String) : String :=
  "AlignedBuffer \x7b ptr: " ++ address ++ ", len: " ++ toString b.size ++ ", alignment: "
    ++ toString b.alignment ++ " \x7d"

end AlignedBuffer
end PinnedPool
