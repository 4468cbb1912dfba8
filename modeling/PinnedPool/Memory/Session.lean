import PinnedPool.Memory.Prefetch

/-! # Working with one buffer

A session requests a buffer and applies actions to it until it is released. A request of huge size
that has a layout goes to an allocator that cannot serve it.
-/
namespace PinnedPool.BufferSession

inductive Action where
  | size
  | isEmpty
  | alignment
  | misalignment
  | sharedStart
  | get (i : Nat)
  | set (i : Nat) (v : UInt8)
  | fill (v : UInt8)
  | copy (i : Nat) (vs : List UInt8)
  | read (i j : Nat)
  | sum
  | nonzero
  | describe
  | prefetch (hint : Prefetch)
  | prefetchRange (start len : Nat)
  | release
deriving Repr

inductive Answer where
  | done
  | released
  | number (n : Nat)
  | flag (b : Bool)
  | bytes (bs : List UInt8)
  | text (s : String)
  | outOfBounds (e : AlignedBuffer.OutOfBounds)
deriving Repr

/-- What stands for an address in a text. -/
def someAddress : String := "PTR"

/-- One action on a buffer: the buffer after it and the answer. -/
def act (b : AlignedBuffer) : Action → AlignedBuffer × Answer
  | .size => (b, .number b.size)
  | .isEmpty => (b, .flag false)
  | .alignment => (b, .number b.alignment)
  | .misalignment => (b, .number 0)
  | .sharedStart => (b, .flag true)
  | .get i => (b, match b.get i with
    | .ok v => .number v.toNat
    | .error e => .outOfBounds e)
  | .set i v => match b.set i v with
    | .ok b => (b, .done)
    | .error e => (b, .outOfBounds e)
  | .fill v => (b.fill v, .done)
  | .copy i vs => match b.copy i vs with
    | .ok b => (b, .done)
    | .error e => (b, .outOfBounds e)
  | .read i j => (b, match b.read i j with
    | .ok vs => .bytes vs
    | .error e => .outOfBounds e)
  | .sum => (b, .number b.sum)
  | .nonzero => (b, .number b.nonzero)
  | .describe => (b, .text (b.term someAddress))
  | .prefetch hint => (b.hinted [hint], .done)
  | .prefetchRange start len => (b.hinted (Prefetch.range (.ofNat start) (.ofNat len)), .done)
  | .release => (b, .done)

/-- The answers to a list of actions. After a release only another release is done. -/
def run : Option AlignedBuffer → List Action → List Answer
  | _, [] => []
  | _, .release :: as => .done :: run none as
  | none, _ :: as => .released :: run none as
  | some b, a :: as =>
    let (b, answer) := act b a
    answer :: run (some b) as

/-- Sizes and alignments from here on are more than the allocator has. -/
def memoryLimit : Nat := Nat.pow 2 40

inductive Outcome where
  | refused (e : PoolError)
  | outOfMemory (bytes : Nat)
  | served (b : AlignedBuffer) (answers : List Answer)

/-- Requests a buffer, of a size and an alignment that are words, and works with it. -/
def serve (size alignment : Nat) (actions : List Action) : Outcome :=
  match AlignedBuffer.new (.ofNat size) (.ofNat alignment) with
  | .error e => .refused e
  | .ok b =>
    if memoryLimit ≤ size ∨ memoryLimit ≤ alignment then .outOfMemory b.size
    else .served b (run (some b) actions)

end PinnedPool.BufferSession
