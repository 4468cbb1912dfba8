/-! # The benchmark's work

A xorshift generator keeps a core busy. An odd start keeps the state from being zero.
-/
namespace PinnedPool.Bench.Xorshift

def round (x : UInt64) : UInt64 :=
  let x := x ^^^ (x <<< 13)
  let x := x ^^^ (x >>> 7)
  x ^^^ (x <<< 17)

def rounds : Nat → UInt64 → UInt64
  | 0, x => x
  | n + 1, x => rounds n (round x)

/-- The state that a seed leads to. -/
def spin (seed : UInt64) (iterations : Nat) : UInt64 := rounds iterations (seed ||| 1)

end PinnedPool.Bench.Xorshift
