/-! # Double precision magnitudes

A magnitude is a natural number of units, where a unit is a power of two. Rounding a fraction goes
to the nearest magnitude and a tie goes to the even one. Products and quotients are computed as
fractions and rounded once.
-/
namespace PinnedPool.Decimal

/-- The magnitude `units * 2 ^ scale`. -/
structure Binary64 where
  units : Nat
  scale : Int
deriving DecidableEq, Repr

namespace Binary64

def minScale : Int := -1074

/-- No finite magnitude has a scale above this one. -/
def maxScale : Int := 971

def zero : Binary64 := ⟨0, minScale⟩

def isZero (f : Binary64) : Bool := f.units = 0

/-- The fraction `num / den` as a number of units of the given scale. -/
def inUnits (num den : Nat) (scale : Int) : Nat × Nat :=
  if 0 ≤ scale then (num, den * Nat.pow 2 scale.toNat) else (num * Nat.pow 2 (-scale).toNat, den)

/-- The nearest natural number to a fraction, the even one of two. -/
def nearest (num den : Nat) : Nat :=
  let q := num / den
  let r := num % den
  if 2 * r < den then q else if den < 2 * r then q + 1 else q + q % 2

/-- The scale at which a fraction has 53 significant bits, or the least one. -/
def scaleOf (num den : Nat) : Int :=
  let guess : Int := (num.log2 : Int) - den.log2 - 53
  let (n, d) := inUnits num den guess
  max minScale (if Nat.pow 2 53 ≤ n / d then guess + 1 else guess)

/-- The magnitude nearest to `num / den`, or none when that is beyond every finite one. -/
def ofFraction (num den : Nat) : Option Binary64 :=
  if num = 0 then some zero
  else
    let s := scaleOf num den
    let (n, d) := inUnits num den s
    let m := nearest n d
    let f : Binary64 := if m = Nat.pow 2 53 then ⟨Nat.pow 2 52, s + 1⟩ else ⟨m, s⟩
    if maxScale < f.scale then none else some f

def ofNat (n : Nat) : Option Binary64 := ofFraction n 1

def fraction (f : Binary64) : Nat × Nat :=
  if 0 ≤ f.scale then (f.units * Nat.pow 2 f.scale.toNat, 1)
  else (f.units, Nat.pow 2 (-f.scale).toNat)

def mul (f g : Binary64) : Option Binary64 :=
  let (a, b) := f.fraction
  let (c, d) := g.fraction
  ofFraction (a * c) (b * d)

def div (f g : Binary64) : Option Binary64 :=
  let (a, b) := f.fraction
  let (c, d) := g.fraction
  ofFraction (a * d) (b * c)

def powTen (e : Nat) : Option Binary64 := ofNat (Nat.pow 10 e)

end Binary64
end PinnedPool.Decimal
