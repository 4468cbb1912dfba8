import PinnedPool.Decimal.Binary64

/-! # The shortest decimal that reads back

A magnitude stands for every real number that rounds to it. Among the decimals in that interval the
shortest one is taken, and the nearest of those. A layout then says which exponents are written
without an exponent part.
-/
namespace PinnedPool.Decimal

/-- Significant digits without trailing zeros, and the exponent of the first one. -/
structure Digits where
  digits : List Char
  exponent : Int
deriving DecidableEq, Repr

/-- Lower end, value and upper end of the interval of a magnitude over one denominator. -/
structure Interval where
  low : Nat
  value : Nat
  high : Nat
  den : Nat
  closed : Bool

def Binary64.interval (f : Binary64) : Interval :=
  let below := if f.units = Nat.pow 2 52 ∧ Binary64.minScale < f.scale then 1 else 2
  let s := f.scale - 2
  let grow := if 0 ≤ s then Nat.pow 2 s.toNat else 1
  { low := (4 * f.units - below) * grow
    value := 4 * f.units * grow
    high := (4 * f.units + 2) * grow
    den := if 0 ≤ s then 1 else Nat.pow 2 (-s).toNat
    closed := f.units % 2 = 0 }

/-- The exponent of the first significant digit of a positive fraction. -/
def leadingExponent (num den : Nat) : Int :=
  if den ≤ num then ((Nat.toDigits 10 (num / den)).length : Int) - 1
  else
    let n := (Nat.toDigits 10 (den / num)).length
    if den = num * Nat.pow 10 (n - 1) then 1 - (n : Int) else -(n : Int)

/-- The points of the grid of step `10 ^ step` next to the value that lie in the interval, the
nearer one first. -/
def Interval.gridPoint (i : Interval) (step : Int) : Option Nat :=
  let up := if 0 ≤ step then 1 else Nat.pow 10 (-step).toNat
  let down := if 0 ≤ step then Nat.pow 10 step.toNat else 1
  let unit := i.den * down
  let value := i.value * up
  let c := value / unit
  let above (p : Nat) := if i.closed then i.low * up ≤ p * unit else i.low * up < p * unit
  let under (p : Nat) := if i.closed then p * unit ≤ i.high * up else p * unit < i.high * up
  let left := decide (0 < c) && above c
  let right := under (c + 1)
  let gap := value - c * unit
  if left && right then
    some (if 2 * gap < unit then c else if unit < 2 * gap then c + 1 else c + c % 2)
  else if left then some c
  else if right then some (c + 1)
  else none

/-- The first grid, from coarse to fine, that has a point in the interval. -/
def Interval.search (i : Interval) (lead : Int) : List Nat → Option (Nat × Int)
  | [] => none
  | n :: rest =>
    let step := lead - n
    match i.gridPoint step with
    | some c => some (c, step)
    | none => i.search lead rest

def Digits.ofScaled (c : Nat) (step : Int) : Digits :=
  let ds := Nat.toDigits 10 c
  { digits := (ds.reverse.dropWhile (· = '0')).reverse
    exponent := step + (ds.length : Int) - 1 }

/-- The shortest digits of a positive magnitude; 17 digits always suffice. -/
def Binary64.shortest (f : Binary64) : Digits :=
  let i := f.interval
  match i.search (leadingExponent i.value i.den) (List.range 17) with
  | some (c, step) => Digits.ofScaled c step
  | none => ⟨['0'], 0⟩

/-- Which exponents are written positionally. -/
structure Layout where
  lowest : Int
  highest : Int

/-- Positional with at least one fraction digit from `lowest` to `highest`, else one digit before
the point, if any follow, and a signed exponent. -/
def Layout.write (l : Layout) (d : Digits) : String :=
  let zeros (n : Nat) := List.replicate n '0'
  if l.lowest ≤ d.exponent ∧ d.exponent ≤ l.highest then
    if d.exponent < 0 then
      String.ofList (['0', '.'] ++ zeros (-d.exponent - 1).toNat ++ d.digits)
    else
      let n := d.exponent.toNat + 1
      let whole := d.digits.take n ++ zeros (n - d.digits.length)
      let part := d.digits.drop n
      String.ofList (whole ++ ['.'] ++ if part.isEmpty then ['0'] else part)
  else
    let first := d.digits.take 1
    let part := d.digits.drop 1
    let sign := if d.exponent < 0 then "-" else "+"
    String.ofList (first ++ if part.isEmpty then [] else '.' :: part)
      ++ "e" ++ sign ++ toString d.exponent.natAbs

/-- The text of a magnitude with its sign; zero is `0.0`. -/
def Layout.text (l : Layout) (negative : Bool) (f : Binary64) : String :=
  (if negative then "-" else "") ++ if f.isZero then "0.0" else l.write f.shortest

end PinnedPool.Decimal
