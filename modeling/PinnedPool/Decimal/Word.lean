/-! # Decimal words

Reads an unsigned 64-bit number. A plus sign and leading zeros are allowed; the first digit that is
none, or that no longer fits, decides what is wrong.
-/
namespace PinnedPool.Decimal.Word

inductive Fault where
  | empty
  | badDigit
  | tooLarge
deriving DecidableEq, Repr

def Fault.message : Fault → String
  | empty => "cannot parse integer from empty string"
  | badDigit => "invalid digit found in string"
  | tooLarge => "number too large to fit in target type"

/-- Words are below this. -/
def bound : Nat := Nat.pow 2 64

def digit? (c : Char) : Option Nat :=
  if c.isDigit then some (c.toNat - '0'.toNat) else none

/-- Reads the rest of a word after the given value. -/
def readFrom (n : Nat) : List Char → Except Fault Nat
  | [] => .ok n
  | c :: cs =>
    match digit? c with
    | none => .error .badDigit
    | some d => if 10 * n + d < bound then readFrom (10 * n + d) cs else .error .tooLarge

/-- Reads a whole text. -/
def ofString (text : String) : Except Fault Nat :=
  match text.toList with
  | [] => .error .empty
  | ['+'] => .error .badDigit
  | '+' :: cs => readFrom 0 cs
  | cs => readFrom 0 cs

end PinnedPool.Decimal.Word
