import PinnedPool.Json.Cause

/-! # Single bytes of a configuration text -/
namespace PinnedPool.Json

abbrev quote : UInt8 := 34
abbrev plus : UInt8 := 43
abbrev comma : UInt8 := 44
abbrev minus : UInt8 := 45
abbrev point : UInt8 := 46
abbrev slash : UInt8 := 47
abbrev colon : UInt8 := 58
abbrev listOpen : UInt8 := 91
abbrev backslash : UInt8 := 92
abbrev listClose : UInt8 := 93
abbrev letterU : UInt8 := 117
abbrev objectOpen : UInt8 := 123
abbrev objectClose : UInt8 := 125

/-- Blank, line feed, tab and carriage return. -/
def isSpace (b : UInt8) : Bool := b = 32 || b = 10 || b = 9 || b = 13

def isDigit (b : UInt8) : Bool := 48 ≤ b && b ≤ 57

def digit (b : UInt8) : Nat := b.toNat - 48

/-- An `e` of either case. -/
def isExponentMark (b : UInt8) : Bool := b = 101 || b = 69

/-- The value of a hexadecimal digit of either case. -/
def hexDigit? (b : UInt8) : Option Nat :=
  if isDigit b then some (digit b)
  else if 97 ≤ b && b ≤ 102 then some (b.toNat - 87)
  else if 65 ≤ b && b ≤ 70 then some (b.toNat - 55)
  else none

/-- The text without the white space in front of it. -/
def dropSpace (s : Bytes) : Bytes := s.dropWhile isSpace

/-- The text without the digits in front of it. -/
def dropDigits (s : Bytes) : Bytes := s.dropWhile isDigit

theorem length_dropSpace_le (s : Bytes) : (dropSpace s).length ≤ s.length :=
  (List.dropWhile_sublist isSpace).length_le

theorem length_dropDigits_le (s : Bytes) : (dropDigits s).length ≤ s.length :=
  (List.dropWhile_sublist isDigit).length_le

theorem length_lt_of_dropSpace {s r : Bytes} {b : UInt8} (h : dropSpace s = b :: r) :
    r.length < s.length := by
  have := length_dropSpace_le s
  rw [h, List.length_cons] at this
  omega

end PinnedPool.Json
