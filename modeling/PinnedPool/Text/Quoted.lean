import PinnedPool.Text.Invisible

/-! # Quoted text and bracketed lists

Quoted text stands between double quotes. A quote and a backslash take a backslash, the line feed,
carriage return, tab and NUL have short names, and a character that does not show is written by its
code point in lower-case hexadecimal. A bracketed list separates its items by a comma and a blank.
-/
namespace PinnedPool.Text

/-- The digits of a code point, most significant first, without leading zeros. -/
def hexDigits (n : Nat) : List Char := (Nat.toDigits 16 n)

def hidden (c : Char) : Bool :=
  if c.toNat < 128 then c.toNat < 32 || c.toNat = 127 else Invisible.covers c

/-- The spelling of one character inside quotes. -/
def spell (c : Char) : List Char :=
  if c = '"' then ['\\', '"']
  else if c = '\\' then ['\\', '\\']
  else if c = '\n' then ['\\', 'n']
  else if c = '\r' then ['\\', 'r']
  else if c = '\t' then ['\\', 't']
  else if c.toNat = 0 then ['\\', '0']
  else if hidden c then ['\\', 'u', '\x7b'] ++ hexDigits c.toNat ++ ['\x7d']
  else [c]

def quoted (s : String) : String :=
  String.ofList ('"' :: s.toList.flatMap spell ++ ['"'])

def bracketed (items : List String) : String := "[" ++ ", ".intercalate items ++ "]"

def numbers (ns : List Nat) : String := bracketed (ns.map toString)

end PinnedPool.Text
