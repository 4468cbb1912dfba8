/-! # Text without terminal sequences

Text that does not go to a terminal leaves out what only a terminal obeys: escape sequences, the
strings that some of them open, and control characters other than white space. Inside a short
sequence a control character acts at once, so white space there is shown, and with it the text
that follows; the sequence goes on at the next character that is not shown.
-/
namespace PinnedPool.Text.Terminal

inductive Place where
  | text
  | escape
  /-- An escape sequence of more than two characters. -/
  | longEscape
  | controlSequence
  /-- A device string: its opening, its parameters, what stands between them and its body. -/
  | deviceStart
  | deviceParameters
  | deviceIntermediate
  | deviceBody
  | plainString
  | command
deriving DecidableEq, Repr

/-- Whether one of the bytes of a character ends a string. -/
def endsString (c : Char) : Bool := c.toNat ≥ 128 && c.toString.toUTF8.toList.contains 0x9c

/-- The place after a character that is not shown. -/
def next (p : Place) (c : Char) : Place :=
  let n := c.toNat
  let outside := n < 0x20 || 0x7f ≤ n
  if n = 0x18 || n = 0x1a then .text
  else if n = 0x1b then .escape
  else
    match p with
    | .text => .text
    | .escape =>
      if outside then .escape
      else if n < 0x30 then .longEscape
      else
        match c with
        | '[' => .controlSequence
        | ']' => .command
        | 'P' => .deviceStart
        | 'X' | '^' | '_' => .plainString
        | _ => .text
    | .longEscape => if outside || n < 0x30 then .longEscape else .text
    | .controlSequence => if outside || n < 0x40 then .controlSequence else .text
    | .deviceStart =>
      if outside then .deviceStart
      else if n < 0x30 then .deviceIntermediate
      else if n < 0x40 then .deviceParameters
      else .deviceBody
    | .deviceParameters =>
      if outside then .deviceParameters
      else if n < 0x30 then .deviceIntermediate
      else if n < 0x3c then .deviceParameters
      else .deviceBody
    | .deviceIntermediate => if outside || n < 0x30 then .deviceIntermediate else .deviceBody
    | .deviceBody => if endsString c then .text else .deviceBody
    | .plainString => if endsString c then .text else .plainString
    | .command => if n = 0x07 then .text else .command

/-- Tab, line feed, form feed and carriage return. -/
def isBlank (c : Char) : Bool := c = '\t' || c = '\n' || c.toNat = 0x0c || c = '\r'

def shows (p : Place) (c : Char) : Bool :=
  match p with
  | .text => isBlank c || (0x20 ≤ c.toNat && c.toNat ≠ 0x7f)
  | .escape | .longEscape | .controlSequence => isBlank c
  | _ => false

/-- The characters that are shown. While text is shown the place of a sequence that white space
broke is kept; a character outside the first 128 gives it up. -/
def stripFrom (p : Place) (showing : Bool) : List Char → List Char
  | [] => []
  | c :: cs =>
    if showing && shows .text c then
      c :: stripFrom (if c.toNat < 128 then p else .text) true cs
    else if shows p c then c :: stripFrom p true cs
    else stripFrom (next p c) false cs

def strip (s : String) : String := String.ofList (stripFrom .text false s.toList)

end PinnedPool.Text.Terminal
