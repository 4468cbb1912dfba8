import PinnedPool.Json.Reader

/-! # Whole texts

A text holds one value with nothing but white space around it. A refusal names its line and its
column: the lines begun so far, and the bytes passed since the last line feed.
-/
namespace PinnedPool.Json

structure Error where
  cause : Cause
  line : Nat
  column : Nat
deriving DecidableEq, Repr

/-- Line and column after the given bytes. -/
def position (passed : Bytes) : Nat × Nat :=
  (1 + passed.count 10, (passed.reverse.takeWhile (· ≠ 10)).length)

/-- The error of a fault in a text. -/
def Fault.locate (text : Bytes) (f : Fault) : Error :=
  let p := position (text.take (text.length - f.rest.length))
  ⟨f.cause, p.1, p.2⟩

/-- The message without its place. -/
def Error.summary (e : Error) : String := e.cause.message

def Error.message (e : Error) : String :=
  e.summary ++ " at line " ++ toString e.line ++ " column " ++ toString e.column

/-- The value before the end of the text, up to white space. -/
def Reader.runAll {α : Type} (r : Reader α) (text : Bytes) : Except Fault α :=
  match r.run text with
  | .error f => .error f
  | .ok (a, rest) =>
    match dropSpace rest with
    | [] => .ok a
    | b :: t => .error (Fault.atByte .trailingCharacters (b :: t))

def Reader.parse {α : Type} (r : Reader α) (text : Bytes) : Except Error α :=
  (r.runAll text).mapError (Fault.locate text)

end PinnedPool.Json
