import PinnedPool.Decimal.Word
import PinnedPool.Text.Terminal

/-! # The benchmark's command line

Arguments are read from left to right. A setting takes the next plain argument as its value; that
value is read when the next option begins, or at the end. An argument that is not known is refused
at once.
-/
namespace PinnedPool.Bench

/-- An option with a value. -/
inductive Setting where
  | config
  | threads
  | tasks
  | work
deriving DecidableEq, Repr

/-- An option without a value. -/
inductive Switch where
  | noPin
  | help
  | version
deriving DecidableEq, Repr

def Setting.ofName? : String → Option Setting
  | "config" => some config
  | "threads" => some threads
  | "tasks" => some tasks
  | "work" => some work
  | _ => none

def Switch.ofName? : String → Option Switch
  | "no-pin" => some noPin
  | "help" => some help
  | "version" => some version
  | _ => none

/-- A setting as messages show it. -/
def Setting.usage : Setting → String
  | config => "--config <PATH>"
  | threads => "--threads <N>"
  | tasks => "--tasks <N>"
  | work => "--work <N>"

def Switch.usage : Switch → String
  | noPin => "--no-pin"
  | help => "--help"
  | version => "--version"

inductive UsageError where
  | missing (s : Setting)
  | malformed (value : String) (s : Setting) (fault : Decimal.Word.Fault)
  | repeated (usage : String)
  | unexpected (argument : String)
  | surplus (value : String) (s : Switch)
deriving DecidableEq, Repr

/-- An argument as messages show it. -/
def shown (argument : String) : String := "'" ++ Text.Terminal.strip argument ++ "'"

def UsageError.message : UsageError → String
  | missing s => "error: a value is required for '" ++ s.usage ++ "' but none was supplied"
  | malformed value s fault =>
    "error: invalid value " ++ shown value ++ " for '" ++ s.usage ++ "': " ++ fault.message
  | repeated usage => "error: the argument '" ++ usage ++ "' cannot be used multiple times"
  | unexpected argument => "error: unexpected argument " ++ shown argument ++ " found"
  | surplus value s =>
    "error: unexpected value " ++ shown value ++ " for '" ++ s.usage
      ++ "' found; no more were expected"

/-- What the command line asks for. -/
structure Arguments where
  config : Option String
  threads : Option Nat
  tasks : Option Nat
  work : Option Nat
  noPin : Bool
deriving DecidableEq, Repr

/-- Why the command line is not carried out. -/
inductive Interruption where
  | help
  | version
  | refused (error : UsageError)
deriving DecidableEq, Repr

namespace Arguments

def empty : Arguments := ⟨none, none, none, none, false⟩

/-- Tasks that are submitted unless the command line tells. -/
def defaultTasks : Nat := 1000

/-- Rounds of work of each task unless the command line tells. -/
def defaultWork : Nat := 10000

def taskCount (a : Arguments) : Nat := a.tasks.getD defaultTasks

def workCount (a : Arguments) : Nat := a.work.getD defaultWork

/-- Whether a setting has a value. -/
def has (a : Arguments) : Setting → Bool
  | .config => a.config.isSome
  | .threads => a.threads.isSome
  | .tasks => a.tasks.isSome
  | .work => a.work.isSome

/-- Gives a setting its value, which must be its first. -/
def assign (a : Arguments) (s : Setting) (value : String) : Except UsageError Arguments :=
  if a.has s then .error (.repeated s.usage)
  else
    let number := (Decimal.Word.ofString value).mapError (.malformed value s)
    match s with
    | .config => if value = "" then .error (.missing s) else .ok { a with config := some value }
    | .threads => number.map fun n => { a with threads := some n }
    | .tasks => number.map fun n => { a with tasks := some n }
    | .work => number.map fun n => { a with work := some n }

/-- A setting that has been named, and the value that followed it. -/
abbrev Pending := Option (Setting × Option String)

/-- Reads a pending value. -/
def settle (a : Arguments) : Pending → Except UsageError Arguments
  | none => .ok a
  | some (s, none) => .error (.missing s)
  | some (s, some value) => a.assign s value

/-- What a switch does. -/
def turn (a : Arguments) : Switch → Except Interruption Arguments
  | .noPin =>
    if a.noPin then .error (.refused (.repeated Switch.noPin.usage))
    else .ok { a with noPin := true }
  | .help => .error .help
  | .version => .error .version

/-- The shape of an argument. -/
inductive Shape where
  /-- Two dashes, after which no option is read. -/
  | separator
  | long (name : String) (value : Option String)
  | short (letter : Char)
  | plain
deriving DecidableEq, Repr

/-- A long option ends at the first equals sign, where its value begins. -/
def longShape (cs : List Char) : Shape :=
  let name := cs.takeWhile (· ≠ '=')
  match cs.drop name.length with
  | [] => .long (String.ofList name) none
  | _ :: value => .long (String.ofList name) (some (String.ofList value))

def shape (argument : String) : Shape :=
  match argument.toList with
  | ['-', '-'] => .separator
  | '-' :: '-' :: cs => longShape cs
  | '-' :: c :: _ => .short c
  | _ => .plain

/-- A long option with the setting or switch that it names. -/
def option (a : Arguments) (pending : Pending) (name : String) (value : Option String) :
    Except Interruption (Arguments × Pending) :=
  match Setting.ofName? name, Switch.ofName? name, value with
  | some s, _, none => (a.settle pending).mapError .refused |>.map (·, some (s, none))
  | some s, _, some v =>
    (a.settle pending).bind (·.assign s v) |>.mapError .refused |>.map (·, none)
  | none, some s, none => do
    let a ← (a.settle pending).mapError .refused
    return (← a.turn s, none)
  | none, some s, some v => .error (.refused (.surplus v s))
  | none, none, _ => .error (.refused (.unexpected ("--" ++ name)))

/-- A short option; what follows its letter is not looked at. -/
def letter (a : Arguments) (pending : Pending) (c : Char) :
    Except Interruption (Arguments × Pending) := do
  let turn (s : Switch) := do
    let a ← (a.settle pending).mapError .refused
    return (← a.turn s, none)
  match c with
  | 'h' => turn .help
  | 'V' => turn .version
  | c => .error (.refused (.unexpected (String.ofList ['-', c])))

def readFrom (a : Arguments) (pending : Pending) :
    List String → Except Interruption Arguments
  | [] => (a.settle pending).mapError .refused
  | argument :: rest =>
    match shape argument with
    | .separator =>
      match rest with
      | [] => (a.settle pending).mapError .refused
      | next :: _ => .error (.refused (.unexpected next))
    | .long name value => do
      let (a, pending) ← a.option pending name value
      readFrom a pending rest
    | .short c => do
      let (a, pending) ← a.letter pending c
      readFrom a pending rest
    | .plain =>
      match pending with
      | some (s, none) => readFrom a (some (s, some argument)) rest
      | _ => .error (.refused (.unexpected argument))

/-- Reads a command line. -/
def read (arguments : List String) : Except Interruption Arguments := empty.readFrom none arguments

end Arguments
end PinnedPool.Bench
