import PinnedPool.Affinity.Class
import PinnedPool.Json.Document
import PinnedPool.Os

/-! # What can go wrong with a pool -/
namespace PinnedPool

inductive PoolError where
  | os (error : Os.Error)
  | config (error : Json.Error)
  | invalidThreadCount
  | poolStopped
  | taskPanicked (message : String)
  | taskAbandoned
  | cpuOutOfRange (cpu : Nat)
  | affinityRejected (cores : CoreClass) (error : Os.Error)
  | invalidAlignment (alignment : Nat)
  | allocationTooLarge (size alignment : Nat)
deriving DecidableEq, Repr

namespace PoolError

/-- The name of the kind of error. -/
def label : PoolError → String
  | os _ => "Io"
  | config _ => "Config"
  | invalidThreadCount => "InvalidThreadCount"
  | poolStopped => "PoolStopped"
  | taskPanicked _ => "TaskPanicked"
  | taskAbandoned => "TaskAbandoned"
  | cpuOutOfRange _ => "CpuOutOfRange"
  | affinityRejected _ _ => "AffinityRejected"
  | invalidAlignment _ => "InvalidAlignment"
  | allocationTooLarge _ _ => "AllocationTooLarge"

def message : PoolError → String
  | os e => "IO error: " ++ e.message
  | config e => "Config error: " ++ e.message
  | invalidThreadCount => "Thread count must be at least 1"
  | poolStopped => "Enqueue on stopped worker pool"
  | taskPanicked m => "Task panicked: " ++ m
  | taskAbandoned => "Task was abandoned before completing"
  | cpuOutOfRange cpu => "CPU index " ++ toString cpu ++ " is out of range for the affinity mask"
  | affinityRejected c e => "Failed to apply " ++ c.name ++ " affinity: " ++ e.message
  | invalidAlignment a => "Alignment " ++ toString a ++ " is not a power of two"
  | allocationTooLarge s a =>
    "Allocation of " ++ toString s ++ " bytes aligned to " ++ toString a ++ " is too large"

/-- A configuration error as a term. -/
def configTerm (e : Json.Error) : String :=
  "Error(" ++ Text.quoted e.summary ++ ", line: " ++ toString e.line ++ ", column: "
    ++ toString e.column ++ ")"

/-- The arguments of the error as a term, if it has any. -/
def arguments : PoolError → String
  | os e => "(" ++ e.term ++ ")"
  | config e => "(" ++ configTerm e ++ ")"
  | taskPanicked m => "(" ++ Text.quoted m ++ ")"
  | cpuOutOfRange cpu => "(" ++ toString cpu ++ ")"
  | affinityRejected c e => " \x7b class: " ++ c.name ++ ", source: " ++ e.term ++ " \x7d"
  | invalidAlignment a => "(" ++ toString a ++ ")"
  | allocationTooLarge s a =>
    " \x7b size: " ++ toString s ++ ", alignment: " ++ toString a ++ " \x7d"
  | invalidThreadCount => ""
  | poolStopped => ""
  | taskAbandoned => ""

/-- The error as a term. -/
def term (e : PoolError) : String := e.label ++ e.arguments

/-- The message of the error that this one was made from. -/
def cause? : PoolError → Option String
  | os e => some e.message
  | config e => some e.message
  | affinityRejected _ e => some e.message
  | _ => none

end PoolError

/-- Why no pool was made. -/
inductive Failure where
  | refused (error : PoolError)
  /-- The attempt ended in a panic. -/
  | unwound (message : String)
deriving DecidableEq, Repr

end PinnedPool
