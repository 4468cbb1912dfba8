import PinnedPool.Error
import PinnedPool.Payload

/-! # Tasks

A task is a job with its place in the submission order. A watched task has a result slot that its
handle reads; a detached one has none. How a job ends decides what the slot receives and what
becomes of the worker that ran it.
-/
namespace PinnedPool

/-- Where a task stands in the orders of submission and of claiming. -/
structure Ticket where
  submitted : Nat
  claimed : Nat
deriving DecidableEq, Repr

structure Task (J : Type) where
  seq : Nat
  job : J
  watched : Bool
deriving DecidableEq, Repr

/-- How a job ends. A value whose drop panics comes with the payload of that panic. -/
inductive Ending (V : Type) where
  | returned (v : V) (burst? : Option Payload := none)
  | unwound (p : Payload)
deriving DecidableEq, Repr

/-- What a result slot holds once its task is over: a message, or nothing ever. -/
inductive Slot (V : Type) where
  | delivered (r : Except PoolError V)
  | vanished

/-- What the handle of a slot yields. -/
def Slot.result {V : Type} : Slot V → Except PoolError V
  | delivered r => r
  | vanished => .error .taskAbandoned

/-- What the end of a job does to its worker. -/
inductive Aftermath where
  | quiet
  | reported (message : String)
  /-- The thread dies of the payload. -/
  | fatal (p : Payload)
deriving DecidableEq, Repr

/-- The worker catches the payload of a job that unwinds and reports it, but drops it outside of every
guard. -/
def Aftermath.of (escaped : Option Payload) : Aftermath :=
  match escaped with
  | none => quiet
  | some p =>
    match p.burst? with
    | none => reported p.message
    | some q => fatal q

theorem Aftermath.of_eq_fatal_iff {escaped : Option Payload} {q : Payload} :
    of escaped = fatal q ↔ ∃ p, escaped = some p ∧ p.burst? = some q := by
  rcases escaped with _ | p
  · simp [of]
  · cases hp : p.burst? <;> simp [of, hp]

namespace Ending

variable {V : Type}

/-- What a watched job leaves to its handle. A payload is dropped before the slot is filled. -/
def slot : Ending V → Slot V
  | returned v _ => .delivered (.ok v)
  | unwound p =>
    match p.burst? with
    | none => .delivered (.error (.taskPanicked p.message))
    | some _ => .vanished

/-- The payload with which the job itself unwinds. A watched job catches the panic of its body and
drops the payload; it also drops a value that nobody is left to take. -/
def escape (watched heard : Bool) : Ending V → Option Payload
  | returned _ burst? => if watched && !heard then burst? else none
  | unwound p => if watched then p.burst? else some p

/-- What the end of a job does to its slot, if it has one, and to its worker. The job is `heard` while
its handle is there. -/
def settle (watched heard : Bool) (e : Ending V) : Option (Slot V) × Aftermath :=
  (if watched then some e.slot else none, .of (e.escape watched heard))

end Ending
end PinnedPool
