import PinnedPool.Handle
import PinnedPool.Log
import PinnedPool.Queue
import Std.Data.TreeMap

/-! # Worker pools

The state that the threads of a pool share, and how far each of them has come: every worker, and
every thread inside a call of the pool. Whatever happens under the queue's lock is one change of
this state, so the state of a call names the change it makes next.
-/
namespace PinnedPool

/-- A thread: one of a pool's workers, or any other. -/
inductive ThreadId where
  | client (n : Nat)
  | worker (pool index : Nat)
deriving DecidableEq, Repr

inductive Worker (J : Type) where
  /-- Started, not yet pinned. -/
  | starting
  /-- About to look for a task. -/
  | ready
  /-- Waits for the signal that a task is available. -/
  | parked
  | running (task : Task J) (ticket : Ticket)
  | left
  /-- Died of a panic with the payload, which whoever joins the thread has to drop. -/
  | killed (p : Payload)
deriving DecidableEq, Repr

namespace Worker

variable {J : Type}

/-- The thread is over, so that joining it returns. -/
def ended : Worker J → Bool
  | left | killed _ => true
  | _ => false

def wake : Worker J → Worker J
  | parked => ready
  | w => w

def isParked : Worker J → Bool
  | parked => true
  | _ => false

end Worker

/-- Why a pool is brought down: by a shutdown, or because a worker could not be started. -/
inductive Purpose where
  | shutdown
  | refused (error : Os.Error)
deriving DecidableEq, Repr

/-- How far a thread has come in a call of the pool. -/
inductive Call (J : Type) where
  | build
  | append (job : J) (watched : Bool)
  /-- Has appended; about to wake one worker. -/
  | notify (seq : Nat)
  /-- About to check that the queue is empty. -/
  | await
  /-- Waits for the signal that the queue has been drained. -/
  | parked
  | raise (why : Purpose)
  /-- Has set the flag; about to wake all workers. -/
  | wake (why : Purpose)
  | enter
  /-- About to join the worker of this index; the ones before it are joined. -/
  | join (why : Purpose) (next : Nat)
deriving DecidableEq, Repr

def Call.wakeWaiter {J : Type} : Call J → Call J
  | parked => await
  | c => c

/-- The join handles: to be taken, taken by a thread that is joining, joined, or dropped by a thread
that panicked before it had joined them all. -/
inductive Handles where
  | present
  | held (thread : ThreadId)
  | gone
  | lost
deriving DecidableEq, Repr

structure Pool (J V : Type) where
  /-- Tells this pool's workers from those of another. -/
  id : Nat
  /-- How many workers were asked for. -/
  threads : Nat
  queue : Queue J
  stopping : Bool
  /-- The workers started so far, by index. -/
  workers : List (Worker J)
  handles : Handles
  /-- The calls in progress, at most one for each thread. -/
  calls : List (ThreadId × Call J)
  /-- The result slots that are settled, by number. -/
  slots : Std.TreeMap Nat (Slot V)
  /-- The last owner is gone, and with it every job that no worker can take any more. -/
  freed : Bool

/-- What a call returns. -/
inductive Reply where
  | built
  | notBuilt (error : Os.Error)
  | accepted (seq : Nat)
  | stopped
  | done
  | unwound (p : Payload)
deriving DecidableEq, Repr

namespace Pool

variable {J V : Type}

def callOf? (p : Pool J V) (t : ThreadId) : Option (Call J) := p.calls.lookup t

def setCall (p : Pool J V) (t : ThreadId) (c : Call J) : Pool J V :=
  { p with calls := (t, c) :: p.calls.filter (·.1 ≠ t) }

def endCall (p : Pool J V) (t : ThreadId) : Pool J V :=
  { p with calls := p.calls.filter (·.1 ≠ t) }

def setWorker (p : Pool J V) (w : Nat) (s : Worker J) : Pool J V :=
  { p with workers := p.workers.set w s }

/-- The signal that a task is available or the pool is stopping, to all workers. -/
def wakeWorkers (p : Pool J V) : Pool J V := { p with workers := p.workers.map Worker.wake }

/-- The signal that the queue has been drained, to all threads that wait for it. -/
def wakeWaiters (p : Pool J V) : Pool J V :=
  { p with calls := p.calls.map fun (t, c) => (t, c.wakeWaiter) }

def isWorker (p : Pool J V) : ThreadId → Bool
  | .client _ => false
  | .worker pool index => pool = p.id && index < p.workers.length

def pending (p : Pool J V) : Nat := p.queue.length

/-- The ticket of the task that a thread is running. -/
def currentTask (p : Pool J V) : ThreadId → Option Ticket
  | .client _ => none
  | .worker pool index =>
    if pool = p.id then
      match p.workers[index]? with
      | some (.running _ ticket) => some ticket
      | _ => none
    else none

def deserted (p : Pool J V) : Bool := p.workers.all Worker.ended

/-- The result slot of a watched task, once it is settled. -/
def slot? (p : Pool J V) (seq : Nat) : Option (Slot V) :=
  match p.slots[seq]? with
  | some s => some s
  | none =>
    if p.freed && p.deserted && p.queue.tasks.any (·.seq = seq) then some .vanished else none

/-- The channel that the handle of a watched task reads. -/
def channel (p : Pool J V) (seq : Nat) : Channel (Except PoolError V) := Slot.channel (p.slot? seq)

end Pool
end PinnedPool
