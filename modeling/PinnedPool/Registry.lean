import PinnedPool.Pool.Step

/-! # Registries

A registry owns at most one pool. Its lock is held for the whole of a call, also while a pool is
built or joined, so the calls of a registry come one after another. A thread that panics in a call
poisons the lock, which keeps nobody from it.
-/
namespace PinnedPool

/-- A pool as a registry knows it. -/
structure Held where
  pool : Nat
  threads : Nat
deriving DecidableEq, Repr

namespace Registry

inductive Request where
  /-- The pool, or a new one of the given configuration. -/
  | setUp (config : Config)
  /-- The pool, or a new one of the default size. -/
  | getOrInit
  | get
  | shutdown
deriving DecidableEq, Repr

inductive Reply where
  | pool (held : Held)
  | failed (failure : Failure)
  | none
  | done
  | unwound (p : Payload)
deriving DecidableEq, Repr

def Reply.unwinds : Reply → Bool
  | failed (.unwound _) | unwound _ => true
  | _ => false

/-- How far a thread has come in a call. All but the first state hold the lock. -/
inductive Call where
  | entering (request : Request)
  /-- Builds a pool, and logs a line once it stands. -/
  | creating (config : Config) (line : Nat → Log.Line)
  /-- Brings down the pool that was taken out of the slot. -/
  | stopping (held : Held)
  /-- About to release the lock. -/
  | leaving (reply : Reply)

def Call.holdsLock : Call → Bool
  | entering _ => false
  | _ => true

/-- The pool that a thread holds while it is in a call. -/
def Call.pool? : Call → Option Nat
  | stopping held => some held.pool
  | leaving (.pool held) => some held.pool
  | _ => Option.none

end Registry

structure Registry where
  slot : Option Held
  calls : List (ThreadId × Registry.Call)
  /-- A thread has panicked while it held the lock. -/
  poisoned : Bool

namespace Registry

def empty : Registry := ⟨none, [], false⟩

def callOf? (r : Registry) (t : ThreadId) : Option Call := r.calls.lookup t

def setCall (r : Registry) (t : ThreadId) (c : Call) : Registry :=
  { r with calls := (t, c) :: r.calls.filter (·.1 ≠ t) }

/-- A thread lets go of the lock. -/
def endCall (r : Registry) (t : ThreadId) (reply : Reply) : Registry :=
  { r with calls := r.calls.filter (·.1 ≠ t), poisoned := r.poisoned || reply.unwinds }

/-- Whether some thread holds the lock. -/
def locked (r : Registry) : Bool := r.calls.any (·.2.holdsLock)

/-- What the lock gives to a thread. A poisoned one gives it with a warning. -/
def lock (r : Registry) : Except (Option Held) (Option Held) :=
  if r.poisoned then .error r.slot else .ok r.slot

/-- The slot as a thread finds it that does not care about the warning. -/
def content (r : Registry) : Option Held :=
  match r.lock with
  | .ok slot | .error slot => slot

theorem content_eq (r : Registry) : r.content = r.slot := by
  unfold content lock
  cases r.poisoned <;> rfl

inductive Event where
  | call (t : ThreadId) (request : Request)
  /-- A thread gets the lock and looks into the slot. -/
  | enter (t : ThreadId)
  /-- The pool that a thread was building stands, or does not. -/
  | created (t : ThreadId) (result : Except Failure Held)
  /-- The pool that a thread was bringing down is down, or that has panicked. -/
  | stopped (t : ThreadId) (panic : Option Payload := none)
  | leave (t : ThreadId)

/-- The registry after a step, the lines logged by the thread, and what its call returned. -/
structure Effect where
  registry : Registry
  lines : List Log.Line := []
  reply : Option Reply := none

/-- The first look into the slot, under the lock. -/
def look (r : Registry) (t : ThreadId) : Request → Effect
  | .setUp config =>
    match r.content with
    | some held =>
      { registry := r.setCall t (.leaving (.pool held))
        lines := [.alreadyInitialized held.threads config.threads] }
    | none => { registry := r.setCall t (.creating config .initialized) }
  | .getOrInit =>
    match r.content with
    | some held => { registry := r.setCall t (.leaving (.pool held)) }
    | none => { registry := r.setCall t (.creating .standard .autoInitialized) }
  | .get =>
    { registry := r.setCall t (.leaving (match r.content with
        | some held => .pool held
        | none => .none)) }
  | .shutdown =>
    match r.content with
    | some held => { registry := { r with slot := none }.setCall t (.stopping held) }
    | none => { registry := r.setCall t (.leaving .done) }

/-- Puts a new pool into the slot; a failure leaves the slot empty. -/
def store (r : Registry) (t : ThreadId) (line : Nat → Log.Line) : Except Failure Held → Effect
  | .ok held =>
    { registry := { r with slot := some held }.setCall t (.leaving (.pool held))
      lines := [line held.threads] }
  | .error f => { registry := r.setCall t (.leaving (.failed f)) }

/-- The slot is empty already when the pool is brought down, and stays so whatever comes of it. -/
def quit (r : Registry) (t : ThreadId) : Option Payload → Effect
  | none => { registry := r.setCall t (.leaving .done), lines := [.registryShutdown] }
  | some p => { registry := r.setCall t (.leaving (.unwound p)) }

/-- One step of one thread. -/
def step (r : Registry) : Event → Option Effect
  | .call t request =>
    if (r.callOf? t).isSome then none else some { registry := r.setCall t (.entering request) }
  | .enter t =>
    match r.callOf? t with
    | some (.entering request) => if r.locked then none else some (r.look t request)
    | _ => none
  | .created t result =>
    match r.callOf? t with
    | some (.creating _ line) => some (r.store t line result)
    | _ => none
  | .stopped t panic =>
    match r.callOf? t with
    | some (.stopping _) => some (r.quit t panic)
    | _ => none
  | .leave t =>
    match r.callOf? t with
    | some (.leaving reply) => some { registry := r.endCall t reply, reply := some reply }
    | _ => none

end Registry
end PinnedPool
