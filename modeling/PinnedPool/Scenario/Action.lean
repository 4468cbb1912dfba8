import PinnedPool.Affinity.Session
import PinnedPool.Registry

/-! # What a scenario does

A scenario is a list of actions over pools, registries, tasks, gates, a counter and events. The same
actions are its steps and stand in the bodies of tasks. `α` is the type of the literal values that a
body may return.
-/
namespace PinnedPool.Scenario

/-- Where the configuration of a new pool comes from. -/
inductive Source where
  | threads (n : Nat)
  | text (s : String)
deriving DecidableEq, Repr

def Source.config : Source → Except PoolError Config
  | threads n => .ok (.withThreads n)
  | text s => Config.ofString s

/-- How a new pool is asked for. -/
inductive Order where
  | configured (source : Source)
  | controlled (threads : Nat) (topology : Topology) (maker : AffinitySession.Maker)

/-- A request to a registry. -/
inductive Asking where
  | setUp (source : Source)
  | getOrInit
  | get
  | shutdown

inductive Action (α : Type) where
  /-- Records a text, or the number of the copy. -/
  | event (text : Option String)
  | add (n : Int64)
  | pass (gate : String)
  | openGate (gate : String)
  | index
  | ticket
  /-- The ticket as a new thread sees it. -/
  | otherTicket
  | threadName
  /-- Ends the body with a value. -/
  | give (v : α)
  | panic (p : Payload)
  /-- Queues a body under the name of a task; if copies are asked for, each under the name and its
  number. -/
  | enqueue (pool task : String) (body : List (Action α)) (copies : Option Nat)
  | spawn (pool : String) (body : List (Action α)) (copies : Option Nat)
  | join (task : String)
  | tryJoin (task : String)
  | isFinished (task : String)
  | describe (task : String)
  | dropHandle (task : String)
  | wait (pool : String)
  | shutdown (pool : String)
  | drop (pool : String)
  | pending (pool : String)
  | stopping (pool : String)
  | threadCount (pool : String)
  | isWorker (pool : String)
  | backend (pool : String)
  | topology (pool : String)
  | apply (pool : String) (cores : CoreClass)
  /-- Makes a pool. The system refuses to start the worker of the given index. -/
  | create (label : String) (order : Order) (refusal : Option (Nat × Os.Error))
  | registry (name : String) (asking : Asking) (label : Option String)

/-- A job: its actions and the number of its copy. -/
structure Job (α : Type) where
  body : List (Action α)
  index : Nat

structure PoolView where
  number : Nat
  threads : Nat
  backend : String
  stopping : Bool
deriving DecidableEq, Repr

inductive Value (α : Type) where
  | nothing
  | done
  | given (v : α)
  | number (n : Nat)
  | flag (b : Bool)
  | text (s : String)
  | ticket (t : Option Ticket)
  | topology (t : Topology)
  | pool (v : PoolView)
  | failed (e : PoolError)
  | unwound (message : String)
  | noPool
  | noTask
  | notFinished
  /-- The call would never return. -/
  | never
  /-- The call has not returned yet. -/
  | blocked
  | finished (v : Value α)
  /-- The values of a body's actions. -/
  | list (vs : List (Value α))

def Value.ofResult {α : Type} : Except PoolError (Value α) → Value α
  | .ok v => .finished v
  | .error e => .failed e

end PinnedPool.Scenario
