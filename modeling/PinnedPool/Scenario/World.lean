import PinnedPool.Scenario.Action

/-! # The world of a scenario

Pools with their controllers, registries, the names that the scenario gives to things, and the
threads with what each of them has still to do.
-/
namespace PinnedPool.Scenario

/-- A pool, the controller its workers use, and which worker the system refuses to start. -/
structure Hosted (α : Type) where
  pool : Pool (Job α) (Value α)
  controller : Controller
  refusal : Option (Nat × Os.Error)

structure Handle where
  pool : Nat
  seq : Nat
deriving DecidableEq, Repr

/-- Something that a thread has still to do. -/
inductive Frame (α : Type) where
  | call (pool : Nat)
  /-- A submission returns: its handle is kept under the name. -/
  | submitted (pool : Nat) (task : Option String)
  /-- The copies of a body that are still to be submitted, and the number of the next. -/
  | copies (pool : Nat) (task : Option String) (body : List (Action α)) (next left : Nat)
  | answer (v : Value α)
  /-- The thread gives up its share in a pool. -/
  | release (pool : Nat)
  /-- The last owner has shut a pool down. -/
  | free (pool : Nat)
  /-- The rest of a body, and the values of its actions so far. -/
  | body (rest : List (Action α)) (values : List (Value α)) (index : Nat)
  | gate (name : String)
  /-- Waits for the lock of a registry. -/
  | turn (registry : String)
  | await (h : Handle)
  /-- A new pool stands, or does not. -/
  | built (pool : Nat)
  | adopt (label : String)
  /-- The thread is in a call of a registry; the pool that it returns goes to a name. -/
  | registry (name : String) (label : Option String)
  | store (name : String)
  | stopped (name : String)
  /-- The panic of what came before goes on. -/
  | throw (p : Payload)

/-- What a frame leaves for the one below it. -/
inductive Signal (α : Type) where
  | none
  | reply (r : Reply)
  | made (r : Except Failure Held)
  | value (v : Value α)
  | thrown (p : Payload)

structure Thread (α : Type) where
  stack : List (Frame α)
  signal : Signal α

structure World (α : Type) where
  machine : Machine
  /-- All pools ever begun, by identity. -/
  pools : List (Hosted α)
  registries : List (String × Registry)
  labels : List (String × Nat)
  handles : Std.TreeMap String Handle
  /-- Pools in the order in which they were first shown. -/
  shown : List Nat
  opened : List String
  allOpen : Bool
  counter : Int64
  /-- The newest first. -/
  events : List String
  threads : List (ThreadId × Thread α)
  masks : List (ThreadId × Mask)
  /-- The newest first. -/
  journal : List PinRequest
  /-- The newest first. -/
  log : List (ThreadId × Log.Line)

namespace World

variable {α : Type}

def start (m : Machine) : World α where
  machine := m
  pools := []
  registries := []
  labels := []
  handles := ∅
  shown := []
  opened := []
  allOpen := false
  counter := 0
  events := []
  threads := []
  masks := []
  journal := []
  log := []

def mainThread : ThreadId := .client 0

/-- The thread that takes a step which cannot return at once. -/
def helperThread (step : Nat) : ThreadId := .client (step + 1)

variable (w : World α)

/-- The name of a thread, as its log lines and requests show it. -/
def threadName : ThreadId → String
  | .worker _ index => Log.workerName index
  | .client 0 => "main"
  | .client _ => "helper"

def hosted? (p : Nat) : Option (Hosted α) := w.pools[p]?

def labeled? (name : String) : Option Nat := w.labels.lookup name

def handle? (name : String) : Option Handle := w.handles[name]?

def registryOf (name : String) : Registry := (w.registries.lookup name).getD .empty

def setRegistry (name : String) (r : Registry) : World α :=
  { w with registries := (name, r) :: w.registries.filter (·.1 ≠ name) }

def thread? (t : ThreadId) : Option (Thread α) := w.threads.lookup t

def setThread (t : ThreadId) (s : Thread α) : World α :=
  { w with threads := (t, s) :: w.threads.filter (·.1 ≠ t) }

def endThread (t : ThreadId) : World α :=
  { w with threads := w.threads.filter (·.1 ≠ t) }

def setPool (p : Nat) (pool : Pool (Job α) (Value α)) : World α :=
  { w with pools := w.pools.modify p fun h => { h with pool } }

def say (t : ThreadId) (lines : List Log.Line) : World α :=
  { w with log := (lines.map (t, ·)).reverse ++ w.log }

def isOpen (gate : String) : Bool := w.allOpen || w.opened.contains gate

def channel (h : Handle) : Channel (Except PoolError (Value α)) :=
  (w.hosted? h.pool).elim .fresh fun s => s.pool.channel h.seq

def join (h : Handle) : Option (Except PoolError (Value α)) :=
  TaskHandle.join (.plain _) (w.channel h)

/-- The result of a task, if its handle does not come back. -/
def tryJoin (h : Handle) : Option (Except PoolError (Value α)) :=
  (TaskHandle.tryJoin (.plain _) (w.channel h)).toOption

def isFinished (h : Handle) : Bool := (TaskHandle.isFinished (.plain _) (w.channel h)).1

def maskOf (t : ThreadId) : Mask :=
  (w.masks.lookup t).getD w.machine.initialMask

def onPool (p : Nat) (t : ThreadId) (e : Pool.Event (Job α) (Value α)) :
    Option (World α × Option Reply) :=
  match w.hosted? p with
  | none => none
  | some h =>
    (h.pool.step e).map fun effect => ((w.setPool p effect.pool).say t effect.lines, effect.reply)

def onRegistry (name : String) (t : ThreadId) (e : Registry.Event) :
    Option (World α × Option Registry.Reply) :=
  ((w.registryOf name).step e).map fun effect =>
    ((w.setRegistry name effect.registry).say t effect.lines, effect.reply)

/-- A thread applies a class of cores; the payload is that of a backend that panicked. -/
def applyCores (c : Controller) (cores : CoreClass) (t : ThreadId) : World α × Option Payload :=
  let a := c.apply cores (some (threadName t)) (w.maskOf t)
  let v := { w with
    masks := (t, a.mask) :: w.masks.filter (·.1 ≠ t)
    journal := a.requests.reverse ++ w.journal }
  (v.say t a.lines, a.unwound)

def shares (p : Nat) : Frame α → Bool
  | .release q => p = q
  | _ => false

/-- Whether anything still owns a pool. -/
def owned (p : Nat) : Bool :=
  w.labels.any (·.2 = p)
    || w.registries.any (fun (_, r) =>
      r.slot.any (·.pool = p) || r.calls.any fun (_, c) => c.pool? = some p)
    || w.threads.any fun (_, s) => s.stack.any (shares p)

/-- Whether a task of a pool stands at a gate. -/
def atGate (p : Nat) : Bool :=
  w.threads.any fun (t, s) =>
    match t, s.stack with
    | .worker q _, .gate _ :: _ => q = p
    | _, _ => false

/-- The pool as an answer shows it, and the world that remembers having shown it. -/
def view (p : Nat) : Value α × World α :=
  let shown := if w.shown.contains p then w.shown else w.shown ++ [p]
  match w.hosted? p with
  | none => (.nothing, w)
  | some h =>
    (.pool ⟨shown.idxOf p, h.pool.threads, h.controller.backend.name, h.pool.stopping⟩,
      { w with shown })

def workerCount : Nat := (w.pools.flatMap (·.pool.workers)).length

end World
end PinnedPool.Scenario
