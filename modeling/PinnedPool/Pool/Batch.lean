import PinnedPool.Affinity.Controller
import PinnedPool.Pool.Step

/-! # Batches

A batch is run by a main thread, which builds a pool and brings it down, and by submitters in
between: each submits its jobs one after the other and then joins them in the same order. A move
names the thread that takes the next step, so a list of moves is one schedule; the run that is
carried out takes one schedule out of many.
-/
namespace PinnedPool

/-- What a batch is run with. -/
structure Batch (J V : Type) where
  controller : Controller
  /-- The mask that every thread starts with. -/
  mask : Mask
  /-- The system's answer to the request for each worker. -/
  refusal : Nat → Option Os.Error
  /-- How a job ends that was taken with a ticket. -/
  work : J → Ticket → Ending V

namespace Batch

/-- A thread that submits its jobs and then joins what was accepted of them, in the same order. What
it has gathered stands with the newest first. -/
inductive Submitter (J V : Type) where
  | submitting (jobs : List J) (gathered : List (Except PoolError Nat))
  | joining (outcomes : List (Except PoolError Nat)) (gathered : List (Except PoolError V))

namespace Submitter

variable {J V : Type}

def finished : Submitter J V → Bool
  | submitting _ _ => false
  | joining outcomes _ => outcomes.isEmpty

/-- What the handles have yielded so far, in the order of submission. -/
def results : Submitter J V → List (Except PoolError V)
  | submitting _ _ => []
  | joining _ gathered => gathered.reverse

def accept (u : Submitter J V) (r : Reply) : Submitter J V :=
  match u, r with
  | submitting jobs gathered, .accepted seq => submitting jobs (.ok seq :: gathered)
  | submitting jobs gathered, _ => submitting jobs (.error .poolStopped :: gathered)
  | u, _ => u

end Submitter

inductive Stage where
  | building
  | failed (error : Os.Error)
  | serving
  | closing
  | closed
  | unwound (p : Payload)
deriving DecidableEq, Repr

structure State (J V : Type) where
  pool : Pool J V
  stage : Stage
  submitters : List (Submitter J V)
  /-- The newest first. -/
  log : List (ThreadId × Log.Line)

variable {J V : Type}

def mainThread : ThreadId := .client 0

def submitterThread (i : Nat) : ThreadId := .client (i + 1)

def onPool (s : State J V) (t : ThreadId) (e : Pool.Event J V) :
    Option (State J V × Option Reply) :=
  (s.pool.step e).map fun effect =>
    ({ s with pool := effect.pool, log := (effect.lines.map (t, ·)).reverse ++ s.log },
      effect.reply)

inductive Move where
  | main
  /-- A submitter; if it has to wake a worker, the one that it wakes. -/
  | submitter (i : Nat) (pick : Option Nat)
  | worker (w : Nat)
  /-- A parked worker wakes without a signal. -/
  | stir (w : Nat)
deriving DecidableEq, Repr

variable (b : Batch J V)

def stepMain (s : State J V) : Option (State J V) :=
  match s.stage with
  | .building =>
    let e := match s.pool.callOf? mainThread with
      | some .build => .spawn mainThread (b.refusal s.pool.workers.length)
      | _ => .proceed mainThread
    (onPool s mainThread e).map fun (s, reply) =>
      match reply with
      | some (.notBuilt e) => { s with stage := .failed e }
      | some (.unwound p) => { s with stage := .unwound p }
      | some _ => { s with stage := .serving }
      | none => s
  | .serving =>
    if s.submitters.all Submitter.finished then
      (onPool s mainThread (.call mainThread .shutdown)).map fun (s, _) =>
        { s with stage := .closing }
    else none
  | .closing =>
    (onPool s mainThread (.proceed mainThread)).map fun (s, reply) =>
      match reply with
      | some (.unwound p) => { s with stage := .unwound p }
      | some _ => { s with stage := .closed }
      | none => s
  | .failed _ | .closed | .unwound _ => none

def stepSubmitter (s : State J V) (i : Nat) (pick : Option Nat) : Option (State J V) :=
  let t := submitterThread i
  let put (s : State J V) (u : Submitter J V) := { s with submitters := s.submitters.set i u }
  match s.stage, s.submitters[i]? with
  | .serving, some u =>
    match s.pool.callOf? t with
    | some c =>
      let e := match c with
        | .notify _ => .notify t pick
        | _ => .proceed t
      (onPool s t e).map fun (s, reply) =>
        match reply with
        | some r => put s (u.accept r)
        | none => s
    | none =>
      match u with
      | .submitting (job :: jobs) gathered =>
        (onPool s t (.call t (.submit job true))).map fun (s, _) =>
          put s (.submitting jobs gathered)
      | .submitting [] gathered => some (put s (.joining gathered.reverse []))
      | .joining (.ok seq :: outcomes) gathered =>
        (TaskHandle.join (.plain _) (s.pool.channel seq)).map fun result =>
          put s (.joining outcomes (result :: gathered))
      | .joining (.error e :: outcomes) gathered =>
        some (put s (.joining outcomes (.error e :: gathered)))
      | .joining [] _ => none
  | _, _ => none

/-- The next step of a worker, with the lines of its pinning. -/
def stepWorker (s : State J V) (w : Nat) : Option (State J V) :=
  let t := ThreadId.worker s.pool.id w
  match s.pool.workers[w]? with
  | some .starting =>
    let a := b.controller.apply .performance (some (Log.workerName w)) b.mask
    let s := { s with log := (a.lines.map (t, ·)).reverse ++ s.log }
    (onPool s t (.pin w a.unwound)).map (·.1)
  | some .ready => (onPool s t (.claim w)).map (·.1)
  | some (.running task ticket) =>
    -- the handles are kept until they are joined
    (onPool s t (.finish w (b.work task.job ticket))).map (·.1)
  | _ => none

def step (s : State J V) : Move → Option (State J V)
  | .main => b.stepMain s
  | .submitter i pick => stepSubmitter s i pick
  | .worker w => b.stepWorker s w
  | .stir w => (onPool s (.worker s.pool.id w) (.stir w)).map (·.1)

/-- Whether a worker can move without a signal. -/
def movable : Worker J → Bool
  | .starting | .ready | .running _ _ => true
  | .parked | .left | .killed _ => false

/-- The first possible move of a submitter, among those from an index on. -/
def stepSubmitters (s : State J V) : Nat → List (Submitter J V) → Option (State J V)
  | _, [] => none
  | i, u :: us =>
    if u.finished then stepSubmitters s (i + 1) us
    else b.step s (.submitter i s.pool.firstParked) <|> stepSubmitters s (i + 1) us

/-- The move that the schedule takes: a worker's, else a submitter's, else the main thread's. -/
def advance (s : State J V) : Option (State J V) :=
  (s.pool.workers.findIdx? movable).bind (fun w => b.step s (.worker w))
    <|> b.stepSubmitters s 0 s.submitters <|> b.step s .main

def runFor : Nat → State J V → State J V
  | 0, s => s
  | n + 1, s =>
    match b.advance s with
    | some s => runFor n s
    | none => s

/-- More moves than the schedule takes. -/
def bound (threads : Nat) (jobs : List (List J)) : Nat :=
  10 * (threads + jobs.flatten.length + jobs.length + 2)

structure Outcome (J V : Type) where
  log : List (ThreadId × Log.Line)
  result : Except Failure (State J V)

def start (pool : Pool J V) (lines : List Log.Line) (jobs : List (List J)) : State J V where
  pool := pool
  stage := .building
  submitters := jobs.map (.submitting · [])
  log := (lines.map (mainThread, ·)).reverse

/-- What a batch that has come so far is to its caller. -/
def State.result (s : State J V) : Except Failure (State J V) :=
  match s.stage with
  | .failed e => .error (.refused (.os e))
  | .unwound p => .error (.unwound p.message)
  | _ => .ok s

/-- Runs the jobs of every submitter on a new pool. -/
def run (threads : Nat) (jobs : List (List J)) : Outcome J V :=
  match Pool.create 0 threads b.controller.backend.name mainThread with
  | .failed f lines => ⟨lines.map (mainThread, ·), .error f⟩
  | .begun pool lines =>
    let s := b.runFor (bound threads jobs) (start pool lines jobs)
    ⟨s.log.reverse, s.result⟩

end Batch
end PinnedPool
