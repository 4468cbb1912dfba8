import PinnedPool.Pool.Basic

/-! # The steps of a pool

Every thread moves by small steps, and a step that is not possible yet is none. The steps of
different threads may come in any order; which worker a signal wakes, how the system answers a
request for a thread and how a job ends are told by the event, and so is whether the handle of the job
is still there.
-/
namespace PinnedPool.Pool

variable {J V : Type}

/-- A call from outside of the pool's own code. -/
inductive Request (J : Type) where
  | submit (job : J) (watched : Bool)
  | wait
  | shutdown
deriving DecidableEq, Repr

def Request.start : Request J → Call J
  | submit job watched => .append job watched
  | wait => .await
  | shutdown => .raise .shutdown

inductive Event (J V : Type) where
  | call (t : ThreadId) (r : Request J)
  /-- The system answers the request for the next worker's thread. -/
  | spawn (t : ThreadId) (refusal : Option Os.Error)
  | notify (t : ThreadId) (pick : Option Nat)
  | proceed (t : ThreadId)
  /-- A worker has pinned itself, or died of it. -/
  | pin (w : Nat) (death : Option Payload := none)
  | claim (w : Nat)
  | finish (w : Nat) (e : Ending V) (heard : Bool := true)
  | stir (w : Nat)
  /-- A thread that waits for an empty queue wakes without a signal. -/
  | stirWaiter (t : ThreadId)
  /-- The last owner lets go of the pool. -/
  | free

structure Effect (J V : Type) where
  pool : Pool J V
  lines : List Log.Line := []
  reply : Option Reply := none

def endWith (p : Pool J V) (t : ThreadId) (lines : List Log.Line) (r : Reply) : Effect J V :=
  { pool := p.endCall t, lines, reply := some r }

def handleSize : Nat := 24

/-- No list of join handles takes more bytes than this. -/
def handlesLimit : Nat := Nat.pow 2 63 - 1

inductive Opening (J V : Type) where
  | failed (failure : Failure) (lines : List Log.Line)
  | begun (pool : Pool J V) (lines : List Log.Line)

/-- A pool without workers that the given thread is building. -/
def blank (id threads : Nat) (t : ThreadId) : Pool J V where
  id := id
  threads := threads
  queue := .empty
  stopping := false
  workers := []
  handles := .present
  calls := [(t, .build)]
  slots := ∅
  freed := false

def create (id threads : Nat) (backend : String) (t : ThreadId) : Opening J V :=
  let lines := [Log.Line.creating threads backend]
  if threads = 0 then .failed (.refused .invalidThreadCount) []
  else if handlesLimit < handleSize * threads then .failed (.unwound "capacity overflow") lines
  else .begun (blank id threads t) lines

/-- The next worker's thread starts, or the pool is brought down. -/
def spawn (p : Pool J V) (t : ThreadId) : Option Os.Error → Effect J V
  | none =>
    let q := { p with workers := p.workers ++ [.starting] }
    if q.workers.length < q.threads then { pool := q } else endWith q t [] .built
  | some e =>
    { pool := p.setCall t (.raise (.refused e)), lines := [.spawnFailed p.workers.length e] }

def append (p : Pool J V) (t : ThreadId) (job : J) (watched : Bool) : Effect J V :=
  if p.stopping then endWith p t [] .stopped
  else
    { pool := { p with queue := p.queue.push job watched }.setCall t (.notify p.queue.submitted) }

/-- Joins the next worker when it is over, and returns after the last one. The payload that a worker
died of is dropped; if it panics then, the call ends and the handles go with it. -/
def joinNext (p : Pool J V) (t : ThreadId) (why : Purpose) (next : Nat) : Option (Effect J V) :=
  match p.workers[next]?, why with
  | none, .shutdown => some (endWith { p with handles := .gone } t [.destroyed] .done)
  | none, .refused e => some (endWith p t [] (.notBuilt e))
  | some .left, why => some { pool := p.setCall t (.join why (next + 1)) }
  | some (.killed q), why =>
    match q.burst?, why with
    | none, why => some { pool := p.setCall t (.join why (next + 1)), lines := [.terminated next] }
    | some r, .shutdown => some (endWith { p with handles := .lost } t [] (.unwound r))
    | some r, .refused _ => some (endWith p t [] (.unwound r))
  | some _, _ => none

def advance (p : Pool J V) (t : ThreadId) : Call J → Option (Effect J V)
  | .build => none
  | .append job watched => some (p.append t job watched)
  | .notify _ => none
  | .await =>
    if p.queue.isEmpty then some (endWith p t [] .done) else some { pool := p.setCall t .parked }
  | .parked => none
  | .raise why => some { pool := { p with stopping := true }.setCall t (.wake why) }
  | .wake why =>
    let q := p.wakeWorkers
    match why with
    | .refused _ => some { pool := q.setCall t (.join why 0) }
    | .shutdown =>
      if p.isWorker t then some (endWith q t [.notJoining] .done)
      else some { pool := q.setCall t .enter }
  | .enter =>
    match p.handles with
    | .present => some { pool := { p with handles := .held t }.setCall t (.join .shutdown 0) }
    | .held _ => none
    | .gone | .lost => some (endWith p t [] .done)
  | .join why next => p.joinNext t why next

/-- Wakes the picked worker, which has to be parked; nobody only if none is. -/
def signal (p : Pool J V) : Option Nat → Option (Pool J V)
  | some w => if p.workers[w]?.any Worker.isParked then some (p.setWorker w .ready) else none
  | none => if p.workers.any Worker.isParked then none else some p

/-- Takes a task, leaves if there is none and the pool is stopping, or parks. -/
def claim (p : Pool J V) (w : Nat) : Effect J V :=
  match p.queue.pop? with
  | some (task, ticket, rest) =>
    let q := { p with queue := rest }.setWorker w (.running task ticket)
    { pool := if rest.isEmpty then q.wakeWaiters else q, lines := [.executing w ticket.submitted] }
  | none =>
    if p.stopping then { pool := p.setWorker w .left, lines := [.leaving w] }
    else { pool := p.setWorker w .parked }

def finish (p : Pool J V) (w : Nat) (task : Task J) (e : Ending V) (heard : Bool) : Effect J V :=
  let (slot, aftermath) := e.settle task.watched heard
  let q := { p with slots := match slot with
    | some s => p.slots.insert task.seq s
    | none => p.slots }
  match aftermath with
  | .quiet => { pool := q.setWorker w .ready }
  | .reported m => { pool := q.setWorker w .ready, lines := [.jobPanicked w m] }
  | .fatal p => { pool := q.setWorker w (.killed p) }

def step (p : Pool J V) : Event J V → Option (Effect J V)
  | .call t r => if (p.callOf? t).isSome then none else some { pool := p.setCall t r.start }
  | .spawn t refusal =>
    match p.callOf? t with
    | some .build => some (p.spawn t refusal)
    | _ => none
  | .notify t pick =>
    match p.callOf? t with
    | some (.notify seq) => (p.signal pick).map fun q => endWith q t [] (.accepted seq)
    | _ => none
  | .proceed t => (p.callOf? t).bind (p.advance t)
  | .pin w death =>
    match p.workers[w]?, death with
    | some .starting, none => some { pool := p.setWorker w .ready, lines := [.started w] }
    | some .starting, some q => some { pool := p.setWorker w (.killed q) }
    | _, _ => none
  | .claim w =>
    match p.workers[w]? with
    | some .ready => some (p.claim w)
    | _ => none
  | .finish w e heard =>
    match p.workers[w]?, p.callOf? (.worker p.id w) with
    | some (.running task _), none => some (p.finish w task e heard)
    | _, _ => none
  | .stir w =>
    match p.workers[w]? with
    | some .parked => some { pool := p.setWorker w .ready }
    | _ => none
  | .stirWaiter t =>
    match p.callOf? t with
    | some .parked => some { pool := p.setCall t .await }
    | _ => none
  | .free => if p.calls.isEmpty then some { pool := { p with freed := true } } else none

/-- The first parked worker, whom a signal to one worker goes to when nothing else decides. -/
def firstParked (p : Pool J V) : Option Nat := p.workers.findIdx? Worker.isParked

end PinnedPool.Pool
