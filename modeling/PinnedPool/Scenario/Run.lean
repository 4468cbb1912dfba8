import PinnedPool.Scenario.Thread

/-! # Running a scenario

The steps are taken by the main thread. After each of them every thread runs until nothing moves, so
what is seen then does not hang on the order of the threads. A step that cannot return yet is taken
by a thread of its own, and its answer comes late.
-/
namespace PinnedPool.Scenario

mutual

/-- How many actions a body may take, those of the tasks it queues included. -/
def Action.size {α : Type} : Action α → Nat
  | .enqueue _ _ body copies | .spawn _ body copies => 1 + copies.getD 1 * (1 + bodySize body)
  | _ => 1

def bodySize {α : Type} : List (Action α) → Nat
  | [] => 0
  | a :: as => a.size + bodySize as

end

mutual

def Action.workers {α : Type} : Action α → Nat
  | .create _ (.controlled threads _ _) _ => threads
  | .create _ (.configured source) _ | .registry _ (.setUp source) _ =>
    match source.config with
    | .ok c => c.threads
    | .error _ => 0
  | .registry _ .getOrInit _ => Config.defaultThreads
  | .enqueue _ _ body copies | .spawn _ body copies => copies.getD 1 * bodyWorkers body
  | _ => 0

def bodyWorkers {α : Type} : List (Action α) → Nat
  | [] => 0
  | a :: as => a.workers + bodyWorkers as

end

/-- More steps than the threads of a scenario take. -/
def budget {α : Type} (steps : List (Action α)) : Nat :=
  100 * (bodySize steps + steps.length + 1) * (bodyWorkers steps + 1)

namespace World

variable {α : Type}

/-- Lets one thread run until it has to wait. The number is of the steps still allowed. -/
def runThread (t : ThreadId) : Nat → World α → Nat × World α
  | 0, w => (0, w)
  | n + 1, w =>
    match w.step t with
    | some w => runThread t n w
    | none => (n + 1, w)

def runAll (n : Nat) (w : World α) : Nat × World α :=
  w.threadIds.foldl (fun (n, w) t => w.runThread t n) (n, w)

/-- Lets all threads run until none of them moves. -/
def settle : (rounds : Nat) → (allowed : Nat) → World α → World α
  | 0, _, w => w
  | r + 1, n, w =>
    let (m, v) := w.runAll n
    if m = n then v else settle r m v

def answer? (w : World α) (t : ThreadId) : Option (Value α) :=
  match w.thread? t with
  | some ⟨[], .value v⟩ => some v
  | some ⟨[], .thrown p⟩ => some (.unwound p.message)
  | some ⟨[], _⟩ => some .nothing
  | _ => none

/-- Whether an action would have to wait if it were taken now. -/
def mustWait (w : World α) : Action α → Bool
  | .join task => (w.handle? task).any fun h => !w.isFinished h
  | .wait pool => ((w.labeled? pool).bind w.hosted?).any fun h =>
      0 < h.pool.pending && !h.pool.deserted
  | .shutdown pool => (w.labeled? pool).any w.atGate
  | .drop pool => (w.labeled? pool).any fun p => w.atGate p && !(w.forgetLabel pool).owned p
  | .registry name asking _ =>
    let r := w.registryOf name
    r.locked || match asking with
      | .shutdown => r.slot.any fun held => w.atGate held.pool
      | _ => false
  | _ => false

structure Report (α : Type) where
  answer : Value α
  /-- Of each pool with a name: tasks queued, and whether it is stopping. -/
  pools : List (String × Nat × Bool)
  counter : Int64
  events : List String
  /-- The answers that came late, by the number of their step. -/
  late : List (Nat × Value α)
  unfinished : List String

/-- The helper threads that are done, with their answers, in the order of their steps. -/
def lateAnswers (w : World α) (steps : Nat) : List (Nat × Value α) :=
  (List.range steps).filterMap fun i => (w.answer? (helperThread i)).map (i, ·)

def sortNames (names : List String) : List String := names.mergeSort (· ≤ ·)

/-- Reports what is seen and forgets what is not seen again. -/
def report (w : World α) (steps : Nat) (answer : Value α) : Report α × World α :=
  let late := w.lateAnswers steps
  let v := late.foldl (fun w (i, _) => w.endThread (helperThread i)) { w with events := [] }
  ({ answer
     pools := w.labels.filterMap fun (name, p) =>
       (w.hosted? p).map fun h => (name, h.pool.pending, h.pool.stopping)
     counter := w.counter
     events := w.events.reverse
     late
     unfinished := (w.handles.toList.filter fun (_, h) => !w.isFinished h).map (·.1) }, v)

def takeStep (n i : Nat) (w : World α) (a : Action α) : Report α × World α :=
  if w.mustWait a then
    ((w.perform (helperThread i) [] 0 a).settle n n).report (i + 1) .blocked
  else
    let w := (w.perform mainThread [] 0 a).settle n n
    w.report (i + 1) ((w.answer? mainThread).getD .blocked)

def takeSteps (n : Nat) : Nat → World α → List (Action α) → List (Report α) × World α
  | _, w, [] => ([], w)
  | i, w, a :: rest =>
    let (r, w) := w.takeStep n i a
    let (rs, w) := takeSteps n (i + 1) w rest
    (r :: rs, w)

def takeAll (n : Nat) (w : World α) (actions : List (Action α)) : World α :=
  actions.foldl (fun w a => (w.perform mainThread [] 0 a).settle n n) w

/-- Opens all gates, then brings down the registries and the pools that still have a name. -/
def close (n : Nat) (w : World α) : World α :=
  let w := { w with allOpen := true }.settle n n
  let w := w.takeAll n
    ((sortNames (w.registries.map (·.1))).map fun name => .registry name .shutdown none)
  w.takeAll n
    ((sortNames (w.labels.map (·.1))).flatMap fun name => [.shutdown name, .drop name])

end World

structure Logs where
  main : List Log.Line
  workers : List Log.Line
  helpers : List Log.Line

structure Outcome (α : Type) where
  reports : List (World.Report α)
  last : World.Report α
  /-- The results of the tasks whose handles are left. -/
  tasks : List (String × Value α)
  requests : List PinRequest
  logs : Logs
  /-- At most one worker has been started, so its doings come in a fixed order. -/
  ordered : Bool

def run {α : Type} (m : Machine) (steps : List (Action α)) : Outcome α :=
  let n := budget steps
  let (reports, w) := World.takeSteps n 0 (.start m) steps
  let w := w.close n
  let tasks := w.handles.toList.map fun (name, h) => (name, match w.join h with
    | some r => Value.ofResult r
    | none => .never)
  let (last, w) := w.report steps.length .nothing
  let lines (f : ThreadId → Bool) := (w.log.reverse.filter fun (t, _) => f t).map (·.2)
  { reports
    last
    tasks
    requests := w.journal.reverse
    logs := {
      main := lines (· = World.mainThread)
      workers := lines fun t => match t with | .worker _ _ => true | .client _ => false
      helpers := lines fun t => match t with
        | .worker _ _ => false
        | .client n => n ≠ 0 }
    ordered := w.workerCount ≤ 1 }

end PinnedPool.Scenario
