import PinnedPool.Scenario.Run

/-! # What a scenario shows

With several workers the order of what they do is not fixed, and neither is which of them runs a
task. What is shown then is sorted and leaves that worker unnamed. The lines of a native backend
hang on the machine and are left out for workers.
-/
namespace PinnedPool.Scenario.Outcome

variable {α : Type} (o : Outcome α)

def sortTexts (ts : List String) : List String := ts.mergeSort (· ≤ ·)

/-- Events of a report, in their order if that is fixed. -/
def showEvents (events : List String) : List String :=
  if o.ordered then events else sortTexts events

/-- A line that names no worker where any of them may take a task. -/
def anonymous : Log.Line → String
  | .executing _ seq => Log.Level.debug.name ++ " Worker * executing task " ++ toString seq
  | .jobPanicked _ m => Log.Level.error.name ++ " Worker * job panicked, continuing: " ++ m
  | l => l.leveled

def usesNative : Bool :=
  (o.logs.main ++ o.logs.workers ++ o.logs.helpers).any fun l =>
    l = .selected (Backend.native .single).name

def mainLines : List String := o.logs.main.map Log.Line.leveled

def workerLines : List String :=
  let native := o.usesNative
  let kept := o.logs.workers.filter fun l => !(native && l.topic = .affinity)
  if o.ordered then kept.map Log.Line.leveled else sortTexts (kept.map anonymous)

def helperLines : List String := sortTexts (o.logs.helpers.map Log.Line.leveled)

/-- The order of lists of numbers: by the first that differ, a shorter one before a longer. -/
def cpusLE : List Nat → List Nat → Bool
  | [], _ => true
  | _ :: _, [] => false
  | a :: as, b :: bs => a < b || (a = b && cpusLE as bs)

def requestLE (a b : PinRequest) : Bool :=
  a.thread < b.thread || (a.thread = b.thread &&
    (a.cores.name < b.cores.name || (a.cores = b.cores && cpusLE a.cpus b.cpus)))

/-- The requests to journaled backends, by thread. -/
def showRequests : List PinRequest :=
  if o.ordered then o.requests.mergeSort fun a b => a.thread ≤ b.thread
  else o.requests.mergeSort requestLE

end PinnedPool.Scenario.Outcome
