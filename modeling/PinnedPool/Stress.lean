import PinnedPool.Pool.Batch

/-! # A pool under load

Many submitters queue many jobs at once, some of which panic. What is reported does not hang on the
schedule: every job runs once, yields its own number, and sees a ticket that no other job sees.
-/
namespace PinnedPool.Stress

structure Load where
  threads : Nat
  submitters : Nat
  /-- Jobs of each submitter. -/
  each : Nat
  /-- Every job whose index is a multiple of this panics, unless it is zero. -/
  panicEvery : Nat
deriving DecidableEq, Repr

structure Job where
  id : Nat
  panics : Bool
deriving DecidableEq, Repr

/-- What a job yields. -/
structure Mark where
  id : Nat
  ticket : Ticket
deriving DecidableEq, Repr

def Load.job (l : Load) (submitter i : Nat) : Job :=
  ⟨submitter * l.each + i, l.panicEvery ≠ 0 && i % l.panicEvery = 0⟩

def Load.jobs (l : Load) : List (List Job) :=
  (List.range l.submitters).map fun t => (List.range l.each).map (l.job t)

def work (job : Job) (ticket : Ticket) : Ending Mark :=
  if job.panics then .unwound (.text "stress") else .returned ⟨job.id, ticket⟩

def batch (m : Machine) : Batch Job Mark where
  controller := .idle m .standard
  mask := m.initialMask
  refusal _ := none
  work := work

structure Report where
  /-- How many jobs have run. -/
  ran : Nat
  /-- The sum of what each submitter's jobs yielded. -/
  sums : List Nat
  panics : List Nat
  claimedInOrder : Bool
  distinctTickets : Nat
  /-- The tickets of each submitter increase. -/
  increasing : Bool
  pending : Nat
deriving DecidableEq, Repr

/-- The marks among the results of a submitter. -/
def marks (s : Batch.Submitter Job Mark) : List Mark := s.results.filterMap Except.toOption

def ticketLE (a b : Ticket) : Bool :=
  a.submitted < b.submitted || (a.submitted = b.submitted && a.claimed ≤ b.claimed)

/-- How many different tickets a list holds. -/
def distinct (tickets : List Ticket) : Nat :=
  ((tickets.mergeSort ticketLE).splitBy (fun a b => a = b)).length

def increases : List Nat → Bool
  | a :: b :: rest => a < b && increases (b :: rest)
  | _ => true

def report (s : Batch.State Job Mark) : Report :=
  let found := s.submitters.map marks
  let tickets := found.flatMap (·.map Mark.ticket)
  { ran := s.pool.queue.claimed
    sums := found.map fun ms => ms.foldl (fun n m => n + m.id) 0
    panics := s.submitters.map fun u => u.results.length - (marks u).length
    claimedInOrder := tickets.all fun t => t.claimed = t.submitted
    distinctTickets := distinct tickets
    increasing := found.all fun ms => increases (ms.map (·.ticket.submitted))
    pending := s.pool.pending }

def run (m : Machine) (l : Load) : Except Failure Report :=
  ((batch m).run l.threads l.jobs).result.map report

end PinnedPool.Stress
