import PinnedPool.Task

/-! # The task queue

A first-in first-out queue with the two counters that number submissions and claims. The tasks are
kept in two lists, so that both ends are at hand; `tasks` is the queue as it is meant, and every
operation is described by what it does to that list.
-/
namespace PinnedPool

structure Queue (J : Type) where
  /-- The tasks that are taken next, the oldest first. -/
  front : List (Task J)
  /-- The tasks behind them, the newest first. -/
  back : List (Task J)
  /-- The number of the next submission. -/
  submitted : Nat
  /-- How many tasks have been taken. -/
  claimed : Nat

namespace Queue

variable {J : Type}

/-- The tasks, the oldest first. -/
def tasks (q : Queue J) : List (Task J) := q.front ++ q.back.reverse

def empty : Queue J := ⟨[], [], 0, 0⟩

/-- Appends a job under the next number. -/
def push (q : Queue J) (job : J) (watched : Bool) : Queue J :=
  { q with back := ⟨q.submitted, job, watched⟩ :: q.back, submitted := q.submitted + 1 }

/-- Takes the oldest task, with its ticket. -/
def pop? (q : Queue J) : Option (Task J × Ticket × Queue J) :=
  match q.front with
  | t :: rest => some (t, ⟨t.seq, q.claimed⟩, { q with front := rest, claimed := q.claimed + 1 })
  | [] =>
    match q.back.reverse with
    | t :: rest =>
      some (t, ⟨t.seq, q.claimed⟩, { q with front := rest, back := [], claimed := q.claimed + 1 })
    | [] => none

def length (q : Queue J) : Nat := q.front.length + q.back.length

def isEmpty (q : Queue J) : Bool := q.front.isEmpty && q.back.isEmpty

@[simp] theorem tasks_empty : (empty : Queue J).tasks = [] := rfl

@[simp] theorem tasks_push (q : Queue J) (job : J) (watched : Bool) :
    (q.push job watched).tasks = q.tasks ++ [⟨q.submitted, job, watched⟩] := by
  simp [push, tasks]

@[simp] theorem submitted_push (q : Queue J) (job : J) (watched : Bool) :
    (q.push job watched).submitted = q.submitted + 1 := rfl

@[simp] theorem claimed_push (q : Queue J) (job : J) (watched : Bool) :
    (q.push job watched).claimed = q.claimed := rfl

theorem length_eq (q : Queue J) : q.length = q.tasks.length := by simp [length, tasks]

theorem isEmpty_iff {q : Queue J} : q.isEmpty = true ↔ q.tasks = [] := by simp [isEmpty, tasks]

theorem pop?_eq_none_iff {q : Queue J} : q.pop? = none ↔ q.tasks = [] := by
  unfold pop? tasks
  split
  · simp_all
  · split <;> simp_all

theorem pop?_eq_some {q r : Queue J} {t : Task J} {k : Ticket} (h : q.pop? = some (t, k, r)) :
    q.tasks = t :: r.tasks ∧ k = ⟨t.seq, q.claimed⟩ ∧ r.submitted = q.submitted
      ∧ r.claimed = q.claimed + 1 := by
  unfold pop? at h
  split at h
  · simp only [Option.some.injEq, Prod.mk.injEq] at h
    obtain ⟨rfl, rfl, rfl⟩ := h
    simp_all [tasks]
  · split at h
    · simp only [Option.some.injEq, Prod.mk.injEq] at h
      obtain ⟨rfl, rfl, rfl⟩ := h
      simp_all [tasks]
    · simp at h

end Queue
end PinnedPool
