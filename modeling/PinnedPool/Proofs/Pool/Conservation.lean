import PinnedPool.Proofs.Pool.Stop
import PinnedPool.Proofs.Pool.Work

/-! # No task is lost and none is run twice

Every accepted task is in the queue, in the hands of one worker, or done. When all workers are over
nothing is in anybody's hands, so what has not been run then is what is still in the queue. That is
nothing if one worker has left its loop by itself. But a worker can also die of a job, and when all
workers die the accepted tasks behind them are never run.
-/
namespace PinnedPool.Pool

variable {J V : Type}

/-- How often the task with a number is in the queue. -/
def queued (p : Pool J V) (k : Nat) : Nat := p.queue.tasks.countP fun task => task.seq == k

/-- What has been accepted is in one place each, and nothing else is anywhere. -/
structure Conserved (ms : List (Moment J V)) (p : Pool J V) : Prop where
  /-- Whoever was told a number has made the submission that got it. -/
  answered : ∀ m ∈ ms, ∀ k, m.effect.reply = some (.accepted k) →
    ∃ s ∈ submissions ms, m.event.caller? = some s.thread ∧ s.seq? = some k
  /-- Whoever was refused has made a submission that got none. -/
  turnedAway : ∀ m ∈ ms, m.effect.reply = some .stopped ↔
    ∃ s, m.submission? = some s ∧ s.seq? = none
  numbered : (submissions ms).filterMap Submission.seq? = List.range p.queue.submitted
  placed : ∀ k < p.queue.submitted, p.queued k + p.inHand k + ended ms k = 1
  startedOnce : ∀ k, started ms k = p.inHand k + ended ms k
  ordered : (submissions ms).filterMap Submission.task? =
    (claims ms).map Claim.task ++ p.queue.tasks
  refused : ∀ job, (∀ s ∈ submissions ms, s.job = job → s.seq? = none) →
    (∀ task ∈ p.queue.tasks, task.job ≠ job) ∧ ∀ c ∈ claims ms, c.task.job ≠ job
  worked : ∀ w, takenBy ms w = doneBy ms w ++ (p.taskOf w).toList

/-- Every accepted task has been run once, and the workers have shared the numbers among them. -/
structure Complete (ms : List (Moment J V)) (p : Pool J V) : Prop where
  once : ∀ k < p.queue.submitted, started ms k = 1 ∧ ended ms k = 1
  increasing : ∀ w, ((doneBy ms w).map Task.seq).Pairwise (· < ·)
  covering : ∀ k, k < p.queue.submitted ↔
    ∃ w < p.workers.length, k ∈ (doneBy ms w).map Task.seq
  disjoint : ∀ v w k, k ∈ (doneBy ms v).map Task.seq → k ∈ (doneBy ms w).map Task.seq → v = w

theorem filterMap_seq? (l : List (Submission J)) :
    l.filterMap Submission.seq? = (l.filterMap Submission.task?).map Task.seq := by
  rw [List.map_filterMap]
  congr 1
  funext s
  cases s with
  | mk thread job watched seq? => cases seq? <;> rfl

section Runs
variable {n : Nat} {p₀ p : Pool J V} {ms : List (Moment J V)} (h₀ : Fresh n p₀) (hr : Run p₀ ms p)
include h₀ hr

theorem Run.queued_add_started (k : Nat) :
    p.queued k + started ms k = if k < p.queue.submitted then 1 else 0 := by
  have h := congrArg (List.count k) (hr.accepted_seq h₀)
  rw [List.count_range, hr.accepted_eq h₀, List.map_append, List.count_append, List.map_map,
    List.count_eq_countP, List.count_eq_countP, List.countP_map, List.countP_map] at h
  rw [← h, Nat.add_comm]
  rfl

theorem Run.mem_accepted_of_claim {c : Claim J} (hc : c ∈ claims ms) : c.task ∈ accepted ms := by
  rw [hr.accepted_eq h₀]
  exact List.mem_append_left _ (List.mem_map_of_mem hc)

theorem Run.mem_accepted_of_queued {task : Task J} (ht : task ∈ p.queue.tasks) :
    task ∈ accepted ms := by
  rw [hr.accepted_eq h₀]
  exact List.mem_append_right _ ht

end Runs

/-- The job of an accepted task was submitted, and the submission was accepted. -/
theorem exists_of_accepted {ms : List (Moment J V)} {task : Task J} (ht : task ∈ accepted ms) :
    ∃ s ∈ submissions ms, s.job = task.job ∧ s.seq? = some task.seq := by
  rw [accepted_eq_filterMap] at ht
  obtain ⟨s,hs,hst⟩ := List.mem_filterMap.mp ht
  obtain ⟨k,hk,rfl⟩ := Option.map_eq_some_iff.mp hst
  exact ⟨s,hs,rfl,hk⟩

theorem Run.conserved {n : Nat} {p₀ p : Pool J V} {ms : List (Moment J V)} (h₀ : Fresh n p₀)
    (hr : Run p₀ ms p) : Conserved ms p where
  answered := fun m hm k => hr.exists_of_returned h₀ hm
  turnedAway := fun m hm => reply_stopped_iff (hr.step_of_mem hm)
  numbered := by
    rw [filterMap_seq?, ← accepted_eq_filterMap]
    exact hr.accepted_seq h₀
  placed := by
    intro k hk
    have hsum := hr.queued_add_started h₀ k
    rw [hr.started_eq h₀ k, if_pos hk] at hsum
    omega
  startedOnce := hr.started_eq h₀
  ordered := by
    rw [← accepted_eq_filterMap]
    exact hr.accepted_eq h₀
  refused := by
    intro job hnone
    have hne : ∀ task ∈ accepted ms, task.job ≠ job := by
      intro task ht hjob
      obtain ⟨s,hs,hsj,hseq⟩ := exists_of_accepted ht
      have hn := hnone s hs (hsj.trans hjob)
      rw [hseq] at hn
      cases hn
    exact ⟨fun task ht => hne task (hr.mem_accepted_of_queued h₀ ht),
      fun c hc => hne c.task (hr.mem_accepted_of_claim h₀ hc)⟩
  worked := hr.takenBy_eq h₀

theorem task?_of_deserted {p : Pool J V} (h : p.deserted = true) {s : Worker J}
    (hs : s ∈ p.workers) : s.task? = none := by
  have hended := List.all_eq_true.mp h s hs
  cases s with
  | left | killed => rfl
  | starting | ready | parked | running => cases hended

theorem inHand_of_deserted {p : Pool J V} (h : p.deserted = true) (k : Nat) : p.inHand k = 0 :=
  inHand_eq_zero (fun _ hs => task?_of_deserted h hs) k

theorem taskOf_of_deserted {p : Pool J V} (h : p.deserted = true) (w : Nat) :
    p.taskOf w = none := by
  unfold taskOf
  cases hs : p.workers[w]? with
  | none => rfl
  | some s => exact task?_of_deserted h (List.mem_of_getElem? hs)

theorem mem_doneBy_of_ended {ms : List (Moment J V)} {k : Nat} (h : 0 < ended ms k) :
    ∃ w, k ∈ (doneBy ms w).map Task.seq := by
  obtain ⟨c,hc,hk⟩ := List.countP_pos_iff.mp h
  refine ⟨c.worker,List.mem_map.mpr ⟨c.task,?_,eq_of_beq hk⟩⟩
  exact List.mem_map.mpr ⟨c,List.mem_filter.mpr ⟨hc,decide_eq_true rfl⟩,rfl⟩

section Over
variable {n : Nat} {p₀ p : Pool J V} {ms : List (Moment J V)} (h₀ : Fresh n p₀) (hr : Run p₀ ms p)
include h₀ hr

theorem Run.done_covering (he : p.queue.tasks = []) (hd : p.deserted = true) (k : Nat) :
    k < p.queue.submitted ↔ ∃ w < p.workers.length, k ∈ (doneBy ms w).map Task.seq := by
  refine ⟨?_,?_⟩
  · intro hk
    have hplace := (hr.conserved h₀).placed k hk
    rw [inHand_of_deserted hd, show p.queued k = 0 by simp [queued, he]] at hplace
    have hended : 0 < ended ms k := by omega
    obtain ⟨w,hw⟩ := mem_doneBy_of_ended hended
    refine ⟨w,?_,hw⟩
    obtain ⟨task,ht,-⟩ := List.mem_map.mp hw
    obtain ⟨c,hc,rfl,-⟩ := hr.claim_of_done h₀ ht
    exact hr.worker_lt hc
  · rintro ⟨w,-,hk⟩
    obtain ⟨task,ht,rfl⟩ := List.mem_map.mp hk
    obtain ⟨c,hc,-,rfl⟩ := hr.claim_of_done h₀ ht
    exact hr.seq_lt h₀ (hr.mem_accepted_of_claim h₀ hc)

/-- Once all workers are over, all has been run exactly if nothing is left in the queue. -/
theorem Run.complete_iff (hd : p.deserted = true) : Complete ms p ↔ p.queue.tasks = [] := by
  have hcons := hr.conserved h₀
  refine ⟨?_,?_⟩
  · intro h
    cases hq : p.queue.tasks with
    | nil => rfl
    | cons task rest =>
      have hmem : task ∈ p.queue.tasks := by simp [hq]
      have hk := hr.seq_lt h₀ (hr.mem_accepted_of_queued h₀ hmem)
      have hqueued : 0 < p.queued task.seq :=
        List.countP_pos_iff.mpr ⟨task,hmem,beq_self_eq_true _⟩
      have hplace := hcons.placed _ hk
      have hended := (h.once _ hk).2
      omega
  · intro he
    refine ⟨?_,hr.done_increasing h₀,hr.done_covering h₀ he hd,?_⟩
    · intro k hk
      have hplace := hcons.placed k hk
      have hstarted := hcons.startedOnce k
      rw [inHand_of_deserted hd] at hplace hstarted
      rw [show p.queued k = 0 by simp [queued, he]] at hplace
      omega
    · intro v w k
      exact hr.done_disjoint h₀

/-- Among workers that are all over, one that nothing has struck has left its loop by itself. -/
theorem Run.left_of_not_struck (hd : p.deserted = true) {w : Nat} (hw : w < p.workers.length)
    (hs : ¬Struck ms w) : .left ∈ p.workers := by
  have hget : p.workers[w]? = some p.workers[w] := List.getElem?_eq_getElem hw
  have hended := List.all_eq_true.mp hd _ (List.getElem_mem hw)
  cases hstate : p.workers[w] with
  | left => exact hstate ▸ List.getElem_mem hw
  | killed q =>
    rw [hstate] at hget
    exact absurd ⟨q,hr.died_of_killed h₀ hget⟩ hs
  | starting | ready | parked | running =>
    rw [hstate] at hended
    cases hended

end Over

/-- In every state each accepted task is in one place and no refused one is anywhere. In a state in
which all workers are over, every accepted task has been run once exactly if the queue is empty, and
it is unless something has struck every single worker. -/
theorem conservation {n : Nat} {p₀ p : Pool J V} {ms : List (Moment J V)} (h₀ : Fresh n p₀)
    (hr : Run p₀ ms p) :
    Conserved ms p ∧
      (p.deserted = true →
        (Complete ms p ↔ p.queue.tasks = []) ∧
        ((∃ w < p.workers.length, ¬Struck ms w) → Complete ms p)) := by
  refine ⟨hr.conserved h₀,?_⟩
  intro hd
  refine ⟨hr.complete_iff h₀ hd,?_⟩
  rintro ⟨w,hw,hs⟩
  have hleft := hr.left_of_not_struck h₀ hd hw hs
  exact (hr.complete_iff h₀ hd).mpr (hr.drained h₀ hleft).2

/-- The first worker dies of the first job, which has a handle. The second one runs the other two and
leaves, and a submission after the stop is refused. -/
theorem conservation_one_survivor :
    ∃ (p₀ p : Pool Nat Nat) (ms : List (Moment Nat Nat)),
      Fresh 2 p₀ ∧ Run p₀ ms p ∧ p.workers = [.killed (.text "dead"), .left] ∧ p.queue.submitted = 3 ∧
        (∃ m ∈ ms, m.effect.reply = some .stopped) ∧ Conserved ms p ∧ Complete ms p := by
  have h₀ : Fresh 2 (blank 0 2 (.client 0) : Pool Nat Nat) := ⟨0,"noop",.client 0,_,rfl⟩
  have h : (blank 0 2 (.client 0) : Pool Nat Nat).Leads [.spawn (.client 0) none,
      .spawn (.client 0) none, .pin 0, .call (.client 1) (.submit 7 true),
      .proceed (.client 1), .notify (.client 1) none, .claim 0,
      .call (.client 1) (.submit 8 true), .proceed (.client 1), .notify (.client 1) none,
      .call (.client 2) (.submit 9 false), .proceed (.client 2), .notify (.client 2) none,
      .finish 0 (.unwound (.charge (.fuse "dead"))), .pin 1, .claim 1, .call (.client 0) .shutdown,
      .proceed (.client 0), .call (.client 2) (.submit 10 true), .proceed (.client 2),
      .finish 1 (.returned 1), .claim 1, .finish 1 (.returned 2), .claim 1] fun ms p =>
    p.workers = [.killed (.text "dead"), .left] ∧ p.queue.submitted = 3 ∧ p.queue.tasks = [] ∧
      (∃ m ∈ ms, m.effect.reply = some .stopped) ∧ p.deserted = true := by
    decide +kernel
  obtain ⟨ms,p,hr,hw,hn,he,hrefused,hd⟩ := h.run
  obtain ⟨hcons,hover⟩ := conservation h₀ hr
  exact ⟨_,p,ms,h₀,hr,hw,hn,hrefused,hcons,(hover hd).1.mpr he⟩

/-- The only worker dies of the first job. The second one has been accepted as well, but the
shutdown returns and nobody ever runs it. -/
theorem stranded_behind_dead_worker :
    ∃ (p₀ p : Pool Nat Nat) (ms : List (Moment Nat Nat)),
      Fresh 1 p₀ ∧ Run p₀ ms p ∧ (∃ m ∈ ms, m.effect.reply = some (.accepted 1)) ∧
        (∃ m ∈ ms, m.effect.reply = some .done ∧ m.effect.lines = [.destroyed]) ∧
        p.deserted = true ∧ started ms 1 = 0 ∧ ¬Complete ms p := by
  have h₀ : Fresh 1 (blank 0 1 (.client 0) : Pool Nat Nat) := ⟨0,"noop",.client 0,_,rfl⟩
  have h : (blank 0 1 (.client 0) : Pool Nat Nat).Leads [.spawn (.client 0) none, .pin 0,
      .call (.client 0) (.submit 7 false), .proceed (.client 0), .notify (.client 0) none,
      .call (.client 0) (.submit 8 true), .proceed (.client 0), .notify (.client 0) none,
      .claim 0, .finish 0 (.unwound (.fuse "dead")), .call (.client 0) .shutdown,
      .proceed (.client 0), .proceed (.client 0), .proceed (.client 0), .proceed (.client 0),
      .proceed (.client 0)] fun ms p =>
    (∃ m ∈ ms, m.effect.reply = some (.accepted 1)) ∧
      (∃ m ∈ ms, m.effect.reply = some .done ∧ m.effect.lines = [.destroyed]) ∧
      p.deserted = true ∧ started ms 1 = 0 ∧ p.queue.submitted = 2 := by
    decide +kernel
  obtain ⟨ms,p,hr,haccepted,hdone,hd,hstarted,hn⟩ := h.run
  refine ⟨_,p,ms,h₀,hr,haccepted,hdone,hd,hstarted,?_⟩
  intro hc
  have honce := (hc.once 1 (by omega)).1
  omega

end PinnedPool.Pool
