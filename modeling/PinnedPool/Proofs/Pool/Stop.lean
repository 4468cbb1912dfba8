import PinnedPool.Proofs.Pool.Order

/-! # The stop of a pool

The flag is set and tested where the queue is changed. So the queue takes nothing more once the
flag is set, and a worker that has seen the queue empty then leaves nothing behind.
-/
namespace PinnedPool.Pool

variable {J V : Type}

/-- A worker has left its loop only if the pool is stopping and the queue is empty. -/
def Drained (p : Pool J V) : Prop := .left ∈ p.workers → p.stopping = true ∧ p.queue.tasks = []

theorem stopping_step {p : Pool J V} {e : Event J V} {f : Effect J V} (h : p.step e = some f)
    (hs : p.stopping = true) : f.pool.stopping = true := by
  cases transition h with
  | raise => rfl
  | take =>
    rw [relieve_stopping]
    exact hs
  | finish =>
    rw [finish_stopping]
    exact hs
  | call | start | startLast | startRefused | signal | signalNobody | refuse | append | observe
  | wait | wakeRefused | wakeOwn | wakeOutside | enter | enterGone | joinLeft | joinKilled
  | destroy | joinBurst | giveUp | giveUpBurst | pin | pinKilled | leave | park | stir
  | stirWaiter | free =>
    exact hs

theorem Run.stopping {p q : Pool J V} {ns : List (Moment J V)} (hq : Run p ns q)
    (hs : p.stopping = true) : q.stopping = true :=
  hq.invariant (I := fun q => q.stopping = true) hs stopping_step

theorem empty_step {p : Pool J V} {e : Event J V} {f : Effect J V} (h : p.step e = some f)
    (hs : p.stopping = true) (he : p.queue.tasks = []) : f.pool.queue.tasks = [] := by
  cases queueChange h with
  | kept _ _ hq => rw [hq, he]
  | pushed _ _ hopen => rw [hs] at hopen; cases hopen
  | popped _ _ hp => rw [(Queue.pop?_eq_some hp).1] at he; cases he

theorem Run.empty {p q : Pool J V} {ns : List (Moment J V)} (hq : Run p ns q)
    (hs : p.stopping = true) (he : p.queue.tasks = []) : q.queue.tasks = [] := by
  have h := hq.invariant (I := fun q => q.stopping = true ∧ q.queue.tasks = []) ⟨hs,he⟩
    fun h ⟨hs,he⟩ => ⟨stopping_step h hs,empty_step h hs he⟩
  exact h.2

theorem drained_step {p : Pool J V} {e : Event J V} {f : Effect J V} (h : p.step e = some f)
    (hd : p.Drained) : f.pool.Drained := by
  intro hl
  have hpast : p.stopping = true ∧ p.queue.tasks = [] := by
    obtain ⟨w,hw⟩ := List.getElem?_of_mem hl
    rcases arrival h hw with hw | ha
    · exact hd (List.mem_of_getElem? hw)
    · cases ha with
      | leaving he hs => exact ⟨hs,he⟩
  obtain ⟨hs,he⟩ := hpast
  exact ⟨stopping_step h hs,empty_step h hs he⟩

theorem Run.drained {n : Nat} {p₀ p : Pool J V} {ms : List (Moment J V)} (h₀ : Fresh n p₀)
    (hr : Run p₀ ms p) : p.Drained := by
  refine hr.invariant (I := Drained) ?_ drained_step
  obtain ⟨-,id,t,rfl⟩ := h₀.eq_blank
  intro hl
  cases hl

theorem submission_step {p : Pool J V} {e : Event J V} {f : Effect J V} (h : p.step e = some f)
    (hs : p.stopping = true) {s : Submission J} (hm : Moment.submission? ⟨p,e,f⟩ = some s) :
    s.seq? = none := by
  cases hk : s.seq? with
  | none => rfl
  | some k =>
    have ha : Moment.accepted? ⟨p,e,f⟩ = some ⟨k,s.job,s.watched⟩ := by
      simp [Moment.accepted?, hm, Submission.task?, hk]
    cases queueChange h with
    | kept hn => rw [hn] at ha; cases ha
    | popped hn => rw [hn] at ha; cases ha
    | pushed _ _ hopen => rw [hs] at hopen; cases hopen

theorem Run.closed {p q : Pool J V} {ns : List (Moment J V)} (hq : Run p ns q)
    (hs : p.stopping = true) :
    (∀ s ∈ submissions ns, s.seq? = none) ∧ q.queue.submitted = p.queue.submitted := by
  induction hq with
  | start =>
    refine ⟨?_,rfl⟩
    intro s hm
    cases hm
  | step hq h ih =>
    obtain ⟨hnone,hsub⟩ := ih
    have hstop := hq.stopping hs
    refine ⟨?_,?_⟩
    · intro s hm
      rw [submissions_snoc] at hm
      rcases List.mem_append.mp hm with hm | hm
      · exact hnone s hm
      · exact submission_step h hstop (by simpa using hm)
    · rw [← hsub]
      cases queueChange h with
      | kept _ _ hk => rw [hk]
      | pushed _ _ hopen => rw [hstop] at hopen; cases hopen
      | popped _ _ hp hk => rw [hk, (Queue.pop?_eq_some hp).2.2.1]

/-- A refused submission does not touch the queue, neither where it begins nor where it is
decided. -/
theorem queue_of_refused {p : Pool J V} {e : Event J V} {f : Effect J V} (h : p.step e = some f)
    (hk : f.reply = some .stopped ∨ ∃ t r, e = .call t r) : f.pool.queue = p.queue := by
  cases transition h with
  | call | refuse => rfl
  | finish => exact finish_queue ..
  | take | append => rcases hk with hk | ⟨_,_,hk⟩ <;> cases hk
  | start | startLast | startRefused | signal | signalNobody | observe | wait | raise
  | wakeRefused | wakeOwn | wakeOutside | enter | enterGone | joinLeft | joinKilled | destroy
  | joinBurst | giveUp | giveUpBurst | pin | pinKilled | leave | park | stir | stirWaiter | free =>
    rfl

theorem Run.returned_before {n : Nat} {p₀ p q : Pool J V} {ms ns : List (Moment J V)}
    (h₀ : Fresh n p₀) (hr : Run p₀ ms p) (hq : Run p ns q) (hs : p.stopping = true)
    {m : Moment J V} (hm : m ∈ ns) {k : Nat} (hk : m.effect.reply = some (.accepted k)) :
    ∃ s ∈ submissions ms, s.seq? = some k := by
  obtain ⟨s,hmem,-,hsk⟩ := (hr.trans hq).exists_of_returned h₀ (List.mem_append_right _ hm) hk
  rw [submissions_append] at hmem
  rcases List.mem_append.mp hmem with hmem | hmem
  · exact ⟨s,hmem,hsk⟩
  · have hnone := (hq.closed hs).1 s hmem
    rw [hsk] at hnone
    cases hnone

/-- The flag stays set and nothing is accepted any more, a refused submission leaves the queue and
its counters alone, and from the moment that a worker has left its loop the queue is empty and every
accepted task is claimed. -/
theorem clean_cut {n : Nat} {p₀ p : Pool J V} {ms : List (Moment J V)} (h₀ : Fresh n p₀)
    (hr : Run p₀ ms p) :
    (p.stopping = true → ∀ ns q, Run p ns q →
        q.stopping = true ∧ q.queue.submitted = p.queue.submitted ∧
        (∀ s ∈ submissions ns, s.seq? = none) ∧
        ∀ m ∈ ns, ∀ k, m.effect.reply = some (.accepted k) →
          ∃ s ∈ submissions ms, s.seq? = some k) ∧
      (∀ m ∈ ms, (m.effect.reply = some .stopped ∨ ∃ t r, m.event = .call t r) →
        m.effect.pool.queue = m.before.queue) ∧
      (.left ∈ p.workers → ∀ ns q, Run p ns q →
        q.stopping = true ∧ q.queue.tasks = [] ∧
        accepted (ms ++ ns) = (claims (ms ++ ns)).map Claim.task) := by
  refine ⟨?_,?_,?_⟩
  · intro hs ns q hq
    obtain ⟨hnone,hsub⟩ := hq.closed hs
    exact ⟨hq.stopping hs,hsub,hnone,fun m hm k hk => hr.returned_before h₀ hq hs hm hk⟩
  · intro m hm hk
    exact queue_of_refused (hr.step_of_mem hm) hk
  · intro hl ns q hq
    obtain ⟨hs,he⟩ := hr.drained h₀ hl
    have hempty := hq.empty hs he
    have heq := (hr.trans hq).accepted_eq h₀
    rw [hempty, List.append_nil] at heq
    exact ⟨hq.stopping hs,hempty,heq⟩

/-- A pool is stopped while a task is running and another one is queued. A submission that began
before the stop is refused after it, and the worker leaves once it has run both tasks. -/
theorem clean_cut_late_submitter :
    ∃ (p₀ p q : Pool Nat Nat) (ms ns : List (Moment Nat Nat)),
      Fresh 1 p₀ ∧ Run p₀ ms p ∧ Run p ns q ∧ p.stopping = true ∧ p.pending = 1 ∧
        (∃ m ∈ ns, m.effect.reply = some .stopped) ∧ (∀ s ∈ submissions ns, s.seq? = none) ∧
        .left ∈ q.workers ∧ (claims (ms ++ ns)).map (·.task.job) = [7, 8] ∧ q.queue.tasks = [] := by
  have h₀ : Fresh 1 (blank 0 1 (.client 0) : Pool Nat Nat) := ⟨0,"noop",.client 0,_,rfl⟩
  have h : (blank 0 1 (.client 0) : Pool Nat Nat).Leads [.spawn (.client 0) none, .pin 0,
      .call (.client 1) (.submit 7 true), .proceed (.client 1), .notify (.client 1) none, .claim 0,
      .call (.client 1) (.submit 8 true), .proceed (.client 1), .notify (.client 1) none,
      .call (.client 2) (.submit 9 true), .call (.client 0) .shutdown,
      .proceed (.client 0)] fun ms p =>
    p.stopping = true ∧ p.pending = 1 ∧
      p.Leads [.proceed (.client 2), .proceed (.client 0), .finish 0 (.returned 1), .claim 0,
        .finish 0 (.returned 2), .claim 0] fun ns q =>
      (∃ m ∈ ns, m.effect.reply = some .stopped) ∧ .left ∈ q.workers ∧
        (claims (ms ++ ns)).map (·.task.job) = [7, 8] := by
    decide +kernel
  obtain ⟨ms,p,hr,hs,hp,h⟩ := h.run
  obtain ⟨ns,q,hq,hrefused,hl,hc⟩ := h.run
  obtain ⟨-,-,hnone,-⟩ := (clean_cut h₀ hr).1 hs ns q hq
  obtain ⟨-,he,-⟩ := (clean_cut h₀ (hr.trans hq)).2.2 hl [] q .start
  exact ⟨_,p,q,ms,ns,h₀,hr,hq,hs,hp,hrefused,hnone,hl,hc,he⟩

end PinnedPool.Pool
