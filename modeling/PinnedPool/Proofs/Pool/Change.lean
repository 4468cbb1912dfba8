import PinnedPool.Proofs.Pool.Run

/-! # What a step changes

The three views of a step that the laws of pools rest on: what it does to the queue, how a worker
gets into a new state, and that it leaves the calls of all other threads alone.
-/
namespace PinnedPool.Pool

variable {J V : Type}

/-- The queue is kept, or one task is put in at the back or taken out at the front. -/
inductive QueueChange (p : Pool J V) (e : Event J V) (f : Effect J V) : Prop
  | kept (accepted : Moment.accepted? ⟨p,e,f⟩ = none) (claim : Moment.claim? ⟨p,e,f⟩ = none)
      (queue : f.pool.queue = p.queue)
  | pushed {task} (accepted : Moment.accepted? ⟨p,e,f⟩ = some task)
      (claim : Moment.claim? ⟨p,e,f⟩ = none) (opened : p.stopping = false)
      (seq : task.seq = p.queue.submitted)
      (queue : f.pool.queue = p.queue.push task.job task.watched)
  | popped {c rest} (accepted : Moment.accepted? ⟨p,e,f⟩ = none)
      (claim : Moment.claim? ⟨p,e,f⟩ = some c)
      (pop : p.queue.pop? = some (c.task, c.ticket, rest)) (queue : f.pool.queue = rest)

theorem number?_setCall (p : Pool J V) (t u : ThreadId) (c : Call J) :
    (p.setCall t c).number? u = if u = t then c.number? else p.number? u := by
  unfold number?
  rw [callOf?_setCall]
  split <;> rfl

theorem number?_endCall (p : Pool J V) (t u : ThreadId) :
    (p.endCall t).number? u = if u = t then none else p.number? u := by
  unfold number?
  rw [callOf?_endCall]
  split <;> rfl

theorem number?_relieve (p : Pool J V) (u : ThreadId) : p.relieve.number? u = p.number? u := by
  unfold number?
  rcases p.relieve_eq_or with h | h
  · rw [h, callOf?_wakeWaiters]
    rcases p.callOf? u with _ | c
    · rfl
    · cases c <;> rfl
  · rw [h]

theorem getElem?_setWorker {p : Pool J V} {w : Nat} {s : Worker J} (h : p.workers[w]? = some s)
    (s' : Worker J) : (p.setWorker w s').workers[w]? = some s' := by
  have hw := (List.getElem?_eq_some_iff.mp h).1
  exact List.getElem?_set_self hw

theorem queueChange {p : Pool J V} {e : Event J V} {f : Effect J V} (h : p.step e = some f) :
    QueueChange p e f := by
  cases transition h with
  | @append t job watched hc hs =>
    refine @QueueChange.pushed J V p _ _ ⟨p.queue.submitted,job,watched⟩ ?_ rfl hs rfl rfl
    simp [Moment.accepted?, Moment.submission?, hc, number?_setCall, Call.number?, Submission.task?]
  | refuse hc =>
    refine .kept ?_ rfl rfl
    simp [Moment.accepted?, Moment.submission?, hc, endWith, number?_endCall, Submission.task?]
  | @take w task ticket rest hw hp =>
    refine .popped (c := ⟨w,task,ticket⟩) rfl ?_ hp (relieve_queue _)
    have hr := getElem?_setWorker (p := { p with queue := rest }) hw (.running task ticket)
    simp only [Moment.claim?, relieve_workers, hr]
  | leave hw | park hw =>
    refine .kept rfl ?_ rfl
    simp only [Moment.claim?, getElem?_setWorker hw]
  | finish => exact .kept rfl rfl (finish_queue ..)
  | observe hc | wait hc | raise hc | wakeRefused hc | wakeOwn hc | wakeOutside hc | enter hc
  | enterGone hc | joinLeft hc | joinKilled hc | destroy hc | joinBurst hc | giveUp hc
  | giveUpBurst hc =>
    exact .kept (by simp [Moment.accepted?, Moment.submission?, hc]) rfl rfl
  | call | start | startLast | startRefused | signal | signalNobody | pin | pinKilled | stir
  | stirWaiter | free => exact .kept rfl rfl rfl

/-- How the worker `w` gets into a state that it was not in. -/
inductive Arrival (p : Pool J V) (w : Nat) : Event J V → Worker J → Prop
  | starting {e} : Arrival p w e .starting
  | ready {e} : Arrival p w e .ready
  | taking {task ticket rest} (pop : p.queue.pop? = some (task, ticket, rest)) :
    Arrival p w (.claim w) (.running task ticket)
  | leaving (empty : p.queue.tasks = []) (stopping : p.stopping = true) : Arrival p w (.claim w) .left
  | parking (empty : p.queue.tasks = []) (opened : p.stopping = false) :
    Arrival p w (.claim w) .parked
  | pinning {q} : Arrival p w (.pin w (some q)) (.killed q)
  | failing {task ticket e heard q} (running : p.workers[w]? = some (.running task ticket))
      (fatal : (Ending.settle task.watched heard e).2 = .fatal q) :
    Arrival p w (.finish w e heard) (.killed q)

theorem getElem?_wakeWorkers (p : Pool J V) (w : Nat) :
    p.wakeWorkers.workers[w]? = (p.workers[w]?).map Worker.wake := List.getElem?_map

theorem setWorker_arrival {p : Pool J V} {v w : Nat} {s s' : Worker J} {P : Prop}
    (h : (p.workers.set v s')[w]? = some s) (hp : v = w → s' = s → P) :
    p.workers[w]? = some s ∨ P := by
  rw [List.getElem?_set] at h
  by_cases hv : v = w
  · rw [if_pos hv] at h
    split at h
    · exact .inr (hp hv (Option.some.inj h))
    · cases h
  · rw [if_neg hv] at h
    exact .inl h

theorem wakeWorkers_arrival {p : Pool J V} {w : Nat} {s : Worker J} {e : Event J V}
    (h : p.wakeWorkers.workers[w]? = some s) : p.workers[w]? = some s ∨ Arrival p w e s := by
  rw [getElem?_wakeWorkers] at h
  obtain ⟨s₀,h₀,rfl⟩ := Option.map_eq_some_iff.mp h
  cases s₀ with
  | parked => exact .inr .ready
  | starting | ready | running | left | killed => exact .inl h₀

theorem start_arrival {p : Pool J V} {w : Nat} {s : Worker J} {e : Event J V}
    (h : (p.workers ++ [.starting])[w]? = some s) : p.workers[w]? = some s ∨ Arrival p w e s := by
  rw [List.getElem?_append] at h
  split at h
  · exact .inl h
  · obtain ⟨-,rfl⟩ : _ ∧ Worker.starting = s := by simpa [List.getElem?_singleton] using h
    exact .inr .starting

theorem arrival {p : Pool J V} {e : Event J V} {f : Effect J V} (h : p.step e = some f) {w : Nat}
    {s : Worker J} (hw : f.pool.workers[w]? = some s) :
    p.workers[w]? = some s ∨ Arrival p w e s := by
  cases transition h with
  | start | startLast => exact start_arrival hw
  | wakeRefused | wakeOwn | wakeOutside => exact wakeWorkers_arrival hw
  | signal | pin | stir => exact setWorker_arrival hw fun _ hs => hs ▸ .ready
  | pinKilled => exact setWorker_arrival hw fun hv hs => hv ▸ hs ▸ .pinning
  | take _ hp =>
    rw [relieve_workers] at hw
    exact setWorker_arrival hw fun hv hs => hv ▸ hs ▸ .taking hp
  | leave _ he hs => exact setWorker_arrival hw fun hv h => hv ▸ h ▸ .leaving he hs
  | park _ he hs => exact setWorker_arrival hw fun hv h => hv ▸ h ▸ .parking he hs
  | finish hr =>
    rw [finish_workers] at hw
    refine setWorker_arrival hw fun hv hs => ?_
    subst hv hs
    unfold after
    split
    · exact .failing hr ‹_›
    · exact .ready
    · exact .ready
  | call | startRefused | signalNobody | refuse | append | observe | wait | raise | enter
  | enterGone | joinLeft | joinKilled | destroy | joinBurst | giveUp | giveUpBurst | stirWaiter
  | free =>
    exact .inl hw

/-- The thread whose call takes the step. -/
def Event.caller? : Event J V → Option ThreadId
  | .call t _ | .spawn t _ | .notify t _ | .proceed t | .stirWaiter t => some t
  | .pin _ _ | .claim _ | .finish _ _ _ | .stir _ | .free => none

theorem callOf?_relieve (p : Pool J V) (u : ThreadId) :
    p.relieve.callOf? u = p.callOf? u ∨ p.relieve.callOf? u = (p.callOf? u).map Call.wakeWaiter := by
  rcases p.relieve_eq_or with h | h
  · rw [h]
    exact .inr (p.callOf?_wakeWaiters u)
  · rw [h]
    exact .inl rfl

/-- A call stands still while another thread steps, unless it is woken. -/
theorem callOf?_step {p : Pool J V} {e : Event J V} {f : Effect J V} (h : p.step e = some f)
    {u : ThreadId} (hu : e.caller? ≠ some u) :
    f.pool.callOf? u = p.callOf? u ∨ f.pool.callOf? u = (p.callOf? u).map Call.wakeWaiter := by
  have hne : ∀ {t}, e.caller? = some t → u ≠ t := fun ht htu => hu (htu ▸ ht)
  cases transition h with
  | call | startRefused | append | wait | raise | wakeRefused | wakeOutside | enter | joinLeft
  | joinKilled | stirWaiter => exact .inl (callOf?_setCall_of_ne _ _ (hne rfl))
  | startLast | signal | signalNobody | refuse | observe | wakeOwn | enterGone | destroy
  | joinBurst | giveUp | giveUpBurst => exact .inl (callOf?_endCall_of_ne _ (hne rfl))
  | take => exact callOf?_relieve _ u
  | finish => exact .inl (congrArg (List.lookup u) (finish_calls ..))
  | start | pin | pinKilled | leave | park | stir | free => exact .inl rfl

/-- A thread has a number to return only if it had it before or is given it by its submission. -/
theorem number?_step {p : Pool J V} {e : Event J V} {f : Effect J V} (h : p.step e = some f)
    {u : ThreadId} {k : Nat} (hk : f.pool.number? u = some k) :
    p.number? u = some k ∨
      ∃ s, Moment.submission? ⟨p,e,f⟩ = some s ∧ s.thread = u ∧ s.seq? = some k := by
  cases transition h with
  | @append t job watched hc =>
    by_cases hu : u = t
    · subst hu
      exact .inr ⟨⟨u,job,watched,some k⟩,by simp [Moment.submission?, hc, hk],rfl,rfl⟩
    · rw [number?_setCall, if_neg hu] at hk
      exact .inl hk
  | @call _ r =>
    rw [number?_setCall] at hk
    split at hk
    · cases r <;> cases hk
    · exact .inl hk
  | startRefused | wait | raise | wakeRefused | wakeOutside | enter | joinLeft | joinKilled
  | stirWaiter =>
    rw [number?_setCall] at hk
    split at hk
    · cases hk
    · exact .inl hk
  | startLast | signal | signalNobody | refuse | observe | wakeOwn | enterGone | destroy
  | joinBurst | giveUp | giveUpBurst =>
    dsimp only [endWith] at hk
    rw [number?_endCall] at hk
    split at hk
    · cases hk
    · exact .inl hk
  | take =>
    dsimp only at hk
    rw [number?_relieve] at hk
    exact .inl hk
  | finish =>
    simp only [number?, callOf?, finish_calls] at hk
    exact .inl hk
  | start | pin | pinKilled | leave | park | stir | free => exact .inl hk

theorem reply_accepted {p : Pool J V} {e : Event J V} {f : Effect J V} (h : p.step e = some f)
    {k : Nat} (hk : f.reply = some (.accepted k)) :
    ∃ t pick, e = .notify t pick ∧ p.number? t = some k := by
  cases transition h with
  | signal hc | signalNobody hc =>
    cases hk
    exact ⟨_,_,rfl,by simp [number?, hc, Call.number?]⟩
  | finish =>
    rw [finish_reply] at hk
    cases hk
  | call | start | startLast | startRefused | refuse | append | observe | wait | raise
  | wakeRefused | wakeOwn | wakeOutside | enter | enterGone | joinLeft | joinKilled | destroy
  | joinBurst | giveUp | giveUpBurst | pin | pinKilled | take | leave | park | stir | stirWaiter
  | free =>
    cases hk

/-- A submission is refused exactly where it is decided without a number. -/
theorem reply_stopped_iff {p : Pool J V} {e : Event J V} {f : Effect J V}
    (h : p.step e = some f) :
    f.reply = some .stopped ↔ ∃ s, Moment.submission? ⟨p,e,f⟩ = some s ∧ s.seq? = none := by
  cases transition h with
  | @refuse t job watched hc =>
    refine ⟨fun _ => ⟨⟨t,job,watched,none⟩,?_,rfl⟩,fun _ => rfl⟩
    simp [Moment.submission?, hc, endWith, number?_endCall]
  | append hc =>
    simp [Moment.submission?, hc, number?_setCall, Call.number?]
  | finish => simp [Moment.submission?]
  | observe hc | wait hc | raise hc | wakeRefused hc | wakeOwn hc | wakeOutside hc | enter hc
  | enterGone hc | joinLeft hc | joinKilled hc | destroy hc | joinBurst hc | giveUp hc
  | giveUpBurst hc =>
    simp [Moment.submission?, hc, endWith]
  | call | start | startLast | startRefused | signal | signalNobody | pin | pinKilled | take
  | leave | park | stir | stirWaiter | free => simp [Moment.submission?, endWith]

end PinnedPool.Pool
