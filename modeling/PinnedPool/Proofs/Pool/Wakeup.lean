import PinnedPool.Proofs.Pool.Change

/-! # No wakeup of a worker is lost

While a worker is parked, every queued task has somebody who sees to it: a worker that is about to
look for a task, or a submitter that is about to wake one. Workers park at an empty queue only, and
the claim that uses up a worker takes a task away with it. Workers that are still starting are not
needed, since they may die before they look for a task.
-/
namespace PinnedPool

variable {J V : Type}

/-- About to look for a task. -/
def Worker.isReady : Worker J → Bool
  | ready => true
  | _ => false

/-- Neither parked nor over, and not running a task. -/
def Worker.isAwake : Worker J → Bool
  | starting | ready => true
  | _ => false

/-- Has appended a task and not yet woken a worker. -/
def Call.isNotify : Call J → Bool
  | notify _ => true
  | _ => false

namespace Pool

/-- Those who see to the queued tasks. -/
def hands (p : Pool J V) : Nat := p.workers.countP Worker.isReady + p.callers Call.isNotify

/-- Nobody is parked, or there are hands for all queued tasks. -/
def Covered (p : Pool J V) : Prop := .parked ∈ p.workers → p.queue.tasks.length ≤ p.hands

theorem distinct_step {p : Pool J V} {e : Event J V} {f : Effect J V} (h : p.step e = some f)
    (hd : p.Distinct) : f.pool.Distinct := by
  cases transition h with
  | call | startRefused | append | wait | raise | wakeRefused | wakeOutside | enter | joinLeft
  | joinKilled | stirWaiter => exact hd.setCall ..
  | startLast | signal | signalNobody | refuse | observe | wakeOwn | enterGone | destroy
  | joinBurst | giveUp | giveUpBurst => exact hd.endCall ..
  | @take w task ticket rest =>
    rcases relieve_eq_or ({ p with queue := rest }.setWorker w (.running task ticket)) with h | h
    · rw [h]
      exact Distinct.wakeWaiters hd
    · rw [h]
      exact hd
  | finish =>
    unfold Distinct
    rw [finish_calls]
    exact hd
  | start | pin | pinKilled | leave | park | stir | free => exact hd

theorem Run.distinct {n : Nat} {p₀ p : Pool J V} {ms : List (Moment J V)} (h₀ : Fresh n p₀)
    (hr : Run p₀ ms p) : p.Distinct := by
  refine hr.invariant (I := Distinct) ?_ distinct_step
  obtain ⟨-,id,t,rfl⟩ := h₀.eq_blank
  simp [Distinct, blank]

theorem parked_of_set {l : List (Worker J)} {w : Nat} {s : Worker J} (hs : s ≠ .parked)
    (h : .parked ∈ l.set w s) : .parked ∈ l :=
  (List.mem_or_eq_of_mem_set h).resolve_right hs.symm

theorem not_parked_of_wake (p : Pool J V) : .parked ∉ p.wakeWorkers.workers := by
  intro h
  obtain ⟨s,-,hs⟩ := List.mem_map.mp h
  cases s <;> cases hs

theorem Covered.mono {p q : Pool J V} (hc : p.Covered) (hp : .parked ∈ q.workers → .parked ∈ p.workers)
    (hq : q.queue = p.queue) (hn : p.hands ≤ q.hands) : q.Covered := by
  intro h
  rw [hq]
  exact Nat.le_trans (hc (hp h)) hn

section Hands
variable {p : Pool J V}

theorem hands_setWorker {w : Nat} {a : Worker J} (hw : p.workers[w]? = some a) (b : Worker J) :
    (p.setWorker w b).hands + a.isReady.toNat = p.hands + b.isReady.toNat := by
  have h := countP_set_add Worker.isReady (b := b) hw
  unfold hands
  dsimp only [setWorker, callers]
  omega

theorem hands_start (p : Pool J V) : hands { p with workers := p.workers ++ [.starting] } = p.hands := by
  simp [hands, callers, Worker.isReady]

theorem hands_relieve (p : Pool J V) : p.relieve.hands = p.hands := by
  unfold hands
  rw [relieve_workers]
  congr 1
  rcases p.relieve_eq_or with h | h
  · rw [h]
    exact callers_wakeWaiters fun c => by cases c <;> rfl
  · rw [h]

theorem hands_setCall (hd : p.Distinct) {t : ThreadId} (c : Call J) :
    (p.setCall t c).hands + ((p.callOf? t).any Call.isNotify).toNat = p.hands + c.isNotify.toNat := by
  have h := callers_setCall t c hd Call.isNotify
  unfold hands
  rw [Nat.add_assoc, h, ← Nat.add_assoc]
  rfl

theorem hands_endCall (hd : p.Distinct) (t : ThreadId) :
    (p.endCall t).hands + ((p.callOf? t).any Call.isNotify).toNat = p.hands := by
  have h := callers_endCall t hd Call.isNotify
  unfold hands
  rw [Nat.add_assoc, h]
  rfl

theorem hands_setWorker_le {w : Nat} {a : Worker J} (hw : p.workers[w]? = some a)
    (ha : a.isReady = false) (b : Worker J) : p.hands ≤ (p.setWorker w b).hands := by
  have h := hands_setWorker hw b
  rw [ha] at h
  exact Nat.le.intro h.symm

theorem hands_setCall_le (hd : p.Distinct) {t : ThreadId}
    (ht : (p.callOf? t).any Call.isNotify = false) (c : Call J) :
    p.hands ≤ (p.setCall t c).hands := by
  have h := hands_setCall hd (t := t) c
  rw [ht] at h
  exact Nat.le.intro h.symm

theorem hands_endCall_le (hd : p.Distinct) {t : ThreadId}
    (ht : (p.callOf? t).any Call.isNotify = false) : p.hands ≤ (p.endCall t).hands := by
  have h := hands_endCall hd t
  rw [ht] at h
  exact Nat.le_of_eq h.symm

end Hands

theorem covered_step {p : Pool J V} {e : Event J V} {f : Effect J V} (h : p.step e = some f)
    (hd : p.Distinct) (hc : p.Covered) : f.pool.Covered := by
  cases transition h with
  | signalNobody _ hnone => exact fun hp => absurd hp hnone
  | wakeRefused | wakeOwn | wakeOutside => exact fun hp => absurd hp (not_parked_of_wake p)
  | leave _ he | park _ he =>
    intro _
    show p.queue.tasks.length ≤ _
    rw [he]
    exact Nat.zero_le _
  | @append t job watched hcall =>
    -- one more task, and one more signal that is due
    intro hp
    have hcov : p.queue.tasks.length ≤ p.hands := hc hp
    have hdue := hands_setCall (p := p) hd (t := t) (.notify p.queue.submitted)
    rw [hcall] at hdue
    show (p.queue.push job watched).tasks.length ≤ (p.setCall t (.notify p.queue.submitted)).hands
    rw [Queue.tasks_push, List.length_append]
    simp only [Option.any_some, Call.isNotify, Bool.toNat_true, Bool.toNat_false] at hdue
    rw [List.length_singleton]
    omega
  | @signal t w seq hcall hw =>
    -- the signal that was due becomes a worker that is ready
    refine hc.mono (parked_of_set (by simp)) rfl ?_
    have hready := hands_setWorker hw .ready
    have hdue := hands_endCall (p := p.setWorker w .ready) hd t
    rw [show (p.setWorker w .ready).callOf? t = _ from hcall] at hdue
    simp only [Worker.isReady, Option.any_some, Call.isNotify, Bool.toNat_true,
      Bool.toNat_false] at hready hdue
    show p.hands ≤ ((p.setWorker w .ready).endCall t).hands
    omega
  | @take w task ticket rest hw hpop =>
    -- the worker goes, and the task with it
    intro hp
    rw [relieve_workers] at hp
    have hcov := hc (parked_of_set (by simp) hp)
    have hready := hands_setWorker hw (.running task ticket)
    rw [(Queue.pop?_eq_some hpop).1] at hcov
    rw [relieve_queue, hands_relieve]
    show rest.tasks.length ≤ (p.setWorker w (.running task ticket)).hands
    simp only [Worker.isReady, Bool.toNat_true, Bool.toNat_false, List.length_cons] at hready hcov
    omega
  | pin hw | stir hw | pinKilled _ hw =>
    exact hc.mono (parked_of_set (by simp)) rfl (hands_setWorker_le hw rfl _)
  | @finish w task ticket e heard hw =>
    obtain ⟨slots,hf⟩ := p.finish_pool w task e heard
    rw [hf]
    refine hc.mono (parked_of_set ?_) rfl (hands_setWorker_le hw rfl (after task e heard))
    unfold after
    split <;> simp
  | start => exact hc.mono (by simp) rfl (Nat.le_of_eq (hands_start p).symm)
  | startLast hcall =>
    refine hc.mono (by simp [endWith, endCall]) rfl ?_
    rw [← hands_start p]
    refine hands_endCall_le (p := { p with workers := p.workers ++ [.starting] }) hd ?_
    rw [show callOf? { p with workers := p.workers ++ [.starting] } _ = _ from hcall]
    rfl
  | free => exact hc
  | call hcall | startRefused _ hcall | wait hcall | raise hcall | enter hcall | joinLeft hcall
  | joinKilled hcall | stirWaiter hcall =>
    exact hc.mono (fun hp => hp) rfl (hands_setCall_le hd (by simp [hcall, Call.isNotify]) _)
  | refuse hcall | observe hcall | enterGone hcall | destroy hcall | joinBurst hcall
  | giveUp hcall | giveUpBurst hcall =>
    exact hc.mono (fun hp => hp) rfl (hands_endCall_le hd (by simp [hcall, Call.isNotify]))

theorem Run.covered {n : Nat} {p₀ p : Pool J V} {ms : List (Moment J V)} (h₀ : Fresh n p₀)
    (hr : Run p₀ ms p) : p.Covered := by
  have h := hr.invariant (I := fun p => p.Distinct ∧ p.Covered) ?_
    fun h ⟨hd,hc⟩ => ⟨distinct_step h hd,covered_step h hd hc⟩
  · exact h.2
  · refine ⟨Run.distinct h₀ .start,?_⟩
    obtain ⟨-,id,t,rfl⟩ := h₀.eq_blank
    intro hp
    cases hp

/-! ## The stop -/

/-- While a worker is parked in a stopping pool, somebody is about to wake all workers. -/
def Heralded (p : Pool J V) : Prop :=
  p.stopping = true → .parked ∈ p.workers → ∃ t why, p.callOf? t = some (.wake why)

/-- The flag is set by a call that goes on to wake the workers. -/
theorem stopping_before {p : Pool J V} {e : Event J V} {f : Effect J V} (h : p.step e = some f)
    (hs : f.pool.stopping = true) :
    p.stopping = true ∨ ∃ t why, f.pool.callOf? t = some (.wake why) := by
  cases transition h with
  | @raise t why => exact .inr ⟨t,why,callOf?_setCall_self ..⟩
  | take =>
    rw [relieve_stopping] at hs
    exact .inl hs
  | finish =>
    rw [finish_stopping] at hs
    exact .inl hs
  | call | start | startLast | startRefused | signal | signalNobody | refuse | append | observe
  | wait | wakeRefused | wakeOwn | wakeOutside | enter | enterGone | joinLeft | joinKilled
  | destroy | joinBurst | giveUp | giveUpBurst | pin | pinKilled | leave | park | stir
  | stirWaiter | free =>
    exact .inl hs

/-- The step that a waking call takes is the waking. -/
theorem not_parked_of_waker {p : Pool J V} {e : Event J V} {f : Effect J V}
    (h : p.step e = some f) {t : ThreadId} {why : Purpose} (ht : p.callOf? t = some (.wake why))
    (he : e.caller? = some t) : .parked ∉ f.pool.workers := by
  cases transition h with
  | wakeRefused | wakeOwn | wakeOutside => exact not_parked_of_wake p
  | call hc | start hc | startLast hc | startRefused _ hc | signal hc | signalNobody hc
  | refuse hc | append hc | observe hc | wait hc | raise hc | enter hc | enterGone hc
  | joinLeft hc | joinKilled hc | destroy hc | joinBurst hc | giveUp hc | giveUpBurst hc
  | stirWaiter hc =>
    cases he
    rw [ht] at hc
    cases hc
  | pin | pinKilled | take | leave | park | finish | stir | free => cases he

theorem heralded_step {p : Pool J V} {e : Event J V} {f : Effect J V} (h : p.step e = some f)
    (hh : p.Heralded) : f.pool.Heralded := by
  intro hs hp
  rcases stopping_before h hs with hs | hwake
  · have hp₀ : .parked ∈ p.workers := by
      obtain ⟨w,hw⟩ := List.getElem?_of_mem hp
      rcases arrival h hw with hw | ha
      · exact List.mem_of_getElem? hw
      · cases ha with
        | parking _ hopen => rw [hs] at hopen; cases hopen
    obtain ⟨t,why,ht⟩ := hh hs hp₀
    by_cases he : e.caller? = some t
    · exact absurd hp (not_parked_of_waker h ht he)
    · refine ⟨t,why,?_⟩
      rcases callOf?_step h he with hc | hc
      · rw [hc, ht]
      · rw [hc, ht]
        rfl
  · exact hwake

theorem Run.heralded {n : Nat} {p₀ p : Pool J V} {ms : List (Moment J V)} (h₀ : Fresh n p₀)
    (hr : Run p₀ ms p) : p.Heralded := by
  refine hr.invariant (I := Heralded) ?_ heralded_step
  obtain ⟨-,id,t,rfl⟩ := h₀.eq_blank
  intro hs
  cases hs

/-- While a worker is parked, the queued tasks are no more than the workers that are awake without a
task and the submitters that have yet to signal, and if the pool is stopping then somebody who has
set the flag has yet to wake all workers. -/
theorem no_lost_wakeup {n : Nat} {p₀ p : Pool J V} {ms : List (Moment J V)} (h₀ : Fresh n p₀)
    (hr : Run p₀ ms p) (hp : .parked ∈ p.workers) :
    p.queue.length ≤ p.workers.countP Worker.isAwake + p.callers Call.isNotify ∧
      (p.stopping = true → ∃ t why, p.callOf? t = some (.wake why)) := by
  refine ⟨?_,fun hs => hr.heralded h₀ hs hp⟩
  have hready : p.workers.countP Worker.isReady ≤ p.workers.countP Worker.isAwake :=
    List.countP_mono_left fun s _ h => by cases s <;> first | rfl | cases h
  have hcov := hr.covered h₀ hp
  rw [Queue.length_eq]
  unfold hands at hcov
  omega

/-- One worker is parked while the other one runs a task. A task is queued whose submitter has not
signalled yet, and the pool is stopped by somebody who has not woken the workers yet. -/
theorem no_lost_wakeup_late_signal :
    ∃ (p₀ p : Pool Nat Nat) (ms : List (Moment Nat Nat)),
      Fresh 2 p₀ ∧ Run p₀ ms p ∧ .parked ∈ p.workers ∧ p.stopping = true ∧
        p.workers.countP Worker.isAwake = 0 ∧ p.queue.length = 1 ∧ 1 ≤ p.callers Call.isNotify ∧
        ∃ t why, p.callOf? t = some (.wake why) := by
  have h₀ : Fresh 2 (blank 0 2 (.client 0) : Pool Nat Nat) := ⟨0,"noop",.client 0,_,rfl⟩
  have h : (blank 0 2 (.client 0) : Pool Nat Nat).Leads [.spawn (.client 0) none,
      .spawn (.client 0) none, .pin 0, .pin 1, .claim 1,
      .call (.client 1) (.submit 7 true), .proceed (.client 1), .claim 0,
      .notify (.client 1) (some 1), .claim 1, .call (.client 1) (.submit 8 true),
      .proceed (.client 1), .call (.client 0) .shutdown, .proceed (.client 0)] fun _ p =>
    .parked ∈ p.workers ∧ p.stopping = true ∧ p.workers.countP Worker.isAwake = 0 ∧
      p.queue.length = 1 := by
    decide +kernel
  obtain ⟨ms,p,hr,hp,hs,hawake,hlen⟩ := h.run
  obtain ⟨hle,hwake⟩ := no_lost_wakeup h₀ hr hp
  exact ⟨_,p,ms,h₀,hr,hp,hs,hawake,hlen,by omega,hwake hs⟩

end Pool
end PinnedPool
