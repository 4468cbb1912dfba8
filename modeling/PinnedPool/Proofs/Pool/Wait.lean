import PinnedPool.Proofs.Pool.Building

/-! # Waiting for an empty queue

A thread goes to sleep only where it has just found the queue not empty, and the claim that empties
the queue wakes everybody. So nobody sleeps at an empty queue. Whoever wakes looks again before it
returns, since the queue may have been filled in the meantime.
-/
namespace PinnedPool

variable {J V : Type}

def Call.waits : Call J → Bool
  | await | parked => true
  | _ => false

namespace Pool

def Wakeful (p : Pool J V) : Prop := ∀ t, p.callOf? t = some .parked → p.queue.tasks ≠ []

section Step
variable {p : Pool J V} {e : Event J V} {f : Effect J V} (h : p.step e = some f)
include h

/-- The claim that empties the queue wakes all who wait for that. -/
theorem not_parked_of_emptied (hq : p.queue.tasks ≠ []) (he : f.pool.queue.tasks = [])
    (t : ThreadId) : f.pool.callOf? t ≠ some .parked := by
  cases transition h with
  | @take w task ticket rest =>
    intro hc
    rw [relieve_queue] at he
    have hrel : ∀ q : Pool J V, q.queue.tasks = [] → q.relieve = q.wakeWaiters := fun q hq =>
      if_pos (Queue.isEmpty_iff.mpr hq)
    rw [hrel _ he, callOf?_wakeWaiters] at hc
    obtain ⟨c,-,hc⟩ := Option.map_eq_some_iff.mp hc
    cases c <;> cases hc
  | append =>
    dsimp only [setCall] at he
    rw [Queue.tasks_push] at he
    simp at he
  | finish =>
    rw [finish_queue] at he
    exact absurd he hq
  | call | start | startLast | startRefused | signal | signalNobody | refuse | observe | wait
  | raise | wakeRefused | wakeOwn | wakeOutside | enter | enterGone | joinLeft | joinKilled
  | destroy | joinBurst | giveUp | giveUpBurst | pin | pinKilled | leave | park | stir
  | stirWaiter | free =>
    exact absurd he hq

theorem wakeful_step (hw : p.Wakeful) : f.pool.Wakeful := by
  intro t hc he
  have hq : p.queue.tasks ≠ [] := by
    rcases onset h hc with hold | ho
    · exact hw t hold
    · cases ho with
      | wait _ hne => exact hne
      | @call r _ _ hb => cases r <;> cases hb
  exact not_parked_of_emptied h hq he t hc

theorem submitted_step : p.queue.submitted ≤ f.pool.queue.submitted := by
  cases queueChange h with
  | kept _ _ hq => exact Nat.le_of_eq (by rw [hq])
  | pushed _ _ _ _ hq =>
    rw [hq, Queue.submitted_push]
    exact Nat.le_succ _
  | popped _ _ hp hq =>
    have hsub := (Queue.pop?_eq_some hp).2.2.1
    exact Nat.le_of_eq (by rw [hq, hsub])

/-- A thread waits on until it has seen the queue empty. -/
theorem waits_step {t : ThreadId} {c : Call J} (hc : p.callOf? t = some c) (hw : c.waits = true) :
    (∃ c, f.pool.callOf? t = some c ∧ c.waits = true) ∨
      e = .proceed t ∧ f.reply = some .done ∧ p.queue.tasks = [] ∧ f.pool.queue = p.queue := by
  by_cases he : e.caller? = some t
  · cases transition h with
    | observe _ hempty =>
      cases he
      exact .inr ⟨rfl,rfl,hempty,rfl⟩
    | wait | stirWaiter =>
      cases he
      exact .inl ⟨_,callOf?_setCall_self ..,rfl⟩
    | call hc' =>
      cases he
      rw [hc] at hc'
      cases hc'
    | start hc' | startLast hc' | startRefused _ hc' | signal hc' | signalNobody hc'
    | refuse hc' | append hc' | raise hc' | wakeRefused hc' | wakeOwn hc' | wakeOutside hc'
    | enter hc' | enterGone hc' | joinLeft hc' | joinKilled hc' | destroy hc' | joinBurst hc'
    | giveUp hc' | giveUpBurst hc' =>
      cases he
      rw [hc] at hc'
      cases hc'
      cases hw
    | pin | pinKilled | take | leave | park | finish | stir | free => cases he
  · left
    rcases callOf?_step h he with hs | hs
    · exact ⟨c,hs.trans hc,hw⟩
    · rw [hc] at hs
      exact ⟨c.wakeWaiter,hs,by cases c <;> first | rfl | cases hw⟩

/-- A call that waits returns where it has seen the queue empty, and nowhere else. -/
theorem empty_of_returned {t : ThreadId} {c : Call J} (hc : p.callOf? t = some c)
    (hw : c.waits = true) (he : e.caller? = some t) {r : Reply} (hr : f.reply = some r) :
    r = .done ∧ e = .proceed t ∧ p.queue.tasks = [] ∧ f.pool.queue = p.queue := by
  rcases waits_step h hc hw with ⟨c',hc',-⟩ | ⟨hproceed,hdone,hempty,hqueue⟩
  · obtain ⟨u,-,hu,-,hnone⟩ := callOf?_of_reply h hr
    rw [he] at hu
    cases hu
    rw [hc'] at hnone
    cases hnone
  · rw [hr] at hdone
    exact ⟨Option.some.inj hdone,hproceed,hempty,hqueue⟩

end Step

theorem exists_return {p : Pool J V} {t : ThreadId} (hc : p.callOf? t = some .await)
    (he : p.queue.tasks = []) : ∃ f, p.step (.proceed t) = some f ∧ f.reply = some .done := by
  have hempty := Queue.isEmpty_iff.mpr he
  refine ⟨endWith p t [] .done,?_,rfl⟩
  simp only [step, hc, Option.bind_some, advance, hempty, ↓reduceIte]

theorem Run.wakeful {n : Nat} {p₀ p : Pool J V} {ms : List (Moment J V)} (h₀ : Fresh n p₀)
    (hr : Run p₀ ms p) : p.Wakeful := by
  refine hr.invariant (I := Wakeful) ?_ wakeful_step
  obtain ⟨-,id,b,rfl⟩ := h₀.eq_blank
  intro t hc
  cases (callOf?_blank hc).2

section Later
variable {p q : Pool J V} {ns : List (Moment J V)} (hq : Run p ns q)
include hq

theorem Run.submitted_le : p.queue.submitted ≤ q.queue.submitted :=
  hq.invariant (I := fun q => p.queue.submitted ≤ q.queue.submitted) (Nat.le_refl _)
    fun h hle => Nat.le_trans hle (submitted_step h)

/-- As long as it has not returned, a call that waits goes on waiting. -/
theorem Run.waits {t : ThreadId} {c : Call J} (hc : p.callOf? t = some c) (hw : c.waits = true)
    (hn : ∀ m ∈ ns, m.event.caller? = some t → m.effect.reply = none) :
    ∃ c, q.callOf? t = some c ∧ c.waits = true := by
  refine hq.invariant_of (I := fun q => ∃ c, q.callOf? t = some c ∧ c.waits = true) hn ⟨c,hc,hw⟩ ?_
  rintro p e f h hm ⟨c,hc,hw⟩
  rcases waits_step h hc hw with hgo | ⟨rfl,hdone,-⟩
  · exact hgo
  · have hnone := hm rfl
    rw [hnone] at hdone
    cases hdone

end Later

/-- Nobody sleeps at an empty queue, and whoever waits there returns with its next step. A call that
waits returns only where it sees the queue empty. All that was submitted has been claimed then, so
also all that had been accepted when the call began. -/
theorem wait_barrier {n : Nat} {p₀ p : Pool J V} {ms : List (Moment J V)} (h₀ : Fresh n p₀)
    (hr : Run p₀ ms p) :
    (∀ t, p.callOf? t = some .parked → p.queue.tasks ≠ []) ∧
      (∀ t c, p.callOf? t = some c → c.waits = true → p.queue.tasks = [] →
        ∃ f, p.step (.proceed t) = some f ∧ f.reply = some .done) ∧
      -- the call begins at `p`, and at `q` it has not yet returned
      ∀ t f₀, p.step (.call t .wait) = some f₀ → ∀ ns q, Run f₀.pool ns q →
        (∀ m ∈ ns, m.event.caller? = some t → m.effect.reply = none) →
        ∀ e f r, q.step e = some f → e.caller? = some t → f.reply = some r →
          r = .done ∧ e = .proceed t ∧ q.queue.tasks = [] ∧ f.pool.queue = q.queue ∧
            q.queue.claimed = q.queue.submitted ∧ p.queue.submitted ≤ q.queue.claimed ∧
            ∀ task ∈ accepted ms, ∃ c ∈ claims (ms ++ ⟨p,.call t .wait,f₀⟩ :: ns), c.task = task := by
  have hwake := hr.wakeful h₀
  refine ⟨hwake,?_,?_⟩
  · intro t c hc hw he
    cases c with
    | await => exact exists_return hc he
    | parked => exact absurd he (hwake t hc)
    | build | append | notify | raise | wake | enter | join => cases hw
  · intro t f₀ hbegin ns q hq hn e f r h he hfr
    have hawait : f₀.pool.callOf? t = some .await := by
      cases transition hbegin with
      | call => exact callOf?_setCall_self ..
    obtain ⟨c,hc,hw⟩ := hq.waits hawait rfl hn
    obtain ⟨hdone,hproceed,hempty,hqueue⟩ := empty_of_returned h hc hw he hfr
    have hlater : Run p (⟨p,.call t .wait,f₀⟩ :: ns) q := .cons hbegin hq
    have hall := hr.trans hlater
    have hclaimed : q.queue.claimed = q.queue.submitted := by
      obtain ⟨hle,hseq⟩ := hall.numbered h₀
      have hlen := congrArg List.length hseq
      rw [hempty, List.map_nil, List.length_nil, List.length_range'] at hlen
      omega
    refine ⟨hdone,hproceed,hempty,hqueue,hclaimed,hclaimed ▸ hlater.submitted_le,?_⟩
    intro task ha
    have heq := hall.accepted_eq h₀
    rw [hempty, List.append_nil, accepted_append] at heq
    have hmem : task ∈ (claims (ms ++ ⟨p,.call t .wait,f₀⟩ :: ns)).map Claim.task :=
      heq ▸ List.mem_append_left _ ha
    exact List.mem_map.mp hmem

/-- The queue is emptied and filled again before the waiting thread has looked. It returns when the
second task is claimed too, which is then still running. -/
theorem wait_barrier_refilled :
    ∃ (p₀ p q : Pool Nat Nat) (ms ns : List (Moment Nat Nat)) (f₀ f : Effect Nat Nat),
      Fresh 1 p₀ ∧ Run p₀ ms p ∧ p.step (.call (.client 2) .wait) = some f₀ ∧ Run f₀.pool ns q ∧
        (∃ m ∈ ns, m.before.callOf? (.client 2) = some .await ∧ m.before.queue.submitted = 2 ∧
          m.effect.pool.callOf? (.client 2) = some .parked) ∧
        q.step (.proceed (.client 2)) = some f ∧ f.reply = some .done ∧
        q.workers = [.running ⟨1,8,false⟩ ⟨1,1⟩] ∧ q.queue.claimed = 2 ∧
        ∃ c ∈ claims (ms ++ ⟨p,.call (.client 2) .wait,f₀⟩ :: ns), c.task = ⟨0,7,true⟩ := by
  have h₀ : Fresh 1 (blank 0 1 (.client 0) : Pool Nat Nat) := ⟨0,"noop",.client 0,_,rfl⟩
  have h : (blank 0 1 (.client 0) : Pool Nat Nat).Leads [.spawn (.client 0) none, .pin 0,
      .call (.client 1) (.submit 7 true), .proceed (.client 1), .notify (.client 1) none] fun ms p =>
    ⟨0,7,true⟩ ∈ accepted ms ∧ (p.step (.call (.client 2) .wait)).any (fun f₀ =>
      decide (f₀.pool.Leads [.proceed (.client 2), .claim 0, .call (.client 1) (.submit 8 false),
        .proceed (.client 1), .proceed (.client 2), .finish 0 (.returned 1), .claim 0] fun ns q =>
      (∀ m ∈ ns, m.event.caller? = some (.client 2) → m.effect.reply = none) ∧
        (∃ m ∈ ns, m.before.callOf? (.client 2) = some .await ∧ m.before.queue.submitted = 2 ∧
          m.effect.pool.callOf? (.client 2) = some .parked) ∧
        q.workers = [.running ⟨1,8,false⟩ ⟨1,1⟩] ∧ q.queue.submitted = 2 ∧
        (q.step (.proceed (.client 2))).any (·.reply = some .done) = true)) = true := by
    decide +kernel
  obtain ⟨ms,p,hr,ha,h⟩ := h.run
  obtain ⟨f₀,hbegin,h⟩ := (Option.any_eq_true _ _).mp h
  obtain ⟨ns,q,hq,hn,hrefilled,hw,hsub,hf⟩ := (of_decide_eq_true h).run
  obtain ⟨f,hf,hd⟩ := (Option.any_eq_true _ _).mp hf
  have hd := of_decide_eq_true hd
  obtain ⟨-,-,hwait⟩ := wait_barrier h₀ hr
  obtain ⟨-,-,-,-,hclaimed,-,hall⟩ := hwait _ f₀ hbegin ns q hq hn _ f _ hf rfl hd
  exact ⟨_,p,q,ms,ns,f₀,f,h₀,hr,hbegin,hq,hrefilled,hf,hd,hw,hclaimed.trans hsub,hall _ ha⟩

end Pool
end PinnedPool
