import PinnedPool.Proofs.Batch.Steps
import PinnedPool.Proofs.Pool.Answers

/-! # What a batch does to its pool

The steps that a batch takes in its pool, and what a run of such steps leaves out: every task is
watched, a job ends as its work says with its handle still there, and in a calm batch no worker is
struck. Then the tasks' results and the system's answers can be told from the batch alone.
-/
namespace PinnedPool

variable {J V : Type}

/-- A call of a submission that a batch makes. -/
def Call.submits : Call J → Bool
  | append _ watched => watched
  | notify _ => true
  | _ => false

namespace Pool

/-- Who gets no answer stays in the call. -/
theorem callOf?_of_no_reply {p : Pool J V} {e : Event J V} {f : Effect J V} (h : p.step e = some f)
    {t : ThreadId} (he : e.caller? = some t) (hr : f.reply = none) :
    ∃ c, f.pool.callOf? t = some c := by
  cases transition h with
  | call | startRefused | append | wait | raise | wakeRefused | wakeOutside | enter | joinLeft
  | joinKilled | stirWaiter =>
    cases he
    exact ⟨_,callOf?_setCall_self ..⟩
  | start hc =>
    cases he
    exact ⟨_,hc⟩
  | startLast | signal | signalNobody | refuse | observe | wakeOwn | enterGone | destroy
  | joinBurst | giveUp | giveUpBurst => cases hr
  | pin | pinKilled | take | leave | park | finish | stir | free => cases he

/-- A submission to an open pool puts the job into the queue. -/
theorem append_step {p : Pool J V} {f : Effect J V} {t : ThreadId} {job : J} {watched : Bool}
    (h : p.step (.proceed t) = some f) (hc : p.callOf? t = some (.append job watched))
    (ho : p.stopping = false) :
    f.reply = none ∧ f.pool.callOf? t = some (.notify p.queue.submitted) ∧
      Moment.accepted? ⟨p,.proceed t,f⟩ = some ⟨p.queue.submitted,job,watched⟩ := by
  simp only [step, hc, Option.bind_some, advance, append, ho, Bool.false_eq_true, ↓reduceIte,
    Option.some.injEq] at h
  subst h
  refine ⟨rfl,callOf?_setCall_self ..,?_⟩
  simp [Moment.accepted?, Moment.submission?, hc, number?_setCall, Call.number?, Submission.task?]

theorem notify_step {p : Pool J V} {f : Effect J V} {t : ThreadId} {pick : Option Nat} {seq : Nat}
    (h : p.step (.notify t pick) = some f) (hc : p.callOf? t = some (.notify seq)) :
    f.reply = some (.accepted seq) ∧ f.pool.callOf? t = none := by
  simp only [step, hc] at h
  obtain ⟨q,-,rfl⟩ := Option.map_eq_some_iff.mp h
  refine ⟨rfl,?_⟩
  dsimp only [endWith]
  rw [callOf?_endCall, if_pos rfl]

end Pool

namespace Batch

/-- No worker dies, neither of its pinning nor of a job. -/
structure Calm (b : Batch J V) : Prop where
  pins : ∀ w, (b.controller.apply .performance (some (Log.workerName w)) b.mask).unwound = none
  jobs : ∀ job ticket q, ((b.work job ticket).settle true true).2 ≠ .fatal q

/-- What a batch may do to its pool. -/
inductive Fits (b : Batch J V) (p : Pool J V) : Pool.Event J V → Prop
  | call {t r} (stands : p.Standing) (active : r ≠ .wait) : Fits b p (.call t r)
  | spawn {t} : Fits b p (.spawn t (b.refusal p.workers.length))
  | notify {t pick} : Fits b p (.notify t pick)
  | proceed {t} (watched : ∀ job watched, p.callOf? t = some (.append job watched) → watched = true) :
    Fits b p (.proceed t)
  | pin {w} : Fits b p (.pin w none)
  | claim {w} : Fits b p (.claim w)
  | finish {w task ticket} (running : p.workers[w]? = some (.running task ticket)) :
    Fits b p (.finish w (b.work task.job ticket) true)
  | stir {w} : Fits b p (.stir w)

variable {b : Batch J V}

theorem Fits.timely {m : Pool.Moment J V} (h : Fits b m.before m.event) : m.Timely := by
  obtain ⟨p,e,f⟩ := m
  change Fits b p e at h
  intro hcall
  cases h with
  | call stands => exact stands
  | spawn | notify | proceed | pin | claim | finish | stir => cases hcall

theorem Fits.unblocking {m : Pool.Moment J V} (h : Fits b m.before m.event) : m.Unblocking := by
  obtain ⟨p,e,f⟩ := m
  change Fits b p e at h
  intro t ht
  cases h with
  | @call _ r _ active =>
    cases r with
    | wait => exact absurd rfl active
    | submit | shutdown => cases ht
  | spawn | notify | proceed | pin | claim | finish | stir => cases ht

theorem Fits.harmless {m : Pool.Moment J V} (h : Fits b m.before m.event) : m.Harmless := by
  obtain ⟨p,e,f⟩ := m
  change Fits b p e at h
  cases h with
  | call | spawn | notify | proceed | pin | claim | finish | stir => exact (rfl : _ = true)

theorem Fits.answered {m : Pool.Moment J V} (h : Fits b m.before m.event) :
    m.AnsweredBy b.refusal := by
  obtain ⟨p,e,f⟩ := m
  change Fits b p e at h
  cases h with
  | spawn => exact (rfl : b.refusal p.workers.length = _)
  | call | notify | proceed | pin | claim | finish | stir => trivial

section Runs
variable {n : Nat} {p₀ p : Pool J V} {ms : List (Pool.Moment J V)} (h₀ : Pool.Fresh n p₀)
  (hr : Pool.Run p₀ ms p) (hf : ∀ m ∈ ms, Fits b m.before m.event)
include hf

theorem timely_of_fits : ∀ m ∈ ms, m.Timely := fun m hm => (hf m hm).timely

theorem harmless_of_fits : ∀ m ∈ ms, m.Harmless := fun m hm => (hf m hm).harmless

theorem unblocking_of_fits : ∀ m ∈ ms, m.Unblocking := fun m hm => (hf m hm).unblocking

theorem answered_of_fits : ∀ m ∈ ms, m.AnsweredBy b.refusal := fun m hm => (hf m hm).answered

theorem watched_of_accepted {task : Task J} (ha : task ∈ Pool.accepted ms) : task.watched = true := by
  obtain ⟨⟨p,e,f⟩,hm,ha⟩ := List.mem_filterMap.mp ha
  obtain ⟨t,he,hc⟩ := Pool.append_of_accepted ha
  have hfit := hf _ hm
  dsimp only at hfit
  rw [he] at hfit
  cases hfit with
  | proceed watched => exact watched _ _ hc

include h₀ hr

/-- A job that has ended has ended as its work says, with the ticket of its place in the order of
submission, and its handle was still there. -/
theorem ending_of_completion {c : Pool.Completion J V} (hc : c ∈ Pool.completions ms) :
    c.ending = b.work c.task.job ⟨c.task.seq,c.task.seq⟩ ∧ c.heard = true := by
  induction hr with
  | start => cases hc
  | @step ms p e f hr h ih =>
    rw [Pool.completions_snoc] at hc
    rcases List.mem_append.mp hc with hc | hc
    · exact ih (fun m hm => hf m (List.mem_append_left _ hm)) hc
    · have hc := Option.mem_toList.mp hc
      have hfit : Fits b p e := hf _ (List.mem_append_right _ (List.mem_singleton_self _))
      cases hfit with
      | finish running =>
        simp only [Pool.Moment.completion?, running] at hc
        cases hc
        have hticket := hr.ticket_eq h₀ (hr.claim_of_running h₀ running)
        dsimp only at hticket ⊢
        rw [hticket]
        exact ⟨rfl,rfl⟩
      | call | spawn | notify | proceed | pin | claim | stir => cases hc

theorem not_struck (calm : b.Calm) (w : Nat) : ¬Pool.Struck ms w := by
  rintro ⟨q,⟨⟨p,e,f⟩,hm,he⟩ | ⟨c,hc,-,hq⟩⟩
  · have hfit := hf _ hm
    dsimp only at hfit he
    rw [he] at hfit
    cases hfit
  · obtain ⟨hending,hheard⟩ := ending_of_completion h₀ hr hf hc
    have hwatched := watched_of_accepted hf (hr.mem_accepted_of_completion h₀ hc)
    rw [Pool.Completion.aftermath, hwatched, hheard, hending] at hq
    exact calm.jobs _ _ q hq

/-- So everybody can be joined. -/
theorem joinable_of_calm (calm : b.Calm) : p.Joinable := by
  intro s hs
  cases s with
  | killed q =>
    obtain ⟨w,hw⟩ := List.getElem?_of_mem hs
    exact absurd ⟨q,hr.died_of_killed h₀ hw⟩ (not_struck h₀ hr hf calm w)
  | starting | ready | parked | running | left => rfl

/-- Nobody waits for an empty queue. -/
theorem not_waiting {t : ThreadId} {c : Call J} (hc : p.callOf? t = some c) : c.waits = false := by
  induction hr generalizing t c with
  | start =>
    obtain ⟨-,id,u,rfl⟩ := h₀.eq_blank
    rw [(Pool.callOf?_blank hc).2]
    rfl
  | @step ms p e f hr h ih =>
    have ih := fun {t c} => @ih (fun m hm => hf m (List.mem_append_left _ hm)) t c
    have hfit : Fits b p e := hf _ (List.mem_append_right _ (List.mem_singleton_self _))
    rcases Pool.onset h hc with hold | hon
    · exact ih hold
    · cases hon with
      | @call r _ _ begun =>
        subst begun
        cases hfit with
        | call _ active =>
          cases r with
          | wait => exact absurd rfl active
          | submit | shutdown => rfl
      | wait call | woken parked => cases ih ‹_›
      | refused | append | raise | wakeRefused | wakeOutside | enter | joined => rfl

/-- So a call stands still while another thread steps. -/
theorem callOf?_kept {e : Pool.Event J V} {f : Pool.Effect J V} (h : p.step e = some f)
    {u : ThreadId} (hu : e.caller? ≠ some u) : f.pool.callOf? u = p.callOf? u := by
  rcases Pool.callOf?_step h hu with hs | hs
  · exact hs
  · rw [hs]
    cases hc : p.callOf? u with
    | none => rfl
    | some c =>
      have hwaits := not_waiting h₀ hr hf hc
      cases c with
      | parked => cases hwaits
      | build | append | notify | await | raise | wake | enter | join => rfl

theorem result_of_slot? (calm : b.Calm) (hn : 0 < n) {seq : Nat} {job : J}
    (ha : ⟨seq,job,true⟩ ∈ Pool.accepted ms) {s : Slot V} (hs : p.slot? seq = some s) :
    s.result = (b.work job ⟨seq,seq⟩).yielded := by
  rcases hr.of_slot? h₀ (timely_of_fits hf) ha rfl hs with ⟨c,hc,htask,hres⟩ | ⟨-,-,-,hstruck⟩
  · rw [hres, (ending_of_completion h₀ hr hf hc).1, htask]
  · exact absurd (hstruck 0 hn) (not_struck h₀ hr hf calm 0)

end Runs

end Batch
end PinnedPool
