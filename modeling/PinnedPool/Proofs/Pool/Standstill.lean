import PinnedPool.Proofs.Pool.Outcome
import PinnedPool.Proofs.Pool.Wait
import PinnedPool.Proofs.Pool.Wakeup

/-! # A pool stands still only when its work is done

In a pool that is stuck, no worker is running a task and nobody is joining a worker, so nobody is
after the join handles either. What is left are threads that wait for an empty queue, and they wait
only while it is not empty. As long as one worker is alive it is.
-/
namespace PinnedPool

variable {J V : Type}

/-- Parked or over. -/
def Worker.rests : Worker J → Bool
  | parked | left | killed _ => true
  | starting | ready | running _ _ => false

namespace Pool

/-- A step that some thread takes by itself: neither a new call, nor a wakeup without a signal, nor
the owner's letting go. -/
def Event.isProgress : Event J V → Bool
  | .spawn _ _ | .notify _ _ | .proceed _ | .pin _ _ | .claim _ | .finish _ _ _ => true
  | .call _ _ | .stir _ | .stirWaiter _ | .free => false

/-- No thread can go on by itself. -/
def Stuck (p : Pool J V) : Prop := ∀ e, e.isProgress = true → p.step e = none

theorem exists_signal (p : Pool J V) : ∃ pick, (p.signal pick).isSome = true := by
  by_cases h : p.workers.any Worker.isParked = true
  · obtain ⟨s,hs,hp⟩ := List.any_eq_true.mp h
    obtain ⟨w,hw⟩ := List.getElem?_of_mem hs
    exact ⟨some w,by simp [signal, hw, hp]⟩
  · exact ⟨none,by simp [signal, h]⟩

theorem joinNext_isSome {p : Pool J V} (t : ThreadId) (why : Purpose) {next : Nat}
    (h : ∀ s, p.workers[next]? = some s → s.ended = true) :
    (p.joinNext t why next).isSome = true := by
  unfold joinNext
  cases hw : p.workers[next]? with
  | none => cases why <;> rfl
  | some s =>
    cases s with
    | left => rfl
    | killed q => cases hq : q.burst? <;> cases why <;> simp [hq]
    | starting | ready | parked | running => cases h _ hw

namespace Stuck
variable {p : Pool J V} (hs : p.Stuck)
include hs

theorem not_step {e : Event J V} (he : e.isProgress = true) (h : (p.step e).isSome = true) :
    False := by
  rw [hs e he] at h
  cases h

/-- A worker that is stuck rests, or its task is inside a call of the pool. -/
theorem worker {w : Nat} {s : Worker J} (hw : p.workers[w]? = some s) :
    s.rests = true ∨
      (∃ task ticket, s = .running task ticket) ∧ ∃ c, p.callOf? (.worker p.id w) = some c := by
  cases s with
  | parked | left | killed => exact .inl rfl
  | starting => exact (hs.not_step (e := .pin w) rfl (by simp [step, hw])).elim
  | ready => exact (hs.not_step (e := .claim w) rfl (by simp [step, hw])).elim
  | running task ticket =>
    cases hc : p.callOf? (.worker p.id w) with
    | some c => exact .inr ⟨⟨task,ticket,rfl⟩,c,rfl⟩
    | none =>
      have hf : (p.step (.finish w (.unwound .foreign))).isSome = true := by simp [step, hw, hc]
      exact (hs.not_step rfl hf).elim

/-- A call that is stuck waits for an empty queue, for the join handles, or for a worker's end. -/
theorem call {t : ThreadId} {c : Call J} (hc : p.callOf? t = some c) :
    c = .parked ∨ (c = .enter ∧ ∃ u, p.handles = .held u) ∨
      ∃ why next s, c = .join why next ∧ p.workers[next]? = some s ∧ s.ended = false := by
  have hno : (p.advance t c).isSome = true → False := by
    intro hgo
    exact hs.not_step (e := .proceed t) rfl (by simpa [step, hc] using hgo)
  cases c with
  | parked => exact .inl rfl
  | build => exact (hs.not_step (e := .spawn t none) rfl (by simp [step, hc])).elim
  | notify seq =>
    obtain ⟨pick,hpick⟩ := p.exists_signal
    exact (hs.not_step (e := .notify t pick) rfl (by simpa [step, hc] using hpick)).elim
  | append | raise => exact (hno rfl).elim
  | await =>
    refine (hno ?_).elim
    dsimp only [advance]
    split <;> rfl
  | wake why =>
    refine (hno ?_).elim
    cases why with
    | refused => rfl
    | shutdown =>
      dsimp only [advance]
      split <;> rfl
  | enter =>
    cases hh : p.handles with
    | held u => exact .inr (.inl ⟨rfl,u,rfl⟩)
    | present | gone | lost => exact (hno (by simp [advance, hh])).elim
  | join why next =>
    refine .inr (.inr ?_)
    by_cases hover : ∀ s, p.workers[next]? = some s → s.ended = true
    · exact (hno (joinNext_isSome t why hover)).elim
    · obtain ⟨s,hw,hended⟩ : ∃ s, p.workers[next]? = some s ∧ s.ended = false := by
        simpa using hover
      exact ⟨why,next,s,rfl,hw,hended⟩

end Stuck

/-- Workers at rest and threads that wait for an empty queue are stuck, if it is only these. -/
theorem stuck_of_rest {p : Pool J V} (hw : ∀ s ∈ p.workers, s.rests = true)
    (hc : ∀ t c, p.callOf? t = some c → c = .parked) : p.Stuck := by
  intro e he
  refine Option.eq_none_iff_forall_ne_some.mpr ?_
  intro f h
  cases transition h with
  | call | stir | stirWaiter | free => cases he
  | pin hs | pinKilled _ hs | take hs | leave hs | park hs | finish hs =>
    cases hw _ (List.mem_of_getElem? hs)
  | start ht | startLast ht | startRefused _ ht | signal ht | signalNobody ht | refuse ht
  | append ht | observe ht | wait ht | raise ht | wakeRefused ht | wakeOwn ht | wakeOutside ht
  | enter ht | enterGone ht | joinLeft ht | joinKilled ht | destroy ht | joinBurst ht
  | giveUp ht | giveUpBurst ht =>
    cases hc _ _ ht

/-! ## Who waits -/

/-- The thread that begins to wait for an empty queue. -/
def Event.waiter? : Event J V → Option ThreadId
  | .call t .wait => some t
  | _ => none

/-- No worker of the pool begins to wait for an empty queue. -/
def Moment.Unblocking (m : Moment J V) : Prop :=
  ∀ t ∈ m.event.waiter?, m.before.isWorker t = false

instance (m : Moment J V) : Decidable m.Unblocking := inferInstanceAs (Decidable (∀ t ∈ _, _))

/-- Threads that wait for an empty queue do so while it is not, and none of them is a worker. -/
structure Waiting (p : Pool J V) : Prop where
  nonempty : ∀ t, p.callOf? t = some .parked → p.queue.tasks ≠ []
  outside : ∀ t c, p.callOf? t = some c → c.waits = true → p.isWorker t = false

/-- A pool that does not stand yet is being built, unless it has been given up. -/
def Manned (p : Pool J V) : Prop := p.Standing ∨ p.stopping = true ∨ p.calls ≠ []

section Step
variable {p : Pool J V} {e : Event J V} {f : Effect J V} (h : p.step e = some f)
include h

theorem waiting_step (hu : Moment.Unblocking ⟨p,e,f⟩) (ht : Moment.Timely ⟨p,e,f⟩)
    (hr : p.Reserved) (hw : p.Waiting) : f.pool.Waiting where
  nonempty := wakeful_step h hw.nonempty
  outside := by
    intro t c hc hwaits
    have hfrom : p.Standing → p.isWorker t = false → f.pool.isWorker t = false := by
      intro hs hout
      rw [hr.isWorker_eq h hs]
      exact hout
    rcases onset h hc with hold | ho
    · have hb : c.builds = false := by cases c <;> first | rfl | cases hwaits
      exact hfrom (hr.standing hold hb) (hw.outside t c hold hwaits)
    · cases ho with
      | wait hcall | woken hcall =>
        exact hfrom (hr.standing hcall rfl) (hw.outside t _ hcall rfl)
      | @call r _ _ hb =>
        subst hb
        cases r with
        | wait => exact hfrom (ht rfl) (hu t rfl)
        | submit | shutdown => cases hwaits
      | refused | append | raise | wakeRefused | wakeOutside | enter | joined => cases hwaits

theorem manned_step (hg : p.Guarded) (hm : p.Manned) : f.pool.Manned := by
  have hstands : ∀ {t c}, p.callOf? t = some c → c.builds = false → f.pool.Manned :=
    fun hc hb => .inl (standing_step h (hg.reserved.standing hc hb))
  have hkept : (f.pool.calls = [] → p.calls = []) → f.pool.Manned := by
    intro hcalls
    rcases hm with hs | hs | hne
    · exact .inl (standing_step h hs)
    · exact .inr (.inl (stopping_step h hs))
    · exact .inr (.inr fun hnone => hne (hcalls hnone))
  cases transition h with
  | startLast _ hlast =>
    left
    unfold Standing
    simpa [endWith, endCall] using hlast
  | giveUp hc | giveUpBurst hc =>
    right
    left
    exact hg.raised _ _ hc rfl
  | call | startRefused | append | wait | raise | wakeRefused | wakeOutside | enter | joinLeft
  | joinKilled | stirWaiter => exact .inr (.inr (List.cons_ne_nil _ _))
  | signal hc | signalNobody hc | refuse hc | observe hc | wakeOwn hc | enterGone hc
  | destroy hc | joinBurst hc => exact hstands hc rfl
  | @take w task ticket rest =>
    refine hkept ?_
    rcases relieve_eq_or ({ p with queue := rest }.setWorker w (.running task ticket)) with hq | hq
    · rw [hq]
      exact List.map_eq_nil_iff.mp
    · rw [hq]
      exact fun hnone => hnone
  | finish =>
    refine hkept ?_
    rw [finish_calls]
    exact fun hnone => hnone
  | start | pin | pinKilled | leave | park | stir | free => exact hkept fun hnone => hnone

end Step

section Runs
variable {n : Nat} {p₀ p : Pool J V} {ms : List (Moment J V)} (h₀ : Fresh n p₀) (hr : Run p₀ ms p)
  (ht : ∀ m ∈ ms, m.Timely)
include h₀ hr ht

theorem Run.waiting (hu : ∀ m ∈ ms, m.Unblocking) : p.Waiting := by
  refine hr.invariant_under (I := Waiting) (G := fun m => m.Timely ∧ m.Unblocking)
    (fun m hm => ⟨ht m hm,hu m hm⟩) (fun hr hg => hr.reserved h₀ fun m hm => (hg m hm).1) ?_ ?_
  · obtain ⟨-,id,b,rfl⟩ := h₀.eq_blank
    constructor
    · intro t hc
      cases (callOf?_blank hc).2
    · intro t c hc hwaits
      rw [(callOf?_blank hc).2] at hwaits
      cases hwaits
  · rintro p e f h ⟨htime,hunb⟩ hres hw
    exact waiting_step h hunb htime hres hw

theorem Run.manned : p.Manned := by
  refine hr.invariant_under (I := Manned) ht (fun hr ht => hr.guarded h₀ ht) ?_ ?_
  · obtain ⟨-,id,b,rfl⟩ := h₀.eq_blank
    exact .inr (.inr (List.cons_ne_nil _ _))
  · intro p e f h _ hg hm
    exact manned_step h hg hm

end Runs

/-! ## What is stuck is done -/

section Standstill
variable {n : Nat} {p₀ p : Pool J V} {ms : List (Moment J V)} (h₀ : Fresh n p₀) (hr : Run p₀ ms p)
  (ht : ∀ m ∈ ms, m.Timely) (hs : p.Stuck) (hu : ∀ m ∈ ms, m.Unblocking)
include h₀ hr ht hs hu

theorem Run.rests_of_stuck {s : Worker J} (hm : s ∈ p.workers) : s.rests = true := by
  have hg := hr.guarded h₀ ht
  obtain ⟨w,hw⟩ := List.getElem?_of_mem hm
  rcases hs.worker hw with hrests | ⟨⟨task,ticket,rfl⟩,c,hc⟩
  · exact hrests
  · -- a task that is inside a call is not stuck there
    have hown : p.isWorker (.worker p.id w) = true := by
      simpa [isWorker] using (List.getElem?_eq_some_iff.mp hw).1
    have hclaim := hr.claim_of_running h₀ hw
    have hstands := hr.standing_of_accepted h₀ ht (hr.mem_accepted_of_claim h₀ hclaim)
    have houtside : p.isWorker (.worker p.id w) = false := by
      rcases hs.call hc with rfl | ⟨rfl,-⟩ | ⟨why,next,s,rfl,-,-⟩
      · exact (hr.waiting h₀ ht hu).outside _ _ hc rfl
      · exact hg.outside _ _ hc rfl
      · cases why with
        | shutdown => exact hg.outside _ _ hc rfl
        | refused => exact absurd hstands (hg.reserved.not_standing hc rfl)
    rw [hown] at houtside
    cases houtside

theorem Run.parked_of_stuck {t : ThreadId} {c : Call J} (hc : p.callOf? t = some c) :
    c = .parked := by
  have hg := hr.guarded h₀ ht
  have hjoin : ∀ u why next, p.callOf? u ≠ some (.join why next) := by
    intro u why next hcu
    obtain ⟨s,hw,hended⟩ : ∃ s, p.workers[next]? = some s ∧ s.ended = false := by
      rcases hs.call hcu with h | ⟨h,-⟩ | ⟨_,_,s,h,hw,hended⟩
      · cases h
      · cases h
      · cases h
        exact ⟨s,hw,hended⟩
    -- the worker that is being joined is parked, and whoever is still to wake it is not stuck
    have hm := List.mem_of_getElem? hw
    have hrests := hr.rests_of_stuck h₀ ht hs hu hm
    obtain rfl : s = .parked := by
      cases s with
      | parked => rfl
      | left | killed => cases hended
      | starting | ready | running => cases hrests
    obtain ⟨v,why',hwake⟩ := hr.heralded h₀ (hg.raised u _ hcu rfl) hm
    rcases hs.call hwake with h | ⟨h,-⟩ | ⟨_,_,_,h,-⟩ <;> cases h
  rcases hs.call hc with rfl | ⟨-,u,hheld⟩ | ⟨why,next,-,rfl,-⟩
  · rfl
  · obtain ⟨next,hcu⟩ := hg.holding u hheld
    exact absurd hcu (hjoin u _ next)
  · exact absurd hc (hjoin t why next)

theorem Run.hands_of_stuck : p.hands = 0 := by
  have hready : p.workers.countP Worker.isReady = 0 := by
    refine List.countP_eq_zero.mpr ?_
    intro s hm
    have hrests := hr.rests_of_stuck h₀ ht hs hu hm
    cases s with
    | ready => cases hrests
    | parked | left | killed | starting | running => simp [Worker.isReady]
  have hnotify : p.callers Call.isNotify = 0 := by
    refine List.countP_eq_zero.mpr ?_
    rintro ⟨t,c⟩ hm
    rw [hr.parked_of_stuck h₀ ht hs hu ((hr.distinct h₀).callOf?_of_mem hm)]
    simp [Call.isNotify]
  unfold hands
  omega

/-- A worker that nothing has struck sees to it that the queue is empty. -/
theorem Run.empty_of_stuck (hlive : ∃ w < n, ¬Struck ms w) : p.queue.tasks = [] := by
  cases hq : p.queue.tasks with
  | nil => rfl
  | cons task rest =>
    have hmem : task ∈ p.queue.tasks := by simp [hq]
    have hstands := hr.standing_of_accepted h₀ ht (hr.mem_accepted_of_queued h₀ hmem)
    obtain ⟨w,hw,hstruck⟩ := hlive
    rw [← hr.length_eq h₀ ht hstands] at hw
    have hm : p.workers[w] ∈ p.workers := List.getElem_mem hw
    have hrests := hr.rests_of_stuck h₀ ht hs hu hm
    cases hstate : p.workers[w] with
    | parked =>
      have hcov := hr.covered h₀ (hstate ▸ hm)
      rw [hr.hands_of_stuck h₀ ht hs hu, hq] at hcov
      cases hcov
    | left =>
      have hempty := (hr.drained h₀ (hstate ▸ hm)).2
      rw [hq] at hempty
      cases hempty
    | killed q =>
      have hget := List.getElem?_eq_some_iff.mpr ⟨hw,hstate⟩
      exact absurd ⟨q,hr.died_of_killed h₀ hget⟩ hstruck
    | starting | ready | running =>
      rw [hstate] at hrests
      cases hrests

theorem Run.calls_of_stuck (he : p.queue.tasks = []) : p.calls = [] := by
  refine List.eq_nil_iff_forall_not_mem.mpr ?_
  rintro ⟨t,c⟩ hm
  have hc := (hr.distinct h₀).callOf?_of_mem hm
  obtain rfl := hr.parked_of_stuck h₀ ht hs hu hc
  exact (hr.waiting h₀ ht hu).nonempty t hc he

theorem Run.ended_of_stuck (he : p.queue.tasks = []) {task : Task J} (ha : task ∈ accepted ms) :
    ended ms task.seq = 1 := by
  have hplace := (hr.conserved h₀).placed _ (hr.seq_lt h₀ ha)
  have hhand : p.inHand task.seq = 0 := by
    refine inHand_eq_zero ?_ _
    intro s hm
    have hrests := hr.rests_of_stuck h₀ ht hs hu hm
    cases s with
    | running => cases hrests
    | starting | ready | parked | left | killed => rfl
  have hqueue : p.queued task.seq = 0 := by simp [queued, he]
  omega

theorem Run.deserted_of_stuck (hcalls : p.calls = []) (hstop : p.stopping = true) :
    p.deserted = true := by
  refine List.all_eq_true.mpr ?_
  intro s hm
  have hrests := hr.rests_of_stuck h₀ ht hs hu hm
  cases s with
  | left | killed => rfl
  | parked =>
    obtain ⟨t,why,hwake⟩ := hr.heralded h₀ hstop hm
    rw [callOf?, hcalls] at hwake
    cases hwake
  | starting | ready | running => cases hrests

theorem Run.parked_or_killed_of_stuck (hcalls : p.calls = []) (hopen : p.stopping = false) {w : Nat}
    (hw : w < n) : p.workers[w]? = some .parked ∨
      ∃ q, p.workers[w]? = some (.killed q) ∧ DiedOf ms w q := by
  have hstands : p.Standing := by
    rcases hr.manned h₀ ht with h | h | h
    · exact h
    · rw [hopen] at h
      cases h
    · exact absurd hcalls h
  rw [← hr.length_eq h₀ ht hstands] at hw
  have hm : p.workers[w] ∈ p.workers := List.getElem_mem hw
  have hrests := hr.rests_of_stuck h₀ ht hs hu hm
  cases hstate : p.workers[w] with
  | parked => exact .inl (List.getElem?_eq_some_iff.mpr ⟨hw,hstate⟩)
  | killed q =>
    have hget := List.getElem?_eq_some_iff.mpr ⟨hw,hstate⟩
    exact .inr ⟨q,hget,hr.died_of_killed h₀ hget⟩
  | left =>
    have hleft := (hr.drained h₀ (hstate ▸ hm)).1
    rw [hopen] at hleft
    cases hleft
  | starting | ready | running =>
    rw [hstate] at hrests
    cases hrests

end Standstill

theorem Run.slot?_of_ended {n : Nat} {p₀ p : Pool J V} {ms : List (Moment J V)} (h₀ : Fresh n p₀)
    (hr : Run p₀ ms p) {task : Task J} (ha : task ∈ accepted ms) (hw : task.watched = true)
    (he : 0 < ended ms task.seq) : ∃ s, p.slot? task.seq = some s := by
  obtain ⟨c,hc,hseq⟩ := List.countP_pos_iff.mp he
  obtain rfl := hr.accepted_unique h₀ (hr.mem_accepted_of_completion h₀ hc) ha (eq_of_beq hseq)
  obtain ⟨s,hs,-⟩ := hr.slot?_of_completion h₀ hc hw
  exact ⟨s,hs⟩

theorem Run.not_joinable_of_unwound {p₀ p : Pool J V} {ms : List (Moment J V)} (hr : Run p₀ ms p)
    {m : Moment J V} (hm : m ∈ ms) {r : Payload} (hu : m.effect.reply = some (.unwound r)) :
    ¬p.Joinable := by
  induction hr with
  | start => cases hm
  | step hr h ih =>
    refine not_joinable_step h ?_
    rcases List.mem_append.mp hm with hm | hm
    · exact ih hm
    · rw [List.mem_singleton.mp hm] at hu
      exact Pool.not_joinable_of_unwound h hu

/-- If nobody can go on, with whoever is waiting for a result counted in, and one worker has not been
struck, then all that was accepted has been run and nobody is inside a call or waits for a result. If
the pool is stopping all of its workers are over, and otherwise they are parked, but for those that
have died. No call has ended in a panic if what they have died of can be dropped. -/
theorem standstill {n : Nat} {p₀ p : Pool J V} {ms : List (Moment J V)} (h₀ : Fresh n p₀)
    (hr : Run p₀ ms p) (ht : ∀ m ∈ ms, m.Timely) (hu : ∀ m ∈ ms, m.Unblocking)
    (joining : List (ThreadId × Nat))
    (hj : ∀ j ∈ joining, ∃ task ∈ accepted ms, task.watched = true ∧ task.seq = j.2)
    (hs : p.Stuck) (hsj : ∀ j ∈ joining, p.slot? j.2 = none) (hlive : ∃ w < n, ¬Struck ms w) :
    p.queue.tasks = [] ∧ (∀ task ∈ accepted ms, ended ms task.seq = 1) ∧ p.calls = [] ∧
      joining = [] ∧
      (p.stopping = false ∧ (∀ w < n, p.workers[w]? = some .parked ∨
          ∃ q, p.workers[w]? = some (.killed q) ∧ DiedOf ms w q) ∨
        p.stopping = true ∧ p.deserted = true) ∧
      (p.Joinable → ∀ m ∈ ms, ∀ r, m.effect.reply ≠ some (.unwound r)) := by
  have hempty := hr.empty_of_stuck h₀ ht hs hu hlive
  have hcalls := hr.calls_of_stuck h₀ ht hs hu hempty
  have hended : ∀ task ∈ accepted ms, ended ms task.seq = 1 :=
    fun _ ha => hr.ended_of_stuck h₀ ht hs hu hempty ha
  refine ⟨hempty,hended,hcalls,?_,?_,fun hj m hm r hu => hr.not_joinable_of_unwound hm hu hj⟩
  · refine List.eq_nil_iff_forall_not_mem.mpr ?_
    intro j hm
    obtain ⟨task,ha,hw,hseq⟩ := hj j hm
    have hone := hended task ha
    obtain ⟨s,hslot⟩ := hr.slot?_of_ended h₀ ha hw (by omega)
    have hnone := hsj j hm
    rw [← hseq, hslot] at hnone
    cases hnone
  · cases hstop : p.stopping with
    | false =>
      exact .inl ⟨rfl,fun w hw => hr.parked_or_killed_of_stuck h₀ ht hs hu hcalls hstop hw⟩
    | true => exact .inr ⟨rfl,hr.deserted_of_stuck h₀ ht hs hu hcalls hstop⟩

/-- One worker dies of the first task. The other one runs the second, which shuts the pool down from
inside while the owner is doing so, and a third thread has waited for the empty queue. -/
theorem standstill_after_shutdown :
    ∃ (p₀ p : Pool Nat Nat) (ms : List (Moment Nat Nat)),
      Fresh 2 p₀ ∧ Run p₀ ms p ∧ (∀ m ∈ ms, m.Timely) ∧ (∀ m ∈ ms, m.Unblocking) ∧ p.Stuck ∧
        Struck ms 1 ∧ ¬Struck ms 0 ∧ (∃ m ∈ ms, m.effect.pool.callOf? (.client 2) = some .parked) ∧
        p.stopping = true ∧ p.deserted = true ∧ p.calls = [] ∧ p.queue.tasks = [] ∧
        (accepted ms).map Task.seq = [0, 1] ∧ ∀ task ∈ accepted ms, ended ms task.seq = 1 := by
  have h₀ : Fresh 2 (blank 0 2 (.client 0) : Pool Nat Nat) := ⟨0,"noop",.client 0,_,rfl⟩
  have h : (blank 0 2 (.client 0) : Pool Nat Nat).Leads [.spawn (.client 0) none,
      .spawn (.client 0) none, .pin 0, .pin 1, .call (.client 1) (.submit 7 false),
      .proceed (.client 1), .notify (.client 1) none, .claim 1,
      .call (.client 1) (.submit 8 true), .proceed (.client 1), .notify (.client 1) none,
      .call (.client 2) .wait, .proceed (.client 2), .finish 1 (.unwound (.fuse "dead")),
      .call (.client 0) .shutdown, .proceed (.client 0), .proceed (.client 0),
      .proceed (.client 0), .claim 0, .proceed (.client 2), .call (.worker 0 0) .shutdown,
      .proceed (.worker 0 0), .proceed (.worker 0 0), .finish 0 (.returned 5), .claim 0,
      .proceed (.client 0), .proceed (.client 0), .proceed (.client 0)] fun ms p =>
    (∀ m ∈ ms, m.Timely) ∧ (∀ m ∈ ms, m.Unblocking) ∧ (∀ s ∈ p.workers, s.rests = true) ∧
      p.calls = [] ∧ p.stopping = true ∧ Struck ms 1 ∧ ¬Struck ms 0 ∧
      (∃ m ∈ ms, m.effect.pool.callOf? (.client 2) = some .parked) ∧
      (accepted ms).map Task.seq = [0, 1] := by
    decide +kernel
  obtain ⟨ms,p,hr,ht,hu,hw,hc,hstop,hstruck,hlive,hwaits,ha⟩ := h.run
  have hs : p.Stuck := by
    refine stuck_of_rest hw ?_
    intro t c h
    rw [callOf?, hc] at h
    cases h
  obtain ⟨hempty,hended,hcalls,-,hover,-⟩ := standstill h₀ hr ht hu [] (by simp) hs (by simp)
    ⟨0,by decide,hlive⟩
  have hd : p.deserted = true := by
    rcases hover with ⟨hopen,-⟩ | ⟨-,hd⟩
    · rw [hstop] at hopen
      cases hopen
    · exact hd
  exact ⟨_,p,ms,h₀,hr,ht,hu,hs,hstruck,hlive,hwaits,hstop,hd,hcalls,hempty,ha,hended⟩

/-- The only worker dies of the first task, and nobody will ever take the second one. A thread waits
for its result and another one for the empty queue. -/
theorem stuck_behind_dead_worker :
    ∃ (p₀ p : Pool Nat Nat) (ms : List (Moment Nat Nat)) (joining : List (ThreadId × Nat)),
      Fresh 1 p₀ ∧ Run p₀ ms p ∧ (∀ m ∈ ms, m.Timely) ∧ (∀ m ∈ ms, m.Unblocking) ∧
        (∀ j ∈ joining, ∃ task ∈ accepted ms, task.watched = true ∧ task.seq = j.2) ∧ p.Stuck ∧
        (∀ j ∈ joining, p.slot? j.2 = none) ∧ joining = [(.client 1,1)] ∧
        p.callOf? (.client 2) = some .parked ∧ p.stopping = false ∧ p.pending = 1 := by
  have h₀ : Fresh 1 (blank 0 1 (.client 0) : Pool Nat Nat) := ⟨0,"noop",.client 0,_,rfl⟩
  have h : (blank 0 1 (.client 0) : Pool Nat Nat).Leads [.spawn (.client 0) none, .pin 0,
      .call (.client 1) (.submit 7 false), .proceed (.client 1), .notify (.client 1) none,
      .claim 0, .finish 0 (.unwound (.fuse "dead")), .call (.client 1) (.submit 8 true),
      .proceed (.client 1), .notify (.client 1) none, .call (.client 2) .wait,
      .proceed (.client 2)] fun ms p =>
    (∀ m ∈ ms, m.Timely) ∧ (∀ m ∈ ms, m.Unblocking) ∧ (∀ s ∈ p.workers, s.rests = true) ∧
      p.calls = [(.client 2,.parked)] ∧ p.stopping = false ∧ p.pending = 1 ∧
      ⟨1,8,true⟩ ∈ accepted ms ∧ (p.slot? 1).isNone = true := by
    decide +kernel
  obtain ⟨ms,p,hr,ht,hu,hw,hc,hstop,hpend,ha,hslot⟩ := h.run
  have hs : p.Stuck := by
    refine stuck_of_rest hw ?_
    intro t c h
    rw [callOf?, hc, lookup_cons_ite] at h
    split at h <;> cases h
    rfl
  refine ⟨_,p,ms,[(.client 1,1)],h₀,hr,ht,hu,?_,hs,?_,rfl,?_,hstop,hpend⟩
  · intro j hj
    obtain rfl := List.mem_singleton.mp hj
    exact ⟨_,ha,rfl,rfl⟩
  · intro j hj
    obtain rfl := List.mem_singleton.mp hj
    exact Option.isNone_iff_eq_none.mp hslot
  · rw [callOf?, hc]
    rfl

end Pool
end PinnedPool
