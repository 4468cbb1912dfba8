import PinnedPool.Proofs.Batch.Measure

/-! # A batch comes to its end

As long as a batch is neither closed nor failed, some thread can move by itself: if none could, the
pool would be stuck, so its work would be done, and whoever is served could go on. The schedule that
is carried out finds such a move, so it ends where every schedule ends.
-/
namespace PinnedPool.Batch

variable {J V : Type}

/-- No thread can move by itself. -/
def Rests (b : Batch J V) (s : State J V) : Prop := ∀ v, v.stirs = false → b.step s v = none

/-- The main thread is done. -/
def Stage.over : Stage → Bool
  | failed _ | closed | unwound _ => true
  | building | serving | closing => false

/-! ## Which moves can be taken -/

section Moves
variable {b : Batch J V} {s : State J V}

theorem step_main_building (hstage : s.stage = .building) :
    b.step s .main = none ↔ s.pool.step (b.building s.pool) = none := by
  simp only [step, stepMain, hstage, onPool, Option.map_eq_none_iff]
  rfl

theorem step_main_serving (hstage : s.stage = .serving)
    (hall : ∀ u ∈ s.submitters, u.finished = true) :
    b.step s .main = none ↔ s.pool.step (.call mainThread .shutdown) = none := by
  have hall' : s.submitters.all Submitter.finished = true := List.all_eq_true.mpr hall
  simp only [step, stepMain, hstage, hall', onPool, Option.map_eq_none_iff, ↓reduceIte]

theorem step_main_closing (hstage : s.stage = .closing) :
    b.step s .main = none ↔ s.pool.step (.proceed mainThread) = none := by
  simp only [step, stepMain, hstage, onPool, Option.map_eq_none_iff]

variable {i : Nat} {pick : Option Nat} (hstage : s.stage = .serving)
include hstage

theorem step_submitter_call {u : Submitter J V} (hi : s.submitters[i]? = some u) {c : Call J}
    (hcall : s.pool.callOf? (submitterThread i) = some c) :
    b.step s (.submitter i pick) = none ↔
      s.pool.step (c.next (submitterThread i) pick) = none := by
  simp only [step, stepSubmitter, hstage, hi, hcall, onPool, Option.map_eq_none_iff]
  cases c <;> rfl

theorem step_submit (hcall : s.pool.callOf? (submitterThread i) = none) {job : J} {jobs : List J}
    {gathered : List (Except PoolError Nat)}
    (hi : s.submitters[i]? = some (.submitting (job :: jobs) gathered)) :
    b.step s (.submitter i pick) ≠ none := by
  simp [step, stepSubmitter, hstage, hi, hcall, onPool, Pool.step]

theorem step_turn (hcall : s.pool.callOf? (submitterThread i) = none)
    {gathered : List (Except PoolError Nat)}
    (hi : s.submitters[i]? = some (.submitting [] gathered)) :
    b.step s (.submitter i pick) ≠ none := by
  simp [step, stepSubmitter, hstage, hi, hcall]

theorem step_join (hcall : s.pool.callOf? (submitterThread i) = none) {seq : Nat}
    {outcomes : List (Except PoolError Nat)} {gathered : List (Except PoolError V)}
    (hi : s.submitters[i]? = some (.joining (.ok seq :: outcomes) gathered)) {slot : Slot V}
    (hslot : s.pool.slot? seq = some slot) : b.step s (.submitter i pick) ≠ none := by
  simp [step, stepSubmitter, hstage, hi, hcall, join_channel, hslot]

end Moves

/-- A worker that is neither parked nor over can move, unless its job is inside a call. -/
theorem step_worker {b : Batch J V} {s : State J V} {w : Nat} {a : Worker J}
    (hw : s.pool.workers[w]? = some a) (ha : movable a = true)
    (hcall : s.pool.callOf? (.worker s.pool.id w) = none) : b.step s (.worker w) ≠ none := by
  cases a with
  | starting =>
    cases hu : (b.controller.apply .performance (some (Log.workerName w)) b.mask).unwound <;>
      simp [step, stepWorker, hw, onPool, Pool.step, hu]
  | ready => simp [step, stepWorker, hw, onPool, Pool.step]
  | running => simp [step, stepWorker, hw, onPool, Pool.step, hcall]
  | parked | left | killed => cases ha

namespace Course
variable {b : Batch J V} {n : Nat} {jobs : List (List J)} {ms : List (Pool.Moment J V)}
  {s : State J V} (hc : Course b n jobs ms s)
include hc

/-! ## A batch that rests is over -/

theorem worker_idle (k w : Nat) : s.pool.callOf? (.worker k w) = none := by
  refine Option.eq_none_iff_forall_ne_some.mpr fun c hcall => ?_
  rcases hc.callers _ c hcall with h | ⟨i,-,h⟩ <;> cases h

theorem stage_of_main (hover : s.stage.over = false) {c : Call J}
    (hcall : s.pool.callOf? mainThread = some c) :
    s.stage = .building ∧ c.builds = true ∨ s.stage = .closing ∧ c.shuts = true := by
  have hs := hc.staged
  generalize s.stage = stage at hs hover ⊢
  cases hs with
  | building call builds =>
    rw [call] at hcall
    cases hcall
    exact .inl ⟨rfl,builds⟩
  | closing call shuts =>
    rw [call] at hcall
    cases hcall
    exact .inr ⟨rfl,shuts⟩
  | serving idle =>
    rw [idle] at hcall
    cases hcall
  | failed | closed => cases hover

/-- Nobody submits but while the pool serves. -/
theorem stage_of_submitter (hover : s.stage.over = false) {i : Nat} {c : Call J}
    (hcall : s.pool.callOf? (submitterThread i) = some c) :
    s.stage = .serving ∧ ∃ u, s.submitters[i]? = some u := by
  have hi := hc.caller_lt hcall
  refine ⟨?_,_,List.getElem?_eq_getElem hi⟩
  obtain ⟨js,hserved⟩ := hc.exists_served (List.getElem?_eq_getElem hi)
  have hs := hc.staged
  generalize s.stage = stage at hs hover ⊢
  cases hs with
  | serving => rfl
  | building call builds =>
    exact absurd (hc.guarded.reserved.alone call builds hcall) (submitterThread_ne_main i)
  | closing _ _ finished =>
    have hfinished := finished _ (List.getElem_mem hi)
    rw [hcall] at hserved
    generalize s.submitters[i] = u at hserved hfinished
    cases hserved <;> cases hfinished
  | failed | closed => cases hover

/-- What the pool could do, some thread of the batch could do. -/
theorem stuck_of_rests (hover : s.stage.over = false) (hr : Rests b s) : s.pool.Stuck := by
  have hworker : ∀ {w a}, s.pool.workers[w]? = some a → movable a = true → False :=
    fun hw ha => step_worker hw ha (hc.worker_idle _ _) (hr (.worker _) rfl)
  intro e he
  refine Option.eq_none_iff_forall_ne_some.mpr fun f h => ?_
  cases e with
  | spawn t refusal =>
    have hcall := Pool.call_of_spawn h
    obtain rfl := hc.eq_main hcall rfl
    rcases hc.stage_of_main hover hcall with ⟨hstage,-⟩ | ⟨-,hshuts⟩
    · have hno := (step_main_building hstage).mp (hr .main rfl)
      simp [building, hcall, Pool.step] at hno
    · cases hshuts
  | notify t pick =>
    obtain ⟨seq,hcall⟩ : ∃ seq, s.pool.callOf? t = some (.notify seq) := by
      cases Pool.transition h <;> exact ⟨_,‹_›⟩
    rcases hc.callers t _ hcall with rfl | ⟨i,-,rfl⟩
    · rcases hc.stage_of_main hover hcall with ⟨-,hno⟩ | ⟨-,hno⟩ <;> cases hno
    · obtain ⟨hstage,u,hu⟩ := hc.stage_of_submitter hover hcall
      have hno := (step_submitter_call hstage hu hcall).mp (hr (.submitter i pick) rfl)
      rw [Call.next, h] at hno
      cases hno
  | proceed t =>
    obtain ⟨c,hcall,hadvance⟩ := Option.bind_eq_some_iff.mp h
    rcases hc.callers t c hcall with rfl | ⟨i,-,rfl⟩
    · rcases hc.stage_of_main hover hcall with ⟨hstage,-⟩ | ⟨hstage,-⟩
      · have hno := (step_main_building hstage).mp (hr .main rfl)
        cases c with
        | build => cases hadvance
        | append | notify | await | parked | raise | wake | enter | join =>
          simp [building, hcall, h] at hno
      · rw [(step_main_closing hstage).mp (hr .main rfl)] at h
        cases h
    · obtain ⟨hstage,u,hu⟩ := hc.stage_of_submitter hover hcall
      have hno := (step_submitter_call hstage hu hcall).mp (hr (.submitter i none) rfl)
      have hsubmits := hc.submits hcall
      cases c with
      | append =>
        have hnext : s.pool.step (.proceed (submitterThread i)) = none := hno
        rw [h] at hnext
        cases hnext
      | notify => cases hadvance
      | build | await | parked | raise | wake | enter | join => cases hsubmits
  | pin | claim | finish =>
    cases Pool.transition h <;> exact hworker ‹_› rfl
  | call | stir | stirWaiter | free => cases he

theorem over_of_rests (hr : Rests b s) : s.stage.over = true := by
  refine eq_true_of_ne_false fun hover => ?_
  have hstuck := hc.stuck_of_rests hover hr
  have hlive : ∃ w < n, ¬Pool.Struck ms w :=
    ⟨0,hc.fresh.eq_blank.1,not_struck hc.fresh hc.run hc.fits hc.calm 0⟩
  have hquiet := unblocking_of_fits hc.fits
  have hempty := hc.run.empty_of_stuck hc.fresh hc.timely hstuck hquiet hlive
  have hcalls := hc.run.calls_of_stuck hc.fresh hc.timely hstuck hquiet hempty
  have hidle : ∀ t, s.pool.callOf? t = none := by
    intro t
    rw [Pool.callOf?, hcalls]
    rfl
  have hstage : s.stage = .serving := by
    have hs := hc.staged
    generalize s.stage = stage at hs hover ⊢
    cases hs with
    | serving => rfl
    | building call | closing call =>
      rw [hidle] at call
      cases call
    | failed | closed => cases hover
  by_cases hall : ∀ u ∈ s.submitters, u.finished = true
  · have hno := (step_main_serving hstage hall).mp (hr .main rfl)
    simp [Pool.step, hidle] at hno
  · -- a submitter that is not finished has a job to submit, or one to join that has ended
    obtain ⟨u,hmem,hu⟩ : ∃ u ∈ s.submitters, u.finished = false := by simpa using hall
    obtain ⟨i,hi⟩ := List.getElem?_of_mem hmem
    have hno := hr (.submitter i none) rfl
    obtain ⟨js,hserved⟩ := hc.exists_served hi
    rw [hidle] at hserved
    cases hserved with
    | @submitting done rest gathered taken =>
      cases rest with
      | nil => exact step_turn hstage (hidle _) hi hno
      | cons => exact step_submit hstage (hidle _) hi hno
    | joining yielded taken =>
      cases taken with
      | nil => cases hu
      | cons htaken =>
        obtain ⟨seq,rfl,ha⟩ := htaken
        have hended := hc.run.ended_of_stuck hc.fresh hc.timely hstuck hquiet hempty ha
        obtain ⟨slot,hslot⟩ := hc.run.slot?_of_ended hc.fresh ha rfl (by omega)
        exact step_join hstage (hidle _) hi hslot hno

end Course

/-! ## The schedule that is carried out -/

section Schedule
variable {b : Batch J V} {s s' : State J V}

theorem stepSubmitters_eq_some {k : Nat} {us : List (Submitter J V)}
    (h : b.stepSubmitters s k us = some s') :
    ∃ i, b.step s (.submitter i s.pool.firstParked) = some s' := by
  induction us generalizing k with
  | nil => cases h
  | cons u us ih =>
    rw [stepSubmitters] at h
    split at h
    · exact ih h
    · rcases Option.or_eq_some_iff.mp (Option.orElse_eq_or.symm.trans h) with h | ⟨-,h⟩
      · exact ⟨k,h⟩
      · exact ih h

theorem stepSubmitters_eq_none {k i : Nat} {us : List (Submitter J V)} {u : Submitter J V}
    (h : b.stepSubmitters s k us = none) (hi : us[i]? = some u) (hu : u.finished = false) :
    b.step s (.submitter (k + i) s.pool.firstParked) = none := by
  induction us generalizing k i with
  | nil => cases hi
  | cons v us ih =>
    rw [stepSubmitters] at h
    cases i with
    | zero =>
      obtain rfl : v = u := by simpa using hi
      rw [hu] at h
      exact (Option.or_eq_none_iff.mp (Option.orElse_eq_or.symm.trans h)).1
    | succ i =>
      have hrest : b.stepSubmitters s (k + 1) us = none := by
        split at h
        · exact h
        · exact (Option.or_eq_none_iff.mp (Option.orElse_eq_or.symm.trans h)).2
      have hstep := ih hrest (by simpa using hi)
      rwa [Nat.add_assoc, Nat.add_comm 1 i] at hstep

theorem advance_eq (b : Batch J V) (s : State J V) :
    b.advance s = ((s.pool.workers.findIdx? movable).bind fun w => b.step s (.worker w)).or
      ((b.stepSubmitters s 0 s.submitters).or (b.step s .main)) :=
  Option.orElse_eq_or.trans (congrArg (Option.or _) Option.orElse_eq_or)

theorem move_of_advance (h : b.advance s = some s') :
    ∃ v, v.stirs = false ∧ b.step s v = some s' := by
  rw [advance_eq] at h
  rcases Option.or_eq_some_iff.mp h with h | ⟨-,h⟩
  · obtain ⟨w,-,h⟩ := Option.bind_eq_some_iff.mp h
    exact ⟨.worker w,rfl,h⟩
  · rcases Option.or_eq_some_iff.mp h with h | ⟨-,h⟩
    · obtain ⟨i,h⟩ := stepSubmitters_eq_some h
      exact ⟨.submitter i _,rfl,h⟩
    · exact ⟨.main,rfl,h⟩

/-- Whoever has to wake a worker can wake the first that is parked. -/
theorem signal_firstParked (p : Pool J V) : p.signal p.firstParked ≠ none := by
  unfold Pool.firstParked
  cases h : p.workers.findIdx? Worker.isParked with
  | none =>
    have hnone := List.findIdx?_eq_none_iff.mp h
    simpa [Pool.signal] using hnone
  | some w =>
    obtain ⟨hlt,hparked,-⟩ := List.findIdx?_eq_some_iff_getElem.mp h
    simp [Pool.signal, List.getElem?_eq_getElem hlt, hparked]

theorem submitter_firstParked {i : Nat} {pick : Option Nat}
    (h : b.step s (.submitter i pick) = some s') :
    b.step s (.submitter i s.pool.firstParked) ≠ none := by
  cases transition h with
  | @go _ _ u c _ _ stage submitter call step =>
    intro hno
    have hnext := (step_submitter_call stage submitter call).mp hno
    cases c with
    | notify =>
      have hsignal := signal_firstParked s.pool
      simp [Call.next, Pool.step, call] at hnext
      exact hsignal hnext
    | append | build | await | parked | raise | wake | enter | join =>
      have hproceed : s.pool.step (.proceed (submitterThread i)) = none := hnext
      have hsome : s.pool.step (.proceed (submitterThread i)) = some _ := step
      rw [hproceed] at hsome
      cases hsome
  | submit stage submitter idle => exact step_submit stage idle submitter
  | turn stage submitter idle => exact step_turn stage idle submitter
  | join stage submitter idle settled => exact step_join stage idle submitter settled
  | skip stage submitter idle => simp [step, stepSubmitter, stage, submitter, idle]

theorem movable_of_step {w : Nat} (h : b.step s (.worker w) = some s') :
    ∃ a, s.pool.workers[w]? = some a ∧ movable a = true := by
  cases transition h with
  | pin starting => exact ⟨_,starting,rfl⟩
  | claim step =>
    cases Pool.transition step <;> exact ⟨_,‹_›,rfl⟩
  | finish running => exact ⟨_,running,rfl⟩

end Schedule

section Carried
variable {b : Batch J V} {n : Nat} {jobs : List (List J)} {ms : List (Pool.Moment J V)}
  {s : State J V} (hc : Course b n jobs ms s)
include hc

theorem Course.unfinished_of_step {i : Nat} {pick : Option Nat} {s' : State J V}
    (h : b.step s (.submitter i pick) = some s') :
    ∃ u, s.submitters[i]? = some u ∧ u.finished = false := by
  cases transition h with
  | go stage submitter call =>
    obtain ⟨js,hserved⟩ := hc.exists_served submitter
    rw [call] at hserved
    refine ⟨_,submitter,?_⟩
    cases hserved <;> rfl
  | submit _ submitter | turn _ submitter | join _ submitter | skip _ submitter =>
    exact ⟨_,submitter,rfl⟩

/-- The schedule that is carried out stops only where nobody can move by itself. -/
theorem Course.rests_of_advance (h : b.advance s = none) : Rests b s := by
  rw [advance_eq] at h
  obtain ⟨hworkers,h⟩ := Option.or_eq_none_iff.mp h
  obtain ⟨hsubmitters,hmain⟩ := Option.or_eq_none_iff.mp h
  intro v hv
  refine Option.eq_none_iff_forall_ne_some.mpr fun s' hstep => ?_
  cases v with
  | main =>
    rw [hmain] at hstep
    cases hstep
  | submitter i pick =>
    obtain ⟨u,hi,hu⟩ := hc.unfinished_of_step hstep
    have hnone := stepSubmitters_eq_none hsubmitters hi hu
    rw [Nat.zero_add] at hnone
    exact submitter_firstParked hstep hnone
  | worker w =>
    obtain ⟨a,hw,ha⟩ := movable_of_step hstep
    cases hfind : s.pool.workers.findIdx? movable with
    | none =>
      have hno := List.findIdx?_eq_none_iff.mp hfind a (List.mem_of_getElem? hw)
      rw [ha] at hno
      cases hno
    | some w' =>
      obtain ⟨hlt,hmovable,-⟩ := List.findIdx?_eq_some_iff_getElem.mp hfind
      rw [hfind] at hworkers
      exact step_worker (List.getElem?_eq_getElem hlt) hmovable (hc.worker_idle _ _) hworkers
  | stir => cases hv

/-- The schedule that is carried out takes moves until nobody can move by itself. -/
theorem Course.runFor_rests {k : Nat} (hk : s.due n ≤ k) :
    Rests b (b.runFor k s) ∧ ∀ {s₀ vs}, Run b s₀ vs s → ∃ ws, Run b s₀ ws (b.runFor k s) := by
  induction k generalizing ms s with
  | zero =>
    refine ⟨hc.rests_of_advance ?_,fun hr => ⟨_,hr⟩⟩
    refine Option.eq_none_iff_forall_ne_some.mpr fun s' h => ?_
    obtain ⟨v,hv,hstep⟩ := move_of_advance h
    have hdue := hc.due_move (transition hstep)
    rw [hv, Bool.toNat_false] at hdue
    omega
  | succ k ih =>
    unfold runFor
    cases h : b.advance s with
    | none => exact ⟨hc.rests_of_advance h,fun hr => ⟨_,hr⟩⟩
    | some s' =>
      obtain ⟨v,hv,hstep⟩ := move_of_advance h
      have hdue := hc.due_move (transition hstep)
      obtain ⟨ns,hc'⟩ := hc.move (transition hstep)
      rw [hv, Bool.toNat_false] at hdue
      obtain ⟨hrests,hrun⟩ := ih hc' (by omega)
      exact ⟨hrests,fun hr => hrun (hr.step hstep)⟩

end Carried

/-- A batch on a pool that can be had is carried out to its end. -/
theorem run_rests (b : Batch J V) (calm : b.Calm) {n : Nat} (feasible : Pool.Feasible n)
    (jobs : List (List J)) :
    ∃ ms s, Course b n jobs ms s ∧ Rests b s ∧ (b.run n jobs).result = s.result := by
  have hcreate := Pool.create_of_feasible (J := J) (V := V) feasible b.controller.backend.name
    mainThread
  have h₀ := course_start b calm ⟨0,_,_,_,hcreate⟩ [.creating n b.controller.backend.name] jobs
  obtain ⟨hrests,hrun⟩ := h₀.runFor_rests (due_start_le n _ jobs)
  obtain ⟨vs,hr⟩ := hrun .start
  obtain ⟨ms,hc⟩ := hr.course h₀
  refine ⟨ms,_,hc,hrests,?_⟩
  unfold run
  rw [hcreate]

end PinnedPool.Batch
