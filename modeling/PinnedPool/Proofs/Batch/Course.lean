import Mathlib.Data.List.Forall2
import PinnedPool.Proofs.Batch.Conduct

/-! # The course of a batch

At every stage the main thread is where the stage says, and each submitter has handed in some of its
jobs, or all of them and then joined some. Every move keeps this, whichever thread takes it, so it
holds after every schedule.
-/
namespace PinnedPool.Batch

variable {J V : Type}

/-- What the submission of a job has returned: its number. -/
def Taken (ms : List (Pool.Moment J V)) (job : J) (r : Except PoolError Nat) : Prop :=
  ∃ seq, r = .ok seq ∧ ⟨seq,job,true⟩ ∈ Pool.accepted ms

/-- What the handle of a job has yielded: what the job ends with, wherever it stood in the queue. -/
def Yielded (b : Batch J V) (job : J) (r : Except PoolError V) : Prop :=
  ∃ seq, r = (b.work job ⟨seq,seq⟩).yielded

/-- How far a submitter has come with its jobs, and with its call. -/
inductive Served (b : Batch J V) (ms : List (Pool.Moment J V)) :
    Option (Call J) → List J → Submitter J V → Prop
  | submitting {done jobs gathered} (taken : List.Forall₂ (Taken ms) done gathered.reverse) :
    Served b ms none (done ++ jobs) (.submitting jobs gathered)
  | appending {done job jobs gathered} (taken : List.Forall₂ (Taken ms) done gathered.reverse) :
    Served b ms (some (.append job true)) (done ++ job :: jobs) (.submitting jobs gathered)
  | notifying {done job jobs gathered seq} (taken : List.Forall₂ (Taken ms) done gathered.reverse)
      (own : ⟨seq,job,true⟩ ∈ Pool.accepted ms) :
    Served b ms (some (.notify seq)) (done ++ job :: jobs) (.submitting jobs gathered)
  | joining {done jobs outcomes gathered}
      (yielded : List.Forall₂ (Yielded b) done gathered.reverse)
      (taken : List.Forall₂ (Taken ms) jobs outcomes) :
    Served b ms none (done ++ jobs) (.joining outcomes gathered)

/-- Where the main thread is at each stage. -/
inductive Staged (ms : List (Pool.Moment J V)) (p : Pool J V) (us : List (Submitter J V)) :
    Stage → Prop
  | building {c} (call : p.callOf? mainThread = some c) (builds : c.builds = true)
      (opened : c = .build → p.stopping = false) : Staged ms p us .building
  | failed {e} (told : .error (.refused (.os e)) ∈ Pool.verdicts ms) : Staged ms p us (.failed e)
  | serving (idle : p.callOf? mainThread = none) (stands : p.Standing)
      (opened : p.stopping = false) : Staged ms p us .serving
  | closing {c} (call : p.callOf? mainThread = some c) (shuts : c.shuts = true)
      (finished : ∀ u ∈ us, u.finished = true) : Staged ms p us .closing
  | closed (stands : p.Standing) (finished : ∀ u ∈ us, u.finished = true) : Staged ms p us .closed

/-- The main thread, or one of so many submitters. -/
def Takes (k : Nat) (t : ThreadId) : Prop := t = mainThread ∨ ∃ i < k, t = submitterThread i

/-- A batch on its way, with the moments of its pool. -/
structure Course (b : Batch J V) (n : Nat) (jobs : List (List J)) (ms : List (Pool.Moment J V))
    (s : State J V) : Prop where
  calm : b.Calm
  fresh : Pool.Fresh n (Pool.blank 0 n mainThread : Pool J V)
  run : Pool.Run (Pool.blank 0 n mainThread) ms s.pool
  fits : ∀ m ∈ ms, Fits b m.before m.event
  staged : Staged ms s.pool s.submitters s.stage
  callers : ∀ t c, s.pool.callOf? t = some c → Takes jobs.length t
  length : s.submitters.length = jobs.length
  served : ∀ i js u, jobs[i]? = some js → s.submitters[i]? = some u →
    Served b ms (s.pool.callOf? (submitterThread i)) js u

theorem submitterThread_ne_main (i : Nat) : submitterThread i ≠ mainThread := by
  simp [submitterThread, mainThread]

theorem submitterThread_inj {i k : Nat} (h : submitterThread i = submitterThread k) : i = k := by
  simpa [submitterThread] using h

section Served
variable {b : Batch J V} {ms : List (Pool.Moment J V)} {m : Pool.Moment J V}

theorem mem_accepted_snoc {task : Task J} (h : task ∈ Pool.accepted ms) :
    task ∈ Pool.accepted (ms ++ [m]) := by
  rw [Pool.accepted_snoc]
  exact List.mem_append_left _ h

theorem taken_snoc {js : List J} {rs : List (Except PoolError Nat)}
    (h : List.Forall₂ (Taken ms) js rs) : List.Forall₂ (Taken (ms ++ [m])) js rs :=
  h.imp fun _ _ ⟨seq,hr,ha⟩ => ⟨seq,hr,mem_accepted_snoc ha⟩

theorem Served.snoc {c : Option (Call J)} {js : List J} {u : Submitter J V}
    (h : Served b ms c js u) : Served b (ms ++ [m]) c js u := by
  cases h with
  | submitting taken => exact .submitting (taken_snoc taken)
  | appending taken => exact .appending (taken_snoc taken)
  | notifying taken own => exact .notifying (taken_snoc taken) (mem_accepted_snoc own)
  | joining yielded taken => exact .joining yielded (taken_snoc taken)

theorem Served.submits {c : Call J} {js : List J} {u : Submitter J V}
    (h : Served b ms (some c) js u) : c.submits = true := by
  cases h <;> rfl

theorem forall₂_snoc {A B : Type} {R : A → B → Prop} {as : List A} {bs : List B} {x : A} {y : B}
    (h : List.Forall₂ R as bs.reverse) (hxy : R x y) :
    List.Forall₂ R (as ++ [x]) (y :: bs).reverse := by
  rw [List.reverse_cons]
  exact List.rel_append h (.cons hxy .nil)

end Served

namespace Course
variable {b : Batch J V} {n : Nat} {jobs : List (List J)} {ms : List (Pool.Moment J V)}
  {s : State J V} (hc : Course b n jobs ms s)
include hc

theorem staged_at {stage : Stage} (h : s.stage = stage) : Staged ms s.pool s.submitters stage :=
  h ▸ hc.staged

theorem serving (hstage : s.stage = .serving) :
    s.pool.callOf? mainThread = none ∧ s.pool.Standing ∧ s.pool.stopping = false := by
  cases hc.staged_at hstage with
  | serving idle stands opened => exact ⟨idle,stands,opened⟩

theorem submitters_lt {i : Nat} {u : Submitter J V} (hi : s.submitters[i]? = some u) :
    i < jobs.length := by
  rw [← hc.length]
  exact (List.getElem?_eq_some_iff.mp hi).1

theorem exists_served {i : Nat} {u : Submitter J V} (hi : s.submitters[i]? = some u) :
    ∃ js, Served b ms (s.pool.callOf? (submitterThread i)) js u :=
  ⟨_,hc.served i _ u (List.getElem?_eq_getElem (hc.submitters_lt hi)) hi⟩

/-- To follow the submitters it is enough to follow the one that changes and those that stay. -/
theorem served_set {ns : List (Pool.Moment J V)} {p : Pool J V} {i : Nat} {u u' : Submitter J V}
    (hi : s.submitters[i]? = some u)
    (self : ∀ js, Served b ms (s.pool.callOf? (submitterThread i)) js u →
      Served b ns (p.callOf? (submitterThread i)) js u')
    (others : ∀ k js v, i ≠ k → Served b ms (s.pool.callOf? (submitterThread k)) js v →
      Served b ns (p.callOf? (submitterThread k)) js v) :
    ∀ k js v, jobs[k]? = some js → (s.submitters.set i u')[k]? = some v →
      Served b ns (p.callOf? (submitterThread k)) js v := by
  intro k js v hjs hv
  rw [List.getElem?_set] at hv
  by_cases hk : i = k
  · subst hk
    rw [if_pos rfl, if_pos (List.getElem?_eq_some_iff.mp hi).1] at hv
    cases hv
    exact self js (hc.served i js u hjs hi)
  · rw [if_neg hk] at hv
    exact others k js v hk (hc.served k js v hjs hv)

theorem caller_lt {i : Nat} {c : Call J} (h : s.pool.callOf? (submitterThread i) = some c) :
    i < s.submitters.length := by
  rw [hc.length]
  rcases hc.callers _ c h with hm | ⟨k,hk,hi⟩
  · exact absurd hm (submitterThread_ne_main i)
  · rw [submitterThread_inj hi]
    exact hk

/-- A submitter that is in a call has one that submits. -/
theorem submits {i : Nat} {c : Call J} (h : s.pool.callOf? (submitterThread i) = some c) :
    c.submits = true := by
  obtain ⟨js,hserved⟩ := hc.exists_served (List.getElem?_eq_getElem (hc.caller_lt h))
  rw [h] at hserved
  exact hserved.submits

/-- Only the main thread does anything else than submit. -/
theorem eq_main {t : ThreadId} {c : Call J} (h : s.pool.callOf? t = some c)
    (hno : c.submits = false) : t = mainThread := by
  rcases hc.callers t c h with hm | ⟨i,-,rfl⟩
  · exact hm
  · rw [hc.submits h] at hno
    cases hno

theorem timely : ∀ m ∈ ms, m.Timely := timely_of_fits hc.fits

theorem harmless : ∀ m ∈ ms, m.Harmless := harmless_of_fits hc.fits

theorem guarded : s.pool.Guarded := hc.run.guarded hc.fresh hc.timely

theorem joinable : s.pool.Joinable := joinable_of_calm hc.fresh hc.run hc.fits hc.calm

section Step
variable {e : Pool.Event J V} {f : Pool.Effect J V} (h : s.pool.step e = some f)
include h

theorem kept {u : ThreadId} (hu : e.caller? ≠ some u) : f.pool.callOf? u = s.pool.callOf? u :=
  callOf?_kept hc.fresh hc.run hc.fits h hu

theorem opened_kept (he : e.caller? ≠ some mainThread) (hopen : s.pool.stopping = false)
    (hno : ∀ why, s.pool.callOf? mainThread ≠ some (.wake why)) : f.pool.stopping = false := by
  refine Bool.eq_false_iff.mpr fun hstop => ?_
  rcases Pool.stopping_before h hstop with hold | ⟨t,why,hwake⟩
  · rw [hopen] at hold
    cases hold
  · rcases Pool.onset h hwake with hold | hon
    · exact hno why (hc.eq_main hold rfl ▸ hold)
    · cases hon with
      | raise call => exact he (hc.eq_main call rfl ▸ rfl)
      | @call r _ _ begun => cases r <;> cases begun

theorem staged_kept (he : e.caller? ≠ some mainThread) :
    Staged (ms ++ [⟨s.pool,e,f⟩]) f.pool s.submitters s.stage := by
  have hcall := hc.kept h he
  have hs := hc.staged
  generalize s.stage = stage at hs ⊢
  cases hs with
  | building call builds opened =>
    refine .building (hcall.trans call) builds fun hbuild => ?_
    subst hbuild
    refine hc.opened_kept h he (opened rfl) fun why hwake => ?_
    rw [call] at hwake
    cases hwake
  | failed told =>
    refine .failed ?_
    rw [Pool.verdicts_snoc]
    exact List.mem_append_left _ told
  | serving idle stands opened =>
    refine .serving (hcall.trans idle) (Pool.standing_step h stands) ?_
    refine hc.opened_kept h he opened fun why hwake => ?_
    rw [idle] at hwake
    cases hwake
  | closing call shuts finished => exact .closing (hcall.trans call) shuts finished
  | closed stands finished => exact .closed (Pool.standing_step h stands) finished

variable (hfit : Fits b s.pool e) {log : List (ThreadId × Log.Line)}
include hfit

theorem advance {stage : Stage} {us : List (Submitter J V)}
    (hstaged : Staged (ms ++ [⟨s.pool,e,f⟩]) f.pool us stage)
    (hcaller : ∀ t, e.caller? = some t → Takes jobs.length t) (hlen : us.length = jobs.length)
    (hserved : ∀ i js u, jobs[i]? = some js → us[i]? = some u →
      Served b (ms ++ [⟨s.pool,e,f⟩]) (f.pool.callOf? (submitterThread i)) js u) :
    Course b n jobs (ms ++ [⟨s.pool,e,f⟩]) ⟨f.pool,stage,us,log⟩ where
  calm := hc.calm
  fresh := hc.fresh
  run := hc.run.step h
  fits := by
    intro m hm
    rcases List.mem_append.mp hm with hm | hm
    · exact hc.fits m hm
    · rw [List.mem_singleton.mp hm]
      exact hfit
  staged := hstaged
  callers := by
    intro t c ht
    by_cases he : e.caller? = some t
    · exact hcaller t he
    · exact hc.callers t c ((hc.kept h he).symm.trans ht)
  length := hlen
  served := hserved

/-- A step of the main thread or of a worker leaves the submitters alone. -/
theorem advance_outside {stage : Stage}
    (hstaged : Staged (ms ++ [⟨s.pool,e,f⟩]) f.pool s.submitters stage)
    (he : ∀ t, e.caller? = some t → t = mainThread) :
    Course b n jobs (ms ++ [⟨s.pool,e,f⟩]) ⟨f.pool,stage,s.submitters,log⟩ := by
  refine hc.advance h hfit hstaged (fun t ht => .inl (he t ht)) hc.length ?_
  intro i js u hjs hu
  rw [hc.kept h fun ht => submitterThread_ne_main i (he _ ht)]
  exact (hc.served i js u hjs hu).snoc

/-- A step of one submitter leaves the others alone. -/
theorem advance_submitter {i : Nat} {u u' : Submitter J V}
    (he : e.caller? = some (submitterThread i)) (hstage : s.stage = .serving)
    (hi : s.submitters[i]? = some u)
    (hu : ∀ js, Served b ms (s.pool.callOf? (submitterThread i)) js u →
      Served b (ms ++ [⟨s.pool,e,f⟩]) (f.pool.callOf? (submitterThread i)) js u') :
    Course b n jobs (ms ++ [⟨s.pool,e,f⟩]) ⟨f.pool,.serving,s.submitters.set i u',log⟩ := by
  have hmain : e.caller? ≠ some mainThread := by
    rw [he]
    exact fun ht => submitterThread_ne_main i (Option.some.inj ht)
  have hstaged := hc.staged_kept h hmain
  rw [hstage] at hstaged
  cases hstaged with
  | serving idle stands opened =>
    refine hc.advance h hfit (.serving idle stands opened) ?_ (by simpa using hc.length) ?_
    · intro t ht
      rw [he] at ht
      exact .inr ⟨i,hc.submitters_lt hi,(Option.some.inj ht).symm⟩
    · refine hc.served_set hi hu fun k js v hk hserved => ?_
      rw [hc.kept h fun ht => hk (submitterThread_inj (Option.some.inj (he.symm.trans ht)))]
      exact hserved.snoc

end Step

/-- A submitter that takes no step in the pool. -/
theorem stay_submitter {i : Nat} {u u' : Submitter J V} (hstage : s.stage = .serving)
    (hi : s.submitters[i]? = some u)
    (hu : ∀ js, Served b ms (s.pool.callOf? (submitterThread i)) js u →
      Served b ms (s.pool.callOf? (submitterThread i)) js u') {log : List (ThreadId × Log.Line)} :
    Course b n jobs ms ⟨s.pool,.serving,s.submitters.set i u',log⟩ where
  calm := hc.calm
  fresh := hc.fresh
  run := hc.run
  fits := hc.fits
  staged := by
    obtain ⟨idle,stands,opened⟩ := hc.serving hstage
    exact .serving idle stands opened
  callers := hc.callers
  length := by simpa using hc.length
  served := hc.served_set hi hu fun _ _ _ _ hserved => hserved

section Main
variable {f : Pool.Effect J V}

theorem staged_of_building (hstage : s.stage = .building)
    (h : s.pool.step (b.building s.pool) = some f) :
    Staged (ms ++ [⟨s.pool,b.building s.pool,f⟩]) f.pool s.submitters (.ofBuilding f.reply) ∧
      Fits b s.pool (b.building s.pool) ∧ (b.building s.pool).caller? = some mainThread := by
  cases hc.staged_at hstage with
  | @building c call builds opened =>
    have he : (b.building s.pool).caller? = some mainThread := by
      unfold Batch.building
      split <;> rfl
    have hfit : Fits b s.pool (b.building s.pool) := by
      unfold Batch.building
      split
      · exact .spawn
      · refine .proceed fun job watched hcall => ?_
        rw [call] at hcall
        cases hcall
        cases builds
    refine ⟨?_,hfit,he⟩
    have hon : ∀ {q : Pool J V} {c' : Call J}, c'.builds = true → c' ≠ .build →
        Staged (ms ++ [⟨s.pool,b.building s.pool,f⟩]) (q.setCall mainThread c') s.submitters
          .building := fun hb hne =>
      .building (Pool.callOf?_setCall_self ..) hb fun h => absurd h hne
    have hmove := Pool.move_of_builder h he call builds
    generalize b.building s.pool = e at h hmove hon
    cases hmove with
    | start => exact .building call rfl fun _ => opened rfl
    | startLast last =>
      refine .serving ?_ ?_ (opened rfl)
      · exact (Pool.callOf?_endCall ..).trans (if_pos rfl)
      · simpa [Pool.Standing, Pool.endWith, Pool.endCall] using last
    | startRefused | raise | wake | join => exact hon rfl (by simp)
    | @giveUp err =>
      refine .failed (e := err) ?_
      rw [Pool.verdicts_snoc]
      exact List.mem_append_right _ (List.mem_singleton_self _)
    | burst hw hq =>
      rw [hc.joinable.burst?_eq_none hw] at hq
      cases hq

theorem staged_of_closing (hstage : s.stage = .closing)
    (h : s.pool.step (.proceed mainThread) = some f) :
    Staged (ms ++ [⟨s.pool,.proceed mainThread,f⟩]) f.pool s.submitters (.ofClosing f.reply) ∧
      Fits b s.pool (.proceed mainThread) := by
  cases hc.staged_at hstage with
  | @closing c call shuts finished =>
    refine ⟨?_,?_⟩
    · cases hr : f.reply with
      | none =>
        obtain ⟨c',hc'⟩ := Pool.callOf?_of_no_reply h rfl hr
        refine .closing hc' ?_ finished
        rcases Pool.onset h hc' with hold | hon
        · rw [call] at hold
          cases hold
          exact shuts
        · exact hon.shuts call shuts
      | some r =>
        have hstands := hc.guarded.reserved.standing call (Pool.shuts_builds shuts)
        cases r with
        | unwound => exact absurd hc.joinable (Pool.not_joinable_of_unwound h hr)
        | built | notBuilt | accepted | stopped | done =>
          exact .closed (Pool.standing_step h hstands) finished
    · refine .proceed fun job watched hcall => ?_
      rw [call] at hcall
      cases hcall
      cases shuts

end Main

/-- A submission appends its job, wakes a worker and returns the job's number. -/
theorem served_of_call (hstage : s.stage = .serving) {i : Nat} {pick : Option Nat}
    {u : Submitter J V} {c : Call J} {f : Pool.Effect J V} {js : List J}
    (hserved : Served b ms (some c) js u) (call : s.pool.callOf? (submitterThread i) = some c)
    (step : s.pool.step (c.next (submitterThread i) pick) = some f) :
    Served b (ms ++ [⟨s.pool,c.next (submitterThread i) pick,f⟩])
        (f.pool.callOf? (submitterThread i)) js (f.reply.elim u u.accept) ∧
      Fits b s.pool (c.next (submitterThread i) pick) ∧
      (c.next (submitterThread i) pick : Pool.Event J V).caller? = some (submitterThread i) := by
  cases hserved with
  | appending taken =>
    obtain ⟨hreply,hcall,haccepted⟩ := Pool.append_step step call (hc.serving hstage).2.2
    refine ⟨?_,.proceed fun job watched h => ?_,rfl⟩
    · rw [hreply, hcall]
      refine .notifying (taken_snoc taken) ?_
      rw [Pool.accepted_snoc]
      exact List.mem_append_right _ (Option.mem_toList.mpr haccepted)
    · rw [call] at h
      cases h
      rfl
  | @notifying done job jobs gathered seq taken own =>
    obtain ⟨hreply,hcall⟩ := Pool.notify_step step call
    refine ⟨?_,.notify,rfl⟩
    have hdone : done ++ job :: jobs = done ++ [job] ++ jobs := List.append_cons ..
    rw [hreply, hcall, hdone]
    exact .submitting (forall₂_snoc (taken_snoc taken) ⟨seq,rfl,mem_accepted_snoc own⟩)

/-- A handle that is joined yields what its job has ended with. -/
theorem served_of_join {seq : Nat} {outcomes : List (Except PoolError Nat)}
    {gathered : List (Except PoolError V)} {slot : Slot V} {js : List J} {c : Option (Call J)}
    (hserved : Served b ms c js (.joining (.ok seq :: outcomes) gathered))
    (settled : s.pool.slot? seq = some slot) :
    Served b ms c js (.joining outcomes (slot.result :: gathered)) := by
  cases hserved with
  | joining yielded taken =>
    cases taken with
    | cons htaken taken =>
      obtain ⟨k,hk,ha⟩ := htaken
      cases hk
      have hn := hc.fresh.eq_blank.1
      have hresult := result_of_slot? hc.fresh hc.run hc.fits hc.calm hn ha settled
      rw [List.append_cons]
      exact .joining (forall₂_snoc yielded ⟨seq,hresult⟩) taken

/-- Every move keeps the course. -/
theorem move {v : Move} {s' : State J V} (h : Transition b s v s') :
    ∃ ns, Course b n jobs (ms ++ ns) s' := by
  have hworker : ∀ {e f log}, s.pool.step e = some f → Fits b s.pool e → e.caller? = none →
      ∃ ns, Course b n jobs (ms ++ ns) ⟨f.pool,s.stage,s.submitters,log⟩ := by
    intro e f log step hfit he
    have hstaged := hc.staged_kept step (by simp [he])
    exact ⟨_,hc.advance_outside step hfit hstaged fun t ht => by simp [he] at ht⟩
  cases h with
  | build stage step =>
    obtain ⟨hstaged,hfit,he⟩ := hc.staged_of_building stage step
    refine ⟨_,hc.advance_outside step hfit hstaged fun t ht => ?_⟩
    exact Option.some.inj (ht.symm.trans he)
  | close stage finished step =>
    cases Pool.transition step with
    | call idle =>
      refine ⟨_,hc.advance_outside step (.call (hc.serving stage).2.1 (by simp)) ?_ ?_⟩
      · exact .closing (Pool.callOf?_setCall_self ..) rfl finished
      · rintro t ⟨⟩
        rfl
  | bringDown stage step =>
    obtain ⟨hstaged,hfit⟩ := hc.staged_of_closing stage step
    refine ⟨_,hc.advance_outside step hfit hstaged ?_⟩
    rintro t ⟨⟩
    rfl
  | go stage submitter call step =>
    obtain ⟨js,hu⟩ := hc.exists_served submitter
    rw [call] at hu
    obtain ⟨-,hfit,he⟩ := hc.served_of_call stage hu call step
    refine ⟨_,hc.advance_submitter step hfit he stage submitter fun js hserved => ?_⟩
    rw [call] at hserved
    exact (hc.served_of_call stage hserved call step).1
  | submit stage submitter idle step =>
    have hstands := (hc.serving stage).2.1
    refine ⟨_,hc.advance_submitter step (.call hstands (by simp)) rfl stage submitter ?_⟩
    intro js hserved
    rw [idle] at hserved
    cases Pool.transition step
    rw [Pool.callOf?_setCall_self]
    cases hserved with
    | submitting taken => exact .appending (taken_snoc taken)
  | turn stage submitter idle =>
    refine ⟨[],?_⟩
    rw [List.append_nil]
    refine hc.stay_submitter stage submitter fun js hserved => ?_
    rw [idle] at hserved ⊢
    cases hserved with
    | @submitting done jobs gathered taken =>
      rw [List.append_nil, ← List.nil_append done]
      exact .joining .nil taken
  | join stage submitter idle settled =>
    refine ⟨[],?_⟩
    rw [List.append_nil]
    exact hc.stay_submitter stage submitter fun js hserved => hc.served_of_join hserved settled
  | skip stage submitter idle =>
    -- no submission has been refused
    obtain ⟨js,hu⟩ := hc.exists_served submitter
    rw [idle] at hu
    cases hu with
    | joining _ taken =>
      cases taken with
      | cons htaken =>
        obtain ⟨seq,hr,-⟩ := htaken
        cases hr
  | pin starting step =>
    rw [hc.calm.pins] at step
    exact hworker step .pin rfl
  | claim step => exact hworker step .claim rfl
  | finish running step => exact hworker step (.finish running) rfl
  | stir step => exact hworker step .stir rfl

/-! ## What has come of it -/

/-- A batch is closed only if the system has refused none of its workers. -/
theorem granted (hstage : s.stage = .closed) : ∀ k < n, b.refusal k = none := by
  cases hc.staged_at hstage with
  | closed stands =>
    have hfull := hc.run.length_eq hc.fresh hc.timely stands
    exact hc.run.granted hc.fresh hc.timely hc.harmless (answered_of_fits hc.fits) hfull

/-- A batch fails with the first refusal. -/
theorem refused {e : Os.Error} (hstage : s.stage = .failed e) :
    ∃ k < n, b.refusal k = some e ∧ ∀ i < k, b.refusal i = none := by
  cases hc.staged_at hstage with
  | failed told =>
    exact hc.run.refused hc.fresh hc.timely hc.harmless (answered_of_fits hc.fits) told

/-- A batch that is over has a result for each of its jobs. -/
theorem results (hstage : s.stage = .closed) {i : Nat} {js : List J} {u : Submitter J V}
    (hjs : jobs[i]? = some js) (hu : s.submitters[i]? = some u) :
    List.Forall₂ (Yielded b) js u.results := by
  cases hc.staged_at hstage with
  | closed _ finished =>
    have hfinished := finished u (List.mem_of_getElem? hu)
    have hserved := hc.served i js u hjs hu
    generalize s.pool.callOf? (submitterThread i) = call at hserved
    cases hserved with
    | submitting | appending | notifying => cases hfinished
    | @joining done jobs outcomes gathered yielded taken =>
      obtain rfl := List.isEmpty_iff.mp hfinished
      cases taken
      rw [List.append_nil]
      exact yielded

end Course

/-- A batch begins with its main thread about to start the first worker. -/
theorem course_start (b : Batch J V) (calm : b.Calm) {n : Nat}
    (h₀ : Pool.Fresh n (Pool.blank 0 n mainThread : Pool J V)) (lines : List Log.Line)
    (jobs : List (List J)) : Course b n jobs [] (start (Pool.blank 0 n mainThread) lines jobs) where
  calm := calm
  fresh := h₀
  run := .start
  fits := fun _ hm => nomatch hm
  staged := .building (c := .build) (by simp [start, Pool.blank, Pool.callOf?]) rfl fun _ => rfl
  callers := fun _ _ h => .inl (Pool.callOf?_blank h).1
  length := List.length_map ..
  served := by
    intro i js u hjs hu
    have hcall : (Pool.blank 0 n mainThread : Pool J V).callOf? (submitterThread i) = none := by
      refine Option.eq_none_iff_forall_ne_some.mpr fun c hcall => ?_
      exact submitterThread_ne_main i (Pool.callOf?_blank hcall).1
    have hu' : u = .submitting js [] := by
      simpa [start, hjs, eq_comm] using hu
    rw [hu']
    dsimp only [start]
    rw [hcall]
    rw [← List.nil_append js]
    exact .submitting .nil

theorem Run.course {b : Batch J V} {n : Nat} {jobs : List (List J)}
    {ms₀ : List (Pool.Moment J V)} {s₀ s : State J V} (h₀ : Course b n jobs ms₀ s₀)
    {vs : List Move} (hr : Run b s₀ vs s) : ∃ ms, Course b n jobs ms s := by
  induction hr with
  | start => exact ⟨ms₀,h₀⟩
  | step _ h ih =>
    obtain ⟨ms,hc⟩ := ih
    obtain ⟨ns,hc'⟩ := hc.move (transition h)
    exact ⟨_,hc'⟩

end PinnedPool.Batch
