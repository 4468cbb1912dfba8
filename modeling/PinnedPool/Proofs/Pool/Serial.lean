import PinnedPool.Proofs.Pool.Barrier
import PinnedPool.Proofs.Pool.Building
import PinnedPool.Proofs.Pool.Outcome
import PinnedPool.Proofs.Pool.Workshop

/-! # One worker runs the jobs in turn

A pool with one worker leaves behind what running the accepted bodies one after the other would
leave, in the order in which they were submitted, whatever the threads do that submit them and shut
the pool down.
-/
namespace PinnedPool

variable {S J V : Type}

namespace Pool

/-! ## A pool with one worker -/

/-- The tasks that have been run to the end, in the order in which they ended. -/
def ran (ms : List (Moment J V)) : List (Task J) := (completions ms).map Completion.task

def outcomes (ms : List (Moment J V)) : List (Task J × Ending V) :=
  (completions ms).map fun c => (c.task,c.ending)

theorem ran_snoc (ms : List (Moment J V)) (m : Moment J V) :
    ran (ms ++ [m]) = ran ms ++ (m.completion?.map Completion.task).toList := by
  rw [ran, completions_snoc, List.map_append]
  cases m.completion? <;> rfl

theorem outcomes_snoc (ms : List (Moment J V)) (m : Moment J V) :
    outcomes (ms ++ [m]) =
      outcomes ms ++ (m.completion?.map fun c => (c.task,c.ending)).toList := by
  rw [outcomes, completions_snoc, List.map_append]
  cases m.completion? <;> rfl

/-- A worker that looks for a task has none, and the others go on with theirs. -/
theorem taskOf_of_claim {p : Pool J V} {w : Nat} {f : Effect J V}
    (h : p.step (.claim w) = some f) :
    p.taskOf w = none ∧ ∀ v, v ≠ w → f.pool.taskOf v = p.taskOf v := by
  have hfree : ∀ {s : Worker J}, p.workers[w]? = some s → s.task? = none → p.taskOf w = none := by
    intro s hw hs
    rw [taskOf, hw]
    exact hs
  have hkept : ∀ {s b : Worker J} {q : Pool J V}, p.workers[w]? = some s →
      q.workers = p.workers.set w b → ∀ v, v ≠ w → q.taskOf v = p.taskOf v := by
    intro s b q hw hq v hv
    rw [taskOf_set hw hq, if_neg hv]
  cases transition h with
  | take hw => exact ⟨hfree hw rfl,hkept hw (relieve_workers _)⟩
  | leave hw | park hw => exact ⟨hfree hw rfl,hkept hw rfl⟩

theorem completion_of_finish {p : Pool J V} {w : Nat} {e : Ending V} {heard : Bool} {f : Effect J V}
    (h : p.step (.finish w e heard) = some f) {task : Task J} (hw : p.taskOf w = some task) :
    Moment.completion? ⟨p,.finish w e heard,f⟩ = some ⟨w,task,e,heard⟩ ∧
      f.pool.taskOf w = none := by
  have hc : Moment.completion? ⟨p,.finish w e heard,f⟩ = some ⟨w,task,e,heard⟩ := by
    cases transition h with
    | @finish _ task' _ _ _ hrun =>
      obtain rfl : task' = task := by
        rw [taskOf, hrun] at hw
        exact Option.some.inj hw
      simp only [Moment.completion?, hrun]
  refine ⟨hc,?_⟩
  cases workChange h with
  | kept _ hn | taken _ hn =>
    rw [hn] at hc
    cases hc
  | done _ hd _ htasks =>
    rw [hd] at hc
    cases hc
    rw [htasks, if_pos rfl]

section One
variable {p₀ p : Pool J V} {ms : List (Moment J V)} (h₀ : Fresh 1 p₀) (hr : Run p₀ ms p)
  (ht : ∀ m ∈ ms, m.Timely)
include h₀ hr ht

theorem Run.worker_eq_zero {w : Nat} {task : Task J} (hw : p.taskOf w = some task) : w = 0 := by
  have hlt := lt_of_taskOf hw
  have hle := hr.length_le h₀ ht
  omega

theorem Run.claims_by_zero {c : Claim J} (hc : c ∈ claims ms) : c.worker = 0 := by
  have hlt := hr.worker_lt hc
  have hle := hr.length_le h₀ ht
  omega

theorem Run.completions_by_zero {c : Completion J V} (hc : c ∈ completions ms) : c.worker = 0 := by
  obtain ⟨d,hd,hw,-⟩ := hr.claim_of_done h₀ (mem_doneBy hc)
  rw [← hw]
  exact hr.claims_by_zero h₀ ht hd

/-- The only worker has ended some tasks in the order of their submission, is at the next one if at
any, and has all others before it. -/
theorem Run.accepted_eq_ended : accepted ms =
    ran ms ++ (p.taskOf 0).toList ++ p.queue.tasks := by
  have htaken : takenBy ms 0 = (claims ms).map Claim.task := by
    unfold takenBy
    rw [List.filter_eq_self.mpr fun c hc => decide_eq_true (hr.claims_by_zero h₀ ht hc)]
  have hdone : doneBy ms 0 = ran ms := by
    unfold doneBy ran
    rw [List.filter_eq_self.mpr fun c hc => decide_eq_true (hr.completions_by_zero h₀ ht hc)]
  rw [hr.accepted_eq h₀, ← htaken, hr.takenBy_eq h₀, hdone]

end One

theorem ne_pin_of_not_felled {e : Event J V} (h : e.felled? = none) (w : Nat) (q : Payload) :
    e ≠ .pin w (some q) := by
  rintro rfl
  cases h

/-- A shutdown returns to a thread that is none of the pool's workers. -/
def Moment.closes (m : Moment J V) : Bool :=
  match m.event with
  | .proceed t => m.before.Shuts t && !m.before.isWorker t && m.effect.reply = some .done
  | _ => false

/-- After a shutdown from outside has returned, the pool is over, or has a worker that cannot be
joined. -/
theorem Run.over_of_closed {n : Nat} {p₀ p : Pool J V} {ms : List (Moment J V)} (h₀ : Fresh n p₀)
    (hr : Run p₀ ms p) (ht : ∀ m ∈ ms, m.Timely) (hc : ∃ m ∈ ms, m.closes) :
    p.Standing ∧ (p.Joinable → p.Over) := by
  induction hr with
  | start =>
    obtain ⟨m,hm,-⟩ := hc
    cases hm
  | @step ms p e f hr h ih =>
    have ht' := fun m hm => ht m (List.mem_append_left _ hm)
    obtain ⟨m,hm,hcloses⟩ := hc
    rcases List.mem_append.mp hm with hold | hlast
    · obtain ⟨hstands,hover⟩ := ih ht' ⟨m,hold,hcloses⟩
      refine ⟨standing_step h hstands,fun hj => over_step h (hover ?_)⟩
      exact Decidable.byContradiction fun hn => not_joinable_step h hn hj
    · cases List.mem_singleton.mp hlast
      cases e with
      | proceed t =>
        simp only [Moment.closes, Bool.and_eq_true, decide_eq_true_eq, Bool.not_eq_true'] at hcloses
        obtain ⟨⟨hshuts,hout⟩,hdone⟩ := hcloses
        obtain ⟨c,hc,hcs⟩ := (Option.any_eq_true _ _).mp hshuts
        have hg := hr.guarded h₀ ht'
        refine ⟨(hg.of_returned h hc hcs hout hdone).1,fun hj => ?_⟩
        exact over_of_shutdown h hg hj hc hcs hout rfl hdone
      | call | spawn | notify | pin | claim | finish | stir | stirWaiter | free => cases hcloses

theorem Run.deserted_of_closed {p₀ p : Pool J V} {ms : List (Moment J V)} (h₀ : Fresh 1 p₀)
    (hr : Run p₀ ms p) (ht : ∀ m ∈ ms, m.Timely) (hc : ∃ m ∈ ms, m.closes) : p.deserted = true := by
  obtain ⟨-,hover⟩ := hr.over_of_closed h₀ ht hc
  by_cases hj : p.Joinable
  · exact (hover hj).1
  · obtain ⟨s,hs,hburst⟩ : ∃ s ∈ p.workers, s.joinable = false := by
      simpa [Joinable] using hj
    have hle := hr.length_le h₀ ht
    have hone : p.workers = [s] := by
      obtain ⟨i,hi⟩ := List.getElem?_of_mem hs
      have hlt := (List.getElem?_eq_some_iff.mp hi).1
      obtain ⟨s',hs'⟩ := List.length_eq_one_iff.mp (by omega : p.workers.length = 1)
      rw [hs', List.mem_singleton] at hs
      rw [hs', hs]
    rw [deserted, hone, List.all_cons, List.all_nil, Bool.and_true]
    cases s with
    | killed => rfl
    | starting | ready | parked | running | left => cases hburst

end Pool

namespace Workshop

/-! ## The bodies in turn -/

/-- The tasks that have ended did so as they do in turn, and what the only worker has left to do now
ends as its whole body would have ended after them. -/
structure Serial (body : J → Body S V) (s₀ : S) (ms : List (Pool.Moment J V))
    (x : Workshop S J V) : Prop where
  ended : Pool.outcomes ms = (inTurn body s₀ (Pool.ran ms)).2
  between : x.pool.taskOf 0 = none →
    x.rest? 0 = none ∧ x.state = (inTurn body s₀ (Pool.ran ms)).1
  within : ∀ task, x.pool.taskOf 0 = some task → ∃ b, x.rest? 0 = some b ∧
    b.run x.state = (body task.job).run (inTurn body s₀ (Pool.ran ms)).1
  alone : ∀ w, w ≠ 0 → x.rest? w = none

section Step
variable {body : J → Body S V} {s₀ : S} {ms : List (Pool.Moment J V)} {x : Workshop S J V}
  (hs : Serial body s₀ ms x)
include hs

/-- Who has something left to do is the first worker, in the middle of a task. -/
theorem Serial.busy {w : Nat} {b : Body S V} (hb : x.rest? w = some b) :
    w = 0 ∧ ∃ task, x.pool.taskOf 0 = some task ∧
      b.run x.state = (body task.job).run (inTurn body s₀ (Pool.ran ms)).1 := by
  have hw : w = 0 := by
    refine Decidable.byContradiction ?_
    intro hw
    rw [hs.alone w hw] at hb
    cases hb
  subst hw
  refine ⟨rfl,?_⟩
  cases htask : x.pool.taskOf 0 with
  | none =>
    rw [(hs.between htask).1] at hb
    cases hb
  | some task =>
    obtain ⟨b',hb',hrun⟩ := hs.within task htask
    rw [hb] at hb'
    cases hb'
    exact ⟨task,rfl,hrun⟩

theorem Serial.act {next : S → S} {rest : S → Body S V} (hb : x.rest? 0 = some (.act next rest)) :
    Serial body s₀ ms ({ x with state := next x.state }.setRest 0 (some (rest x.state))) := by
  obtain ⟨-,task,htask,hrun⟩ := hs.busy hb
  refine ⟨hs.ended,?_,?_,?_⟩
  · intro hnone
    cases htask.symm.trans hnone
  · intro task' htask'
    cases htask.symm.trans htask'
    exact ⟨rest x.state,rest?_setRest_self ..,hrun⟩
  · intro w hw
    exact (rest?_setRest_ne hw).trans (hs.alone w hw)

theorem Serial.stop {e : Ending V} {heard : Bool} {f : Pool.Effect J V}
    (hb : x.rest? 0 = some (.stop e)) (h : x.pool.step (.finish 0 e heard) = some f) :
    Serial body s₀ (ms ++ [⟨x.pool,.finish 0 e heard,f⟩])
      ({ x with pool := f.pool }.setRest 0 none) := by
  obtain ⟨-,task,htask,hrun⟩ := hs.busy hb
  obtain ⟨hc,hfree⟩ := Pool.completion_of_finish h htask
  have hran : Pool.ran (ms ++ [⟨x.pool,.finish 0 e heard,f⟩]) = Pool.ran ms ++ [task] := by
    rw [Pool.ran_snoc, hc]
    rfl
  refine ⟨?_,?_,?_,?_⟩
  · rw [Pool.outcomes_snoc, hc, hran, inTurn_append, hs.ended, inTurn, ← hrun]
    rfl
  · intro _
    refine ⟨rest?_setRest_self ..,?_⟩
    rw [hran, inTurn_append, inTurn, ← hrun]
    rfl
  · intro task' htask'
    cases hfree.symm.trans htask'
  · intro w hw
    exact (rest?_setRest_ne hw).trans (hs.alone w hw)

/-- A step after which the same tasks have ended. -/
theorem Serial.same {e : Pool.Event J V} {f : Pool.Effect J V}
    (hc : Pool.Moment.completion? ⟨x.pool,e,f⟩ = none) {y : Workshop S J V} (hp : y.pool = f.pool)
    (hstate : y.state = x.state) (hrest : ∀ w, w ≠ 0 → y.rest? w = none)
    -- the first worker stays where it is, or has looked for a task
    (hzero : f.pool.taskOf 0 = x.pool.taskOf 0 ∧ y.rest? 0 = x.rest? 0 ∨
      x.pool.taskOf 0 = none ∧
        y.rest? 0 = (f.pool.taskOf 0).map fun task : Task J => body task.job) :
    Serial body s₀ (ms ++ [⟨x.pool,e,f⟩]) y := by
  have hran : Pool.ran (ms ++ [⟨x.pool,e,f⟩]) = Pool.ran ms := by
    rw [Pool.ran_snoc, hc]
    exact List.append_nil _
  refine ⟨?_,?_,?_,hrest⟩
  · rw [Pool.outcomes_snoc, hc, hran]
    exact (List.append_nil _).trans hs.ended
  · rw [hran, hp, hstate]
    intro hnone
    rcases hzero with ⟨htask,hy⟩ | ⟨hfree,hy⟩
    · rw [hy]
      exact hs.between (htask ▸ hnone)
    · rw [hy, hnone]
      exact ⟨rfl,(hs.between hfree).2⟩
  · rw [hran, hp, hstate]
    intro task htask'
    rcases hzero with ⟨htask,hy⟩ | ⟨hfree,hy⟩
    · rw [hy]
      exact hs.within task (htask ▸ htask')
    · rw [hy, htask']
      exact ⟨_,rfl,by rw [(hs.between hfree).2]⟩

end Step

theorem Run.serial {body : J → Body S V} {p₀ : Pool J V} {s₀ : S} {ms : List (Pool.Moment J V)}
    {x : Workshop S J V} (h₀ : Pool.Fresh 1 p₀) (hr : Run body (.opened p₀ s₀) ms x)
    (ht : ∀ m ∈ ms, m.Timely) : Serial body s₀ ms x := by
  induction hr with
  | start =>
    obtain ⟨-,id,t,rfl⟩ := h₀.eq_blank
    exact ⟨rfl,fun _ => ⟨rfl,rfl⟩,nofun,fun _ _ => rfl⟩
  | @step ms x e f hr h ih =>
    have hs := ih fun m hm => ht m (List.mem_append_left _ hm)
    have hnext := (hr.step h).pool
    cases transition h with
    | acted hb =>
      obtain ⟨rfl,-⟩ := hs.busy hb
      rw [Option.toList_none, List.append_nil]
      exact hs.act hb
    | stopped hb hstep =>
      obtain ⟨rfl,-⟩ := hs.busy hb
      exact hs.stop hb hstep
    | @claimed w f hstep =>
      obtain ⟨hfree,hkept⟩ := Pool.taskOf_of_claim hstep
      have hrest : ∀ v, v ≠ 0 → (x.begin body f.pool w).rest? v = none := by
        intro v hv
        by_cases hvw : v = w
        · subst hvw
          -- no task goes to a worker that is not there
          have hnone : f.pool.taskOf v = none := by
            refine Option.eq_none_iff_forall_ne_some.mpr ?_
            intro task htask
            exact hv (hnext.worker_eq_zero h₀ ht htask)
          exact (rest?_setRest_self ..).trans (congrArg _ hnone)
        · exact (rest?_setRest_ne hvw).trans (hs.alone v hv)
      refine hs.same rfl rfl rfl hrest ?_
      by_cases hw : 0 = w
      · subst hw
        exact .inr ⟨hfree,rest?_setRest_self ..⟩
      · exact .inl ⟨hkept 0 hw,rest?_setRest_ne hw⟩
    | @other e f hstep hclaim hcompletion =>
      refine hs.same hcompletion rfl rfl hs.alone (.inl ⟨?_,rfl⟩)
      cases Pool.workChange hstep with
      | kept _ _ htasks => exact htasks 0
      | taken hsome =>
        rw [hclaim] at hsome
        cases hsome
      | done _ hsome =>
        rw [hcompletion] at hsome
        cases hsome

/-- A worker that has come through its pinning is struck only by a task that ends as it does in
turn. -/
theorem Serial.not_struck {body : J → Body S V} {s₀ : S} {ms : List (Pool.Moment J V)}
    {x : Workshop S J V} (hs : Serial body s₀ ms x) {tasks : List (Task J)}
    (ha : Pool.accepted ms = Pool.ran ms ++ tasks)
    (hpin : ∀ m ∈ ms, ∀ q, m.event ≠ .pin 0 (some q))
    (hquiet : ∀ o ∈ (inTurn body s₀ (Pool.accepted ms)).2, ∀ heard,
      Pool.Completion.fells ⟨0,o.1,o.2,heard⟩ = false) : ¬Pool.Struck ms 0 := by
  rintro ⟨q,⟨m,hm,he⟩ | ⟨c,hc,-,hq⟩⟩
  · exact hpin m hm q he
  · have hmem : (c.task,c.ending) ∈ (inTurn body s₀ (Pool.accepted ms)).2 := by
      rw [ha, inTurn_append, ← hs.ended]
      exact List.mem_append_left _ (List.mem_map_of_mem hc)
    have hfells : Pool.Completion.fells ⟨0,c.task,c.ending,c.heard⟩ = true :=
      Pool.Completion.fells_iff.mpr ⟨q,hq⟩
    rw [hquiet _ hmem c.heard] at hfells
    cases hfells

/-- With one worker every task waits for the end of all those that were accepted before it. Those
that have ended have done to the shared state what they do in turn, and have ended in the same ways.
After a shutdown from outside this is so of all accepted tasks, provided that the worker came through
its pinning and none of them ends in a way that brings its worker down, with its handle still there or
not. -/
theorem one_worker_in_turn {body : J → Body S V} {p₀ : Pool J V} {s₀ : S}
    {ms : List (Pool.Moment J V)} {x : Workshop S J V} (h₀ : Pool.Fresh 1 p₀)
    (hr : Run body (.opened p₀ s₀) ms x) (ht : ∀ m ∈ ms, m.Timely) :
    Pool.accepted ms = Pool.ran ms ++ (x.pool.taskOf 0).toList ++ x.pool.queue.tasks ∧
      (∀ w task, x.pool.taskOf w = some task → w = 0) ∧
      Pool.outcomes ms = (inTurn body s₀ (Pool.ran ms)).2 ∧
      (x.pool.taskOf 0 = none → x.state = (inTurn body s₀ (Pool.ran ms)).1) ∧
      (∀ o ∈ Pool.outcomes ms, o.1.watched = true →
        ∃ s, x.pool.slot? o.1.seq = some s ∧ s.result = o.2.yielded) ∧
      ((∃ m ∈ ms, m.closes) →
        Pool.accepted ms = Pool.ran ms ++ x.pool.queue.tasks ∧
        x.state = (inTurn body s₀ (Pool.ran ms)).1 ∧
        ((∀ m ∈ ms, ∀ q, m.event ≠ .pin 0 (some q)) →
          (∀ o ∈ (inTurn body s₀ (Pool.accepted ms)).2, ∀ heard,
            Pool.Completion.fells ⟨0,o.1,o.2,heard⟩ = false) →
          x.state = (inTurn body s₀ (Pool.accepted ms)).1 ∧
          ∀ o ∈ (inTurn body s₀ (Pool.accepted ms)).2, o.1.watched = true →
            ∃ s, x.pool.slot? o.1.seq = some s ∧ s.result = o.2.yielded)) := by
  have hp := hr.pool
  have hs := hr.serial h₀ ht
  have haccepted := hp.accepted_eq_ended h₀ ht
  have hslots : ∀ o ∈ Pool.outcomes ms, o.1.watched = true →
      ∃ s, x.pool.slot? o.1.seq = some s ∧ s.result = o.2.yielded := by
    intro o ho hwatched
    obtain ⟨c,hc,rfl⟩ := List.mem_map.mp ho
    exact hp.slot?_of_completion h₀ hc hwatched
  refine ⟨haccepted,?_,hs.ended,fun hfree => (hs.between hfree).2,hslots,?_⟩
  · intro w task hw
    exact hp.worker_eq_zero h₀ ht hw
  · intro hclosed
    have hdeserted := hp.deserted_of_closed h₀ ht hclosed
    have hfree : x.pool.taskOf 0 = none := Pool.taskOf_of_deserted hdeserted 0
    have hstate := (hs.between hfree).2
    rw [hfree, Option.toList_none, List.append_nil] at haccepted
    refine ⟨haccepted,hstate,?_⟩
    intro hpin hquiet
    have hstruck := hs.not_struck haccepted hpin hquiet
    have hempty : x.pool.queue.tasks = [] := by
      refine List.eq_nil_iff_forall_not_mem.mpr ?_
      intro task htask
      exact hstruck (hp.struck_of_stranded h₀ ht hdeserted htask 0 Nat.one_pos)
    rw [hempty, List.append_nil] at haccepted
    rw [haccepted, ← hs.ended]
    exact ⟨hstate,hslots⟩

/-- Three bodies that work on a counter. The second one panics after its step. -/
def counting : Nat → Body Nat Nat
  | 0 => .act (· + 1) fun _ => .act (· * 10) fun n => .stop (.returned n)
  | 1 => .act (· + 2) fun _ => .stop (.unwound (.text "boom"))
  | _ => .act (· * 3) fun n => .stop (.returned n)

/-- The second body is submitted by another thread in the middle of the first one, and the shutdown
begins while all three are waiting or at work. -/
theorem one_worker_in_turn_two_submitters :
    ∃ (p₀ : Pool Nat Nat) (ms : List (Pool.Moment Nat Nat)) (x : Workshop Nat Nat Nat)
      (first last : Slot Nat), Pool.Fresh 1 p₀ ∧ Run counting (.opened p₀ 0) ms x ∧
        (∀ m ∈ ms, m.Timely) ∧ (∃ m ∈ ms, m.closes) ∧
        Pool.accepted ms = [⟨0,0,true⟩, ⟨1,1,false⟩, ⟨2,2,true⟩] ∧ x.state = 36 ∧
        x.pool.slot? 0 = some first ∧ first.result = .ok 1 ∧
        x.pool.slot? 2 = some last ∧ last.result = .ok 12 := by
  have h₀ : Pool.Fresh 1 (Pool.blank 0 1 (.client 0) : Pool Nat Nat) :=
    ⟨0,"noop",.client 0,_,rfl⟩
  have h : (List.foldlM (go counting) ([],.opened (Pool.blank 0 1 (.client 0)) 0) [
      .pool (.spawn (.client 0) none), .pool (.pin 0),
      .pool (.call (.client 1) (.submit 0 true)), .pool (.proceed (.client 1)), .pool (.claim 0),
      .work 0, .pool (.call (.client 2) (.submit 1 false)), .pool (.proceed (.client 2)),
      .pool (.notify (.client 1) none), .pool (.notify (.client 2) none),
      .pool (.call (.client 1) (.submit 2 true)), .pool (.proceed (.client 1)),
      .pool (.notify (.client 1) none), .pool (.call (.client 0) .shutdown),
      .pool (.proceed (.client 0)), .pool (.proceed (.client 0)), .work 0,
      .pool (.proceed (.client 0)), .work 0, .pool (.claim 0), .work 0, .work 0, .pool (.claim 0),
      .work 0, .work 0, .pool (.claim 0), .pool (.proceed (.client 0)),
      .pool (.proceed (.client 0))]).any (fun r =>
        decide ((∀ m ∈ r.1, m.Timely) ∧ (∃ m ∈ r.1, m.closes) ∧
          Pool.accepted r.1 = [⟨0,0,true⟩, ⟨1,1,false⟩, ⟨2,2,true⟩] ∧
          ∀ m ∈ r.1, m.event.felled? = none)) = true := by
    decide +kernel
  obtain ⟨⟨ms,x⟩,hreplay,hd⟩ := (Option.any_eq_true _ _).mp h
  obtain ⟨ht,hclosed,ha,hpin⟩ := of_decide_eq_true hd
  have hr := run_of_go hreplay
  obtain ⟨-,-,-,-,-,hend⟩ := one_worker_in_turn h₀ hr ht
  obtain ⟨-,-,hall⟩ := hend hclosed
  have hturn : inTurn counting 0 (Pool.accepted ms) =
      (36,[(⟨0,0,true⟩,.returned 1), (⟨1,1,false⟩,.unwound (.text "boom")),
        (⟨2,2,true⟩,.returned 12)]) := by
    rw [ha]
    rfl
  rw [hturn] at hall
  obtain ⟨hstate,hslots⟩ := hall (fun m hm => Pool.ne_pin_of_not_felled (hpin m hm) 0) (by decide)
  obtain ⟨first,hfirst,hres⟩ := hslots (⟨0,0,true⟩,.returned 1) (by simp) rfl
  obtain ⟨last,hlast,hres'⟩ := hslots (⟨2,2,true⟩,.returned 12) (by simp) rfl
  exact ⟨_,ms,x,first,last,h₀,hr,ht,hclosed,ha,hstate,hfirst,hres,hlast,hres'⟩

/-- Two bodies that work on a counter. The first one panics with a payload that panics when it is
dropped. -/
def bursting : Nat → Body Nat Nat
  | 0 => .act (· + 1) fun _ => .stop (.unwound (.fuse "dead"))
  | _ => .act (· + 2) fun _ => .stop (.returned 5)

/-- The second body has been accepted, and when the shutdown has returned it has done nothing to the
state. -/
theorem second_body_left_out :
    ∃ (p₀ : Pool Nat Nat) (ms : List (Pool.Moment Nat Nat)) (x : Workshop Nat Nat Nat),
      Pool.Fresh 1 p₀ ∧ Run bursting (.opened p₀ 0) ms x ∧ (∀ m ∈ ms, m.Timely) ∧
        (∀ m ∈ ms, ∀ q, m.event ≠ .pin 0 (some q)) ∧ (∃ m ∈ ms, m.closes) ∧
        (∃ m ∈ ms, m.effect.reply = some (.accepted 1)) ∧
        (inTurn bursting 0 (Pool.accepted ms)).1 = 3 ∧ x.state = 1 ∧ x.pool.slot? 1 = none := by
  have h₀ : Pool.Fresh 1 (Pool.blank 0 1 (.client 0) : Pool Nat Nat) :=
    ⟨0,"noop",.client 0,_,rfl⟩
  have h : (List.foldlM (go bursting) ([],.opened (Pool.blank 0 1 (.client 0)) 0) [
      .pool (.spawn (.client 0) none), .pool (.pin 0),
      .pool (.call (.client 0) (.submit 0 false)), .pool (.proceed (.client 0)),
      .pool (.notify (.client 0) none), .pool (.claim 0), .work 0, .work 0,
      .pool (.call (.client 0) (.submit 1 true)), .pool (.proceed (.client 0)),
      .pool (.notify (.client 0) none), .pool (.call (.client 0) .shutdown),
      .pool (.proceed (.client 0)), .pool (.proceed (.client 0)), .pool (.proceed (.client 0)),
      .pool (.proceed (.client 0)), .pool (.proceed (.client 0))]).any (fun r =>
        decide ((∀ m ∈ r.1, m.Timely) ∧ (∃ m ∈ r.1, m.closes) ∧
          (∃ m ∈ r.1, m.effect.reply = some (.accepted 1)) ∧
          (inTurn bursting 0 (Pool.accepted r.1)).1 = 3 ∧ (∀ m ∈ r.1, m.event.felled? = none) ∧
          r.2.state = 1 ∧ (r.2.pool.slot? 1).isNone = true)) = true := by
    decide +kernel
  obtain ⟨⟨ms,x⟩,hreplay,hd⟩ := (Option.any_eq_true _ _).mp h
  obtain ⟨ht,hclosed,haccepted,hturn,hpin,hstate,hslot⟩ := of_decide_eq_true hd
  refine ⟨_,ms,x,h₀,run_of_go hreplay,ht,?_,hclosed,haccepted,hturn,hstate,?_⟩
  · intro m hm
    exact Pool.ne_pin_of_not_felled (hpin m hm) 0
  · exact Option.isNone_iff_eq_none.mp hslot

end Workshop
end PinnedPool
