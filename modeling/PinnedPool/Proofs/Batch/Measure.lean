import PinnedPool.Proofs.Batch.Course
import PinnedPool.Proofs.Pool.Potential

/-! # No batch goes on for ever

What is left of a batch is what its pool counts for and what its submitters have still to do. A job
that is to be submitted counts for the call, for the number that is returned and for joining it
afterwards. Every move uses something up, but for a wakeup without a signal, which adds one.
-/
namespace PinnedPool.Batch

variable {J V : Type}

def Move.stirs : Move → Bool
  | stir _ => true
  | _ => false

def stirs (vs : List Move) : Nat := vs.countP Move.stirs

/-- What a submitter has still to do. -/
def Submitter.due : Submitter J V → Nat
  | submitting jobs gathered => 7 * jobs.length + gathered.length + 1
  | joining outcomes _ => outcomes.length

/-- While a pool of `n` workers serves, its shutdown is still to come. -/
def Stage.due (n : Nat) : Stage → Nat
  | serving => 2 * n + 6
  | _ => 0

/-- What is left of a batch on a pool of `n` workers, at most. -/
def State.due (n : Nat) (s : State J V) : Nat :=
  s.pool.potential n + s.stage.due n + (s.submitters.map Submitter.due).sum

theorem sum_map_set {A : Type} (g : A → Nat) {l : List A} {i : Nat} {a : A}
    (h : l[i]? = some a) (b : A) : ((l.set i b).map g).sum + g a = (l.map g).sum + g b := by
  induction l generalizing i with
  | nil => simp at h
  | cons x l ih =>
    cases i with
    | zero =>
      obtain rfl : x = a := by simpa using h
      simp only [List.set_cons_zero, List.map_cons, List.sum_cons]
      omega
    | succ i =>
      have := ih (by simpa using h)
      simp only [List.set_cons_succ, List.map_cons, List.sum_cons]
      omega

section Submitter
variable {s : State J V} {i : Nat} {u : Submitter J V} (hi : s.submitters[i]? = some u) (n : Nat)
include hi

theorem due_set (q : Pool J V) (hstage : s.stage = .serving) (u' : Submitter J V)
    (log : List (ThreadId × Log.Line)) :
    State.due n ⟨q,.serving,s.submitters.set i u',log⟩ + s.pool.potential n + u.due =
      s.due n + q.potential n + u'.due := by
  have hsum := sum_map_set Submitter.due hi u'
  unfold State.due
  rw [hstage]
  dsimp only
  omega

end Submitter

theorem isProgress_building (b : Batch J V) (p : Pool J V) :
    (b.building p).isProgress = true := by
  unfold building
  split <;> rfl

namespace Course
variable {b : Batch J V} {n : Nat} {jobs : List (List J)} {ms : List (Pool.Moment J V)}
  {s : State J V} (hc : Course b n jobs ms s)
include hc

theorem potential_step {e : Pool.Event J V} {f : Pool.Effect J V} (h : s.pool.step e = some f)
    (he : e.isProgress = true) :
    f.pool.potential n + f.reply.elim 0 (Reply.change n) + 1 ≤ s.pool.potential n :=
  Pool.potential_step h (hc.run.distinct hc.fresh) (hc.run.threads_eq hc.fresh) hc.guarded.reserved
    (hc.run.length_le hc.fresh hc.timely) he
    fun _ _ hcall => not_waiting hc.fresh hc.run hc.fits hcall

theorem potential_call {t : ThreadId} {r : Pool.Request J} {f : Pool.Effect J V}
    (h : s.pool.step (.call t r) = some f) :
    f.pool.potential n = s.pool.potential n + r.start.price n := by
  cases Pool.transition h with
  | call idle => exact Pool.potential_call n (hc.run.distinct hc.fresh) idle _

/-- What is left over of the call that builds the pool pays for the shutdown. -/
theorem due_ofBuilding (hstage : s.stage = .building) {f : Pool.Effect J V}
    (h : s.pool.step (b.building s.pool) = some f) :
    (Stage.ofBuilding f.reply).due n = f.reply.elim 0 (Reply.change n) := by
  have hcaller := (hc.staged_of_building hstage h).2.2
  cases hc.staged_at hstage with
  | building call builds =>
    cases hr : f.reply with
    | none => rfl
    | some r =>
      rcases Pool.builder_step h hc.guarded hc.joinable call builds with ⟨c,hcall,-⟩ | ⟨-,hend⟩
      · obtain ⟨t,-,ht,-,hgone⟩ := Pool.callOf?_of_reply h hr
        rw [hcaller] at ht
        cases ht
        rw [hcall] at hgone
        cases hgone
      · rw [hr] at hend
        rcases hend with ⟨hbuilt,-⟩ | ⟨e,hrefused,-⟩
        · cases hbuilt
          rfl
        · cases hrefused
          rfl

/-- What is left over of a submission pays for joining its job. -/
theorem due_of_call (hstage : s.stage = .serving) {i : Nat} {pick : Option Nat} {u : Submitter J V}
    {c : Call J} {f : Pool.Effect J V} (hi : s.submitters[i]? = some u)
    (call : s.pool.callOf? (submitterThread i) = some c)
    (h : s.pool.step (c.next (submitterThread i) pick) = some f) :
    (f.reply.elim u u.accept).due = u.due + f.reply.elim 0 (Reply.change n) := by
  obtain ⟨js,hu⟩ := hc.exists_served hi
  rw [call] at hu
  cases hu with
  | appending =>
    rw [(Pool.append_step h call (hc.serving hstage).2.2).1]
    rfl
  | notifying =>
    rw [(Pool.notify_step h call).1]
    simp only [Option.elim_some, Submitter.accept, Submitter.due, List.length_cons, Reply.change]
    omega

/-- Every move uses something up, but a wakeup without a signal adds to what is left. -/
theorem due_move {v : Move} {s' : State J V} (h : Transition b s v s') :
    s'.due n + 1 ≤ s.due n + 2 * v.stirs.toNat := by
  have hworker : ∀ {e f log}, s.pool.step e = some f → e.isProgress = true →
      State.due n ⟨f.pool,s.stage,s.submitters,log⟩ + 1 ≤ s.due n := by
    intro e f log h he
    have hpot := hc.potential_step h he
    unfold State.due
    dsimp only
    omega
  cases h with
  | build stage step =>
    have hpot := hc.potential_step step (b.isProgress_building _)
    have hdue := hc.due_ofBuilding stage step
    have hfrom : s.stage.due n = 0 := by rw [stage]; rfl
    unfold State.due
    dsimp only
    omega
  | close stage finished step =>
    have hpot := hc.potential_call step
    simp only [Pool.Request.start, Call.price] at hpot
    simp only [State.due, stage, Stage.due]
    omega
  | @bringDown f log stage step =>
    have hpot := hc.potential_step step rfl
    have hdue : (Stage.ofClosing f.reply).due n = 0 := by
      rcases f.reply with _ | r
      · rfl
      · cases r <;> rfl
    unfold State.due
    dsimp only
    omega
  | @go i pick u c f log stage submitter call step =>
    have hpot := hc.potential_step step (by cases c <;> rfl)
    have hdue := hc.due_of_call stage submitter call step
    have hset := due_set submitter n f.pool stage (f.reply.elim u u.accept) log
    omega
  | @submit i pick job jobs gathered f log stage submitter idle step =>
    have hpot := hc.potential_call step
    have hset := due_set submitter n f.pool stage (.submitting jobs gathered) log
    simp only [Pool.Request.start, Call.price] at hpot
    simp only [Submitter.due, List.length_cons] at hset
    omega
  | @turn i pick gathered log stage submitter idle =>
    have hset := due_set submitter n s.pool stage (.joining gathered.reverse []) log
    simp only [Submitter.due, List.length_nil, List.length_reverse] at hset
    omega
  | @join i pick seq outcomes gathered slot log stage submitter idle settled =>
    have hset := due_set submitter n s.pool stage (.joining outcomes (slot.result :: gathered)) log
    simp only [Submitter.due, List.length_cons] at hset
    omega
  | @skip i pick e outcomes gathered log stage submitter idle =>
    have hset := due_set submitter n s.pool stage (.joining outcomes (.error e :: gathered)) log
    simp only [Submitter.due, List.length_cons] at hset
    omega
  | pin starting step | claim step | finish running step =>
    exact Nat.le_add_right_of_le (hworker step rfl)
  | @stir w f log step =>
    cases Pool.transition step with
    | stir hw =>
      have hset := Pool.potential_setWorker n hw .ready
      simp only [Worker.toil] at hset
      simp only [State.due, Move.stirs, Bool.toNat_true]
      omega

end Course

section Run
variable {b : Batch J V} {n : Nat} {jobs : List (List J)} {ms : List (Pool.Moment J V)}
  {s₀ s : State J V}

theorem stirs_snoc (vs : List Move) (v : Move) : stirs (vs ++ [v]) = stirs vs + v.stirs.toNat := by
  simp only [stirs, List.countP_append, Pool.countP_singleton_toNat]

/-- A schedule is as long as there is something left, and twice as long as there are wakeups without
a signal. -/
theorem Run.length_le (h₀ : Course b n jobs ms s₀) {vs : List Move}
    (hr : Run b s₀ vs s) : vs.length + s.due n ≤ s₀.due n + 2 * stirs vs := by
  induction hr with
  | start => simp [stirs]
  | @step vs s v s' hr h ih =>
    obtain ⟨ns,hc⟩ := hr.course h₀
    have hmove := hc.due_move (transition h)
    rw [stirs_snoc, List.length_append, List.length_singleton]
    omega

theorem due_start_le (n : Nat) (lines : List Log.Line) (jobs : List (List J)) :
    State.due n (start (Pool.blank 0 n mainThread : Pool J V) lines jobs) ≤ bound n jobs := by
  have hjobs : ((jobs.map fun js => (Submitter.submitting js [] : Submitter J V)).map
      Submitter.due).sum = 7 * jobs.flatten.length + jobs.length := by
    induction jobs with
    | nil => rfl
    | cons js jobs ih =>
      simp only [List.map_cons, List.sum_cons, ih, Submitter.due, List.length_nil,
        List.flatten_cons, List.length_append, List.length_cons]
      omega
  have hpool : (Pool.blank 0 n mainThread : Pool J V).potential n = 6 * n + 7 := by
    have hqueue : (Queue.empty : Queue J).tasks = [] := rfl
    simp only [Pool.potential, Pool.labor, Pool.outlay, Pool.blank, Pool.legs, hqueue,
      List.length_nil, List.countP_nil, List.map_cons, List.map_nil, List.sum_cons, List.sum_nil,
      Call.price]
    omega
  unfold State.due bound
  dsimp only [start]
  rw [hpool, hjobs]
  simp only [Stage.due]
  omega

end Run

end PinnedPool.Batch
