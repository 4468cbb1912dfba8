import PinnedPool.Pool.Batch
import PinnedPool.Proofs.Pool.Handles

/-! # What a move of a batch can do

`Transition` lists the moves with what each of them needs, and `transition` says that there are no
others. A run takes moves in any order, which is what a schedule is.
-/
namespace PinnedPool

variable {J V : Type}

/-- The event by which a call of a submission goes on, with the worker to wake if it is to wake one. -/
def Call.next (t : ThreadId) (pick : Option Nat) : Call J → Pool.Event J V
  | .notify _ => .notify t pick
  | _ => .proceed t

namespace Batch

/-- The event by which the main thread goes on building. -/
def building (b : Batch J V) (p : Pool J V) : Pool.Event J V :=
  match p.callOf? mainThread with
  | some .build => .spawn mainThread (b.refusal p.workers.length)
  | _ => .proceed mainThread

/-- The stage that a step of the building leads to. -/
def Stage.ofBuilding : Option Reply → Stage
  | none => .building
  | some (.notBuilt e) => .failed e
  | some (.unwound p) => .unwound p
  | some _ => .serving

/-- The stage that a step of the shutdown leads to. -/
def Stage.ofClosing : Option Reply → Stage
  | none => .closing
  | some (.unwound p) => .unwound p
  | some _ => .closed

/-- The moves; what is logged is left open. -/
inductive Transition (b : Batch J V) (s : State J V) : Move → State J V → Prop
  | build {f log} (stage : s.stage = .building)
      (step : s.pool.step (b.building s.pool) = some f) :
      Transition b s .main ⟨f.pool,.ofBuilding f.reply,s.submitters,log⟩
  | close {f log} (stage : s.stage = .serving)
      (finished : ∀ u ∈ s.submitters, u.finished = true)
      (step : s.pool.step (.call mainThread .shutdown) = some f) :
      Transition b s .main ⟨f.pool,.closing,s.submitters,log⟩
  | bringDown {f log} (stage : s.stage = .closing)
      (step : s.pool.step (.proceed mainThread) = some f) :
      Transition b s .main ⟨f.pool,.ofClosing f.reply,s.submitters,log⟩
  | go {i pick u c f log} (stage : s.stage = .serving) (submitter : s.submitters[i]? = some u)
      (call : s.pool.callOf? (submitterThread i) = some c)
      (step : s.pool.step (c.next (submitterThread i) pick) = some f) :
      Transition b s (.submitter i pick)
        ⟨f.pool,.serving,s.submitters.set i (f.reply.elim u u.accept),log⟩
  | submit {i pick job jobs gathered f log} (stage : s.stage = .serving)
      (submitter : s.submitters[i]? = some (.submitting (job :: jobs) gathered))
      (idle : s.pool.callOf? (submitterThread i) = none)
      (step : s.pool.step (.call (submitterThread i) (.submit job true)) = some f) :
      Transition b s (.submitter i pick)
        ⟨f.pool,.serving,s.submitters.set i (.submitting jobs gathered),log⟩
  | turn {i pick gathered log} (stage : s.stage = .serving)
      (submitter : s.submitters[i]? = some (.submitting [] gathered))
      (idle : s.pool.callOf? (submitterThread i) = none) :
      Transition b s (.submitter i pick)
        ⟨s.pool,.serving,s.submitters.set i (.joining gathered.reverse []),log⟩
  | join {i pick seq outcomes gathered slot log} (stage : s.stage = .serving)
      (submitter : s.submitters[i]? = some (.joining (.ok seq :: outcomes) gathered))
      (idle : s.pool.callOf? (submitterThread i) = none)
      (settled : s.pool.slot? seq = some slot) :
      Transition b s (.submitter i pick)
        ⟨s.pool,.serving,s.submitters.set i (.joining outcomes (slot.result :: gathered)),log⟩
  | skip {i pick e outcomes gathered log} (stage : s.stage = .serving)
      (submitter : s.submitters[i]? = some (.joining (.error e :: outcomes) gathered))
      (idle : s.pool.callOf? (submitterThread i) = none) :
      Transition b s (.submitter i pick)
        ⟨s.pool,.serving,s.submitters.set i (.joining outcomes (.error e :: gathered)),log⟩
  | pin {w f log} (starting : s.pool.workers[w]? = some .starting)
      (step : s.pool.step (.pin w (b.controller.apply .performance (some (Log.workerName w))
        b.mask).unwound) = some f) :
      Transition b s (.worker w) ⟨f.pool,s.stage,s.submitters,log⟩
  | claim {w f log} (step : s.pool.step (.claim w) = some f) :
      Transition b s (.worker w) ⟨f.pool,s.stage,s.submitters,log⟩
  | finish {w task ticket f log} (running : s.pool.workers[w]? = some (.running task ticket))
      (step : s.pool.step (.finish w (b.work task.job ticket)) = some f) :
      Transition b s (.worker w) ⟨f.pool,s.stage,s.submitters,log⟩
  | stir {w f log} (step : s.pool.step (.stir w) = some f) :
      Transition b s (.stir w) ⟨f.pool,s.stage,s.submitters,log⟩

variable {b : Batch J V} {s s' : State J V}

theorem onPool_eq_some {t : ThreadId} {e : Pool.Event J V} {r : State J V × Option Reply}
    (h : onPool s t e = some r) :
    ∃ f, s.pool.step e = some f ∧ r.2 = f.reply ∧ ∃ log, r.1 = ⟨f.pool,s.stage,s.submitters,log⟩ := by
  obtain ⟨f,hf,rfl⟩ := Option.map_eq_some_iff.mp h
  exact ⟨f,hf,rfl,_,rfl⟩

theorem join_channel (p : Pool J V) (seq : Nat) :
    TaskHandle.join (.plain _) (p.channel seq) = (p.slot? seq).map Slot.result :=
  (TaskHandle.join_eq ChannelLibrary.plain_documented (p.channel seq)).trans
    (Slot.outcome?_channel _)

theorem transition_main (h : b.stepMain s = some s') : Transition b s .main s' := by
  unfold stepMain at h
  split at h
  · rename_i hstage
    obtain ⟨⟨r,reply⟩,hr,h⟩ := Option.map_eq_some_iff.mp h
    obtain ⟨f,hf,rfl,log,rfl⟩ := onPool_eq_some hr
    have hs' : s' = ⟨f.pool,.ofBuilding f.reply,s.submitters,log⟩ := by
      cases h
      rw [hstage]
      rcases f.reply with _ | r
      · rfl
      · cases r <;> rfl
    rw [hs']
    exact .build hstage hf
  · rename_i hstage
    split at h
    · obtain ⟨⟨r,reply⟩,hr,h⟩ := Option.map_eq_some_iff.mp h
      obtain ⟨f,hf,rfl,log,rfl⟩ := onPool_eq_some hr
      cases h
      exact .close hstage (List.all_eq_true.mp ‹_›) hf
    · cases h
  · rename_i hstage
    obtain ⟨⟨r,reply⟩,hr,h⟩ := Option.map_eq_some_iff.mp h
    obtain ⟨f,hf,rfl,log,rfl⟩ := onPool_eq_some hr
    have hs' : s' = ⟨f.pool,.ofClosing f.reply,s.submitters,log⟩ := by
      cases h
      rw [hstage]
      rcases f.reply with _ | r
      · rfl
      · cases r <;> rfl
    rw [hs']
    exact .bringDown hstage hf
  · cases h
  · cases h
  · cases h

theorem set_of_getElem? {A : Type} {as : List A} {i : Nat} {a : A} (h : as[i]? = some a) :
    as.set i a = as := by
  obtain ⟨hlt,rfl⟩ := List.getElem?_eq_some_iff.mp h
  exact List.set_getElem_self hlt

theorem transition_submitter {i : Nat} {pick : Option Nat} (h : stepSubmitter s i pick = some s') :
    Transition b s (.submitter i pick) s' := by
  unfold stepSubmitter at h
  split at h
  · rename_i u hstage hu
    cases hcall : s.pool.callOf? (submitterThread i) with
    | some c =>
      simp only [hcall] at h
      obtain ⟨⟨r,reply⟩,hr,h⟩ := Option.map_eq_some_iff.mp h
      obtain ⟨f,hf,rfl,log,rfl⟩ := onPool_eq_some hr
      have hnext : s.pool.step (c.next (submitterThread i) pick) = some f := by
        cases c <;> exact hf
      dsimp only at h
      rw [hstage] at h
      have hs' : s' = ⟨f.pool,.serving,s.submitters.set i (f.reply.elim u u.accept),
          log⟩ := by
        cases hreply : f.reply with
        | some r =>
          rw [hreply] at h
          cases h
          rfl
        | none =>
          rw [hreply] at h
          cases h
          rw [Option.elim_none, set_of_getElem? hu]
      rw [hs']
      exact .go hstage hu hcall hnext
    | none =>
      simp only [hcall] at h
      split at h
      · obtain ⟨⟨r,reply⟩,hr,h⟩ := Option.map_eq_some_iff.mp h
        obtain ⟨f,hf,rfl,log,rfl⟩ := onPool_eq_some hr
        cases h
        dsimp only
        rw [hstage]
        exact .submit hstage hu hcall hf
      · cases h
        rw [hstage]
        exact .turn hstage hu hcall
      · rw [join_channel, Option.map_map] at h
        obtain ⟨slot,hslot,h⟩ := Option.map_eq_some_iff.mp h
        cases h
        dsimp only [Function.comp]
        rw [hstage]
        exact .join hstage hu hcall hslot
      · cases h
        rw [hstage]
        exact .skip hstage hu hcall
      · cases h
  · cases h

theorem transition_worker {w : Nat} (h : b.stepWorker s w = some s') :
    Transition b s (.worker w) s' := by
  unfold stepWorker at h
  split at h
  · rename_i hw
    obtain ⟨⟨r,reply⟩,hr,h⟩ := Option.map_eq_some_iff.mp h
    obtain ⟨f,hf,rfl,log,rfl⟩ := onPool_eq_some hr
    cases h
    exact .pin hw hf
  · obtain ⟨⟨r,reply⟩,hr,h⟩ := Option.map_eq_some_iff.mp h
    obtain ⟨f,hf,rfl,log,rfl⟩ := onPool_eq_some hr
    cases h
    exact .claim hf
  · rename_i hw
    obtain ⟨⟨r,reply⟩,hr,h⟩ := Option.map_eq_some_iff.mp h
    obtain ⟨f,hf,rfl,log,rfl⟩ := onPool_eq_some hr
    cases h
    exact .finish hw hf
  · cases h

theorem transition {v : Move} (h : b.step s v = some s') : Transition b s v s' := by
  cases v with
  | main => exact transition_main h
  | submitter i pick => exact transition_submitter h
  | worker w => exact transition_worker h
  | stir w =>
    obtain ⟨⟨r,reply⟩,hr,h⟩ := Option.map_eq_some_iff.mp h
    obtain ⟨f,hf,rfl,log,rfl⟩ := onPool_eq_some hr
    cases h
    exact .stir hf

/-- The moves of one schedule, in order, and where they lead. -/
inductive Run (b : Batch J V) (s₀ : State J V) : List Move → State J V → Prop
  | start : Run b s₀ [] s₀
  | step {vs s v s'} (hr : Run b s₀ vs s) (h : b.step s v = some s') : Run b s₀ (vs ++ [v]) s'

end Batch
end PinnedPool
