import PinnedPool.Proofs.Registry.Cell
import PinnedPool.Proofs.Registry.Whereabouts

/-! # The calls of a registry as atomic steps

Whatever its callers do at the same time, every call of a registry can be taken for one step on a
cell, made at some moment between its beginning and its end. That moment is the one at which the
pool is found, stored or taken out, or at which the attempt to build one has failed.
-/
namespace PinnedPool

variable {J V : Type}

namespace Estate
open Registry

/-- The beginning or the end of a call. -/
def Moment.mark? (m : Moment J V) : Option Mark :=
  match m.event with
  | .ask t q => some (.asked t q)
  | .leave t => m.effect.reply.map (.answered t)
  | _ => none

/-- The beginnings and ends of all calls of the registry, in the order in which they happened. -/
def history (ms : List (Moment J V)) : List Mark := ms.filterMap Moment.mark?

theorem history_snoc (ms : List (Moment J V)) (m : Moment J V) :
    history (ms ++ [m]) = history ms ++ m.mark?.toList := by
  rw [history, List.filterMap_append]
  exact congrArg _ (Pool.filterMap_singleton _ m)

/-- Where a thread is in its call after the marks that it has made, if the shutdown that is on its way
ends in this panic or in none. -/
inductive Agrees (panic : Option Payload) : Stage → Option Registry.Call → Prop
  | out : Agrees panic .out none
  | entering {q} : Agrees panic (.waiting q) (some (.entering q))
  | creating {q config line} (wanted : q.wanted? = some config.threads) :
    Agrees panic (.waiting q) (some (.creating config line))
  | stopping {held} : Agrees panic (.done (.quit panic)) (some (.stopping held))
  | leaving {r} : Agrees panic (.done r) (some (.leaving r))

theorem Agrees.of_not_stopping {panic : Option Payload} {stage : Stage} {rc : Option Registry.Call}
    (h : Agrees panic stage rc) (hrc : ∀ held, rc ≠ some (.stopping held)) (panic' : Option Payload) :
    Agrees panic' stage rc := by
  cases h with
  | out => exact .out
  | entering => exact .entering
  | creating hwanted => exact .creating hwanted
  | stopping => exact absurd rfl (hrc _)
  | leaving => exact .leaving

/-- The marks tell what has become of the calls, and the cell is as the registry's slot. A shutdown is
served when it takes the pool out, so its answer depends on what is still to come. -/
structure Served (s : Estate J V) (panic : Option Payload) (ms : List (Moment J V))
    (marks : List Mark) (c : Cell) : Prop where
  whole : marks.filter (·.service?.isNone) = history ms
  agrees : ∀ t, ∃ stage, stage? t marks = some stage ∧ Agrees panic stage (s.registry.callOf? t)
  serial : Cell.empty.Serial (services marks) c
  slot : c.slot = s.registry.slot
  past : ∀ held ∈ c.past, s.Stands held.pool fun p => p.threads = held.threads

theorem Served.linearizes {s : Estate J V} {panic : Option Payload} {ms : List (Moment J V)}
    {marks : List Mark} {c : Cell} (hv : s.Served panic ms marks c) :
    Linearizes (history ms) marks c where
  whole := hv.whole
  orderly := by
    intro t
    obtain ⟨stage,hstage,-⟩ := hv.agrees t
    rw [hstage]
    rfl
  serial := hv.serial

/-- A pool that stands goes on standing, with as many workers. -/
theorem stands_step {s : Estate J V} {e : Event J V} {f : Effect J V} (h : s.step e = some f)
    {k n : Nat} (hst : s.Stands k fun p => p.threads = n) :
    f.estate.Stands k fun p => p.threads = n := by
  obtain ⟨p,hp,hstands,hn⟩ := hst
  obtain ⟨q,hq,rfl | ⟨e,g,hg,rfl⟩⟩ := pool_step h hp
  · exact ⟨q,hq,hstands,hn⟩
  · exact ⟨g.pool,hq,Pool.standing_step hg hstands,(Pool.fixed_step hg).2.trans hn⟩

section Step
variable {s : Estate J V} {e : Event J V} {f : Effect J V} {panic : Option Payload}
  {ms : List (Moment J V)} {marks : List Mark} {c : Cell} (hv : s.Served panic ms marks c)
include hv

theorem Served.agrees_snoc {m : Mark} {stage stage' : Stage}
    (hstage : stage? m.thread marks = some stage) (hnext : stage.next m = some stage')
    (hself : Agrees panic stage' (f.estate.registry.callOf? m.thread))
    (hother : ∀ t, t ≠ m.thread → f.estate.registry.callOf? t = s.registry.callOf? t)
    (t : ThreadId) : ∃ stage, stage? t (marks ++ [m]) = some stage ∧
      Agrees panic stage (f.estate.registry.callOf? t) := by
  rw [stage?_snoc]
  by_cases ht : m.thread = t
  · subst ht
    rw [if_pos rfl, hstage]
    exact ⟨stage',hnext,hself⟩
  · rw [if_neg ht, hother t (Ne.symm ht)]
    exact hv.agrees t

/-- The call of a thread that is building a pool. -/
theorem Served.creating {t : ThreadId} {config : Config} {line : Nat → Log.Line}
    (hc : s.registry.callOf? t = some (.creating config line)) :
    ∃ q, stage? t marks = some (.waiting q) ∧ q.wanted? = some config.threads := by
  obtain ⟨stage,hstage,hagrees⟩ := hv.agrees t
  rw [hc] at hagrees
  cases hagrees with
  | creating hwanted => exact ⟨_,hstage,hwanted⟩

variable (h : s.step e = some f)
include h

/-- A step that neither begins nor serves nor ends a call. -/
theorem Served.quiet {panic' : Option Payload} (hm : Moment.mark? ⟨s,e,f⟩ = none)
    (hslot : f.estate.registry.slot = s.registry.slot)
    (hcalls : ∀ t stage, Agrees panic stage (s.registry.callOf? t) →
      Agrees panic' stage (f.estate.registry.callOf? t)) :
    f.estate.Served panic' (ms ++ [⟨s,e,f⟩]) marks c where
  whole := by
    rw [hv.whole, history_snoc, hm]
    exact (List.append_nil _).symm
  agrees := by
    intro t
    obtain ⟨stage,hstage,hagrees⟩ := hv.agrees t
    exact ⟨stage,hstage,hcalls t stage hagrees⟩
  serial := hv.serial
  slot := hv.slot.trans hslot.symm
  past := fun held hheld => stands_step h (hv.past held hheld)

/-- A step that begins or ends a call. -/
theorem Served.border {m : Mark} {stage stage' : Stage}
    (hm : Moment.mark? ⟨s,e,f⟩ = some m) (hservice : m.service? = none)
    (hstage : stage? m.thread marks = some stage) (hnext : stage.next m = some stage')
    (hself : Agrees panic stage' (f.estate.registry.callOf? m.thread))
    (hother : ∀ t, t ≠ m.thread → f.estate.registry.callOf? t = s.registry.callOf? t)
    (hslot : f.estate.registry.slot = s.registry.slot) :
    f.estate.Served panic (ms ++ [⟨s,e,f⟩]) (marks ++ [m]) c where
  whole := by
    rw [List.filter_append, hv.whole, history_snoc, hm, List.filter_singleton, hservice]
    rfl
  agrees := hv.agrees_snoc hstage hnext hself hother
  serial := by
    rw [services_snoc, hservice]
    simpa using hv.serial
  slot := hv.slot.trans hslot.symm
  past := fun held hheld => stands_step h (hv.past held hheld)

/-- A step that serves the call of a thread. -/
theorem Served.serve {t : ThreadId} {q : Request} {r : Registry.Reply} {slot : Option Held}
    {rc : Registry.Call} {d : Cell} (hm : Moment.mark? ⟨s,e,f⟩ = none)
    (hstage : stage? t marks = some (.waiting q))
    (hr : f.estate.registry = { s.registry with slot := slot }.setCall t rc)
    (hrc : Agrees panic (.done r) (some rc)) (hd : c.Serves q r d) (hslot : d.slot = slot)
    (hpast : ∀ held ∈ d.past, held ∈ c.past ∨
      f.estate.Stands held.pool fun p => p.threads = held.threads) :
    ∃ marks' c', f.estate.Served panic (ms ++ [⟨s,e,f⟩]) marks' c' := by
  refine ⟨marks ++ [.served t q r],d,?_,?_,?_,?_,?_⟩
  · rw [List.filter_append, hv.whole, history_snoc, hm]
    rfl
  · have hnext : Stage.next (.waiting q) (.served t q r) = some (.done r) := by simp [Stage.next]
    refine hv.agrees_snoc hstage hnext ?_ ?_
    · rw [hr, Mark.thread, callOf?_setCall_self]
      exact hrc
    · intro u hu
      rw [hr]
      exact callOf?_setCall_ne _ hu
  · rw [services_snoc]
    exact hv.serial.serve hd
  · rw [hr]
    exact hslot
  · intro held hheld
    rcases hpast held hheld with hold | hnew
    · exact stands_step h (hv.past held hold)
    · exact hnew

/-- The thread that was about to enter has got the lock and looked into the slot. -/
theorem Served.look {t : ThreadId} {q : Request} (hm : Moment.mark? ⟨s,e,f⟩ = none)
    (hc : s.registry.callOf? t = some (.entering q))
    (hlook : Looked s.registry t q f.estate.registry) :
    ∃ marks' c', f.estate.Served panic (ms ++ [⟨s,e,f⟩]) marks' c' := by
  have hslot := hv.slot
  have hstage : stage? t marks = some (.waiting q) := by
    obtain ⟨stage,hstage,hagrees⟩ := hv.agrees t
    rw [hc] at hagrees
    cases hagrees
    exact hstage
  generalize hr : f.estate.registry = r at hlook
  cases hlook with
  | found hq hs =>
    exact hv.serve h hm hstage hr .leaving (.found hq (hslot.trans hs)) hslot fun _ => .inl
  | nothing hs =>
    exact hv.serve h hm hstage hr .leaving (.nothing (hslot.trans hs)) hslot fun _ => .inl
  | taken hs =>
    exact hv.serve h hm hstage hr .stopping (.quit (hslot.trans hs) panic) rfl fun _ => .inl
  | vacant hs => exact hv.serve h hm hstage hr .leaving .shutdown hs.symm fun _ => .inl
  | missed hwanted hs =>
    -- the call will be served when the new pool stands, or does not
    refine ⟨marks,c,hv.quiet h hm (by rw [hr]; rfl) ?_⟩
    intro u stage hagrees
    rw [hr, callOf?_setCall]
    by_cases hu : u = t
    · subst hu
      rw [hc] at hagrees
      cases hagrees
      rw [if_pos rfl]
      exact .creating hwanted
    · rw [if_neg hu]
      exact hagrees

end Step

/-- The end of a shutdown tells which answer it was served with. Nobody else is in a shutdown then, so
nothing else depends on that. -/
theorem Served.quit {s : Estate J V} {e : Event J V} {f : Effect J V} (h : s.step e = some f)
    (hs : s.Posted) {ms : List (Moment J V)} {panic : Option Payload} {marks : List Mark} {c : Cell}
    (hv : s.Served panic ms marks c) {t : ThreadId} {held : Held}
    (hc : s.registry.callOf? t = some (.stopping held)) (hm : Moment.mark? ⟨s,e,f⟩ = none)
    (hr : f.estate.registry = s.registry.setCall t (.leaving (.quit panic)))
    (panic' : Option Payload) :
    f.estate.Served panic' (ms ++ [⟨s,e,f⟩]) marks c := by
  refine hv.quiet h hm (by rw [hr]; rfl) ?_
  intro u stage hagrees
  rw [hr, callOf?_setCall]
  by_cases hu : u = t
  · subst hu
    rw [hc] at hagrees
    cases hagrees
    rw [if_pos rfl]
    exact .leaving
  · rw [if_neg hu]
    exact hagrees.of_not_stopping (fun held' hstop => hu (hs.tidy.holder hc rfl u _ hstop rfl)) panic'

theorem served_step {s : Estate J V} {e : Event J V} {f : Effect J V} (h : s.step e = some f)
    (hs : s.Posted) {ms : List (Moment J V)}
    (hall : ∀ panic, ∃ marks c, s.Served panic ms marks c) (panic : Option Payload) :
    ∃ marks' c', f.estate.Served panic (ms ++ [⟨s,e,f⟩]) marks' c' := by
  obtain ⟨marks,c,hv⟩ := hall panic
  have hempty : ∀ {t config line}, s.registry.callOf? t = some (.creating config line) →
      s.registry.slot = none := fun hc => hs.tidy.vacant _ _ hc rfl
  cases transition h with
  | @ask t request hidle hc =>
    obtain ⟨stage,hstage,hagrees⟩ := hv.agrees t
    rw [hc] at hagrees
    cases hagrees
    have hnext : Stage.next .out (.asked t request) = some (.waiting request) := rfl
    refine ⟨_,c,hv.border h rfl rfl hstage hnext ?_ ?_ rfl⟩
    · rw [Mark.thread, callOf?_setCall_self]
      exact .entering
    · intro u hu
      exact callOf?_setCall_ne _ hu
  | enter hc _ hlook => exact hv.look h rfl hc hlook
  | begin => exact ⟨marks,c,hv.quiet h rfl rfl fun _ _ hagrees => hagrees⟩
  | fail hc hidle hfails =>
    obtain ⟨q,hstage,hwanted⟩ := hv.creating hc
    have hd := Cell.Serves.failed hwanted (hv.slot.trans (hempty hc)) hfails
    exact hv.serve h rfl hstage rfl .leaving hd hv.slot fun _ => .inl
  | shut => exact ⟨marks,c,hv.quiet h rfl rfl fun _ _ hagrees => hagrees⟩
  | @leave t reply hc =>
    obtain ⟨stage,hstage,hagrees⟩ := hv.agrees t
    rw [hc] at hagrees
    cases hagrees
    have hnext : Stage.next (.done reply) (.answered t reply) = some .out := by simp [Stage.next]
    refine ⟨_,c,hv.border h rfl rfl hstage hnext ?_ ?_ rfl⟩
    · rw [Mark.thread, callOf?_endCall, if_pos rfl]
      exact .out
    · intro u hu
      exact callOf?_endCall_ne _ hu
  | pool => exact ⟨marks,c,hv.quiet h rfl rfl fun _ _ hagrees => hagrees⟩
  | @built i p e f t config line hp ha hstep he hr hc =>
    obtain ⟨q,hstage,hwanted⟩ := hv.creating hc
    obtain ⟨pc,hpc,-,hb,-,hthreads⟩ := hs.returning hp hstep hc he hr
    have hstands := hs.stands_of_built hp hstep hc he hr rfl hpc hb
    have hreached := hs.reached i p hp
    -- a pool that has been handed out is not still being built
    have hnew : ∀ held ∈ c.past, held.pool ≠ i := by
      rintro held hheld rfl
      obtain ⟨p',hp',hstands',-⟩ := hv.past held hheld
      rw [hp] at hp'
      cases hp'
      exact hreached.guarded.reserved.not_standing hpc hb hstands'
    have hd := Cell.Serves.created (hwanted.trans (congrArg some hthreads.symm))
      (hv.slot.trans (hempty hc)) hreached.feasible hnew
    refine hv.serve h rfl hstage rfl .leaving hd rfl ?_
    intro held hheld
    rcases List.mem_cons.mp hheld with rfl | hold
    · refine .inr ⟨f.pool,?_,hstands,(Pool.fixed_step hstep).2⟩
      exact List.getElem?_set_self (List.getElem?_eq_some_iff.mp hp).1
    · exact .inl hold
  | @notBuilt i p e f t config line err hp ha hstep he hr hc =>
    obtain ⟨q,hstage,hwanted⟩ := hv.creating hc
    obtain ⟨pc,-,-,-,-,hthreads⟩ := hs.returning hp hstep hc he hr
    have hfails := Pool.Fails.refused err (hs.reached i p hp).feasible
    rw [hthreads] at hfails
    have hd := Cell.Serves.failed hwanted (hv.slot.trans (hempty hc)) hfails
    exact hv.serve h rfl hstage rfl .leaving hd hv.slot fun _ => .inl
  | buildUnwound hp _ hstep he hr hc =>
    exact absurd rfl (hs.builder_returns hp hstep hc he hr rfl _)
  | stopped _ _ _ _ _ hc =>
    obtain ⟨marks,c,hv⟩ := hall none
    exact ⟨marks,c,hv.quit h hs hc rfl rfl panic⟩
  | @stopUnwound _ _ _ _ _ _ q _ _ _ _ _ hc =>
    obtain ⟨marks,c,hv⟩ := hall (some q)
    exact ⟨marks,c,hv.quit h hs hc rfl rfl panic⟩

theorem served_empty (panic : Option Payload) :
    (empty : Estate J V).Served panic [] [] .empty := by
  refine ⟨rfl,?_,.start,rfl,nofun⟩
  intro t
  exact ⟨.out,rfl,.out⟩

theorem Run.served {s : Estate J V} {ms : List (Moment J V)} (hr : Run ms s) (panic : Option Payload) :
    ∃ marks c, s.Served panic ms marks c := by
  induction hr generalizing panic with
  | start => exact ⟨[],.empty,served_empty panic⟩
  | step hr h ih => exact served_step h hr.posted ih panic

/-- A pool leaves the slot when a shutdown of the registry finds it there, and in no other way. -/
theorem Posted.slot_step {s : Estate J V} (hs : s.Posted) {e : Event J V} {f : Effect J V}
    (h : s.step e = some f) {held : Held} (hslot : s.registry.slot = some held) :
    f.estate.registry.slot = some held ∨
      ∃ t, e = .enter t ∧ s.registry.callOf? t = some (.entering .shutdown) := by
  cases transition h with
  | ask | begin | fail | shut | leave | pool | notBuilt | buildUnwound | stopped | stopUnwound =>
    exact .inl hslot
  | enter hc _ hlook =>
    cases hlook with
    | found | missed | nothing | vacant => exact .inl hslot
    | taken => exact .inr ⟨_,rfl,hc⟩
  | built _ _ _ _ _ hc =>
    rw [hs.tidy.vacant _ _ hc rfl] at hslot
    cases hslot

/-- Every call of a registry is served in one step between its beginning and its end, as a cell
would serve it that is empty or holds one pool. A pool that is handed out has all the workers that
the call asked for which had it made, and is handed out to everyone until the registry is shut down,
even if it was itself shut down before; and but for their answers, the calls that found no way to
make a pool have had no effect, nor do they keep anybody from the lock, poisoned or not. -/
theorem atomic_calls {s : Estate J V} {ms : List (Moment J V)} (hr : Run ms s) :
    ∃ marks c, Linearizes (history ms) marks c ∧ c.slot = s.registry.slot ∧
      (∀ q held, (q,.pool held) ∈ services marks →
        s.Stands held.pool fun p => p.threads = held.threads) ∧
      (∀ a q held b, services marks = a ++ (q,.pool held) :: b → (∀ x ∈ b, x.1 ≠ .shutdown) →
        (∀ x ∈ b, x.2 = .pool held) ∧ s.registry.slot = some held) ∧
      (∀ held e f, s.registry.slot = some held → s.step e = some f →
        f.estate.registry.slot = some held ∨
          ∃ t, e = .enter t ∧ s.registry.callOf? t = some (.entering .shutdown)) ∧
      Cell.empty.Serial ((services marks).filter fun x => !x.2.isFailure) c ∧
      (∀ t q, s.registry.callOf? t = some (.entering q) → s.registry.locked = false →
        ∃ f, s.step (.enter t) = some f) ∧
      ∀ t r, s.registry.callOf? t = some (.leaving r) →
        ∃ f, s.step (.leave t) = some f ∧ f.reply = some r := by
  -- a shutdown that is on its way may be taken for one that will return
  obtain ⟨marks,c,hv⟩ := hr.served none
  refine ⟨marks,c,hv.linearizes,hv.slot,?_,?_,?_,hv.serial.forget,?_,?_⟩
  · intro q held hmem
    exact hv.past held ((hv.serial.past nofun).2 q held hmem)
  · intro a q held b hl hb
    rw [← hv.slot]
    exact hv.serial.shared hl hb
  · intro held e f hslot h
    exact hr.posted.slot_step h hslot
  · intro t q hc hl
    refine ⟨{ estate := ⟨(s.registry.look t q).registry,s.pools⟩ },?_⟩
    simp [step, Registry.step, hc, hl]
  · intro t r hc
    refine ⟨{ estate := ⟨s.registry.endCall t r,s.pools⟩, reply := some r },?_,rfl⟩
    simp [step, Registry.step, hc]

/-- No pool comes about at first: of no workers, of too many, where the panic poisons the lock, and
of three of which the system refuses one. Then two threads race for it, and the pool that they share
stays in the slot when it is shut down by another one that uses it. -/
theorem atomic_calls_after_failures :
    ∃ (ms : List (Moment Nat Nat)) (s : Estate Nat Nat) (marks : List Mark) (c : Cell),
      Run ms s ∧ Linearizes (history ms) marks c ∧
        history ms = [.asked (.client 0) (.setUp (.withThreads 0)),
          .answered (.client 0) (.failed (.refused .invalidThreadCount)),
          .asked (.client 1) (.setUp (.withThreads (Nat.pow 2 60))),
          .answered (.client 1) (.failed (.unwound "capacity overflow")),
          .asked (.client 1) .getOrInit,
          .answered (.client 1) (.failed (.refused (.os (.numbered 11)))),
          .asked (.client 0) (.setUp (.withThreads 2)), .asked (.client 1) .getOrInit,
          .answered (.client 1) (.pool ⟨1,3⟩), .answered (.client 0) (.pool ⟨1,3⟩),
          .asked (.client 0) .get, .answered (.client 0) (.pool ⟨1,3⟩)] ∧
        s.registry.poisoned = true ∧ c.slot = some ⟨1,3⟩ ∧
        (∃ p, s.pools[1]? = some p ∧ p.stopping = true) ∧
        ∀ e f, s.step e = some f → (∀ t, e ≠ .enter t) →
          f.estate.registry.slot = some ⟨1,3⟩ := by
  have h : Leads [.ask (.client 0) (.setUp (.withThreads 0)), .enter (.client 0),
      .found (.client 0) "noop", .leave (.client 0),
      .ask (.client 1) (.setUp (.withThreads (Nat.pow 2 60))), .enter (.client 1),
      .found (.client 1) "noop", .leave (.client 1),
      .ask (.client 1) .getOrInit, .enter (.client 1), .found (.client 1) "noop",
      .pool 0 (.spawn (.client 1) none), .pool 0 (.spawn (.client 1) (some (.numbered 11))),
      .pool 0 (.pin 0), .pool 0 (.proceed (.client 1)), .pool 0 (.proceed (.client 1)),
      .pool 0 (.claim 0), .pool 0 (.proceed (.client 1)), .pool 0 (.proceed (.client 1)),
      .leave (.client 1),
      .ask (.client 0) (.setUp (.withThreads 2)), .ask (.client 1) .getOrInit, .enter (.client 1),
      .found (.client 1) "noop", .pool 1 (.spawn (.client 1) none),
      .pool 1 (.spawn (.client 1) none), .pool 1 (.spawn (.client 1) none), .leave (.client 1),
      .enter (.client 0), .leave (.client 0), .pool 1 (.call (.client 2) .shutdown),
      .pool 1 (.proceed (.client 2)), .ask (.client 0) .get, .enter (.client 0), .leave (.client 0)]
      fun (ms : List (Moment Nat Nat)) s =>
    history ms = [.asked (.client 0) (.setUp (.withThreads 0)),
        .answered (.client 0) (.failed (.refused .invalidThreadCount)),
        .asked (.client 1) (.setUp (.withThreads (Nat.pow 2 60))),
        .answered (.client 1) (.failed (.unwound "capacity overflow")),
        .asked (.client 1) .getOrInit,
        .answered (.client 1) (.failed (.refused (.os (.numbered 11)))),
        .asked (.client 0) (.setUp (.withThreads 2)), .asked (.client 1) .getOrInit,
        .answered (.client 1) (.pool ⟨1,3⟩), .answered (.client 0) (.pool ⟨1,3⟩),
        .asked (.client 0) .get, .answered (.client 0) (.pool ⟨1,3⟩)] ∧
      s.registry.poisoned = true ∧ s.registry.slot = some ⟨1,3⟩ ∧
      (s.pools[1]?).any (·.stopping) = true := by
    decide +kernel
  obtain ⟨ms,s,hr,hhistory,hpoisoned,hslot,hp⟩ := h.run
  obtain ⟨p,hp,hstopping⟩ := (Option.any_eq_true _ _).mp hp
  obtain ⟨marks,c,hlin,hc,-,-,hstay,-⟩ := atomic_calls hr
  refine ⟨ms,s,marks,c,hr,hlin,hhistory,hpoisoned,hc.trans hslot,⟨p,hp,hstopping⟩,?_⟩
  intro e f h hne
  rcases hstay _ e f hslot h with hkept | ⟨t,he,-⟩
  · exact hkept
  · exact absurd he (hne t)

end Estate
end PinnedPool
