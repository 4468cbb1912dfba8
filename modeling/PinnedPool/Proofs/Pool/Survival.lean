import PinnedPool.Proofs.Pool.Barrier
import PinnedPool.Proofs.Pool.Outcome

/-! # Workers survive their jobs

A worker runs each job under a guard, a watched one under two of them, and shows the job's ticket in
a cell of its thread until the outer guard returns. A guard drops the payload of the panic that it
has caught, so a payload that panics once more gets past it; and a watched job drops the value of its
body where only the outer guard is left. Nothing else ends a worker that is in its loop, but a pool
that is stopping with nothing left to run.
-/
namespace PinnedPool

variable {J V : Type}

/-! ## Guards -/

def Payload.drop (p : Payload) : Except Payload Unit := p.burst?.elim (.ok ()) .error

/-- A guard reads the message of a panic and drops its payload, with nothing around it any more. -/
def guarded {A : Type} : Except Payload A → Except Payload (Except String A)
  | .ok a => .ok (.ok a)
  | .error p => p.drop.map fun _ => .error p.message

def Ending.unguarded : Ending V → Except Payload V
  | .returned v _ => .ok v
  | .unwound p => .error p

/-- Hands the value over, or drops it if the handle is gone. -/
def Ending.send (heard : Bool) : Ending V → Except Payload Unit
  | .returned _ (some q) => if heard then .ok () else .error q
  | .returned _ none | .unwound _ => .ok ()

/-- What a job of the given kind leaves in its slot, and how it ends itself. A watched one has a
guard around its body, and loses its slot when that guard fails. -/
def Ending.ofJob (e : Ending V) (heard : Bool) :
    (watched : Bool) → Option (Slot V) × Except Payload Unit
  | false => (none, e.unguarded.map fun _ => ())
  | true =>
    match guarded e.unguarded with
    | .ok r => (some (.delivered (r.mapError .taskPanicked)), e.send heard)
    | .error p => (some .vanished, .error p)

/-- What the guard around a job makes of its end. -/
def aftermathOf : Except Payload (Except String Unit) → Aftermath
  | .ok (.ok _) => .quiet
  | .ok (.error m) => .reported m
  | .error q => .fatal q

/-- The guard around a job catches what escapes from the job. -/
theorem aftermathOf_guarded (escaped : Option Payload) :
    aftermathOf (guarded (escaped.elim (.ok ()) .error)) = .of escaped := by
  rcases escaped with _ | p
  · rfl
  · cases h : p.burst? <;> simp [guarded, Payload.drop, Aftermath.of, aftermathOf, h, Except.map]

theorem Ending.slot_eq_ofJob (e : Ending V) (heard : Bool) :
    (e.ofJob heard true).1 = some e.slot := by
  rcases e with v | p
  · rfl
  · cases h : p.burst? <;>
      simp [ofJob, unguarded, guarded, Payload.drop, slot, h, Except.map, Except.mapError]

theorem Ending.escape_eq_ofJob (e : Ending V) (watched heard : Bool) :
    (e.ofJob heard watched).2 = (e.escape watched heard).elim (.ok ()) .error := by
  cases watched with
  | false => cases e <;> rfl
  | true =>
    cases e with
    | returned v burst? => cases burst? <;> cases heard <;> rfl
    | unwound p =>
      cases h : p.burst? <;>
        simp [ofJob, unguarded, guarded, Payload.drop, escape, send, h, Except.map]

theorem Ending.settle_eq_guarded (e : Ending V) (watched heard : Bool) :
    e.settle watched heard =
      ((e.ofJob heard watched).1, aftermathOf (guarded (e.ofJob heard watched).2)) := by
  rw [e.escape_eq_ofJob, aftermathOf_guarded]
  cases watched with
  | false => rfl
  | true =>
    rw [e.slot_eq_ofJob]
    rfl

/-- The cell of a thread after the job whose ticket it shows: cleared, unless the panic goes on. -/
def Ending.clears (e : Ending V) (watched heard : Bool) (cell : Option Ticket) : Option Ticket :=
  match guarded (e.ofJob heard watched).2 with
  | .ok _ => none
  | .error _ => cell

def Log.Line.panic? : Log.Line → Option (Nat × String)
  | .jobPanicked w m => some (w, m)
  | _ => none

namespace Pool

/-- The message of a detached job that unwound, with its worker. -/
def Completion.panic? (c : Completion J V) : Option (Nat × String) :=
  match c.ending with
  | .returned _ _ => none
  | .unwound p => if c.task.watched then none else some (c.worker, p.message)

/-- What its worker tells about a job: how the job itself has unwound, if the worker outlives it. -/
def Completion.report? (c : Completion J V) : Option (Nat × String) :=
  match c.aftermath with
  | .reported m => some (c.worker, m)
  | .quiet | .fatal _ => none

/-- Something that panics is dropped at the end of the job: the payload of its body, or a value that
nobody is left to take. -/
def Completion.bursts (c : Completion J V) : Bool :=
  match c.ending with
  | .returned _ burst? => c.task.watched && !c.heard && burst?.isSome
  | .unwound p => p.burst?.isSome

theorem Completion.report?_eq {c : Completion J V} (h : c.bursts = false) :
    c.report? = c.panic? := by
  obtain ⟨w,⟨seq,job,watched⟩,e,heard⟩ := c
  cases e with
  | returned v burst? =>
    -- nothing escapes from the job
    cases watched <;> cases heard <;> cases burst? <;> first | rfl | cases h
  | unwound p =>
    have hp : p.burst? = none := Option.isNone_iff_eq_none.mp (by simpa [bursts] using h)
    cases watched <;> simp [report?, panic?, aftermath, Ending.settle, Ending.escape, Aftermath.of, hp]

theorem Completion.clears_eq (c : Completion J V) (cell : Option Ticket) :
    c.ending.clears c.task.watched c.heard cell = if c.fells then cell else none := by
  unfold Ending.clears fells aftermath
  rw [Ending.settle_eq_guarded]
  rcases guarded (c.ending.ofJob c.heard c.task.watched).2 with q | r | r <;> rfl

/-! ## The cells -/

/-- The ticket goes into its worker's cell when the task is taken, and out of it at the end. -/
def Moment.mark (cells : ThreadId → Option Ticket) (m : Moment J V) : ThreadId → Option Ticket :=
  fun u =>
    match m.claim?, m.completion? with
    | some c, _ => if u = .worker m.before.id c.worker then some c.ticket else cells u
    | none, some c =>
      if u = .worker m.before.id c.worker then c.ending.clears c.task.watched c.heard (cells u)
      else cells u
    | none, none => cells u

def cells (ms : List (Moment J V)) : ThreadId → Option Ticket := ms.foldl Moment.mark fun _ => none

theorem cells_snoc (ms : List (Moment J V)) (m : Moment J V) :
    cells (ms ++ [m]) = m.mark (cells ms) := by
  simp [cells]

section Step
variable {p : Pool J V} {e : Event J V} {f : Effect J V} (h : p.step e = some f)
include h

theorem after_of_completion {c : Completion J V} (hc : Moment.completion? ⟨p,e,f⟩ = some c) :
    f.pool.workers[c.worker]? = some (after c.task c.ending c.heard) := by
  cases transition h with
  | @finish w task ticket e heard hw =>
    simp only [Moment.completion?, hw, Option.some.injEq] at hc
    subst hc
    have hlt := (List.getElem?_eq_some_iff.mp hw).1
    rw [finish_workers]
    exact List.getElem?_set_self hlt
  | call | start | startLast | startRefused | signal | signalNobody | refuse | append | observe
  | wait | raise | wakeRefused | wakeOwn | wakeOutside | enter | enterGone | joinLeft
  | joinKilled | destroy | joinBurst | giveUp | giveUpBurst | pin | pinKilled | take | leave
  | park | stir | stirWaiter | free => cases hc

theorem killed_of_completion {c : Completion J V} (hc : Moment.completion? ⟨p,e,f⟩ = some c)
    (hfells : c.fells = true) : ∃ q, f.pool.workers[c.worker]? = some (.killed q) := by
  obtain ⟨q,hq⟩ := Completion.fells_iff.mp hfells
  refine ⟨q,?_⟩
  rw [after_of_completion h hc, after]
  rw [Completion.aftermath] at hq
  rw [hq]

theorem ready_of_completion {c : Completion J V} (hc : Moment.completion? ⟨p,e,f⟩ = some c)
    (hfells : c.fells = false) : f.pool.workers[c.worker]? = some .ready := by
  rw [after_of_completion h hc, after]
  split
  · have hfatal : c.fells = true := Completion.fells_iff.mpr ⟨_,‹_›⟩
    rw [hfells] at hfatal
    cases hfatal
  · rfl
  · rfl

theorem panics_step :
    f.lines.filterMap Log.Line.panic? =
      (Moment.completion? ⟨p,e,f⟩).toList.filterMap Completion.report? := by
  cases transition h with
  | @finish w task ticket e heard hw =>
    simp only [Moment.completion?, hw, Option.toList_some, filterMap_singleton, finish,
      Completion.report?, Completion.aftermath]
    rcases e.settle task.watched heard with ⟨slot,aftermath⟩
    cases aftermath <;> rfl
  | call | start | startLast | startRefused | signal | signalNobody | refuse | append | observe
  | wait | raise | wakeRefused | wakeOwn | wakeOutside | enter | enterGone | joinLeft
  | joinKilled | destroy | joinBurst | giveUp | giveUpBurst | pin | pinKilled | take | leave
  | park | stir | stirWaiter | free => rfl

end Step

/-- How the thread of a worker comes to its end. -/
inductive Exit (p : Pool J V) (w : Nat) : Event J V → Worker J → Prop
  | drained (empty : p.queue.tasks = []) (stopping : p.stopping = true) : Exit p w (.claim w) .left
  | pinning {q} (starting : p.workers[w]? = some .starting) : Exit p w (.pin w (some q)) (.killed q)
  | burst {task ticket e heard q} (running : p.workers[w]? = some (.running task ticket))
      (fatal : Completion.aftermath ⟨w,task,e,heard⟩ = .fatal q) :
    Exit p w (.finish w e heard) (.killed q)

theorem exit_step {p : Pool J V} {e : Event J V} {f : Effect J V} (h : p.step e = some f) {w : Nat}
    {s : Worker J} (hs : f.pool.workers[w]? = some s) (hended : s.ended = true)
    (hnew : p.workers[w]? ≠ some s) : Exit p w e s := by
  rcases arrival h hs with hold | ha
  · exact absurd hold hnew
  · cases ha with
    | leaving he hstop => exact .drained he hstop
    | pinning =>
      cases transition h with
      | pinKilled _ hw => exact .pinning hw
    | failing hrun hfatal => exact .burst hrun hfatal
    | starting | ready | taking | parking => cases hended

section Runs
variable {n : Nat} {p₀ p : Pool J V} {ms : List (Moment J V)} (h₀ : Fresh n p₀) (hr : Run p₀ ms p)
include h₀ hr

/-- The task in a worker's hands is the one that it has claimed and not ended. -/
theorem Run.taskOf_iff (w : Nat) (task : Task J) :
    p.taskOf w = some task ↔
      ∃ c ∈ claims ms, c.worker = w ∧ c.task = task ∧ ∀ d ∈ completions ms, d.task.seq ≠ task.seq := by
  have htaken := hr.takenBy_eq h₀ w
  constructor
  · intro ht
    have hm : task ∈ takenBy ms w := by
      rw [htaken, ht]
      exact List.mem_append_right _ (List.mem_singleton_self task)
    obtain ⟨c,hc,hct⟩ := List.mem_map.mp hm
    obtain ⟨hc,hw⟩ := List.mem_filter.mp hc
    obtain ⟨s,hs,hst⟩ := Option.bind_eq_some_iff.mp ht
    cases s with
    | running task' ticket =>
      cases hst
      exact ⟨c,hc,of_decide_eq_true hw,hct,fun d hd => hr.not_ended_of_running h₀ hs hd⟩
    | starting | ready | parked | left | killed => cases hst
  · rintro ⟨c,hc,rfl,rfl,hopen⟩
    have hm : c.task ∈ takenBy ms c.worker :=
      List.mem_map_of_mem (List.mem_filter.mpr ⟨hc,decide_eq_true rfl⟩)
    rw [htaken] at hm
    rcases List.mem_append.mp hm with hdone | hhand
    · obtain ⟨d,hd,hdt⟩ := List.mem_map.mp hdone
      exact absurd (congrArg Task.seq hdt) (hopen d (List.mem_filter.mp hd).1)
    · exact Option.mem_toList.mp hhand

theorem Run.currentTask_worker (w : Nat) :
    p.currentTask (.worker p.id w) = (p.taskOf w).map fun task => ⟨task.seq,task.seq⟩ := by
  simp only [currentTask, taskOf, ↓reduceIte]
  cases hs : p.workers[w]? with
  | none => rfl
  | some s =>
    cases s with
    | running task ticket =>
      have hticket := hr.ticket_eq h₀ (hr.claim_of_running h₀ hs)
      exact congrArg some hticket
    | starting | ready | parked | left | killed => rfl

theorem Run.currentTask_iff (u : ThreadId) (k : Ticket) :
    p.currentTask u = some k ↔ ∃ c ∈ claims ms, u = .worker p.id c.worker ∧ c.ticket = k ∧
      ∀ d ∈ completions ms, d.task.seq ≠ c.task.seq := by
  constructor
  · intro hk
    cases u with
    | client i => cases hk
    | worker id w =>
      by_cases hid : id = p.id
      · subst hid
        rw [hr.currentTask_worker h₀] at hk
        obtain ⟨task,ht,rfl⟩ := Option.map_eq_some_iff.mp hk
        obtain ⟨c,hc,rfl,rfl,hopen⟩ := (hr.taskOf_iff h₀ w task).mp ht
        exact ⟨c,hc,rfl,hr.ticket_eq h₀ hc,hopen⟩
      · simp [currentTask, hid] at hk
  · rintro ⟨c,hc,rfl,rfl,hopen⟩
    have ht := (hr.taskOf_iff h₀ c.worker c.task).mpr ⟨c,hc,rfl,rfl,hopen⟩
    rw [hr.currentTask_worker h₀, ht, hr.ticket_eq h₀ hc]
    rfl

/-- A step brings the cell of a thread up to date with what the thread does, or kills the thread. -/
theorem Run.mark_step {e : Event J V} {f : Effect J V} (h : p.step e = some f)
    (shown : ThreadId → Option Ticket) (u : ThreadId) :
    (Moment.mark shown ⟨p,e,f⟩ u = shown u ∧ f.pool.currentTask u = p.currentTask u) ∨
      Moment.mark shown ⟨p,e,f⟩ u = f.pool.currentTask u ∨
      ∃ w q, u = .worker p.id w ∧ f.pool.workers[w]? = some (.killed q) := by
  have hid := (fixed_step h).1
  have hr' := hr.step h
  by_cases hu : ∃ w, u = .worker p.id w
  · obtain ⟨w,rfl⟩ := hu
    rw [← hid, hr'.currentTask_worker h₀, hid, hr.currentTask_worker h₀]
    cases workChange h with
    | kept hc hd htasks => exact .inl ⟨by simp only [Moment.mark, hc, hd],by rw [htasks]⟩
    | @taken c hc hd _ htasks =>
      simp only [Moment.mark, hc, htasks, ThreadId.worker.injEq, true_and]
      by_cases hw : w = c.worker
      · have hmem : c ∈ claims (ms ++ [⟨p,e,f⟩]) := by
          rw [claims_snoc, hc]
          exact List.mem_append_right _ (List.mem_singleton_self c)
        rw [if_pos hw, if_pos hw, hr'.ticket_eq h₀ hmem]
        exact .inr (.inl rfl)
      · rw [if_neg hw, if_neg hw]
        exact .inl ⟨rfl,rfl⟩
    | @done c hc hd _ htasks =>
      simp only [Moment.mark, hc, hd, htasks, ThreadId.worker.injEq, true_and]
      by_cases hw : w = c.worker
      · subst hw
        cases hfells : c.fells with
        | true =>
          obtain ⟨q,hkilled⟩ := killed_of_completion h hd hfells
          exact .inr (.inr ⟨c.worker,q,rfl,hkilled⟩)
        | false =>
          rw [if_pos rfl, if_pos rfl, c.clears_eq, hfells]
          exact .inr (.inl rfl)
      · rw [if_neg hw, if_neg hw]
        exact .inl ⟨rfl,rfl⟩
  · have hne : ∀ w, u ≠ .worker p.id w := fun w hw => hu ⟨w,hw⟩
    refine .inl ⟨?_,?_⟩
    · unfold Moment.mark
      split
      · exact if_neg (hne _)
      · exact if_neg (hne _)
      · rfl
    · cases u with
      | client => rfl
      | worker id w =>
        have hidne : id ≠ p.id := fun heq => hne w (by rw [heq])
        simp only [currentTask, hid, if_neg hidne]

/-- A thread's cell shows the ticket of what it is running, unless a job has killed the thread. -/
theorem Run.cells_eq (u : ThreadId) :
    cells ms u = p.currentTask u ∨
      ∃ w q, u = .worker p.id w ∧ p.workers[w]? = some (.killed q) := by
  induction hr with
  | start =>
    obtain ⟨-,id,t,rfl⟩ := h₀.eq_blank
    left
    cases u with
    | client => rfl
    | worker => simp [cells, currentTask, blank]
  | step hr h ih =>
    rw [cells_snoc, (fixed_step h).1]
    rcases hr.mark_step h₀ h (cells _) u with ⟨hcell,htask⟩ | hcell | hkilled
    · rw [hcell, htask]
      rcases ih with ih | ⟨w,q,hw,hkilled⟩
      · exact .inl ih
      · exact .inr ⟨w,q,hw,ended_step h hkilled rfl⟩
    · exact .inl hcell
    · exact .inr hkilled

omit h₀ in
theorem Run.panics_eq :
    (lines ms).filterMap Log.Line.panic? = (completions ms).filterMap Completion.report? := by
  induction hr with
  | start => rfl
  | step hr h ih =>
    rw [lines_snoc, completions_snoc, List.filterMap_append, List.filterMap_append, ih,
      panics_step h]

end Runs

/-- A worker that is in its loop leaves it when the pool is stopping and nothing is queued, or dies of
the payload that comes out of one that it drops outside of every guard; after every other job it looks
for the next one. A thread sees a ticket exactly while it is running the task that the ticket was
issued for, and a job sees its own. The workers report each detached job that unwound, once and in
order, and no watched one, as long as nothing bursts at the end of a job. -/
theorem workers_carry_on {n : Nat} {p₀ p : Pool J V} {ms : List (Moment J V)} (h₀ : Fresh n p₀)
    (hr : Run p₀ ms p) :
    (∀ m ∈ ms, ∀ w s, m.effect.pool.workers[w]? = some s → s.ended = true →
        m.before.workers[w]? ≠ some s → Exit m.before w m.event s) ∧
      (∀ m ∈ ms, ∀ c, m.completion? = some c → c.fells = false →
        m.effect.pool.workers[c.worker]? = some .ready) ∧
      (∀ u k, p.currentTask u = some k ↔ ∃ c ∈ claims ms, u = .worker p.id c.worker ∧
        c.ticket = k ∧ ∀ d ∈ completions ms, d.task.seq ≠ c.task.seq) ∧
      (∀ u, cells ms u = p.currentTask u ∨
        ∃ w q, u = .worker p.id w ∧ p.workers[w]? = some (.killed q)) ∧
      (∀ w task ticket, p.workers[w]? = some (.running task ticket) →
        ⟨w,task,ticket⟩ ∈ claims ms ∧ cells ms (.worker p.id w) = some ticket) ∧
      (lines ms).filterMap Log.Line.panic? = (completions ms).filterMap Completion.report? ∧
      ((∀ c ∈ completions ms, c.bursts = false) →
        (lines ms).filterMap Log.Line.panic? = (completions ms).filterMap Completion.panic?) := by
  refine ⟨?_,?_,hr.currentTask_iff h₀,hr.cells_eq h₀,?_,hr.panics_eq,?_⟩
  · intro m hm w s hs hended hnew
    exact exit_step (hr.step_of_mem hm) hs hended hnew
  · intro m hm c hc hfells
    exact ready_of_completion (hr.step_of_mem hm) hc hfells
  · intro w task ticket hw
    refine ⟨hr.claim_of_running h₀ hw,?_⟩
    rcases hr.cells_eq h₀ (.worker p.id w) with hcell | ⟨v,q,hv,hkilled⟩
    · simp only [hcell, currentTask, ↓reduceIte, hw]
    · cases hv
      rw [hw] at hkilled
      cases hkilled
  · intro hquiet
    rw [hr.panics_eq]
    exact List.filterMap_congr fun c hc => Completion.report?_eq (hquiet c hc)

/-- A watched job and a detached one unwind on the same worker, which then waits for the next task.
The other worker is running the third one. -/
theorem workers_carry_on_unwound :
    ∃ (p₀ p : Pool Nat Nat) (ms : List (Moment Nat Nat)),
      Fresh 2 p₀ ∧ Run p₀ ms p ∧ p.workers = [.ready, .running ⟨2,9,true⟩ ⟨2,2⟩] ∧
        completions ms = [⟨0,⟨0,7,true⟩,.unwound (.text "boom"),true⟩,
          ⟨0,⟨1,8,false⟩,.unwound .foreign,true⟩] ∧
        cells ms (.worker 0 0) = none ∧ cells ms (.worker 0 1) = some ⟨2,2⟩ ∧
        (lines ms).filterMap Log.Line.panic? = [(0,"unknown panic payload")] := by
  have h₀ : Fresh 2 (blank 0 2 (.client 0) : Pool Nat Nat) := ⟨0,"noop",.client 0,_,rfl⟩
  have h : (blank 0 2 (.client 0) : Pool Nat Nat).Leads [.spawn (.client 0) none,
      .spawn (.client 0) none, .pin 0, .pin 1, .call (.client 1) (.submit 7 true),
      .proceed (.client 1), .notify (.client 1) none, .call (.client 1) (.submit 8 false),
      .proceed (.client 1), .notify (.client 1) none, .call (.client 2) (.submit 9 true),
      .proceed (.client 2), .notify (.client 2) none, .claim 0,
      .finish 0 (.unwound (.text "boom")), .claim 0, .claim 1,
      .finish 0 (.unwound .foreign)] fun ms p =>
    p.id = 0 ∧ p.workers = [.ready, .running ⟨2,9,true⟩ ⟨2,2⟩] ∧ completions ms =
      [⟨0,⟨0,7,true⟩,.unwound (.text "boom"),true⟩,
        ⟨0,⟨1,8,false⟩,.unwound .foreign,true⟩] := by
    decide +kernel
  obtain ⟨ms,p,hr,hid,hw,hc⟩ := h.run
  obtain ⟨-,-,-,hcells,hown,-,hpanics⟩ := workers_carry_on h₀ hr
  refine ⟨_,p,ms,h₀,hr,hw,hc,?_,?_,?_⟩
  · rcases hcells (.worker 0 0) with hcell | ⟨v,q,hv,hkilled⟩
    · rw [hcell]
      simp [currentTask, hid, hw]
    · rw [hid] at hv
      cases hv
      simp [hw] at hkilled
  · exact hid ▸ (hown 1 ⟨2,9,true⟩ ⟨2,2⟩ (by simp [hw])).2
  · rw [hpanics (by simp [hc, Completion.bursts, Payload.burst?]), hc]
    rfl

/-- Three bodies of which something bursts. The worker reports the watched job whose payload does, and
the one whose value does when its handle is gone, and goes on; it dies of the detached one, without a
report and with the ticket in its cell. Nobody has stopped the pool. -/
theorem worker_lost_to_job :
    ∃ (p₀ p : Pool Nat Nat) (ms : List (Moment Nat Nat)),
      Fresh 1 p₀ ∧ Run p₀ ms p ∧ p.workers = [.killed (.text "dead")] ∧ p.stopping = false ∧
        completions ms = [⟨0,⟨0,7,true⟩,.unwound (.fuse "late"),true⟩,
          ⟨0,⟨1,8,true⟩,.returned 3 (some (.text "value")),false⟩,
          ⟨0,⟨2,9,false⟩,.unwound (.fuse "dead"),true⟩] ∧
        (lines ms).filterMap Log.Line.panic? = [(0,"late"), (0,"value")] ∧
        cells ms (.worker 0 0) = some ⟨2,2⟩ := by
  have h₀ : Fresh 1 (blank 0 1 (.client 0) : Pool Nat Nat) := ⟨0,"noop",.client 0,_,rfl⟩
  have h : (blank 0 1 (.client 0) : Pool Nat Nat).Leads [.spawn (.client 0) none, .pin 0,
      .call (.client 0) (.submit 7 true), .proceed (.client 0), .notify (.client 0) none,
      .call (.client 0) (.submit 8 true), .proceed (.client 0), .notify (.client 0) none,
      .call (.client 0) (.submit 9 false), .proceed (.client 0), .notify (.client 0) none,
      .claim 0, .finish 0 (.unwound (.fuse "late")), .claim 0,
      .finish 0 (.returned 3 (some (.text "value"))) false, .claim 0,
      .finish 0 (.unwound (.fuse "dead"))] fun ms p =>
    p.workers = [.killed (.text "dead")] ∧ p.stopping = false ∧
      completions ms = [⟨0,⟨0,7,true⟩,.unwound (.fuse "late"),true⟩,
        ⟨0,⟨1,8,true⟩,.returned 3 (some (.text "value")),false⟩,
        ⟨0,⟨2,9,false⟩,.unwound (.fuse "dead"),true⟩] ∧
      (lines ms).filterMap Log.Line.panic? = [(0,"late"), (0,"value")] ∧
      cells ms (.worker 0 0) = some ⟨2,2⟩ := by
    decide +kernel
  obtain ⟨ms,p,hr,hw,hs,hc,hpanics,hcell⟩ := h.run
  exact ⟨_,p,ms,h₀,hr,hw,hs,hc,hpanics,hcell⟩

end Pool
end PinnedPool
