import PinnedPool.Pool.Step

/-! # What a step of a pool can do

`Transition` lists the possible steps with their guards, and `transition` says that every step of
the model is one of them. The laws of pools are proved from this list; the step function itself is
opened here only.
-/
namespace PinnedPool.Pool

variable {J V : Type}

/-- Wakes the threads that wait for an empty queue if it is empty. -/
def relieve (p : Pool J V) : Pool J V := if p.queue.isEmpty then p.wakeWaiters else p

/-- What becomes of a worker whose job has ended. -/
def after (task : Task J) (e : Ending V) (heard : Bool) : Worker J :=
  match (e.settle task.watched heard).2 with
  | .fatal p => .killed p
  | .quiet | .reported _ => .ready

theorem relieve_eq_or (p : Pool J V) : p.relieve = p.wakeWaiters ∨ p.relieve = p := by
  unfold relieve
  split
  · exact .inl rfl
  · exact .inr rfl

/-- Waking the waiters changes calls, and nothing else. -/
theorem relieve_pool (p : Pool J V) : ∃ calls, p.relieve = { p with calls := calls } := by
  rcases p.relieve_eq_or with h | h
  · exact ⟨_,h⟩
  · exact ⟨_,h⟩

@[simp] theorem relieve_queue (p : Pool J V) : p.relieve.queue = p.queue := by
  obtain ⟨calls,h⟩ := p.relieve_pool
  rw [h]

@[simp] theorem relieve_workers (p : Pool J V) : p.relieve.workers = p.workers := by
  obtain ⟨calls,h⟩ := p.relieve_pool
  rw [h]

@[simp] theorem relieve_stopping (p : Pool J V) : p.relieve.stopping = p.stopping := by
  obtain ⟨calls,h⟩ := p.relieve_pool
  rw [h]

section Finish
variable (p : Pool J V) (w : Nat) (task : Task J) (e : Ending V) (heard : Bool)

/-- The end of a job changes its worker and its slot, and nothing else. -/
theorem finish_pool : ∃ slots,
    (p.finish w task e heard).pool = { p with slots := slots }.setWorker w (after task e heard) := by
  unfold finish after
  rcases e.settle task.watched heard with ⟨slot, aftermath⟩
  cases aftermath <;> exact ⟨_, rfl⟩

@[simp] theorem finish_reply : (p.finish w task e heard).reply = none := by
  unfold finish
  rcases e.settle task.watched heard with ⟨slot, aftermath⟩
  cases aftermath <;> rfl

@[simp] theorem finish_queue : (p.finish w task e heard).pool.queue = p.queue := by
  obtain ⟨slots, h⟩ := p.finish_pool w task e heard
  rw [h]
  rfl

@[simp] theorem finish_stopping : (p.finish w task e heard).pool.stopping = p.stopping := by
  obtain ⟨slots, h⟩ := p.finish_pool w task e heard
  rw [h]
  rfl

@[simp] theorem finish_calls : (p.finish w task e heard).pool.calls = p.calls := by
  obtain ⟨slots, h⟩ := p.finish_pool w task e heard
  rw [h]
  rfl

@[simp] theorem finish_workers :
    (p.finish w task e heard).pool.workers = p.workers.set w (after task e heard) := by
  obtain ⟨slots, h⟩ := p.finish_pool w task e heard
  rw [h]
  rfl

end Finish

inductive Transition (p : Pool J V) : Event J V → Effect J V → Prop
  | call {t r} (idle : p.callOf? t = none) :
    Transition p (.call t r) { pool := p.setCall t r.start }
  | start {t} (call : p.callOf? t = some .build) (more : p.workers.length + 1 < p.threads) :
    Transition p (.spawn t none) { pool := { p with workers := p.workers ++ [.starting] } }
  | startLast {t} (call : p.callOf? t = some .build) (last : p.threads ≤ p.workers.length + 1) :
    Transition p (.spawn t none) (endWith { p with workers := p.workers ++ [.starting] } t [] .built)
  | startRefused {t} (e : Os.Error) (call : p.callOf? t = some .build) :
    Transition p (.spawn t (some e))
      { pool := p.setCall t (.raise (.refused e)), lines := [.spawnFailed p.workers.length e] }
  | signal {t w seq} (call : p.callOf? t = some (.notify seq))
      (parked : p.workers[w]? = some .parked) :
    Transition p (.notify t (some w)) (endWith (p.setWorker w .ready) t [] (.accepted seq))
  | signalNobody {t seq} (call : p.callOf? t = some (.notify seq)) (awake : .parked ∉ p.workers) :
    Transition p (.notify t none) (endWith p t [] (.accepted seq))
  | refuse {t job watched} (call : p.callOf? t = some (.append job watched))
      (stopping : p.stopping = true) :
    Transition p (.proceed t) (endWith p t [] .stopped)
  | append {t job watched} (call : p.callOf? t = some (.append job watched))
      (open_ : p.stopping = false) :
    Transition p (.proceed t)
      { pool := { p with queue := p.queue.push job watched }.setCall t (.notify p.queue.submitted) }
  | observe {t} (call : p.callOf? t = some .await) (empty : p.queue.tasks = []) :
    Transition p (.proceed t) (endWith p t [] .done)
  | wait {t} (call : p.callOf? t = some .await) (nonempty : p.queue.tasks ≠ []) :
    Transition p (.proceed t) { pool := p.setCall t .parked }
  | raise {t why} (call : p.callOf? t = some (.raise why)) :
    Transition p (.proceed t) { pool := { p with stopping := true }.setCall t (.wake why) }
  | wakeRefused {t e} (call : p.callOf? t = some (.wake (.refused e))) :
    Transition p (.proceed t) { pool := p.wakeWorkers.setCall t (.join (.refused e) 0) }
  | wakeOwn {t} (call : p.callOf? t = some (.wake .shutdown)) (own : p.isWorker t = true) :
    Transition p (.proceed t) (endWith p.wakeWorkers t [.notJoining] .done)
  | wakeOutside {t} (call : p.callOf? t = some (.wake .shutdown)) (outside : p.isWorker t = false) :
    Transition p (.proceed t) { pool := p.wakeWorkers.setCall t .enter }
  | enter {t} (call : p.callOf? t = some .enter) (present : p.handles = .present) :
    Transition p (.proceed t)
      { pool := { p with handles := .held t }.setCall t (.join .shutdown 0) }
  | enterGone {t} (call : p.callOf? t = some .enter) (gone : p.handles = .gone ∨ p.handles = .lost) :
    Transition p (.proceed t) (endWith p t [] .done)
  | joinLeft {t why next} (call : p.callOf? t = some (.join why next))
      (left : p.workers[next]? = some .left) :
    Transition p (.proceed t) { pool := p.setCall t (.join why (next + 1)) }
  | joinKilled {t why next q} (call : p.callOf? t = some (.join why next))
      (killed : p.workers[next]? = some (.killed q)) (quiet : q.burst? = none) :
    Transition p (.proceed t)
      { pool := p.setCall t (.join why (next + 1)), lines := [.terminated next] }
  | joinBurst {t next q r} (call : p.callOf? t = some (.join .shutdown next))
      (killed : p.workers[next]? = some (.killed q)) (burst : q.burst? = some r) :
    Transition p (.proceed t) (endWith { p with handles := .lost } t [] (.unwound r))
  | giveUpBurst {t e next q r} (call : p.callOf? t = some (.join (.refused e) next))
      (killed : p.workers[next]? = some (.killed q)) (burst : q.burst? = some r) :
    Transition p (.proceed t) (endWith p t [] (.unwound r))
  | destroy {t next} (call : p.callOf? t = some (.join .shutdown next))
      (last : p.workers[next]? = none) :
    Transition p (.proceed t) (endWith { p with handles := .gone } t [.destroyed] .done)
  | giveUp {t e next} (call : p.callOf? t = some (.join (.refused e) next))
      (last : p.workers[next]? = none) :
    Transition p (.proceed t) (endWith p t [] (.notBuilt e))
  | pin {w} (starting : p.workers[w]? = some .starting) :
    Transition p (.pin w none) { pool := p.setWorker w .ready, lines := [.started w] }
  | pinKilled {w} (q : Payload) (starting : p.workers[w]? = some .starting) :
    Transition p (.pin w (some q)) { pool := p.setWorker w (.killed q) }
  | take {w task ticket rest} (ready : p.workers[w]? = some .ready)
      (pop : p.queue.pop? = some (task, ticket, rest)) :
    Transition p (.claim w)
      { pool := relieve ({ p with queue := rest }.setWorker w (.running task ticket))
        lines := [.executing w ticket.submitted] }
  | leave {w} (ready : p.workers[w]? = some .ready) (empty : p.queue.tasks = [])
      (stopping : p.stopping = true) :
    Transition p (.claim w) { pool := p.setWorker w .left, lines := [.leaving w] }
  | park {w} (ready : p.workers[w]? = some .ready) (empty : p.queue.tasks = [])
      (open_ : p.stopping = false) :
    Transition p (.claim w) { pool := p.setWorker w .parked }
  | finish {w task ticket e heard} (running : p.workers[w]? = some (.running task ticket))
      (idle : p.callOf? (.worker p.id w) = none) :
    Transition p (.finish w e heard) (p.finish w task e heard)
  | stir {w} (parked : p.workers[w]? = some .parked) :
    Transition p (.stir w) { pool := p.setWorker w .ready }
  | stirWaiter {t} (parked : p.callOf? t = some .parked) :
    Transition p (.stirWaiter t) { pool := p.setCall t .await }
  | free (quiet : p.calls = []) : Transition p .free { pool := { p with freed := true } }

variable {p : Pool J V} {f : Effect J V}

theorem transition_joinNext {t : ThreadId} {why : Purpose} {next : Nat}
    (hc : p.callOf? t = some (.join why next)) (h : p.joinNext t why next = some f) :
    Transition p (.proceed t) f := by
  unfold joinNext at h
  cases hw : p.workers[next]? with
  | none =>
    cases why with
    | shutdown => rw [hw] at h; cases h; exact .destroy hc hw
    | refused e => rw [hw] at h; cases h; exact .giveUp hc hw
  | some s =>
    cases s with
    | left => rw [hw] at h; cases h; exact .joinLeft hc hw
    | killed q =>
      simp only [hw] at h
      cases hq : q.burst? with
      | none => rw [hq] at h; cases h; exact .joinKilled hc hw hq
      | some r =>
        cases why with
        | shutdown => rw [hq] at h; cases h; exact .joinBurst hc hw hq
        | refused e => rw [hq] at h; cases h; exact .giveUpBurst hc hw hq
    | starting | ready | parked | running => simp [hw] at h

theorem transition_advance {t : ThreadId} {c : Call J}
    (hc : p.callOf? t = some c) (h : p.advance t c = some f) : Transition p (.proceed t) f := by
  cases c with
  | build => simp [advance] at h
  | append job watched =>
    simp only [advance, Pool.append, Option.some.injEq] at h
    cases hs : p.stopping with
    | true => rw [if_pos hs] at h; subst h; exact .refuse hc hs
    | false => rw [if_neg (by simp [hs])] at h; subst h; exact .append hc hs
  | notify seq => simp [advance] at h
  | await =>
    simp only [advance, Queue.isEmpty_iff] at h
    by_cases he : p.queue.tasks = []
    · rw [if_pos he] at h; cases h; exact .observe hc he
    · rw [if_neg he] at h; cases h; exact .wait hc he
  | parked => simp [advance] at h
  | raise why => simp only [advance, Option.some.injEq] at h; subst h; exact .raise hc
  | wake why =>
    simp only [advance] at h
    cases why with
    | refused e => cases h; exact .wakeRefused hc
    | shutdown =>
      by_cases hw : p.isWorker t = true
      · simp only [hw, ↓reduceIte, Option.some.injEq] at h; subst h; exact .wakeOwn hc hw
      · simp only [hw, Bool.false_eq_true, ↓reduceIte, Option.some.injEq] at h
        subst h
        exact .wakeOutside hc (by simpa using hw)
  | enter =>
    simp only [advance] at h
    cases hh : p.handles with
    | present => simp only [hh, Option.some.injEq] at h; subst h; exact .enter hc hh
    | held u => simp [hh] at h
    | gone => simp only [hh, Option.some.injEq] at h; subst h; exact .enterGone hc (.inl hh)
    | lost => simp only [hh, Option.some.injEq] at h; subst h; exact .enterGone hc (.inr hh)
  | join why next => exact transition_joinNext hc h

theorem transition_claim {w : Nat} (hw : p.workers[w]? = some .ready) :
    Transition p (.claim w) (p.claim w) := by
  unfold claim
  cases hp : p.queue.pop? with
  | some r => exact .take hw hp
  | none =>
    have he := Queue.pop?_eq_none_iff.mp hp
    cases hs : p.stopping with
    | true => exact .leave hw he hs
    | false => exact .park hw he hs

theorem transition_spawn {t : ThreadId} (hc : p.callOf? t = some .build) (r : Option Os.Error) :
    Transition p (.spawn t r) (p.spawn t r) := by
  cases r with
  | some e => exact .startRefused e hc
  | none =>
    unfold spawn
    simp only [List.length_append, List.length_singleton]
    split
    · exact .start hc ‹_›
    · exact .startLast hc (by omega)

theorem transition_signal {t : ThreadId} {seq : Nat} {pick : Option Nat} {q : Pool J V}
    (hc : p.callOf? t = some (.notify seq)) (h : p.signal pick = some q) :
    Transition p (.notify t pick) (endWith q t [] (.accepted seq)) := by
  cases pick with
  | none =>
    simp only [signal] at h
    split at h
    · cases h
    · cases h
      refine .signalNobody hc fun hm => ?_
      exact ‹¬ _› (List.any_eq_true.mpr ⟨_, hm, rfl⟩)
  | some w =>
    simp only [signal] at h
    split at h
    · cases h
      obtain ⟨s, hs, hp⟩ := (Option.any_eq_true _ _).mp ‹_›
      cases s <;> simp [Worker.isParked] at hp
      exact .signal hc hs
    · cases h

theorem transition {e : Event J V} (h : p.step e = some f) : Transition p e f := by
  cases e with
  | call t r =>
    cases hc : p.callOf? t with
    | some c => simp [step, hc] at h
    | none => simp only [step, hc] at h; cases h; exact .call hc
  | spawn t refusal =>
    simp only [step] at h
    split at h
    · cases h; exact transition_spawn ‹_› refusal
    · cases h
  | notify t pick =>
    simp only [step] at h
    split at h
    · obtain ⟨q, hq, rfl⟩ := Option.map_eq_some_iff.mp h
      exact transition_signal ‹_› hq
    · cases h
  | proceed t =>
    obtain ⟨c, hc, hf⟩ := Option.bind_eq_some_iff.mp h
    exact transition_advance hc hf
  | pin w death =>
    simp only [step] at h
    split at h
    · cases h; exact .pin ‹_›
    · cases h; exact .pinKilled _ ‹_›
    · cases h
  | claim w =>
    simp only [step] at h
    split at h
    · cases h; exact transition_claim ‹_›
    · cases h
  | finish w e heard =>
    simp only [step] at h
    split at h
    · cases h; exact .finish ‹_› ‹_›
    · cases h
  | stir w =>
    simp only [step] at h
    split at h
    · cases h; exact .stir ‹_›
    · cases h
  | stirWaiter t =>
    simp only [step] at h
    split at h
    · cases h; exact .stirWaiter ‹_›
    · cases h
  | free =>
    simp only [step, List.isEmpty_iff] at h
    split at h
    · cases h; exact .free ‹_›
    · cases h

end PinnedPool.Pool
