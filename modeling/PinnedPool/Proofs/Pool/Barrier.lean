import PinnedPool.Proofs.Pool.Shutdown

/-! # Shutdown as a barrier

Whoever shuts a pool down from outside goes on only when all workers are over, and then everything
that was accepted has been run, unless every single worker was struck. A worker that died of a payload
which panics when it is dropped breaks the barrier for those who come after its joiner. The workers
are joined one after the other and once, and the end of the pool is told once.
-/
namespace PinnedPool.Pool

variable {J V : Type}

/-- The worker that a thread has found to be over and joins. -/
def Moment.joined? (m : Moment J V) : Option Nat :=
  match m.event with
  | .proceed t =>
    match m.before.callOf? t with
    | some (.join _ next) => if next < m.before.workers.length then some next else none
    | _ => none
  | _ => none

def joins (ms : List (Moment J V)) : List Nat := ms.filterMap Moment.joined?

def lines (ms : List (Moment J V)) : List Log.Line := ms.flatMap fun m => m.effect.lines

theorem joins_snoc (ms : List (Moment J V)) (m : Moment J V) :
    joins (ms ++ [m]) = joins ms ++ m.joined?.toList := by
  rw [joins, List.filterMap_append]
  exact congrArg _ (filterMap_singleton _ m)

theorem lines_snoc (ms : List (Moment J V)) (m : Moment J V) :
    lines (ms ++ [m]) = lines ms ++ m.effect.lines := by
  simp [lines]

theorem Run.destroyed_count {n : Nat} {p₀ p : Pool J V} {ms : List (Moment J V)} (h₀ : Fresh n p₀)
    (hr : Run p₀ ms p) (ht : ∀ m ∈ ms, m.Timely) :
    (lines ms).count .destroyed = if p.handles = .gone then 1 else 0 := by
  induction hr with
  | start =>
    obtain ⟨-,id,b,rfl⟩ := h₀.eq_blank
    rfl
  | step hr h ih =>
    have ht' := fun m hm => ht m (List.mem_append_left _ hm)
    have hg := hr.guarded h₀ ht'
    rw [lines_snoc, List.count_append, ih ht']
    cases handlesChange h with
    | kept hk hquiet => rw [hk, List.count_eq_zero.mpr hquiet, Nat.add_zero]
    | taken _ hp hheld _ hquiet => simp [hp, hheld, hquiet]
    | dropped hc _ hgone _ htold => simp [hg.holder _ _ hc, hgone, htold]
    | burst hc _ _ hlost _ _ hquiet => simp [hg.holder _ _ hc, hlost, hquiet]

/-- The joining of the workers has begun, and nobody else will begin it. -/
def Begun (p : Pool J V) : Prop :=
  p.handles ≠ .present ∨
    ¬p.Standing ∧ ∀ t c, p.callOf? t = some c → ∃ why next, c = .join why next

theorem begun_step {p : Pool J V} {e : Event J V} {f : Effect J V} (h : p.step e = some f)
    (ht : Moment.Timely ⟨p,e,f⟩) (hb : p.Begun) : f.pool.Begun := by
  rcases hb with hb | ⟨hn,hall⟩
  · left
    cases handlesChange h with
    | kept hk => rwa [hk]
    | taken _ _ hheld => simp [hheld]
    | dropped _ _ hgone => simp [hgone]
    | burst _ _ _ hlost => simp [hlost]
  · right
    refine ⟨?_,?_⟩
    · intro hs
      unfold Standing at hn hs
      rw [(fixed_step h).2] at hs
      rcases growth h with hlen | ⟨t,-,hc,-⟩
      · omega
      · obtain ⟨_,_,hc'⟩ := hall t _ hc
        cases hc'
    · intro u c hu
      rcases onset h hu with hold | ho
      · exact hall u c hold
      · cases ho with
        | call => exact absurd (ht rfl) hn
        | joined => exact ⟨_,_,rfl⟩
        | refused hc | append hc | wait hc | raise hc | wakeRefused hc | wakeOutside hc | enter hc
        | woken hc =>
          obtain ⟨_,_,hc'⟩ := hall u _ hc
          cases hc'

section Begun
variable {p : Pool J V} (hg : p.Guarded)
include hg

theorem Guarded.begun {t : ThreadId} {why : Purpose} {next : Nat}
    (hc : p.callOf? t = some (.join why next)) : p.Begun := by
  cases why with
  | shutdown =>
    left
    rw [hg.holder t next hc]
    simp
  | refused e =>
    refine .inr ⟨hg.reserved.not_standing hc rfl,?_⟩
    intro u c hu
    obtain rfl := hg.reserved.alone hc rfl hu
    rw [hc] at hu
    cases hu
    exact ⟨_,_,rfl⟩

theorem Guarded.no_onset {e : Event J V} {u : ThreadId} {why : Purpose} (hb : p.Begun) :
    ¬Onset p u e (.join why 0) := by
  intro ho
  cases ho with
  | enter hc hp =>
    rcases hb with hb | ⟨hn,-⟩
    · exact hb hp
    · exact hn (hg.reserved.standing hc rfl)
  | wakeRefused hc =>
    rcases hb with hb | ⟨-,hall⟩
    · exact hg.reserved.not_standing hc rfl (hg.used hb)
    · obtain ⟨_,_,hc'⟩ := hall u _ hc
      cases hc'
  | @call r _ _ hb => cases r <;> cases hb

theorem Guarded.join_unique {t u : ThreadId} {why why' : Purpose} {i j : Nat}
    (ht : p.callOf? t = some (.join why i)) (hu : p.callOf? u = some (.join why' j)) : t = u := by
  cases why with
  | refused => exact (hg.reserved.alone ht rfl hu).symm
  | shutdown =>
    cases why' with
    | refused => exact hg.reserved.alone hu rfl ht
    | shutdown =>
      have hheld := hg.holder t i ht
      rw [hg.holder u j hu] at hheld
      cases hheld
      rfl

end Begun

/-- Whoever has joined a worker goes on with the next one, or not at all. -/
theorem joined?_eq_some {p : Pool J V} {e : Event J V} {f : Effect J V} (h : p.step e = some f)
    {i : Nat} (hi : Moment.joined? ⟨p,e,f⟩ = some i) :
    ∃ t why, p.callOf? t = some (.join why i) ∧
      ∀ c, f.pool.callOf? t = some c → c = .join why (i + 1) := by
  cases transition h with
  | joinLeft hc hw | joinKilled hc hw _ =>
    simp only [Moment.joined?, hc, (List.getElem?_eq_some_iff.mp hw).1, ↓reduceIte,
      Option.some.injEq] at hi
    subst hi
    refine ⟨_,_,hc,fun c hc' => ?_⟩
    rw [callOf?_setCall_self] at hc'
    exact (Option.some.inj hc').symm
  | joinBurst hc hw | giveUpBurst hc hw =>
    simp only [Moment.joined?, hc, (List.getElem?_eq_some_iff.mp hw).1, ↓reduceIte,
      Option.some.injEq] at hi
    subst hi
    refine ⟨_,_,hc,fun c hc' => ?_⟩
    dsimp only [endWith] at hc'
    rw [callOf?_endCall, if_pos rfl] at hc'
    cases hc'
  | destroy hc hw | giveUp hc hw =>
    have hlen := List.getElem?_eq_none_iff.mp hw
    simp only [Moment.joined?, hc, if_neg (Nat.not_lt.mpr hlen)] at hi
    cases hi
  | refuse hc | append hc | observe hc | wait hc | raise hc | wakeRefused hc | wakeOwn hc
  | wakeOutside hc | enter hc | enterGone hc => simp [Moment.joined?, hc] at hi
  | call | start | startLast | startRefused | signal | signalNobody | pin | pinKilled | take
  | leave | park | finish | stir | stirWaiter | free => cases hi

/-- What has been joined comes in order, and whoever is joining has only later workers before it. -/
structure Reaped (done : List Nat) (p : Pool J V) : Prop where
  ordered : done.Pairwise (· < ·)
  begun : done ≠ [] → p.Begun
  ahead : ∀ t why next, p.callOf? t = some (.join why next) → ∀ i ∈ done, i < next

theorem reaped_step {p : Pool J V} {e : Event J V} {f : Effect J V} (h : p.step e = some f)
    (ht : Moment.Timely ⟨p,e,f⟩) (hg : p.Guarded) {done : List Nat} (hr : Reaped done p) :
    Reaped (done ++ (Moment.joined? ⟨p,e,f⟩).toList) f.pool := by
  have hahead : ∀ t why next, f.pool.callOf? t = some (.join why next) → ∀ i ∈ done, i < next := by
    intro t why next hc i hi
    rcases onset h hc with hold | ho
    · exact hr.ahead t why next hold i hi
    · -- something has been joined, so nobody begins with the first worker any more
      have hb := hr.begun (List.ne_nil_of_mem hi)
      cases ho with
      | wakeRefused hc' => exact (hg.no_onset hb (.wakeRefused hc')).elim
      | enter hc' hp => exact (hg.no_onset hb (.enter hc' hp)).elim
      | joined hc' => exact Nat.lt_succ_of_lt (hr.ahead t _ _ hc' i hi)
      | @call r _ _ hb => cases r <;> cases hb
  cases hj : Moment.joined? ⟨p,e,f⟩ with
  | none =>
    rw [Option.toList_none, List.append_nil]
    exact ⟨hr.ordered,fun hne => begun_step h ht (hr.begun hne),hahead⟩
  | some i =>
    obtain ⟨t,why,hc,hc'⟩ := joined?_eq_some h hj
    refine ⟨?_,fun _ => begun_step h ht (hg.begun hc),?_⟩
    · refine List.pairwise_append.mpr ⟨hr.ordered,List.pairwise_singleton _ _,?_⟩
      intro k hk l hl
      rw [List.mem_singleton.mp hl]
      exact hr.ahead t why i hc k hk
    · intro u why' next hu k hk
      rcases List.mem_append.mp hk with hk | hk
      · exact hahead u why' next hu k hk
      · -- only the joiner can be joining now
        have hut : u = t := by
          rcases onset h hu with hold | ho
          · exact hg.join_unique hold hc
          · cases ho with
            | wakeRefused hcall => exact (hg.no_onset (hg.begun hc) (.wakeRefused hcall)).elim
            | enter hcall hp => exact (hg.no_onset (hg.begun hc) (.enter hcall hp)).elim
            | joined hcall => exact hg.join_unique hcall hc
            | @call r _ _ hb => cases r <;> cases hb
        subst hut
        cases hc' _ hu
        rw [List.mem_singleton.mp hk]
        exact Nat.lt_succ_self i

theorem Run.reaped {n : Nat} {p₀ p : Pool J V} {ms : List (Moment J V)} (h₀ : Fresh n p₀)
    (hr : Run p₀ ms p) (ht : ∀ m ∈ ms, m.Timely) : Reaped (joins ms) p := by
  induction hr with
  | start => exact ⟨.nil,fun hne => absurd rfl hne,fun _ _ _ _ _ hi => nomatch hi⟩
  | step hr h ih =>
    have ht' := fun m hm => ht m (List.mem_append_left _ hm)
    have hlast := ht _ (List.mem_append_right _ (List.mem_singleton_self _))
    rw [joins_snoc]
    exact reaped_step h hlast (hr.guarded h₀ ht') (ih ht')

/-! ## The barrier -/

/-- The thread is in a shutdown. -/
def Shuts (p : Pool J V) (t : ThreadId) : Prop := (p.callOf? t).any Call.shuts = true

instance (p : Pool J V) (t : ThreadId) : Decidable (p.Shuts t) :=
  inferInstanceAs (Decidable (_ = true))

/-- A call panics only where it drops what a worker has died of. -/
theorem unwound_cases {p : Pool J V} {t : ThreadId} {f : Effect J V} {r : Payload}
    (h : p.step (.proceed t) = some f) (hr : f.reply = some (.unwound r)) :
    ∃ why w q, p.callOf? t = some (.join why w) ∧ p.workers[w]? = some (.killed q) ∧
      q.burst? = some r := by
  cases transition h with
  | joinBurst hc hw hq | giveUpBurst hc hw hq =>
    cases hr
    exact ⟨_,_,_,hc,hw,hq⟩
  | refuse | append | observe | wait | raise | wakeRefused | wakeOwn | wakeOutside | enter
  | enterGone | joinLeft | joinKilled | destroy | giveUp => cases hr

/-- When a shutdown from outside returns, the pool is stopping, and all of its workers are over unless
one of them has died of a payload that panics when it is dropped. If they are over, everything accepted
has been run exactly if nothing is left in the queue, which is so unless every worker was struck. A
shutdown panics only over such a payload, in the place of the joiner. A shutdown from inside can always
go on. The end of the pool is told once at most, and no worker is joined twice. -/
theorem shutdown_barrier {n : Nat} {p₀ p : Pool J V} {ms : List (Moment J V)} (h₀ : Fresh n p₀)
    (hr : Run p₀ ms p) (ht : ∀ m ∈ ms, m.Timely) :
    (∀ t f, p.Shuts t → p.isWorker t = false → p.step (.proceed t) = some f →
        f.reply = some .done →
        f.pool.stopping = true ∧ f.pool.workers.length = n ∧
        (f.pool.Joinable → f.pool.deserted = true) ∧
        (f.pool.deserted = true →
          (Complete (ms ++ [⟨p,.proceed t,f⟩]) f.pool ↔ f.pool.queue.tasks = []) ∧
          ((∃ w < n, ¬Struck (ms ++ [⟨p,.proceed t,f⟩]) w) →
            f.pool.queue.tasks = [] ∧ Complete (ms ++ [⟨p,.proceed t,f⟩]) f.pool))) ∧
      (∀ t f r, p.step (.proceed t) = some f → f.reply = some (.unwound r) →
        ∃ why w q, p.callOf? t = some (.join why w) ∧ p.workers[w]? = some (.killed q) ∧
          q.burst? = some r) ∧
      (∀ t, p.Shuts t → p.isWorker t = true →
        (p.callOf? t = some (.raise .shutdown) ∨ p.callOf? t = some (.wake .shutdown)) ∧
        ∃ f, p.step (.proceed t) = some f ∧
          (p.callOf? t = some (.wake .shutdown) → f.reply = some .done)) ∧
      (lines ms).count .destroyed ≤ 1 ∧ (joins ms).Nodup := by
  have hg := hr.guarded h₀ ht
  refine ⟨?_,fun t f r => unwound_cases,?_,?_,?_⟩
  · intro t f hs ho h hd
    obtain ⟨c,hc,hcs⟩ := (Option.any_eq_true _ _).mp hs
    obtain ⟨hstands,hstop,hover⟩ := hg.of_returned h hc hcs ho hd
    have hr' := hr.step h
    have htime : ∀ m ∈ ms ++ [⟨p,.proceed t,f⟩], m.Timely := by
      intro m hm
      rcases List.mem_append.mp hm with hm | hm
      · exact ht m hm
      · rw [List.mem_singleton.mp hm]
        intro hcall
        cases hcall
    have hlen := hr'.length_eq h₀ htime hstands
    refine ⟨hstop,hlen,hover,fun hdeserted => ?_⟩
    have hiff := hr'.complete_iff h₀ hdeserted
    refine ⟨hiff,?_⟩
    rintro ⟨w,hw,hstruck⟩
    have hleft := hr'.left_of_not_struck h₀ hdeserted (hlen ▸ hw) hstruck
    have hempty := (hr'.drained h₀ hleft).2
    exact ⟨hempty,hiff.mpr hempty⟩
  · intro t hs hw
    obtain ⟨c,hc,hcs⟩ := (Option.any_eq_true _ _).mp hs
    rcases hg.own hc hcs hw with rfl | rfl
    · have hstep : p.step (.proceed t) =
          some { pool := { p with stopping := true }.setCall t (.wake .shutdown) } := by
        simp only [step, hc, advance, Option.bind_some]
      refine ⟨.inl hc,_,hstep,?_⟩
      intro hwake
      rw [hc] at hwake
      cases hwake
    · have hstep : p.step (.proceed t) = some (endWith p.wakeWorkers t [.notJoining] .done) := by
        simp only [step, hc, advance, hw, ↓reduceIte, Option.bind_some]
      exact ⟨.inr hc,_,hstep,fun _ => rfl⟩
  · rw [hr.destroyed_count h₀ ht]
    split <;> omega
  · exact (hr.reaped h₀ ht).ordered.imp Nat.ne_of_lt

/-- A task shuts its pool down while the owner is doing so, and a third thread waits for the handles
meanwhile. It returns when the owner has joined both workers. -/
theorem shutdown_barrier_third_caller :
    ∃ (p₀ p : Pool Nat Nat) (ms : List (Moment Nat Nat)) (f : Effect Nat Nat),
      Fresh 2 p₀ ∧ Run p₀ ms p ∧ (∀ m ∈ ms, m.Timely) ∧ p.Shuts (.client 2) ∧
        p.step (.proceed (.client 2)) = some f ∧ f.reply = some .done ∧
        (∃ m ∈ ms, m.effect.lines = [.notJoining]) ∧ (lines ms).count .destroyed = 1 ∧
        joins ms = [0, 1] ∧ f.pool.deserted = true ∧ f.pool.queue.submitted = 2 ∧
        Complete (ms ++ [⟨p,.proceed (.client 2),f⟩]) f.pool := by
  have h₀ : Fresh 2 (blank 0 2 (.client 0) : Pool Nat Nat) := ⟨0,"noop",.client 0,_,rfl⟩
  have h : (blank 0 2 (.client 0) : Pool Nat Nat).Leads [.spawn (.client 0) none,
      .spawn (.client 0) none, .pin 0, .pin 1, .call (.client 1) (.submit 7 true),
      .proceed (.client 1), .notify (.client 1) none, .claim 0,
      .call (.client 1) (.submit 8 false), .proceed (.client 1), .notify (.client 1) none,
      .call (.client 0) .shutdown, .proceed (.client 0), .proceed (.client 0),
      .proceed (.client 0), .call (.worker 0 0) .shutdown, .call (.client 2) .shutdown,
      .proceed (.client 2), .proceed (.client 2), .proceed (.worker 0 0), .proceed (.worker 0 0),
      .finish 0 (.returned 1), .claim 1, .claim 0, .finish 1 (.unwound .foreign), .claim 1,
      .proceed (.client 0), .proceed (.client 0), .proceed (.client 0)] fun ms p =>
    (∀ m ∈ ms, m.Timely) ∧ p.Shuts (.client 2) ∧ p.isWorker (.client 2) = false ∧
      (∃ m ∈ ms, m.effect.lines = [.notJoining]) ∧ (lines ms).count .destroyed = 1 ∧
      joins ms = [0, 1] ∧ (p.step (.proceed (.client 2))).any (fun f =>
        f.reply = some .done && f.pool.queue.submitted = 2 && f.pool.queue.isEmpty &&
          f.pool.Joinable) = true := by
    decide +kernel
  obtain ⟨ms,p,hr,ht,hs,ho,htask,htold,hjoins,hf⟩ := h.run
  obtain ⟨f,hf,hd⟩ := (Option.any_eq_true _ _).mp hf
  simp only [Bool.and_eq_true, decide_eq_true_eq, Queue.isEmpty_iff] at hd
  obtain ⟨⟨⟨hd,hsub⟩,hempty⟩,hj⟩ := hd
  obtain ⟨-,-,hover,hrun⟩ := (shutdown_barrier h₀ hr ht).1 _ f hs ho hf hd
  have hdeserted := hover hj
  have hiff := (hrun hdeserted).1
  exact ⟨_,p,ms,f,h₀,hr,ht,hs,hf,hd,htask,htold,hjoins,hdeserted,hsub,hiff.mpr hempty⟩

/-- The first job kills the only worker, and the second one is still queued when the owner's shutdown
returns. -/
theorem shutdown_over_stranded_task :
    ∃ (p₀ p : Pool Nat Nat) (ms : List (Moment Nat Nat)) (f : Effect Nat Nat),
      Fresh 1 p₀ ∧ Run p₀ ms p ∧ (∀ m ∈ ms, m.Timely) ∧ p.Shuts (.client 0) ∧
        p.isWorker (.client 0) = false ∧ p.step (.proceed (.client 0)) = some f ∧
        f.reply = some .done ∧ (∃ m ∈ ms, m.effect.reply = some (.accepted 1)) ∧
        f.pool.queue.tasks.map Task.seq = [1] ∧ started ms 1 = 0 := by
  have h₀ : Fresh 1 (blank 0 1 (.client 0) : Pool Nat Nat) := ⟨0,"noop",.client 0,_,rfl⟩
  have h : (blank 0 1 (.client 0) : Pool Nat Nat).Leads [.spawn (.client 0) none, .pin 0,
      .call (.client 0) (.submit 7 false), .proceed (.client 0), .notify (.client 0) none,
      .claim 0, .finish 0 (.unwound (.fuse "dead")), .call (.client 0) (.submit 8 false),
      .proceed (.client 0), .notify (.client 0) none, .call (.client 0) .shutdown,
      .proceed (.client 0), .proceed (.client 0), .proceed (.client 0),
      .proceed (.client 0)] fun ms p =>
    (∀ m ∈ ms, m.Timely) ∧ p.Shuts (.client 0) ∧ p.isWorker (.client 0) = false ∧
      (∃ m ∈ ms, m.effect.reply = some (.accepted 1)) ∧ started ms 1 = 0 ∧
      (p.step (.proceed (.client 0))).any (fun f =>
        f.reply = some .done && f.pool.queue.tasks.map Task.seq = [1]) = true := by
    decide +kernel
  obtain ⟨ms,p,hr,ht,hs,ho,haccepted,hstarted,hf⟩ := h.run
  obtain ⟨f,hf,hd⟩ := (Option.any_eq_true _ _).mp hf
  simp only [Bool.and_eq_true, decide_eq_true_eq] at hd
  exact ⟨_,p,ms,f,h₀,hr,ht,hs,ho,hf,hd.1,haccepted,hd.2,hstarted⟩

end PinnedPool.Pool
