import PinnedPool.Proofs.Pool.Shutdown

/-! # Every result goes to its own handle

A slot is settled by the end of the job that it belongs to and by nothing else. Two things stand
between a handle and the outcome of its body: a panic payload that panics again when it is dropped,
which loses the message, and a pool that is gone while the task is still queued, which takes that
every worker was struck.
-/
namespace PinnedPool

variable {J V : Type}

/-- The body panicked with a payload that panics again when it is dropped. -/
def Ending.bursts : Ending V → Bool
  | .returned _ _ => false
  | .unwound p => p.burst?.isSome

/-- What the handle of a body that ended so is meant to yield. -/
def Ending.result : Ending V → Except PoolError V
  | .returned v _ => .ok v
  | .unwound (.text s) => .error (.taskPanicked s)
  | .unwound _ => .error (.taskPanicked "unknown panic payload")

/-- What it does yield. -/
def Ending.yielded (e : Ending V) : Except PoolError V :=
  if e.bursts then .error .taskAbandoned else e.result

theorem Ending.slot_result (e : Ending V) : e.slot.result = e.yielded := by
  rcases e with v | _ | _ | _ | _ <;> rfl

theorem Ending.settle_watched (heard : Bool) (e : Ending V) :
    ∃ s, (e.settle true heard).1 = some s ∧ s.result = e.yielded :=
  ⟨e.slot,rfl,e.slot_result⟩

theorem Ending.result_ne_abandoned (e : Ending V) : e.result ≠ .error .taskAbandoned := by
  rcases e with v | _ | _ | _ | _ <;> simp [Ending.result]

namespace Pool

/-- The worker that dies of its pinning. -/
def Event.felled? : Event J V → Option Nat
  | .pin w (some _) => some w
  | _ => none

theorem Event.felled?_eq_some {e : Event J V} {w : Nat} :
    e.felled? = some w ↔ ∃ q, e = .pin w (some q) := by
  unfold felled?
  split <;> simp_all

/-- The worker dies of the job. -/
def Completion.fells (c : Completion J V) : Bool :=
  match c.aftermath with
  | .fatal _ => true
  | .quiet | .reported _ => false

theorem Completion.fells_iff {c : Completion J V} :
    c.fells = true ↔ ∃ q, c.aftermath = .fatal q := by
  unfold fells
  cases c.aftermath <;> simp

theorem struck_iff {ms : List (Moment J V)} {w : Nat} :
    Struck ms w ↔ (∃ m ∈ ms, m.event.felled? = some w) ∨
      ∃ c ∈ completions ms, c.worker = w ∧ c.fells = true := by
  simp only [Event.felled?_eq_some, Completion.fells_iff]
  constructor
  · rintro ⟨q,⟨m,hm,he⟩ | ⟨c,hc,hw,hq⟩⟩
    · exact .inl ⟨m,hm,q,he⟩
    · exact .inr ⟨c,hc,hw,q,hq⟩
  · rintro (⟨m,hm,q,he⟩ | ⟨c,hc,hw,q,hq⟩)
    · exact ⟨q,.inl ⟨m,hm,he⟩⟩
    · exact ⟨q,.inr ⟨c,hc,hw,hq⟩⟩

instance (ms : List (Moment J V)) (w : Nat) : Decidable (Struck ms w) :=
  decidable_of_iff _ struck_iff.symm

/-- The slot that a completed job leaves behind. -/
def Completion.slot? (c : Completion J V) : Option (Slot V) :=
  (c.ending.settle c.task.watched c.heard).1

/-- The slots stay as they are, or the one of the job that has just ended is settled. -/
inductive SlotChange (p : Pool J V) (e : Event J V) (f : Effect J V) : Prop
  | kept (completion : Moment.completion? ⟨p,e,f⟩ = none) (slots : f.pool.slots = p.slots)
  | settled {c ticket} (completion : Moment.completion? ⟨p,e,f⟩ = some c)
      (running : p.workers[c.worker]? = some (.running c.task ticket))
      (slots : f.pool.slots = match c.slot? with
        | some s => p.slots.insert c.task.seq s
        | none => p.slots)

theorem finish_slots (p : Pool J V) (w : Nat) (task : Task J) (e : Ending V) (heard : Bool) :
    (p.finish w task e heard).pool.slots = match (e.settle task.watched heard).1 with
      | some s => p.slots.insert task.seq s
      | none => p.slots := by
  unfold finish
  rcases e.settle task.watched heard with ⟨slot,aftermath⟩
  cases aftermath <;> rfl

theorem slotChange {p : Pool J V} {e : Event J V} {f : Effect J V} (h : p.step e = some f) :
    SlotChange p e f := by
  cases transition h with
  | @finish w task ticket e heard hw =>
    refine .settled (c := ⟨w,task,e,heard⟩) ?_ hw (finish_slots ..)
    simp only [Moment.completion?, hw]
  | @take w task ticket rest =>
    refine .kept rfl ?_
    obtain ⟨calls,h⟩ := relieve_pool ({ p with queue := rest }.setWorker w (.running task ticket))
    rw [h]
    rfl
  | call | start | startLast | startRefused | signal | signalNobody | refuse | append | observe
  | wait | raise | wakeRefused | wakeOwn | wakeOutside | enter | enterGone | joinLeft
  | joinKilled | destroy | joinBurst | giveUp | giveUpBurst | pin | pinKilled | leave | park
  | stir | stirWaiter | free =>
    exact .kept rfl rfl

theorem mem_doneBy {ms : List (Moment J V)} {c : Completion J V} (hc : c ∈ completions ms) :
    c.task ∈ doneBy ms c.worker :=
  List.mem_map_of_mem (List.mem_filter.mpr ⟨hc,decide_eq_true rfl⟩)

theorem append_of_accepted {p : Pool J V} {e : Event J V} {f : Effect J V} {task : Task J}
    (ha : Moment.accepted? ⟨p,e,f⟩ = some task) :
    ∃ t, e = .proceed t ∧ p.callOf? t = some (.append task.job task.watched) := by
  obtain ⟨s,hs,ht⟩ := Option.bind_eq_some_iff.mp ha
  obtain ⟨k,-,rfl⟩ := Option.map_eq_some_iff.mp ht
  unfold Moment.submission? at hs
  split at hs
  · split at hs
    · cases hs
      exact ⟨_,‹_›,‹_›⟩
    · cases hs
  · cases hs

section Runs
variable {n : Nat} {p₀ p : Pool J V} {ms : List (Moment J V)} (h₀ : Fresh n p₀) (hr : Run p₀ ms p)
include h₀ hr

theorem Run.started_le_one (k : Nat) : started ms k ≤ 1 := by
  have h := hr.queued_add_started h₀ k
  split at h <;> omega

theorem Run.ended_le_one (k : Nat) : ended ms k ≤ 1 := by
  have hle := hr.started_le_one h₀ k
  rw [hr.started_eq h₀ k] at hle
  omega

/-- The task that a worker is running has not ended before. -/
theorem Run.not_ended_of_running {w : Nat} {task : Task J} {ticket : Ticket}
    (hw : p.workers[w]? = some (.running task ticket)) {c : Completion J V}
    (hc : c ∈ completions ms) : c.task.seq ≠ task.seq := by
  intro heq
  have hhand : 0 < p.inHand task.seq :=
    List.countP_pos_iff.mpr ⟨_,List.mem_of_getElem? hw,beq_self_eq_true task.seq⟩
  have hended : 0 < ended ms task.seq :=
    List.countP_pos_iff.mpr ⟨c,hc,beq_iff_eq.mpr heq⟩
  have hle := hr.started_le_one h₀ task.seq
  rw [hr.started_eq h₀] at hle
  omega

/-- A slot holds what the job that it belongs to has left there. -/
theorem Run.slot_iff (k : Nat) (s : Slot V) :
    p.slots[k]? = some s ↔ ∃ c ∈ completions ms, c.task.seq = k ∧ c.slot? = some s := by
  induction hr with
  | start =>
    obtain ⟨-,id,b,rfl⟩ := h₀.eq_blank
    simp [blank, completions]
  | @step ms p e f hr h ih =>
    rw [completions_snoc]
    cases slotChange h with
    | kept hc hs => simpa [hc, hs] using ih
    | @settled c ticket hc hw hs =>
      have hlast : (∃ d ∈ completions ms ++ [c], d.task.seq = k ∧ d.slot? = some s) ↔
          p.slots[k]? = some s ∨ c.task.seq = k ∧ c.slot? = some s := by
        simp only [List.mem_append, List.mem_singleton, or_and_right, exists_or, exists_eq_left]
        exact or_congr_left ih.symm
      rw [hs, hc, Option.toList_some, hlast]
      cases hslot : c.slot? with
      | none => simp
      | some s' =>
        rw [Std.TreeMap.getElem?_insert]
        by_cases hck : c.task.seq = k
        · -- the job that has just ended is the first one with its number to do so
          have hfree : ∀ d ∈ completions ms, d.task.seq ≠ k :=
            fun d hd => hck ▸ hr.not_ended_of_running h₀ hw hd
          rw [ih, if_pos (by simp [hck])]
          constructor
          · intro hs
            exact .inr ⟨hck,hs⟩
          · rintro (⟨d,hd,hdk,-⟩ | ⟨-,hs⟩)
            · exact absurd hdk (hfree d hd)
            · exact hs
        · rw [if_neg (by simpa using hck)]
          simp [hck]

theorem Run.standing_of_accepted (ht : ∀ m ∈ ms, m.Timely) {task : Task J}
    (ha : task ∈ accepted ms) : p.Standing := by
  induction hr with
  | start => cases ha
  | step hr h ih =>
    have ht' := fun m hm => ht m (List.mem_append_left _ hm)
    refine standing_step h ?_
    rw [accepted_snoc] at ha
    rcases List.mem_append.mp ha with ha | ha
    · exact ih ht' ha
    · obtain ⟨t,-,hc⟩ := append_of_accepted (Option.mem_toList.mp ha)
      exact (hr.reserved h₀ ht').standing hc rfl

theorem Run.accepted_unique {s t : Task J} (hs : s ∈ accepted ms) (ht : t ∈ accepted ms)
    (h : s.seq = t.seq) : s = t := by
  have hn : ((accepted ms).map Task.seq).Nodup := hr.accepted_seq h₀ ▸ List.nodup_range
  exact List.inj_on_of_nodup_map hn hs ht h

theorem Run.mem_accepted_of_completion {c : Completion J V} (hc : c ∈ completions ms) :
    c.task ∈ accepted ms := by
  obtain ⟨d,hd,-,heq⟩ := hr.claim_of_done h₀ (mem_doneBy hc)
  rw [← heq]
  exact hr.mem_accepted_of_claim h₀ hd

/-- A queued task that no worker is left for is behind workers that were all struck. -/
theorem Run.struck_of_stranded (ht : ∀ m ∈ ms, m.Timely) (hd : p.deserted = true) {task : Task J}
    (hq : task ∈ p.queue.tasks) : ∀ w < n, Struck ms w := by
  intro w hw
  have hs := hr.standing_of_accepted h₀ ht (hr.mem_accepted_of_queued h₀ hq)
  rw [← hr.length_eq h₀ ht hs] at hw
  refine Classical.byContradiction ?_
  intro hstruck
  have hleft := hr.left_of_not_struck h₀ hd hw hstruck
  rw [(hr.drained h₀ hleft).2] at hq
  cases hq

end Runs

section Slots
variable {n : Nat} {p₀ p : Pool J V} {ms : List (Moment J V)} (h₀ : Fresh n p₀) (hr : Run p₀ ms p)
include h₀ hr

theorem Run.slot?_of_completion {c : Completion J V} (hc : c ∈ completions ms)
    (hw : c.task.watched = true) :
    ∃ s, p.slot? c.task.seq = some s ∧ s.result = c.ending.yielded := by
  obtain ⟨s,hs,hres⟩ := c.ending.settle_watched c.heard
  rw [← hw] at hs
  refine ⟨s,?_,hres⟩
  unfold slot?
  rw [(hr.slot_iff h₀ c.task.seq s).mpr ⟨c,hc,rfl,hs⟩]

theorem Run.slot?_of_running {w : Nat} {task : Task J} {ticket : Ticket}
    (hw : p.workers[w]? = some (.running task ticket)) : p.slot? task.seq = none := by
  have hnone : p.slots[task.seq]? = none := by
    refine Option.eq_none_iff_forall_ne_some.mpr ?_
    intro s hs
    obtain ⟨c,hc,heq,-⟩ := (hr.slot_iff h₀ _ _).mp hs
    exact hr.not_ended_of_running h₀ hw hc heq
  have hbusy : p.deserted = false := by
    refine Bool.eq_false_iff.mpr ?_
    intro hd
    have hended := List.all_eq_true.mp hd _ (List.mem_of_getElem? hw)
    cases hended
  unfold slot?
  rw [hnone, hbusy]
  simp

/-- What a handle yields was left by its own body, or nobody is there to run it any more. -/
theorem Run.of_slot? (ht : ∀ m ∈ ms, m.Timely) {task : Task J} (ha : task ∈ accepted ms)
    (hw : task.watched = true) {s : Slot V} (hs : p.slot? task.seq = some s) :
    (∃ c ∈ completions ms, c.task = task ∧ s.result = c.ending.yielded) ∨
      s.result = .error .taskAbandoned ∧ task ∈ p.queue.tasks ∧ p.freed = true ∧
        ∀ w < n, Struck ms w := by
  unfold slot? at hs
  split at hs
  · rename_i hslot
    obtain ⟨c,hc,hseq,hcs⟩ := (hr.slot_iff h₀ _ _).mp hslot
    obtain rfl := hr.accepted_unique h₀ (hr.mem_accepted_of_completion h₀ hc) ha hseq
    obtain ⟨s',hs',hres⟩ := c.ending.settle_watched c.heard
    have heq : s' = s := by
      rw [← hw] at hs'
      exact Option.some.inj ((hs'.symm.trans hcs).trans hs)
    exact .inl ⟨c,hc,rfl,heq ▸ hres⟩
  · split at hs
    · rename_i hgone
      simp only [Bool.and_eq_true, List.any_eq_true, decide_eq_true_eq] at hgone
      obtain ⟨⟨hfreed,hd⟩,task',hq,hseq⟩ := hgone
      obtain rfl := hr.accepted_unique h₀ (hr.mem_accepted_of_queued h₀ hq) ha hseq
      cases hs
      exact .inr ⟨rfl,hq,hfreed,hr.struck_of_stranded h₀ ht hd hq⟩
    · cases hs

end Slots

/-- A worker that runs a task finds its slot free and can hand over whatever the body ends in, with the
handle still there or not. The handle of an accepted task yields the outcome of its own body once that
has ended, and nothing before; unless the body's payload bursts and takes the message with it, or a
pool has been let go of with the task still queued behind workers that were all struck. -/
theorem own_outcome {n : Nat} {p₀ p : Pool J V} {ms : List (Moment J V)} (h₀ : Fresh n p₀)
    (hr : Run p₀ ms p) (ht : ∀ m ∈ ms, m.Timely) :
    (∀ w task ticket, p.workers[w]? = some (.running task ticket) →
        p.slot? task.seq = none ∧
        (p.callOf? (.worker p.id w) = none →
          ∀ e heard, ∃ f, p.step (.finish w e heard) = some f)) ∧
      ∀ task ∈ accepted ms, task.watched = true →
        ended ms task.seq ≤ 1 ∧
        (∀ c ∈ completions ms, c.task = task →
          ∃ s, p.slot? task.seq = some s ∧ s.result = c.ending.yielded) ∧
        (∀ s, p.slot? task.seq = some s →
          (∃ c ∈ completions ms, c.task = task ∧ s.result = c.ending.yielded) ∨
            s.result = .error .taskAbandoned ∧ task ∈ p.queue.tasks ∧ p.freed = true ∧
              ∀ w < n, Struck ms w) ∧
        ((∀ c ∈ completions ms, c.task = task → c.ending.bursts = false) →
          (∃ w < n, ¬Struck ms w) → ∀ s, p.slot? task.seq = some s → s.result ≠ .error .taskAbandoned ∧
            ∃ c ∈ completions ms, c.task = task ∧ s.result = c.ending.result) := by
  refine ⟨?_,?_⟩
  · intro w task ticket hw
    refine ⟨hr.slot?_of_running h₀ hw,?_⟩
    intro hc e heard
    exact ⟨p.finish w task e heard,by simp only [step, hw, hc]⟩
  · intro task ha hw
    have hown := fun s => hr.of_slot? h₀ ht ha hw (s := s)
    refine ⟨hr.ended_le_one h₀ _,?_,hown,?_⟩
    · rintro c hc rfl
      exact hr.slot?_of_completion h₀ hc hw
    · rintro hquiet ⟨w,hw,hspared⟩ s hs
      rcases hown s hs with ⟨c,hc,htask,hres⟩ | ⟨-,-,-,hstruck⟩
      · have hresult : s.result = c.ending.result := by
          rw [hres, Ending.yielded, hquiet c hc htask]
          rfl
        exact ⟨hresult ▸ c.ending.result_ne_abandoned,c,hc,htask,hresult⟩
      · exact absurd (hstruck w hw) hspared

/-- The second task ends first, and in a panic. The first one shuts the pool down from inside and
ends last, after the owner has let go of the pool. -/
theorem own_outcome_crossed :
    ∃ (p₀ p : Pool Nat Nat) (ms : List (Moment Nat Nat)) (s₀ s₁ : Slot Nat),
      Fresh 2 p₀ ∧ Run p₀ ms p ∧ (∀ m ∈ ms, m.Timely) ∧ p.freed = true ∧
        (accepted ms).map Task.seq = [0, 1] ∧ (completions ms).map (·.task.seq) = [1, 0] ∧
        p.slot? 0 = some s₀ ∧ s₀.result = .ok 3 ∧
        p.slot? 1 = some s₁ ∧ s₁.result = .error (.taskPanicked "boom") := by
  have h₀ : Fresh 2 (blank 0 2 (.client 0) : Pool Nat Nat) := ⟨0,"noop",.client 0,_,rfl⟩
  have h : (blank 0 2 (.client 0) : Pool Nat Nat).Leads [.spawn (.client 0) none,
      .spawn (.client 0) none, .pin 0, .pin 1, .call (.client 1) (.submit 7 true),
      .proceed (.client 1), .notify (.client 1) none, .claim 0,
      .call (.client 1) (.submit 8 true), .proceed (.client 1), .notify (.client 1) none,
      .claim 1, .call (.worker 0 0) .shutdown, .proceed (.worker 0 0), .proceed (.worker 0 0),
      .free, .finish 1 (.unwound (.text "boom")), .claim 1, .finish 0 (.returned 3)] fun ms p =>
    (∀ m ∈ ms, m.Timely) ∧ p.freed = true ∧ accepted ms = [⟨0,7,true⟩, ⟨1,8,true⟩] ∧
      completions ms = [⟨1,⟨1,8,true⟩,.unwound (.text "boom"),true⟩,
        ⟨0,⟨0,7,true⟩,.returned 3,true⟩] := by
    decide +kernel
  obtain ⟨ms,p,hr,ht,hfreed,ha,hc⟩ := h.run
  obtain ⟨-,hown⟩ := own_outcome h₀ hr ht
  obtain ⟨-,hfirst,-⟩ := hown ⟨0,7,true⟩ (by simp [ha]) rfl
  obtain ⟨-,hsecond,-⟩ := hown ⟨1,8,true⟩ (by simp [ha]) rfl
  obtain ⟨s₀,hs₀,hres₀⟩ := hfirst ⟨0,⟨0,7,true⟩,.returned 3,true⟩ (by simp [hc]) rfl
  obtain ⟨s₁,hs₁,hres₁⟩ := hsecond ⟨1,⟨1,8,true⟩,.unwound (.text "boom"),true⟩ (by simp [hc]) rfl
  exact ⟨_,p,ms,s₀,s₁,h₀,hr,ht,hfreed,by simp [ha],by simp [hc],hs₀,hres₀,hs₁,hres₁⟩

/-- The payload of a watched task panics when it is dropped. The task has panicked, and its handle
says that it was abandoned. -/
theorem panic_told_as_abandonment :
    ∃ (p₀ p : Pool Nat Nat) (ms : List (Moment Nat Nat)) (c : Completion Nat Nat) (s : Slot Nat),
      Fresh 1 p₀ ∧ Run p₀ ms p ∧ (∀ m ∈ ms, m.Timely) ∧ c.task ∈ accepted ms ∧
        c.task.watched = true ∧ c ∈ completions ms ∧
        c.ending.result = .error (.taskPanicked "unknown panic payload") ∧
        p.slot? c.task.seq = some s ∧ s.result = .error .taskAbandoned := by
  have h₀ : Fresh 1 (blank 0 1 (.client 0) : Pool Nat Nat) := ⟨0,"noop",.client 0,_,rfl⟩
  have h : (blank 0 1 (.client 0) : Pool Nat Nat).Leads [.spawn (.client 0) none, .pin 0,
      .call (.client 0) (.submit 7 true), .proceed (.client 0), .notify (.client 0) none,
      .claim 0, .finish 0 (.unwound (.fuse "late"))] fun ms _ =>
    (∀ m ∈ ms, m.Timely) ∧ ⟨0,7,true⟩ ∈ accepted ms ∧
      ⟨0,⟨0,7,true⟩,.unwound (.fuse "late"),true⟩ ∈ completions ms := by
    decide +kernel
  obtain ⟨ms,p,hr,ht,ha,hc⟩ := h.run
  obtain ⟨s,hs,hres⟩ := hr.slot?_of_completion h₀ hc rfl
  exact ⟨_,p,ms,_,s,h₀,hr,ht,ha,rfl,hc,rfl,hs,hres⟩

end Pool
end PinnedPool
