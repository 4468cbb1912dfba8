import PinnedPool.Proofs.Pool.Order

/-! # The work of the workers

A worker takes a task, runs it to its end and takes the next one. So the tasks that it has claimed
are those that it has run to the end, in the same order, and after them the one that it is running.
-/
namespace PinnedPool.Pool

variable {J V : Type}

def taskOf (p : Pool J V) (w : Nat) : Option (Task J) := (p.workers[w]?).bind Worker.task?

/-- How many workers are running the task with a number. -/
def inHand (p : Pool J V) (k : Nat) : Nat :=
  p.workers.countP fun s => s.task?.any fun task => task.seq == k

def takenBy (ms : List (Moment J V)) (w : Nat) : List (Task J) :=
  ((claims ms).filter fun c => c.worker = w).map Claim.task

/-- The tasks that a worker has run to the end. -/
def doneBy (ms : List (Moment J V)) (w : Nat) : List (Task J) :=
  ((completions ms).filter fun c => c.worker = w).map Completion.task

/-- The workers go on with what they are doing, or one of them takes a task or is done with it. -/
inductive WorkChange (p : Pool J V) (e : Event J V) (f : Effect J V) : Prop
  | kept (claim : Moment.claim? ⟨p,e,f⟩ = none) (completion : Moment.completion? ⟨p,e,f⟩ = none)
      (tasks : ∀ w, f.pool.taskOf w = p.taskOf w) (count : ∀ k, f.pool.inHand k = p.inHand k)
  | taken {c} (claim : Moment.claim? ⟨p,e,f⟩ = some c)
      (completion : Moment.completion? ⟨p,e,f⟩ = none) (free : p.taskOf c.worker = none)
      (tasks : ∀ w, f.pool.taskOf w = if w = c.worker then some c.task else p.taskOf w)
      (count : ∀ k, f.pool.inHand k = p.inHand k + (c.task.seq == k).toNat)
  | done {c} (claim : Moment.claim? ⟨p,e,f⟩ = none)
      (completion : Moment.completion? ⟨p,e,f⟩ = some c)
      (busy : p.taskOf c.worker = some c.task)
      (tasks : ∀ w, f.pool.taskOf w = if w = c.worker then none else p.taskOf w)
      (count : ∀ k, f.pool.inHand k + (c.task.seq == k).toNat = p.inHand k)

section Set
variable {p q : Pool J V} {w : Nat} {a b : Worker J} (hw : p.workers[w]? = some a)
    (hq : q.workers = p.workers.set w b)
include hw hq

theorem taskOf_set (v : Nat) : q.taskOf v = if v = w then b.task? else p.taskOf v := by
  have hlt := (List.getElem?_eq_some_iff.mp hw).1
  unfold taskOf
  rw [hq]
  by_cases hv : v = w
  · rw [if_pos hv, hv, List.getElem?_set_self hlt]
    rfl
  · rw [if_neg hv, List.getElem?_set_ne (Ne.symm hv)]

theorem inHand_set (k : Nat) :
    q.inHand k + (a.task?.any fun task => task.seq == k).toNat =
      p.inHand k + (b.task?.any fun task => task.seq == k).toNat := by
  have h := countP_set_add (fun s : Worker J => s.task?.any fun task => task.seq == k) (b := b) hw
  unfold inHand
  rw [hq]
  exact h

theorem WorkChange.of_set {e : Event J V} {f : Effect J V} (hf : q = f.pool) (ha : a.task? = none)
    (hb : b.task? = none) (hc : Moment.claim? ⟨p,e,f⟩ = none)
    (hd : Moment.completion? ⟨p,e,f⟩ = none) : WorkChange p e f := by
  subst hf
  refine .kept hc hd ?_ ?_
  · intro v
    rw [taskOf_set hw hq, hb]
    split
    · rename_i hv
      rw [hv, taskOf, hw, Option.bind_some, ha]
    · rfl
  · intro k
    have h := inHand_set hw hq k
    rw [ha, hb] at h
    exact h

end Set

theorem task?_wake (s : Worker J) : s.wake.task? = s.task? := by cases s <;> rfl

theorem taskOf_wakeWorkers (p : Pool J V) (w : Nat) : p.wakeWorkers.taskOf w = p.taskOf w := by
  unfold taskOf
  rw [getElem?_wakeWorkers]
  cases p.workers[w]? with
  | none => rfl
  | some s => exact task?_wake s

theorem inHand_wakeWorkers (p : Pool J V) (k : Nat) : p.wakeWorkers.inHand k = p.inHand k := by
  unfold inHand wakeWorkers
  rw [List.countP_map]
  exact List.countP_congr fun s _ => by simp [task?_wake]

theorem taskOf_start {p q : Pool J V} (hq : q.workers = p.workers ++ [.starting]) (w : Nat) :
    q.taskOf w = p.taskOf w := by
  unfold taskOf
  rw [hq, List.getElem?_append]
  split
  · rfl
  · rename_i hw
    rw [List.getElem?_eq_none (l := p.workers) (by omega), List.getElem?_singleton]
    split <;> rfl

theorem inHand_start {p q : Pool J V} (hq : q.workers = p.workers ++ [.starting]) (k : Nat) :
    q.inHand k = p.inHand k := by
  unfold inHand
  rw [hq]
  simp [Worker.task?]

theorem inHand_eq_zero {p : Pool J V} (h : ∀ s ∈ p.workers, s.task? = none) (k : Nat) :
    p.inHand k = 0 := by
  refine List.countP_eq_zero.mpr ?_
  intro s hs
  simp [h s hs]

theorem workChange {p : Pool J V} {e : Event J V} {f : Effect J V} (h : p.step e = some f) :
    WorkChange p e f := by
  cases transition h with
  | @take w task ticket rest hw hp =>
    have hset : ({ p with queue := rest }.setWorker w (.running task ticket)).relieve.workers =
        p.workers.set w (.running task ticket) := relieve_workers _
    have hr := getElem?_setWorker (p := { p with queue := rest }) hw (.running task ticket)
    refine .taken (c := ⟨w,task,ticket⟩) ?_ rfl ?_ (taskOf_set hw hset) (inHand_set hw hset)
    · simp only [Moment.claim?, relieve_workers, hr]
    · unfold taskOf
      rw [hw]
      rfl
  | @finish w task ticket e heard hw =>
    have hset := finish_workers p w task e heard
    have hb : (after task e heard).task? = none := by
      unfold after
      split <;> rfl
    have htasks := taskOf_set hw hset
    have hcount := inHand_set hw hset
    rw [hb] at htasks hcount
    refine .done (c := ⟨w,task,e,heard⟩) rfl ?_ ?_ htasks hcount
    · simp only [Moment.completion?, hw]
    · unfold taskOf
      rw [hw]
      rfl
  | signal _ hw | pin hw | pinKilled _ hw | stir hw => exact .of_set hw rfl rfl rfl rfl rfl rfl
  | leave hw | park hw =>
    exact .of_set hw rfl rfl rfl rfl (by simp only [Moment.claim?, getElem?_setWorker hw]) rfl
  | wakeRefused | wakeOwn | wakeOutside =>
    exact .kept rfl rfl p.taskOf_wakeWorkers p.inHand_wakeWorkers
  | start | startLast => exact .kept rfl rfl (taskOf_start rfl) (inHand_start rfl)
  | call | startRefused | signalNobody | refuse | append | observe | wait | raise | enter
  | enterGone | joinLeft | joinKilled | destroy | joinBurst | giveUp | giveUpBurst | stirWaiter
  | free =>
    exact .kept rfl rfl (fun _ => rfl) fun _ => rfl

def started (ms : List (Moment J V)) (k : Nat) : Nat := (claims ms).countP fun c => c.task.seq == k

def ended (ms : List (Moment J V)) (k : Nat) : Nat :=
  (completions ms).countP fun c => c.task.seq == k

theorem countP_singleton_toNat {A : Type} (f : A → Bool) (a : A) : [a].countP f = (f a).toNat := by
  cases h : f a <;> simp [h]

section Runs
variable {n : Nat} {p₀ p : Pool J V} {ms : List (Moment J V)} (h₀ : Fresh n p₀) (hr : Run p₀ ms p)
include h₀ hr

theorem Run.takenBy_eq (w : Nat) : takenBy ms w = doneBy ms w ++ (p.taskOf w).toList := by
  induction hr with
  | start =>
    obtain ⟨-,id,t,rfl⟩ := h₀.eq_blank
    rfl
  | step hr hs ih =>
    unfold takenBy doneBy at ih ⊢
    rw [claims_snoc, completions_snoc, List.filter_append, List.filter_append, List.map_append,
      List.map_append, ih]
    cases workChange hs with
    | kept hc hd htasks => simp [hc, hd, htasks]
    | @taken c hc hd hfree htasks =>
      by_cases hw : w = c.worker
      · simp [hc, hd, htasks, hw, hfree]
      · simp [hc, hd, htasks, hw, Ne.symm hw]
    | @done c hc hd hbusy htasks =>
      by_cases hw : w = c.worker
      · simp [hc, hd, htasks, hw, hbusy]
      · simp [hc, hd, htasks, hw, Ne.symm hw]

theorem Run.claim_of_done {w : Nat} {task : Task J} (ht : task ∈ doneBy ms w) :
    ∃ c ∈ claims ms, c.worker = w ∧ c.task = task := by
  have htaken : task ∈ takenBy ms w := by
    rw [hr.takenBy_eq h₀ w]
    exact List.mem_append_left _ ht
  obtain ⟨c,hc,hct⟩ := List.mem_map.mp htaken
  obtain ⟨hc,hw⟩ := List.mem_filter.mp hc
  exact ⟨c,hc,of_decide_eq_true hw,hct⟩

theorem Run.done_increasing (w : Nat) : ((doneBy ms w).map Task.seq).Pairwise (· < ·) := by
  have hsub : ((takenBy ms w).map Task.seq).Sublist ((claims ms).map (·.task.seq)) := by
    unfold takenBy
    rw [List.map_map]
    exact List.filter_sublist.map _
  have htaken := hr.takenBy_eq h₀ w
  have hdone : ((doneBy ms w).map Task.seq).Sublist ((takenBy ms w).map Task.seq) := by
    rw [htaken]
    exact (List.sublist_append_left _ _).map _
  have hclaims : ((claims ms).map (·.task.seq)).Pairwise (· < ·) := by
    rw [hr.claims_seq h₀]
    exact List.pairwise_lt_range
  exact hclaims.sublist (hdone.trans hsub)

theorem Run.done_disjoint {v w k : Nat} (hv : k ∈ (doneBy ms v).map Task.seq)
    (hw : k ∈ (doneBy ms w).map Task.seq) : v = w := by
  obtain ⟨s,hs,hsk⟩ := List.mem_map.mp hv
  obtain ⟨t,ht,htk⟩ := List.mem_map.mp hw
  obtain ⟨c,hc,rfl,rfl⟩ := hr.claim_of_done h₀ hs
  obtain ⟨d,hd,rfl,rfl⟩ := hr.claim_of_done h₀ ht
  rw [hr.claim_unique h₀ hc hd (hsk.trans htk.symm)]

theorem Run.started_eq (k : Nat) : started ms k = p.inHand k + ended ms k := by
  induction hr with
  | start =>
    obtain ⟨-,id,t,rfl⟩ := h₀.eq_blank
    rfl
  | step hr hs ih =>
    unfold started ended at ih ⊢
    rw [claims_snoc, completions_snoc, List.countP_append, List.countP_append, ih]
    cases workChange hs with
    | kept hc hd _ hcount => simp [hc, hd, hcount]
    | taken hc hd _ _ hcount =>
      simp only [hc, hd, Option.toList_some, Option.toList_none, List.countP_nil,
        countP_singleton_toNat, hcount k]
      omega
    | done hc hd _ _ hcount =>
      have hk := hcount k
      simp only [hc, hd, Option.toList_some, Option.toList_none, List.countP_nil,
        countP_singleton_toNat]
      omega

end Runs

/-! ## The end of a worker -/

theorem length_step {p : Pool J V} {e : Event J V} {f : Effect J V} (h : p.step e = some f) :
    p.workers.length ≤ f.pool.workers.length := by
  cases transition h with
  | start | startLast => simp [endWith, endCall]
  | signal | pin | pinKilled | leave | park | stir =>
    simp [endWith, endCall, setWorker]
  | take => simp [setWorker]
  | finish => simp
  | wakeRefused | wakeOwn | wakeOutside => simp [endWith, endCall, setCall, wakeWorkers]
  | call | startRefused | signalNobody | refuse | append | observe | wait | raise | enter
  | enterGone | joinLeft | joinKilled | destroy | joinBurst | giveUp | giveUpBurst | stirWaiter
  | free =>
    exact Nat.le_refl _

theorem lt_of_taskOf {p : Pool J V} {w : Nat} {task : Task J} (h : p.taskOf w = some task) :
    w < p.workers.length := by
  obtain ⟨s,hs,-⟩ := Option.bind_eq_some_iff.mp h
  exact (List.getElem?_eq_some_iff.mp hs).1

theorem Run.worker_lt {p₀ p : Pool J V} {ms : List (Moment J V)} (hr : Run p₀ ms p)
    {c : Claim J} (hc : c ∈ claims ms) : c.worker < p.workers.length := by
  induction hr with
  | start => cases hc
  | step hr hs ih =>
    rw [claims_snoc] at hc
    rcases List.mem_append.mp hc with hc | hc
    · exact Nat.lt_of_lt_of_le (ih hc) (length_step hs)
    · have hc := Option.mem_toList.mp hc
      cases workChange hs with
      | kept hn | done hn =>
        rw [hn] at hc
        cases hc
      | @taken d hd _ _ htasks =>
        rw [hd] at hc
        cases hc
        exact lt_of_taskOf ((htasks c.worker).trans (if_pos rfl))

/-- What the end of a job did to the worker that ran it. -/
def Completion.aftermath (c : Completion J V) : Aftermath :=
  (c.ending.settle c.task.watched c.heard).2

/-- A worker dies of the payload that comes out of a payload that it drops outside of every guard:
that of a detached body, the one that comes out of the payload of a watched body, or the one that comes
out of a value that nobody is left to take. -/
theorem Completion.fatal_iff {c : Completion J V} {q : Payload} : c.aftermath = .fatal q ↔
    (c.task.watched = false ∧ ∃ p, c.ending = .unwound p ∧ p.burst? = some q) ∨
    (c.task.watched = true ∧ ∃ p r, c.ending = .unwound p ∧ p.burst? = some r ∧
      r.burst? = some q) ∨
    (c.task.watched = true ∧ c.heard = false ∧ ∃ v r, c.ending = .returned v (some r) ∧
      r.burst? = some q) := by
  obtain ⟨w,⟨seq,job,watched⟩,e,heard⟩ := c
  simp only [Completion.aftermath, Ending.settle, Aftermath.of_eq_fatal_iff]
  cases watched <;> cases e <;> simp [Ending.escape]
  all_goals aesop

/-- A worker has died of a payload: while it pinned itself, or after a job that it ran. -/
def DiedOf (ms : List (Moment J V)) (w : Nat) (q : Payload) : Prop :=
  (∃ m ∈ ms, m.event = .pin w (some q)) ∨
    ∃ c ∈ completions ms, c.worker = w ∧ c.aftermath = .fatal q

def Struck (ms : List (Moment J V)) (w : Nat) : Prop := ∃ q, DiedOf ms w q

theorem Run.died_of_killed {n : Nat} {p₀ p : Pool J V} {ms : List (Moment J V)} (h₀ : Fresh n p₀)
    (hr : Run p₀ ms p) {w : Nat} {q : Payload} (hw : p.workers[w]? = some (.killed q)) :
    DiedOf ms w q := by
  induction hr with
  | start =>
    obtain ⟨-,id,t,rfl⟩ := h₀.eq_blank
    cases hw
  | step hr hs ih =>
    rcases arrival hs hw with hw | ha
    · rcases ih hw with ⟨m,hm,he⟩ | ⟨c,hc,hcause⟩
      · exact .inl ⟨m,List.mem_append_left _ hm,he⟩
      · exact .inr ⟨c,completions_snoc _ _ ▸ List.mem_append_left _ hc,hcause⟩
    · cases ha with
      | pinning => exact .inl ⟨_,List.mem_append_right _ (List.mem_singleton_self _),rfl⟩
      | @failing task ticket e heard _ hrun hfatal =>
        refine .inr ⟨⟨w,task,e,heard⟩,?_,rfl,hfatal⟩
        rw [completions_snoc]
        exact List.mem_append_right _ (by simp [Moment.completion?, hrun])

end PinnedPool.Pool
