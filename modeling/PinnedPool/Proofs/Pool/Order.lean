import Mathlib.Data.List.Nodup
import PinnedPool.Proofs.Pool.Change

/-! # Tasks are claimed in the order of submission

The tasks in the queue carry the numbers from `claimed` up to `submitted`, in this order. So the
claims of a run come in the order of the numbers, every ticket shows one number twice, and a
submission that returned before another one began is claimed before it.
-/
namespace PinnedPool

variable {J V : Type}

/-- The queued tasks are numbered from `claimed` on, without a gap, up to `submitted`. -/
def Queue.Numbered (q : Queue J) : Prop :=
  q.claimed ≤ q.submitted ∧
    q.tasks.map Task.seq = List.range' q.claimed (q.submitted - q.claimed)

theorem Queue.Numbered.push {q : Queue J} (h : q.Numbered) (job : J) (watched : Bool) :
    (q.push job watched).Numbered := by
  obtain ⟨hle,hseq⟩ := h
  refine ⟨Nat.le_succ_of_le hle,?_⟩
  have hn : q.submitted + 1 - q.claimed = q.submitted - q.claimed + 1 := by omega
  have hs : q.claimed + (q.submitted - q.claimed) = q.submitted := by omega
  rw [tasks_push, List.map_append, hseq, submitted_push, claimed_push, hn, List.range'_concat]
  simp [hs]

theorem Queue.Numbered.pop {q rest : Queue J} (h : q.Numbered) {task : Task J} {ticket : Ticket}
    (hp : q.pop? = some (task, ticket, rest)) :
    rest.Numbered ∧ task.seq = q.claimed ∧ ticket = ⟨q.claimed,q.claimed⟩ := by
  obtain ⟨hle,hseq⟩ := h
  obtain ⟨htasks,hticket,hsub,hclaim⟩ := pop?_eq_some hp
  rw [htasks, List.map_cons] at hseq
  have hlt : q.claimed < q.submitted := by
    refine Nat.lt_of_not_le fun hn => ?_
    rw [Nat.sub_eq_zero_of_le hn] at hseq
    cases hseq
  have hn : q.submitted - q.claimed = q.submitted - (q.claimed + 1) + 1 := by omega
  rw [hn, List.range'_succ] at hseq
  obtain ⟨hfirst,hrest⟩ := List.cons.inj hseq
  refine ⟨⟨by omega,?_⟩,hfirst,by rw [hticket, hfirst]⟩
  rw [hrest, hsub, hclaim]

namespace Pool

section Runs
variable {n : Nat} {p₀ p : Pool J V} {ms : List (Moment J V)} (h₀ : Fresh n p₀) (hr : Run p₀ ms p)
include h₀ hr

theorem Run.numbered : p.queue.Numbered := by
  refine hr.invariant (I := fun p => p.queue.Numbered) ?_ ?_
  · obtain ⟨-,id,t,rfl⟩ := h₀.eq_blank
    exact ⟨Nat.le_refl 0,rfl⟩
  · intro p e f hs hq
    cases queueChange hs with
    | kept _ _ h => exact h ▸ hq
    | pushed _ _ _ _ h => exact h ▸ hq.push _ _
    | popped _ _ hp h => exact h ▸ (hq.pop hp).1

/-- The claims of a run, in their order, are those of the tasks with the numbers from `0` on. -/
theorem Run.claims_eq : (claims ms).map (fun c => (c.task.seq, c.ticket)) =
    (List.range p.queue.claimed).map fun k => (k, ⟨k,k⟩) := by
  induction hr with
  | start =>
    obtain ⟨-,id,t,rfl⟩ := h₀.eq_blank
    rfl
  | step hr hs ih =>
    have hq := hr.numbered h₀
    rw [claims_snoc, List.map_append, ih]
    cases queueChange hs with
    | kept _ hc h => simp [hc, h]
    | pushed _ hc _ _ h => simp [hc, h]
    | popped _ hc hp h =>
      obtain ⟨-,hseq,hticket⟩ := hq.pop hp
      have hclaim := (Queue.pop?_eq_some hp).2.2.2
      simp [hc, h, hclaim, List.range_succ, hseq, hticket]

theorem Run.claims_seq : (claims ms).map (·.task.seq) = List.range p.queue.claimed := by
  have h := congrArg (List.map Prod.fst) (hr.claims_eq h₀)
  simpa only [List.map_map, Function.comp_def, List.map_id'] using h

theorem Run.claims_ticket :
    (claims ms).map Claim.ticket = (List.range p.queue.claimed).map fun k => ⟨k,k⟩ := by
  have h := congrArg (List.map Prod.snd) (hr.claims_eq h₀)
  simpa only [List.map_map, Function.comp_def] using h

theorem Run.ticket_eq {c : Claim J} (hc : c ∈ claims ms) : c.ticket = ⟨c.task.seq,c.task.seq⟩ := by
  have h : (c.task.seq,c.ticket) ∈ (List.range p.queue.claimed).map fun k => (k,⟨k,k⟩) :=
    hr.claims_eq h₀ ▸ List.mem_map_of_mem hc
  obtain ⟨k,-,hk⟩ := List.mem_map.mp h
  obtain ⟨rfl,ht⟩ := Prod.mk.inj hk
  exact ht.symm

/-- The accepted submissions are numbered in the order of acceptance. -/
theorem Run.accepted_seq : (accepted ms).map Task.seq = List.range p.queue.submitted := by
  induction hr with
  | start =>
    obtain ⟨-,id,t,rfl⟩ := h₀.eq_blank
    rfl
  | step hr hs ih =>
    rw [accepted_snoc, List.map_append, ih]
    cases queueChange hs with
    | kept ha _ h => simp [ha, h]
    | pushed ha _ _ hseq h => simp [ha, h, hseq, List.range_succ]
    | popped ha _ hp h => simp [ha, h, (Queue.pop?_eq_some hp).2.2.1]

/-- Every accepted task is claimed, one after the other, or still in the queue. -/
theorem Run.accepted_eq : accepted ms = (claims ms).map Claim.task ++ p.queue.tasks := by
  induction hr with
  | start =>
    obtain ⟨-,id,t,rfl⟩ := h₀.eq_blank
    rfl
  | step hr hs ih =>
    rw [accepted_snoc, claims_snoc, ih]
    cases queueChange hs with
    | kept ha hc h => simp [ha, hc, h]
    | pushed ha hc _ hseq h => simp [ha, hc, h, ← hseq]
    | popped ha hc hp h => simp [ha, hc, h, (Queue.pop?_eq_some hp).1]

theorem Run.seq_lt {task : Task J} (ht : task ∈ accepted ms) : task.seq < p.queue.submitted := by
  have hm : task.seq ∈ (accepted ms).map Task.seq := List.mem_map_of_mem ht
  rw [hr.accepted_seq h₀] at hm
  exact List.mem_range.mp hm

/-- What is accepted later has a later number. -/
theorem Run.le_seq {q : Pool J V} {ns : List (Moment J V)} (hq : Run p ns q) {task : Task J}
    (ht : task ∈ accepted ns) : p.queue.submitted ≤ task.seq := by
  have hseq := (hr.trans hq).accepted_seq h₀
  rw [accepted_append, List.map_append, hr.accepted_seq h₀] at hseq
  have hn : (List.range p.queue.submitted ++ (accepted ns).map Task.seq).Nodup :=
    hseq ▸ List.nodup_range
  obtain ⟨-,-,hne⟩ := List.nodup_append.mp hn
  refine Nat.le_of_not_lt ?_
  intro hlt
  exact hne task.seq (List.mem_range.mpr hlt) task.seq (List.mem_map_of_mem ht) rfl

/-! ### Claims -/

theorem Run.place_of_claim {j : Nat} {c : Claim J} (hc : (claims ms)[j]? = some c) :
    c.task.seq = j := by
  have h := congrArg (·[j]?) (hr.claims_seq h₀)
  simp only [List.getElem?_map, hc, Option.map_some] at h
  obtain ⟨hj,h⟩ := List.getElem?_eq_some_iff.mp h.symm
  rw [← h, List.getElem_range]

theorem Run.claim_unique {c d : Claim J} (hc : c ∈ claims ms) (hd : d ∈ claims ms)
    (h : c.task.seq = d.task.seq) : c = d := by
  have hn : ((claims ms).map (·.task.seq)).Nodup := hr.claims_seq h₀ ▸ List.nodup_range
  exact List.inj_on_of_nodup_map hn hc hd h

/-- A task is claimed after all tasks with smaller numbers. -/
theorem Run.claimed_before {a j : Nat} {c : Claim J} (hc : (claims ms)[j]? = some c)
    (ha : a < c.task.seq) : ∃ i < j, ∃ d, (claims ms)[i]? = some d ∧ d.task.seq = a := by
  have hj := hr.place_of_claim h₀ hc
  have hlt : a < (claims ms).length := by
    have hjlt := (List.getElem?_eq_some_iff.mp hc).1
    omega
  have hget : (claims ms)[a]? = some (claims ms)[a] := List.getElem?_eq_getElem hlt
  exact ⟨a,by omega,_,hget,hr.place_of_claim h₀ hget⟩

/-- A worker that runs a task has claimed it. -/
theorem Run.claim_of_running {w : Nat} {task : Task J} {ticket : Ticket}
    (hw : p.workers[w]? = some (.running task ticket)) : ⟨w,task,ticket⟩ ∈ claims ms := by
  induction hr with
  | start =>
    obtain ⟨-,id,t,rfl⟩ := h₀.eq_blank
    cases hw
  | step hr hs ih =>
    rw [claims_snoc]
    rcases arrival hs hw with h | h
    · exact List.mem_append_left _ (ih h)
    · cases h with
      | taking => exact List.mem_append_right _ (by simp [Moment.claim?, hw])

theorem Run.ticket_of_currentTask {u : ThreadId} {k : Ticket} (hk : p.currentTask u = some k) :
    ∃ c ∈ claims ms, c.ticket = k := by
  unfold currentTask at hk
  split at hk
  · cases hk
  · split at hk
    · split at hk
      · rename_i hw
        cases hk
        exact ⟨_,hr.claim_of_running h₀ hw,rfl⟩
      · cases hk
    · cases hk

/-! ### Answers -/

/-- A number that a call is to return was given to a submission of its thread. -/
theorem Run.exists_of_number? {t : ThreadId} {k : Nat} (hk : p.number? t = some k) :
    ∃ s ∈ submissions ms, s.thread = t ∧ s.seq? = some k := by
  induction hr with
  | start =>
    obtain ⟨-,id,u,rfl⟩ := h₀.eq_blank
    simp only [number?, callOf?, blank, lookup_cons_ite, List.lookup_nil] at hk
    split at hk <;> cases hk
  | step hr hs ih =>
    rw [submissions_snoc]
    rcases number?_step hs hk with hk | ⟨s,hs,hst,hsk⟩
    · obtain ⟨s,hm,hs⟩ := ih hk
      exact ⟨s,List.mem_append_left _ hm,hs⟩
    · exact ⟨s,by simp [hs],hst,hsk⟩

theorem Run.exists_of_returned {m : Moment J V} (hm : m ∈ ms) {k : Nat}
    (hk : m.effect.reply = some (.accepted k)) :
    ∃ s ∈ submissions ms, m.event.caller? = some s.thread ∧ s.seq? = some k := by
  induction hr with
  | start => cases hm
  | step hr hs ih =>
    rw [submissions_snoc]
    rcases List.mem_append.mp hm with hm | hm
    · obtain ⟨s,hs,ht,hsk⟩ := ih hm
      exact ⟨s,List.mem_append_left _ hs,ht,hsk⟩
    · rw [List.mem_singleton.mp hm] at hk ⊢
      obtain ⟨t,_,rfl,hn⟩ := reply_accepted hs hk
      obtain ⟨s,hmem,rfl,hsk⟩ := hr.exists_of_number? h₀ hn
      exact ⟨s,List.mem_append_left _ hmem,rfl,hsk⟩

end Runs

theorem mem_accepted {ms : List (Moment J V)} {s : Submission J} {k : Nat}
    (hs : s ∈ submissions ms) (hk : s.seq? = some k) : ⟨k,s.job,s.watched⟩ ∈ accepted ms := by
  rw [accepted_eq_filterMap]
  exact List.mem_filterMap.mpr ⟨s,hs,by simp [Submission.task?, hk]⟩

/-- The queue holds the numbers from `claimed` to `submitted` in order, every ticket that was ever
issued shows one number twice and no two show the same, and a submission that returned before
another one began has the smaller number and is claimed before it. -/
theorem fifo {n : Nat} {p₀ p : Pool J V} {ms : List (Moment J V)} (h₀ : Fresh n p₀)
    (hr : Run p₀ ms p) :
    p.queue.tasks.map Task.seq =
        List.range' p.queue.claimed (p.queue.submitted - p.queue.claimed) ∧
      p.queue.claimed ≤ p.queue.submitted ∧
      p.pending = p.queue.submitted - p.queue.claimed ∧
      (∀ c ∈ claims ms, c.ticket.claimed = c.ticket.submitted ∧ c.ticket.submitted = c.task.seq) ∧
      (∀ u k, p.currentTask u = some k → ∃ c ∈ claims ms, c.ticket = k) ∧
      ((claims ms).map (·.ticket.submitted)).Nodup ∧ ((claims ms).map (·.ticket.claimed)).Nodup ∧
      -- what begins after `p` is decided after `p`
      ∀ ns q, Run p ns q →
        ∀ m ∈ ms, ∀ a, m.effect.reply = some (.accepted a) →
        ∀ s ∈ submissions ns, ∀ b, s.seq? = some b →
          a < b ∧ ∀ (j : Nat) (c : Claim J), (claims (ms ++ ns))[j]? = some c → c.task.seq = b →
            ∃ i < j, ∃ d : Claim J, (claims (ms ++ ns))[i]? = some d ∧ d.task.seq = a := by
  obtain ⟨hle,hseq⟩ := hr.numbered h₀
  have hticket := hr.claims_ticket h₀
  refine ⟨hseq,hle,?_,?_,fun u k => hr.ticket_of_currentTask h₀,?_,?_,?_⟩
  · have hlen := congrArg List.length hseq
    simpa [pending, Queue.length_eq] using hlen
  · intro c hc
    rw [hr.ticket_eq h₀ hc]
    exact ⟨rfl,rfl⟩
  · have h := congrArg (List.map Ticket.submitted) hticket
    simp only [List.map_map, Function.comp_def, List.map_id'] at h
    exact h ▸ List.nodup_range
  · have h := congrArg (List.map Ticket.claimed) hticket
    simp only [List.map_map, Function.comp_def, List.map_id'] at h
    exact h ▸ List.nodup_range
  · intro ns q hq m hm a ha s hs b hb
    obtain ⟨r,hr',-,hra⟩ := hr.exists_of_returned h₀ hm ha
    have hfirst : a < p.queue.submitted := hr.seq_lt h₀ (mem_accepted hr' hra)
    have hsecond : p.queue.submitted ≤ b := hr.le_seq h₀ hq (mem_accepted hs hb)
    have hlt : a < b := Nat.lt_of_lt_of_le hfirst hsecond
    refine ⟨hlt,?_⟩
    rintro j c hc rfl
    exact (hr.trans hq).claimed_before h₀ hc hlt

/-- Two workers, and two submitters the second of which begins when the first is answered. The
worker that was started last is the first to claim. -/
theorem fifo_two_submitters :
    ∃ (p₀ p q : Pool Nat Nat) (ms ns : List (Moment Nat Nat)),
      Fresh 2 p₀ ∧ Run p₀ ms p ∧ Run p ns q ∧ p.pending = 1 ∧ q.pending = 0 ∧
        (claims (ms ++ ns)).map (fun c => (c.worker, c.task.seq)) = [(1,0), (0,1)] ∧
        ∃ i < 1, ∃ d : Claim Nat, (claims (ms ++ ns))[i]? = some d ∧ d.task.seq = 0 := by
  have h₀ : Fresh 2 (blank 0 2 (.client 0) : Pool Nat Nat) := ⟨0,"noop",.client 0,_,rfl⟩
  have h : (blank 0 2 (.client 0) : Pool Nat Nat).Leads [.spawn (.client 0) none,
      .spawn (.client 0) none, .pin 0, .pin 1, .call (.client 1) (.submit 7 true),
      .proceed (.client 1), .notify (.client 1) none] fun ms p =>
    (∃ m ∈ ms, m.effect.reply = some (.accepted 0)) ∧ p.pending = 1 ∧
      p.Leads [.call (.client 2) (.submit 8 false), .proceed (.client 2), .claim 1,
        .notify (.client 2) none, .claim 0] fun ns q =>
      (∃ s ∈ submissions ns, s.seq? = some 1) ∧ q.pending = 0 ∧
        (claims (ms ++ ns)).map (fun c => (c.worker, c.task.seq)) = [(1,0), (0,1)] := by
    decide +kernel
  obtain ⟨ms,p,hr,⟨m,hm,ha⟩,hp,h⟩ := h.run
  obtain ⟨ns,q,hq,⟨s,hs,hb⟩,hpend,hc⟩ := h.run
  refine ⟨_,p,q,ms,ns,h₀,hr,hq,hp,hpend,hc,?_⟩
  obtain ⟨-,-,-,-,-,-,-,h⟩ := fifo h₀ hr
  have hsecond := congrArg (·[1]?) hc
  simp only [List.getElem?_map] at hsecond
  obtain ⟨c,hc,hcb⟩ := Option.map_eq_some_iff.mp hsecond
  exact (h ns q hq m hm 0 ha s hs 1 hb).2 1 c hc (Prod.mk.inj hcb).2

end Pool
end PinnedPool
