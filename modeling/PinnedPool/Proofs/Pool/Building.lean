import PinnedPool.Proofs.Pool.Outcome

/-! # Building a pool and being done with one

Whoever builds a pool stays in that call until the pool stands, or until all workers that were
started are over because another one was refused. A pool is over when all of its workers are and
nobody will add one.
-/
namespace PinnedPool.Pool

variable {J V : Type}

/-- All workers are over, and nobody starts another one. -/
def Over (p : Pool J V) : Prop :=
  p.deserted = true ∧ ∀ t c, p.callOf? t = some c → c.builds = false

/-- A worker may die of its pinning, but not of a payload that panics when it is dropped. -/
def Event.harmless : Event J V → Bool
  | .pin _ (some q) => q.burst?.isNone
  | _ => true

def Moment.Harmless (m : Moment J V) : Prop := m.event.harmless = true

instance (m : Moment J V) : Decidable m.Harmless := inferInstanceAs (Decidable (_ = true))

/-- Before a pool stands its workers have run nothing, so they can only have died of their pinning. -/
theorem Run.joinable {n : Nat} {p₀ p : Pool J V} {ms : List (Moment J V)} (h₀ : Fresh n p₀)
    (hr : Run p₀ ms p) (ht : ∀ m ∈ ms, m.Timely) (hh : ∀ m ∈ ms, m.Harmless)
    (hn : ¬p.Standing) : p.Joinable := by
  intro s hs
  cases s with
  | killed q =>
    obtain ⟨w,hw⟩ := List.getElem?_of_mem hs
    rcases hr.died_of_killed h₀ hw with ⟨m,hm,he⟩ | ⟨c,hc,-⟩
    · have hq := hh m hm
      rw [Moment.Harmless, he] at hq
      exact hq
    · exact absurd (hr.standing_of_accepted h₀ ht (hr.mem_accepted_of_completion h₀ hc)) hn
  | starting | ready | parked | running | left => rfl

/-- A pool as it comes about, with nobody calling it before it stands. -/
def Reached (p : Pool J V) : Prop :=
  ∃ n p₀ ms, Fresh n p₀ ∧ Run p₀ ms p ∧ (∀ m ∈ ms, m.Timely) ∧ ∀ m ∈ ms, m.Harmless

theorem Fresh.reached {n : Nat} {p : Pool J V} (h : Fresh n p) : p.Reached :=
  ⟨n,p,[],h,.start,List.forall_mem_nil _,List.forall_mem_nil _⟩

namespace Reached
variable {p : Pool J V} (hp : p.Reached)
include hp

theorem step {e : Event J V} {f : Effect J V} (h : p.step e = some f)
    (ht : Moment.Timely ⟨p,e,f⟩) (hh : Moment.Harmless ⟨p,e,f⟩) : f.pool.Reached := by
  obtain ⟨n,p₀,ms,h₀,hr,htimely,hharmless⟩ := hp
  exact ⟨n,p₀,_,h₀,hr.step h,List.forall_mem_append.mpr ⟨htimely,List.forall_mem_singleton.mpr ht⟩,
    List.forall_mem_append.mpr ⟨hharmless,List.forall_mem_singleton.mpr hh⟩⟩

theorem guarded : p.Guarded := by
  obtain ⟨n,p₀,ms,h₀,hr,ht,-⟩ := hp
  exact hr.guarded h₀ ht

theorem joinable {t : ThreadId} {c : Call J} (hc : p.callOf? t = some c)
    (hb : c.builds = true) : p.Joinable := by
  have hn := hp.guarded.reserved.not_standing hc hb
  obtain ⟨n,p₀,ms,h₀,hr,ht,hh⟩ := hp
  exact hr.joinable h₀ ht hh hn

end Reached

/-- A pool can have so many workers. -/
def Feasible (n : Nat) : Prop := 0 < n ∧ handleSize * n ≤ handlesLimit

/-- Why no pool of `n` workers comes about. -/
inductive Fails : Nat → Failure → Prop
  | noWorkers : Fails 0 (.refused .invalidThreadCount)
  | overflow {n} (large : handlesLimit < handleSize * n) : Fails n (.unwound "capacity overflow")
  | refused {n} (e : Os.Error) (feasible : Feasible n) : Fails n (.refused (.os e))

theorem fails_of_create {id n : Nat} {backend : String} {t : ThreadId} {failure : Failure}
    {lines : List Log.Line} (h : (create id n backend t : Opening J V) = .failed failure lines) :
    Fails n failure := by
  unfold create at h
  split at h
  · rename_i hn
    cases h
    exact hn ▸ .noWorkers
  · split at h
    · rename_i hlarge
      cases h
      exact .overflow hlarge
    · cases h

theorem create_of_feasible {n : Nat} (h : Feasible n) (backend : String) (t : ThreadId) :
    (create 0 n backend t : Opening J V) = .begun (blank 0 n t) [.creating n backend] := by
  unfold create
  rw [if_neg (Nat.pos_iff_ne_zero.mp h.1), if_neg (Nat.not_lt.mpr h.2)]

theorem Fresh.feasible {n : Nat} {p : Pool J V} (h : Fresh n p) : Feasible n := by
  obtain ⟨id,backend,t,lines,h⟩ := h
  refine ⟨(eq_blank_of_create h).1,?_⟩
  unfold create at h
  split at h
  · cases h
  · split at h
    · cases h
    · exact Nat.not_lt.mp ‹_›

theorem Reached.feasible {p : Pool J V} (hp : p.Reached) : Feasible p.threads := by
  obtain ⟨n,p₀,ms,h₀,hr,-,-⟩ := hp
  rw [hr.threads_eq h₀]
  exact h₀.feasible

/-- A pool whose workers are over has left nothing in its queue, unless they were all killed. -/
theorem Reached.empty {p : Pool J V} (hp : p.Reached) (hd : p.deserted = true)
    (hlive : ∃ s ∈ p.workers, ∀ q, s ≠ .killed q) : p.queue.tasks = [] := by
  obtain ⟨n,p₀,ms,h₀,hr,-,-⟩ := hp
  obtain ⟨s,hm,hs⟩ := hlive
  have hended := List.all_eq_true.mp hd s hm
  cases s with
  | left => exact (hr.drained h₀ hm).2
  | killed q => exact absurd rfl (hs q)
  | starting | ready | parked | running => cases hended

theorem Onset.shuts {p : Pool J V} {u : ThreadId} {e : Event J V} {c : Call J}
    (h : Onset p u e c) {c₀ : Call J} (hc₀ : p.callOf? u = some c₀) (hs : c₀.shuts = true) :
    c.shuts = true := by
  cases h with
  | call hc =>
    rw [hc] at hc₀
    cases hc₀
  | wakeOutside | enter => rfl
  | refused hc | append hc | wait hc | wakeRefused hc | woken hc =>
    rw [hc] at hc₀
    cases hc₀
    cases hs
  | @raise why hc =>
    rw [hc] at hc₀
    cases hc₀
    cases why with
    | shutdown => rfl
    | refused => cases hs
  | @joined why _ _ hc =>
    rw [hc] at hc₀
    cases hc₀
    cases why with
    | shutdown => rfl
    | refused => cases hs

theorem shuts_builds {c : Call J} (hs : c.shuts = true) : c.builds = false := by
  cases c with
  | raise why | wake why | join why =>
    cases why with
    | shutdown => rfl
    | refused => cases hs
  | enter => rfl
  | build | append | notify | await | parked => cases hs

section Step
variable {p : Pool J V} {e : Event J V} {f : Effect J V} (h : p.step e = some f)
include h

theorem over_step (ho : p.Over) : f.pool.Over := by
  obtain ⟨hd,hcalls⟩ := ho
  constructor
  · rcases growth h with hlen | ⟨t,-,hc,-⟩
    · exact deserted_step h hlen hd
    · cases hcalls t _ hc
  · intro t c hc
    rcases onset h hc with hold | hon
    · exact hcalls t c hold
    · rcases hon.builds with ⟨-,hb,-⟩ | ⟨c₀,hc₀,hb⟩
      · exact hb
      · rw [← hb]
        exact hcalls t c₀ hc₀

/-- Who gets an answer was in a call and is in none any more. -/
theorem callOf?_of_reply {r : Reply} (hr : f.reply = some r) :
    ∃ t c, e.caller? = some t ∧ p.callOf? t = some c ∧ f.pool.callOf? t = none := by
  have hend : ∀ (q : Pool J V) t, (q.endCall t).callOf? t = none := fun q t => by
    rw [callOf?_endCall, if_pos rfl]
  cases transition h with
  | startLast hc | signal hc | signalNobody hc | refuse hc | observe hc | wakeOwn hc
  | enterGone hc | destroy hc | joinBurst hc | giveUp hc | giveUpBurst hc =>
    exact ⟨_,_,rfl,hc,hend _ _⟩
  | finish =>
    rw [finish_reply] at hr
    cases hr
  | call | start | startRefused | append | wait | raise | wakeRefused | wakeOutside | enter
  | joinLeft | joinKilled | pin | pinKilled | take | leave | park | stir | stirWaiter | free =>
    cases hr

/-- Whoever builds a pool goes on with it until the pool stands or is over, if those that have died
can be joined. -/
theorem builder_step (hg : p.Guarded) (hj : p.Joinable) {t : ThreadId} {c : Call J}
    (hc : p.callOf? t = some c) (hb : c.builds = true) :
    (∃ c, f.pool.callOf? t = some c ∧ c.builds = true) ∨
      e.caller? = some t ∧ (f.reply = some .built ∧ f.pool.Standing ∨
        ∃ err, f.reply = some (.notBuilt err) ∧ f.pool.Over) := by
  by_cases he : e.caller? = some t
  · have hself : ∀ {c'}, p.callOf? t = some c' → c' = c := fun hc' =>
      Option.some.inj (hc'.symm.trans hc)
    cases transition h with
    | start => exact .inl ⟨c,hc,hb⟩
    | startLast _ hlast =>
      refine .inr ⟨he,.inl ⟨rfl,?_⟩⟩
      simpa [Standing, endWith, endCall] using hlast
    | startRefused | wakeRefused =>
      cases he
      exact .inl ⟨_,callOf?_setCall_self ..,rfl⟩
    | @raise _ why hc' =>
      cases he
      obtain rfl := hself hc'
      exact .inl ⟨_,callOf?_setCall_self ..,by cases why <;> first | rfl | cases hb⟩
    | @joinLeft _ why _ hc' | @joinKilled _ why _ _ hc' =>
      cases he
      obtain rfl := hself hc'
      exact .inl ⟨_,callOf?_setCall_self ..,by cases why <;> first | rfl | cases hb⟩
    | giveUpBurst _ hw hq =>
      rw [hj.burst?_eq_none hw] at hq
      cases hq
    | giveUp hc' hlast =>
      cases he
      refine .inr ⟨rfl,.inr ⟨_,rfl,?_,?_⟩⟩
      · have hlen := List.getElem?_eq_none_iff.mp hlast
        exact deserted_iff.mpr fun w hw => hg.joined _ _ _ hc' w (Nat.lt_of_lt_of_le hw hlen)
      · -- nobody but the builder was in a call
        intro u d hd
        have hut := hg.reserved.alone hc hb (callOf?_of_endCall hd)
        dsimp only [endWith] at hd
        rw [callOf?_endCall, if_pos hut] at hd
        cases hd
    | call hc' =>
      cases he
      rw [hc'] at hc
      cases hc
    | signal hc' | signalNobody hc' | refuse hc' | append hc' | observe hc' | wait hc' | wakeOwn hc'
    | wakeOutside hc' | enter hc' | enterGone hc' | destroy hc' | joinBurst hc' | stirWaiter hc' =>
      cases he
      rw [hc'] at hc
      cases hc
      cases hb
    | pin | pinKilled | take | leave | park | finish | stir | free => cases he
  · left
    rcases callOf?_step h he with hs | hs
    · exact ⟨c,hs.trans hc,hb⟩
    · rw [hc] at hs
      exact ⟨c.wakeWaiter,hs,by cases c <;> exact hb⟩

theorem proceed_of_done {t : ThreadId} (he : e.caller? = some t) (hd : f.reply = some .done) :
    e = .proceed t := by
  cases transition h with
  | observe | wakeOwn | enterGone | destroy =>
    cases he
    rfl
  | finish => cases he
  | call | start | startLast | startRefused | signal | signalNobody | refuse | append | wait | raise
  | wakeRefused | wakeOutside | enter | joinLeft | joinKilled | joinBurst | giveUp | giveUpBurst
  | pin | pinKilled | take | leave | park | stir | stirWaiter | free => cases hd

theorem over_of_shutdown (hg : p.Guarded) (hj : f.pool.Joinable) {t : ThreadId} {c : Call J}
    (hc : p.callOf? t = some c) (hs : c.shuts = true) (ho : p.isWorker t = false)
    (he : e.caller? = some t) (hd : f.reply = some .done) : f.pool.Over := by
  obtain rfl := proceed_of_done h he hd
  obtain ⟨hstands,-,hover⟩ := hg.of_returned h hc hs ho hd
  have hg' := guarded_step h (fun hcall => by cases hcall) hg
  exact ⟨hover hj,fun u d hu => hg'.reserved.builds hu hstands⟩

end Step

end PinnedPool.Pool
