import PinnedPool.Proofs.Pool.Stop
import PinnedPool.Proofs.Pool.Work

/-! # Pools that stand

A pool stands once all workers that were asked for are started. Before that whoever builds it is
alone with it, since nobody else has been handed the pool; after that nobody builds any more and the
list of workers stays as long as it is.
-/
namespace PinnedPool

variable {J V : Type}

/-- A call that builds a pool, or that gives it up because a worker was refused. -/
def Call.builds : Call J → Bool
  | build | raise (.refused _) | wake (.refused _) | join (.refused _) _ => true
  | _ => false

theorem Pool.Request.start_builds (r : Pool.Request J) : r.start.builds = false := by
  cases r <;> rfl

namespace Pool

/-- How the thread `u` gets into a state of a call that it was not in. -/
inductive Onset (p : Pool J V) (u : ThreadId) : Event J V → Call J → Prop
  | call {r c} (idle : p.callOf? u = none) (begun : r.start = c) : Onset p u (.call u r) c
  | refused {e} (call : p.callOf? u = some .build) :
    Onset p u (.spawn u (some e)) (.raise (.refused e))
  | append {job watched} (call : p.callOf? u = some (.append job watched)) :
    Onset p u (.proceed u) (.notify p.queue.submitted)
  | wait (call : p.callOf? u = some .await) (nonempty : p.queue.tasks ≠ []) :
    Onset p u (.proceed u) .parked
  | raise {why} (call : p.callOf? u = some (.raise why)) : Onset p u (.proceed u) (.wake why)
  | wakeRefused {e} (call : p.callOf? u = some (.wake (.refused e))) :
    Onset p u (.proceed u) (.join (.refused e) 0)
  | wakeOutside (call : p.callOf? u = some (.wake .shutdown)) (outside : p.isWorker u = false) :
    Onset p u (.proceed u) .enter
  | enter (call : p.callOf? u = some .enter) (present : p.handles = .present) :
    Onset p u (.proceed u) (.join .shutdown 0)
  | joined {why next s} (call : p.callOf? u = some (.join why next))
      (worker : p.workers[next]? = some s) (ended : s.ended = true) :
    Onset p u (.proceed u) (.join why (next + 1))
  | woken {e} (parked : p.callOf? u = some .parked) : Onset p u e .await

theorem setCall_onset {p : Pool J V} {t u : ThreadId} {c c' : Call J} {P : Prop}
    (h : (p.setCall t c').callOf? u = some c) (hp : t = u → c' = c → P) :
    p.callOf? u = some c ∨ P := by
  rw [callOf?_setCall] at h
  split at h
  · rename_i hu
    exact .inr (hp hu.symm (Option.some.inj h))
  · exact .inl h

theorem callOf?_of_endCall {p : Pool J V} {t u : ThreadId} {c : Call J}
    (h : (p.endCall t).callOf? u = some c) : p.callOf? u = some c := by
  rw [callOf?_endCall] at h
  split at h
  · cases h
  · exact h

theorem onset {p : Pool J V} {e : Event J V} {f : Effect J V} (h : p.step e = some f)
    {u : ThreadId} {c : Call J} (hu : f.pool.callOf? u = some c) :
    p.callOf? u = some c ∨ Onset p u e c := by
  cases transition h with
  | call hc => exact setCall_onset hu fun ht h => ht ▸ .call (ht ▸ hc) h
  | startRefused _ hc => exact setCall_onset hu fun ht h => ht ▸ h ▸ .refused (ht ▸ hc)
  | append hc =>
    refine setCall_onset hu ?_
    rintro rfl rfl
    exact .append hc
  | wait hc hn => exact setCall_onset hu fun ht h => ht ▸ h ▸ .wait (ht ▸ hc) hn
  | raise hc => exact setCall_onset hu fun ht h => ht ▸ h ▸ .raise (ht ▸ hc)
  | wakeRefused hc => exact setCall_onset hu fun ht h => ht ▸ h ▸ .wakeRefused (ht ▸ hc)
  | wakeOutside hc ho =>
    exact setCall_onset hu fun ht h => ht ▸ h ▸ .wakeOutside (ht ▸ hc) (ht ▸ ho)
  | enter hc hp => exact setCall_onset hu fun ht h => ht ▸ h ▸ .enter (ht ▸ hc) hp
  | joinLeft hc hw | joinKilled hc hw _ =>
    exact setCall_onset hu fun ht h => ht ▸ h ▸ .joined (ht ▸ hc) hw rfl
  | stirWaiter hc => exact setCall_onset hu fun ht h => h ▸ .woken (ht ▸ hc)
  | startLast | signal | signalNobody | refuse | observe | wakeOwn | enterGone | destroy
  | joinBurst | giveUp | giveUpBurst => exact .inl (callOf?_of_endCall hu)
  | @take w task ticket rest =>
    rcases callOf?_relieve ({ p with queue := rest }.setWorker w (.running task ticket)) u with h | h
    · exact .inl (h ▸ hu)
    · obtain ⟨c₀,hc₀,rfl⟩ := Option.map_eq_some_iff.mp (h.symm.trans hu)
      cases c₀ with
      | parked => exact .inr (.woken hc₀)
      | build | append | notify | await | raise | wake | enter | join => exact .inl hc₀
  | finish =>
    rw [callOf?, finish_calls] at hu
    exact .inl hu
  | start | pin | pinKilled | leave | park | stir | free => exact .inl hu

/-- The identity of a pool and the number of workers asked for never change. -/
theorem fixed_step {p : Pool J V} {e : Event J V} {f : Effect J V} (h : p.step e = some f) :
    f.pool.id = p.id ∧ f.pool.threads = p.threads := by
  cases transition h with
  | @take w task ticket rest =>
    obtain ⟨calls,h⟩ := relieve_pool ({ p with queue := rest }.setWorker w (.running task ticket))
    rw [h]
    exact ⟨rfl,rfl⟩
  | @finish w task ticket e heard =>
    obtain ⟨slots,hf⟩ := p.finish_pool w task e heard
    rw [hf]
    exact ⟨rfl,rfl⟩
  | call | start | startLast | startRefused | signal | signalNobody | refuse | append | observe
  | wait | raise | wakeRefused | wakeOwn | wakeOutside | enter | enterGone | joinLeft
  | joinKilled | destroy | joinBurst | giveUp | giveUpBurst | pin | pinKilled | leave | park
  | stir | stirWaiter | free => exact ⟨rfl,rfl⟩

/-- A worker is added by whoever builds the pool, who is done with it after the last one. -/
theorem growth {p : Pool J V} {e : Event J V} {f : Effect J V} (h : p.step e = some f) :
    f.pool.workers.length = p.workers.length ∨
      ∃ t, e.caller? = some t ∧ p.callOf? t = some .build ∧
        f.pool.workers.length = p.workers.length + 1 ∧
        (p.threads ≤ p.workers.length + 1 → f.pool.callOf? t = none) := by
  cases transition h with
  | @start t hc hmore =>
    refine .inr ⟨t,rfl,hc,by simp,?_⟩
    intro hlast
    omega
  | @startLast t hc =>
    refine .inr ⟨t,rfl,hc,by simp [endWith, endCall],?_⟩
    intro _
    dsimp only [endWith]
    rw [callOf?_endCall, if_pos rfl]
  | signal | pin | pinKilled | leave | park | stir => simp [endWith, endCall, setWorker]
  | take => simp [setWorker]
  | finish => simp
  | wakeRefused | wakeOwn | wakeOutside => simp [endWith, endCall, setCall, wakeWorkers]
  | call | startRefused | signalNobody | refuse | append | observe | wait | raise | enter
  | enterGone | joinLeft | joinKilled | destroy | joinBurst | giveUp | giveUpBurst | stirWaiter
  | free =>
    exact .inl rfl

/-- All workers that were asked for are started. -/
def Standing (p : Pool J V) : Prop := p.threads ≤ p.workers.length

def Event.isCall : Event J V → Bool
  | .call _ _ => true
  | _ => false

/-- Nobody calls a pool before it stands. -/
def Moment.Timely (m : Moment J V) : Prop := m.event.isCall = true → m.before.Standing

instance (p : Pool J V) : Decidable p.Standing := inferInstanceAs (Decidable (_ ≤ _))

instance (m : Moment J V) : Decidable m.Timely := inferInstanceAs (Decidable (_ → _))

/-- Nobody builds a pool that stands, and one that does not has one caller at most, its builder. -/
def Reserved (p : Pool J V) : Prop :=
  p.Standing ∧ (∀ t c, p.callOf? t = some c → c.builds = false) ∨
    ¬p.Standing ∧ ∃ b, ∀ t c, p.callOf? t = some c → t = b ∧ c.builds = true

theorem standing_step {p : Pool J V} {e : Event J V} {f : Effect J V} (h : p.step e = some f)
    (hs : p.Standing) : f.pool.Standing := by
  have hlen := length_step h
  unfold Standing at hs ⊢
  rw [(fixed_step h).2]
  omega

/-- The state that a call gets into builds if the one before it did. -/
theorem Onset.builds {p : Pool J V} {u : ThreadId} {e : Event J V} {c : Call J}
    (h : Onset p u e c) :
    (p.callOf? u = none ∧ c.builds = false ∧ ∃ r, e = .call u r) ∨
      ∃ c₀, p.callOf? u = some c₀ ∧ c₀.builds = c.builds := by
  cases h with
  | @call r _ hc hb => exact .inl ⟨hc,hb ▸ r.start_builds,r,rfl⟩
  | refused hc | append hc | wait hc | wakeRefused hc | wakeOutside hc | enter hc | woken hc =>
    exact .inr ⟨_,hc,rfl⟩
  | @raise why hc => exact .inr ⟨_,hc,by cases why <;> rfl⟩
  | @joined why _ _ hc => exact .inr ⟨_,hc,by cases why <;> rfl⟩

namespace Reserved
variable {p : Pool J V} (hr : p.Reserved)
include hr

theorem standing {t : ThreadId} {c : Call J} (hc : p.callOf? t = some c)
    (hb : c.builds = false) : p.Standing := by
  rcases hr with ⟨hs,-⟩ | ⟨-,b,hall⟩
  · exact hs
  · rw [(hall t c hc).2] at hb
    cases hb

theorem builds {t : ThreadId} {c : Call J} (hc : p.callOf? t = some c) (hs : p.Standing) :
    c.builds = false := by
  rcases hr with ⟨-,hall⟩ | ⟨hn,-⟩
  · exact hall t c hc
  · exact absurd hs hn

theorem not_standing {t : ThreadId} {c : Call J} (hc : p.callOf? t = some c)
    (hb : c.builds = true) : ¬p.Standing := by
  intro hs
  rw [hr.builds hc hs] at hb
  cases hb

/-- Whoever builds a pool is alone with it. -/
theorem alone {t u : ThreadId} {c d : Call J} (hc : p.callOf? t = some c) (hb : c.builds = true)
    (hd : p.callOf? u = some d) : u = t := by
  rcases hr with ⟨-,hall⟩ | ⟨-,b,hall⟩
  · rw [hall t c hc] at hb
    cases hb
  · rw [(hall u d hd).1, (hall t c hc).1]

theorem length_eq {e : Event J V} {f : Effect J V} (h : p.step e = some f) (hs : p.Standing) :
    f.pool.workers.length = p.workers.length := by
  rcases growth h with hlen | ⟨t,-,hc,-⟩
  · exact hlen
  · exact absurd hs (hr.not_standing hc rfl)

theorem isWorker_eq {e : Event J V} {f : Effect J V} (h : p.step e = some f) (hs : p.Standing)
    (t : ThreadId) : f.pool.isWorker t = p.isWorker t := by
  unfold isWorker
  rw [(fixed_step h).1, hr.length_eq h hs]

end Reserved

theorem reserved_step {p : Pool J V} {e : Event J V} {f : Effect J V} (h : p.step e = some f)
    (ht : Moment.Timely ⟨p,e,f⟩) (hr : p.Reserved) : f.pool.Reserved := by
  rcases hr with ⟨hs,hall⟩ | ⟨hn,b,hall⟩
  · refine .inl ⟨standing_step h hs,?_⟩
    intro u c hu
    rcases onset h hu with hu | ho
    · exact hall u c hu
    · rcases ho.builds with ⟨-,hb,-⟩ | ⟨c₀,hc₀,hb⟩
      · exact hb
      · rw [← hb]
        exact hall u c₀ hc₀
  · have hcalls : ∀ u c, f.pool.callOf? u = some c → u = b ∧ c.builds = true := by
      intro u c hu
      rcases onset h hu with hu | ho
      · exact hall u c hu
      · rcases ho.builds with ⟨-,-,r,rfl⟩ | ⟨c₀,hc₀,hb⟩
        · exact absurd (ht rfl) hn
        · rw [← hb]
          exact hall u c₀ hc₀
    by_cases hf : f.pool.Standing
    · -- the last worker has just been started, and its builder was the only caller
      refine .inl ⟨hf,?_⟩
      intro u c hu
      unfold Standing at hn hf
      rw [(fixed_step h).2] at hf
      rcases growth h with hlen | ⟨t,-,hc,hlen,hlast⟩
      · omega
      · have hub := (hcalls u c hu).1
        have htb := (hall t _ hc).1
        rw [hub, ← htb, hlast (by omega)] at hu
        cases hu
    · exact .inr ⟨hf,b,hcalls⟩

/-- Whoever is in a call of a new pool is building it. -/
theorem callOf?_blank {id n : Nat} {b t : ThreadId} {c : Call J}
    (hc : (blank id n b : Pool J V).callOf? t = some c) : t = b ∧ c = .build := by
  simp only [callOf?, blank, lookup_cons_ite, List.lookup_nil] at hc
  split at hc
  · exact ⟨‹_›,(Option.some.inj hc).symm⟩
  · cases hc

theorem reserved_blank {n : Nat} {p : Pool J V} (h : Fresh n p) : p.Reserved := by
  obtain ⟨hn,id,b,rfl⟩ := h.eq_blank
  refine .inr ⟨?_,b,?_⟩
  · intro hs
    exact absurd hs (Nat.not_le.mpr hn)
  · intro u c hu
    obtain ⟨hub,rfl⟩ := callOf?_blank hu
    exact ⟨hub,rfl⟩

theorem Run.reserved {n : Nat} {p₀ p : Pool J V} {ms : List (Moment J V)} (h₀ : Fresh n p₀)
    (hr : Run p₀ ms p) (ht : ∀ m ∈ ms, m.Timely) : p.Reserved :=
  hr.invariant_of (I := Reserved) ht (reserved_blank h₀) reserved_step

theorem Run.threads_eq {n : Nat} {p₀ p : Pool J V} {ms : List (Moment J V)} (h₀ : Fresh n p₀)
    (hr : Run p₀ ms p) : p.threads = n := by
  refine hr.invariant (I := fun p => p.threads = n) ?_ fun h hn => (fixed_step h).2.trans hn
  obtain ⟨-,id,b,rfl⟩ := h₀.eq_blank
  rfl

/-- No more workers are started than were asked for. -/
theorem Run.length_le {n : Nat} {p₀ p : Pool J V} {ms : List (Moment J V)} (h₀ : Fresh n p₀)
    (hr : Run p₀ ms p) (ht : ∀ m ∈ ms, m.Timely) : p.workers.length ≤ n := by
  rw [← hr.threads_eq h₀]
  refine hr.invariant_under (I := fun p => p.workers.length ≤ p.threads) ht
    (fun hr ht => hr.reserved h₀ ht) ?_ ?_
  · obtain ⟨-,id,b,rfl⟩ := h₀.eq_blank
    exact Nat.zero_le n
  · intro p e f h _ hres hle
    rw [(fixed_step h).2]
    rcases growth h with hlen | ⟨t,-,hc,hlen,-⟩
    · omega
    · have hn := hres.not_standing hc rfl
      unfold Standing at hn
      omega

theorem Run.length_eq {n : Nat} {p₀ p : Pool J V} {ms : List (Moment J V)} (h₀ : Fresh n p₀)
    (hr : Run p₀ ms p) (ht : ∀ m ∈ ms, m.Timely) (hs : p.Standing) : p.workers.length = n := by
  have hle := hr.length_le h₀ ht
  unfold Standing at hs
  rw [hr.threads_eq h₀] at hs
  omega

end Pool
end PinnedPool
