import PinnedPool.Proofs.Pool.Conservation
import PinnedPool.Proofs.Pool.Standing

/-! # Shutting a pool down

Every shutdown raises the flag first. One from outside then takes the join handles and keeps them
until it has joined all workers, or waits for whoever keeps them; so it returns only when all workers
are over, unless a worker has died of a payload that panics again when it is dropped. Whoever joins
that worker panics and loses the handles, and then nobody joins any more. A shutdown from a worker of
the pool never comes near the handles.
-/
namespace PinnedPool

variable {J V : Type}

/-- A shutdown, however far it has come. -/
def Call.shuts : Call J → Bool
  | raise .shutdown | wake .shutdown | enter | join .shutdown _ => true
  | _ => false

/-- Has set the stop flag. -/
def Call.stops : Call J → Bool
  | wake _ | enter | join _ _ => true
  | _ => false

/-- A shutdown that is after the join handles or has them. -/
def Call.reaps : Call J → Bool
  | enter | join .shutdown _ => true
  | _ => false

/-- To join the thread does not make the joiner panic. -/
def Worker.joinable : Worker J → Bool
  | killed q => q.burst?.isNone
  | _ => true

namespace Pool

theorem set_of_ended {l : List (Worker J)} {v w : Nat} {a b s : Worker J} (hv : l[v]? = some a)
    (ha : a.ended = false) (hw : l[w]? = some s) (hs : s.ended = true) :
    (l.set v b)[w]? = some s := by
  rw [List.getElem?_set_ne]
  · exact hw
  · rintro rfl
    rw [hv] at hw
    cases hw
    rw [ha] at hs
    cases hs

theorem ended_step {p : Pool J V} {e : Event J V} {f : Effect J V} (h : p.step e = some f) {w : Nat}
    {s : Worker J} (hw : p.workers[w]? = some s) (hs : s.ended = true) :
    f.pool.workers[w]? = some s := by
  cases transition h with
  | start | startLast =>
    have hlt := (List.getElem?_eq_some_iff.mp hw).1
    exact (List.getElem?_append_left hlt).trans hw
  | wakeRefused | wakeOwn | wakeOutside =>
    refine (getElem?_wakeWorkers p w).trans ?_
    rw [hw]
    cases s with
    | left | killed => rfl
    | starting | ready | parked | running => cases hs
  | signal _ hv | pin hv | pinKilled _ hv | leave hv | park hv | stir hv =>
    exact set_of_ended hv rfl hw hs
  | take hv =>
    rw [relieve_workers]
    exact set_of_ended hv rfl hw hs
  | finish hv =>
    rw [finish_workers]
    exact set_of_ended hv rfl hw hs
  | call | startRefused | signalNobody | refuse | append | observe | wait | raise | enter
  | enterGone | joinLeft | joinKilled | destroy | joinBurst | giveUp | giveUpBurst | stirWaiter
  | free => exact hw

theorem deserted_iff {p : Pool J V} :
    p.deserted = true ↔ ∀ w < p.workers.length, ∃ s, p.workers[w]? = some s ∧ s.ended = true := by
  unfold deserted
  rw [List.all_eq_true]
  constructor
  · intro h w hw
    exact ⟨_,List.getElem?_eq_getElem hw,h _ (List.getElem_mem hw)⟩
  · intro h s hs
    obtain ⟨w,hw⟩ := List.getElem?_of_mem hs
    obtain ⟨s',hs',hended⟩ := h w (List.getElem?_eq_some_iff.mp hw).1
    rw [hw] at hs'
    cases hs'
    exact hended

theorem deserted_step {p : Pool J V} {e : Event J V} {f : Effect J V} (h : p.step e = some f)
    (hl : f.pool.workers.length = p.workers.length) (hd : p.deserted = true) :
    f.pool.deserted = true := by
  rw [deserted_iff] at hd ⊢
  intro w hw
  obtain ⟨s,hs,hended⟩ := hd w (hl ▸ hw)
  exact ⟨s,ended_step h hs hended,hended⟩

/-- Whoever joins the workers can drop what they have died of. -/
def Joinable (p : Pool J V) : Prop := ∀ s ∈ p.workers, s.joinable = true

instance (p : Pool J V) : Decidable p.Joinable :=
  inferInstanceAs (Decidable (∀ s ∈ p.workers, s.joinable = true))

theorem Joinable.burst?_eq_none {p : Pool J V} (h : p.Joinable) {w : Nat} {q : Payload}
    (hw : p.workers[w]? = some (.killed q)) : q.burst? = none :=
  Option.isNone_iff_eq_none.mp (h _ (List.mem_of_getElem? hw))

/-- The join handles stay where they are, or are taken to join the workers, or are used up, or are lost
to a panic. -/
inductive HandlesChange (p : Pool J V) (e : Event J V) (f : Effect J V) : Prop
  | kept (handles : f.pool.handles = p.handles) (quiet : .destroyed ∉ f.lines)
  | taken {t} (call : p.callOf? t = some .enter) (present : p.handles = .present)
      (held : f.pool.handles = .held t) (joins : f.pool.callOf? t = some (.join .shutdown 0))
      (quiet : f.lines = [])
  | dropped {t next} (call : p.callOf? t = some (.join .shutdown next))
      (last : p.workers[next]? = none) (gone : f.pool.handles = .gone)
      (left : f.pool.callOf? t = none) (told : f.lines = [.destroyed])
  | burst {t next q r} (call : p.callOf? t = some (.join .shutdown next))
      (killed : p.workers[next]? = some (.killed q)) (burst : q.burst? = some r)
      (lost : f.pool.handles = .lost) (left : f.pool.callOf? t = none)
      (workers : f.pool.workers = p.workers) (quiet : f.lines = [])

theorem finish_handles (p : Pool J V) (w : Nat) (task : Task J) (e : Ending V) (heard : Bool) :
    (p.finish w task e heard).pool.handles = p.handles := by
  obtain ⟨slots,h⟩ := p.finish_pool w task e heard
  rw [h]
  rfl

theorem finish_quiet (p : Pool J V) (w : Nat) (task : Task J) (e : Ending V) (heard : Bool) :
    .destroyed ∉ (p.finish w task e heard).lines := by
  unfold finish
  rcases e.settle task.watched heard with ⟨slot,aftermath⟩
  cases aftermath <;> simp

theorem handlesChange {p : Pool J V} {e : Event J V} {f : Effect J V} (h : p.step e = some f) :
    HandlesChange p e f := by
  cases transition h with
  | enter hc hp => exact .taken hc hp rfl (callOf?_setCall_self ..) rfl
  | @destroy t _ hc hw =>
    refine .dropped hc hw rfl ?_ rfl
    dsimp only [endWith]
    rw [callOf?_endCall, if_pos rfl]
  | joinBurst hc hw hq =>
    refine .burst hc hw hq rfl ?_ rfl rfl
    dsimp only [endWith]
    rw [callOf?_endCall, if_pos rfl]
  | @take w task ticket rest =>
    refine .kept ?_ (by simp)
    obtain ⟨calls,h⟩ := relieve_pool ({ p with queue := rest }.setWorker w (.running task ticket))
    rw [h]
    rfl
  | finish => exact .kept (finish_handles ..) (finish_quiet p _ _ _ _)
  | call | start | startLast | startRefused | signal | signalNobody | refuse | append | observe
  | wait | raise | wakeRefused | wakeOwn | wakeOutside | enterGone | joinLeft | joinKilled
  | giveUp | giveUpBurst | pin | pinKilled | leave | park | stir | stirWaiter | free =>
    exact .kept rfl (by simp [endWith])

/-- What the threads that bring a pool down rely on. -/
structure Guarded (p : Pool J V) : Prop where
  reserved : p.Reserved
  raised : ∀ t c, p.callOf? t = some c → c.stops = true → p.stopping = true
  outside : ∀ t c, p.callOf? t = some c → c.reaps = true → p.isWorker t = false
  holding : ∀ t, p.handles = .held t → ∃ next, p.callOf? t = some (.join .shutdown next)
  holder : ∀ t next, p.callOf? t = some (.join .shutdown next) → p.handles = .held t
  joined : ∀ t why next, p.callOf? t = some (.join why next) →
    ∀ i < next, ∃ s, p.workers[i]? = some s ∧ s.ended = true
  used : p.handles ≠ .present → p.Standing
  gone : p.handles = .gone → p.stopping = true ∧ p.deserted = true
  lost : p.handles = .lost → p.stopping = true ∧ ¬p.Joinable

theorem reaps_builds {c : Call J} (hc : c.reaps = true) : c.builds = false := by
  cases c with
  | enter => rfl
  | join why =>
    cases why with
    | shutdown => rfl
    | refused => cases hc
  | build | append | notify | await | parked | raise | wake => cases hc

section Step
variable {p : Pool J V} {e : Event J V} {f : Effect J V} (h : p.step e = some f)
include h

theorem raised_step (hr : ∀ t c, p.callOf? t = some c → c.stops = true → p.stopping = true)
    (t : ThreadId) (c : Call J) (hc : f.pool.callOf? t = some c) (hs : c.stops = true) :
    f.pool.stopping = true := by
  rcases onset h hc with hold | ho
  · exact stopping_step h (hr t c hold hs)
  · cases ho with
    | raise hcall =>
      simp only [step, hcall, advance, Option.bind_some, Option.some.injEq] at h
      rw [← h]
      rfl
    | wakeRefused hcall | wakeOutside hcall | enter hcall | joined hcall =>
      exact stopping_step h (hr t _ hcall rfl)
    | @call r _ _ hb =>
      subst hb
      cases r <;> cases hs
    | refused | append | wait | woken => cases hs

theorem outside_step (hr : p.Reserved)
    (ho : ∀ t c, p.callOf? t = some c → c.reaps = true → p.isWorker t = false)
    (t : ThreadId) (c : Call J) (hc : f.pool.callOf? t = some c) (hs : c.reaps = true) :
    f.pool.isWorker t = false := by
  have hfrom : ∀ c₀, p.callOf? t = some c₀ → c₀.builds = false → p.isWorker t = false →
      f.pool.isWorker t = false := by
    intro c₀ hc₀ hb hw
    rw [hr.isWorker_eq h (hr.standing hc₀ hb)]
    exact hw
  rcases onset h hc with hold | hon
  · exact hfrom c hold (reaps_builds hs) (ho t c hold hs)
  · cases hon with
    | wakeOutside hcall hw => exact hfrom _ hcall rfl hw
    | enter hcall => exact hfrom _ hcall rfl (ho t _ hcall rfl)
    | @joined why _ _ hcall =>
      cases why with
      | shutdown => exact hfrom _ hcall rfl (ho t _ hcall rfl)
      | refused => cases hs
    | @call r _ _ hb =>
      subst hb
      cases r <;> cases hs
    | refused | append | wait | raise | wakeRefused | woken => cases hs

/-- A call that is joining the workers goes on with the next one until there is none. -/
theorem join_step {t : ThreadId} {why : Purpose} {next : Nat}
    (hc : p.callOf? t = some (.join why next)) :
    (∃ i, f.pool.callOf? t = some (.join why i)) ∨
      (why = .shutdown → f.pool.handles = .gone ∨ f.pool.handles = .lost) := by
  by_cases he : e.caller? = some t
  · cases transition h with
    | joinLeft hc' | joinKilled hc' =>
      cases he
      rw [hc] at hc'
      cases hc'
      exact .inl ⟨_,callOf?_setCall_self ..⟩
    | destroy => exact .inr fun _ => .inl rfl
    | joinBurst => exact .inr fun _ => .inr rfl
    | giveUp hc' | giveUpBurst hc' =>
      cases he
      rw [hc] at hc'
      cases hc'
      right
      intro hs
      cases hs
    | call hc' | start hc' | startLast hc' | startRefused _ hc' | signal hc' | signalNobody hc'
    | refuse hc' | append hc' | observe hc' | wait hc' | raise hc' | wakeRefused hc' | wakeOwn hc'
    | wakeOutside hc' | enter hc' | enterGone hc' | stirWaiter hc' =>
      cases he
      rw [hc] at hc'
      cases hc'
    | pin | pinKilled | take | leave | park | finish | stir | free => cases he
  · left
    rcases callOf?_step h he with hs | hs
    · exact ⟨next,hs.trans hc⟩
    · rw [hc] at hs
      exact ⟨next,hs⟩

theorem holding_step (hg : p.Guarded) (t : ThreadId) (ht : f.pool.handles = .held t) :
    ∃ next, f.pool.callOf? t = some (.join .shutdown next) := by
  cases handlesChange h with
  | kept hk =>
    obtain ⟨next,hc⟩ := hg.holding t (hk ▸ ht)
    rcases join_step h hc with hgo | hover
    · exact hgo
    · rcases hover rfl with hgone | hlost
      · rw [hgone] at ht
        cases ht
      · rw [hlost] at ht
        cases ht
  | taken _ _ hheld hc =>
    rw [hheld] at ht
    cases ht
    exact ⟨0,hc⟩
  | dropped _ _ hgone =>
    rw [hgone] at ht
    cases ht
  | burst _ _ _ hlost =>
    rw [hlost] at ht
    cases ht

theorem holder_step (hg : p.Guarded) (t : ThreadId) (next : Nat)
    (hc : f.pool.callOf? t = some (.join .shutdown next)) : f.pool.handles = .held t := by
  -- whoever had the handles before has them still, since its call goes on
  have hkept : p.handles = .held t → f.pool.handles = .held t := by
    intro ht
    cases handlesChange h with
    | kept hk => rw [hk, ht]
    | taken _ hp =>
      rw [hp] at ht
      cases ht
    | dropped hcall _ _ hover | burst hcall _ _ _ hover =>
      have hu := hg.holder _ _ hcall
      rw [ht] at hu
      cases hu
      rw [hover] at hc
      cases hc
  rcases onset h hc with hold | ho
  · exact hkept (hg.holder t next hold)
  · cases ho with
    | enter hcall hp =>
      simp only [step, hcall, advance, hp, Option.bind_some, Option.some.injEq] at h
      rw [← h]
      rfl
    | joined hcall => exact hkept (hg.holder t _ hcall)
    | @call r _ _ hb => cases r <;> cases hb

theorem joined_step (hj : ∀ t why next, p.callOf? t = some (.join why next) →
      ∀ i < next, ∃ s, p.workers[i]? = some s ∧ s.ended = true)
    (t : ThreadId) (why : Purpose) (next : Nat) (hc : f.pool.callOf? t = some (.join why next))
    (i : Nat) (hi : i < next) : ∃ s, f.pool.workers[i]? = some s ∧ s.ended = true := by
  have hkept : (∃ s, p.workers[i]? = some s ∧ s.ended = true) →
      ∃ s, f.pool.workers[i]? = some s ∧ s.ended = true := by
    rintro ⟨s,hs,hended⟩
    exact ⟨s,ended_step h hs hended,hended⟩
  rcases onset h hc with hold | ho
  · exact hkept (hj t why next hold i hi)
  · cases ho with
    -- one worker more than before, and that one is over
    | @joined _ next s hcall hs hended =>
      rcases Nat.lt_succ_iff_lt_or_eq.mp hi with hlt | rfl
      · exact hkept (hj t why next hcall i hlt)
      · exact hkept ⟨s,hs,hended⟩
    | wakeRefused | enter => exact absurd hi (Nat.not_lt_zero i)
    | @call r _ _ hb => cases r <;> cases hb

theorem used_step (hg : p.Guarded) (hu : f.pool.handles ≠ .present) : f.pool.Standing := by
  refine standing_step h ?_
  cases handlesChange h with
  | kept hk => exact hg.used (hk ▸ hu)
  | taken hc | dropped hc | burst hc => exact hg.reserved.standing hc rfl

theorem gone_step (hg : p.Guarded) (hgone : f.pool.handles = .gone) :
    f.pool.stopping = true ∧ f.pool.deserted = true := by
  have hkept : p.Standing → p.stopping = true ∧ p.deserted = true →
      f.pool.stopping = true ∧ f.pool.deserted = true := by
    rintro hs ⟨hstop,hd⟩
    exact ⟨stopping_step h hstop,deserted_step h (hg.reserved.length_eq h hs) hd⟩
  cases handlesChange h with
  | kept hk =>
    have hp : p.handles = .gone := hk ▸ hgone
    exact hkept (hg.used (by rw [hp]; simp)) (hg.gone hp)
  | taken _ _ hheld =>
    rw [hheld] at hgone
    cases hgone
  | burst _ _ _ hlost =>
    rw [hlost] at hgone
    cases hgone
  | dropped hc hlast =>
    refine hkept (hg.reserved.standing hc rfl) ⟨hg.raised _ _ hc rfl,?_⟩
    have hlen := List.getElem?_eq_none_iff.mp hlast
    refine deserted_iff.mpr ?_
    intro w hw
    exact hg.joined _ _ _ hc w (Nat.lt_of_lt_of_le hw hlen)

/-- What a worker has died of stays with it. -/
theorem not_joinable_step (hj : ¬p.Joinable) : ¬f.pool.Joinable := by
  intro hf
  refine hj fun s hs => ?_
  cases s with
  | killed q =>
    obtain ⟨w,hw⟩ := List.getElem?_of_mem hs
    exact hf _ (List.mem_of_getElem? (ended_step h hw rfl))
  | starting | ready | parked | running | left => rfl

/-- A call panics only over what a worker has died of. -/
theorem not_joinable_of_unwound {r : Payload} (hr : f.reply = some (.unwound r)) : ¬p.Joinable := by
  intro hj
  cases transition h with
  | joinBurst _ hw hq | giveUpBurst _ hw hq =>
    rw [hj.burst?_eq_none hw] at hq
    cases hq
  | finish =>
    rw [finish_reply] at hr
    cases hr
  | call | start | startLast | startRefused | signal | signalNobody | refuse | append | observe
  | wait | raise | wakeRefused | wakeOwn | wakeOutside | enter | enterGone | joinLeft | joinKilled
  | destroy | giveUp | pin | pinKilled | take | leave | park | stir | stirWaiter | free => cases hr

theorem lost_step (hg : p.Guarded) (hlost : f.pool.handles = .lost) :
    f.pool.stopping = true ∧ ¬f.pool.Joinable := by
  cases handlesChange h with
  | kept hk =>
    obtain ⟨hs,hj⟩ := hg.lost (hk ▸ hlost)
    exact ⟨stopping_step h hs,not_joinable_step h hj⟩
  | taken _ _ hheld =>
    rw [hheld] at hlost
    cases hlost
  | dropped _ _ hgone =>
    rw [hgone] at hlost
    cases hlost
  | burst hc hw hq =>
    refine ⟨stopping_step h (hg.raised _ _ hc rfl),not_joinable_step h fun hj => ?_⟩
    have hnone := hj.burst?_eq_none hw
    rw [hq] at hnone
    cases hnone

end Step

theorem guarded_step {p : Pool J V} {e : Event J V} {f : Effect J V} (h : p.step e = some f)
    (ht : Moment.Timely ⟨p,e,f⟩) (hg : p.Guarded) : f.pool.Guarded where
  reserved := reserved_step h ht hg.reserved
  raised := raised_step h hg.raised
  outside := outside_step h hg.reserved hg.outside
  holding := holding_step h hg
  holder := holder_step h hg
  joined := joined_step h hg.joined
  used := used_step h hg
  gone := gone_step h hg
  lost := lost_step h hg

theorem guarded_blank {n : Nat} {p : Pool J V} (h : Fresh n p) : p.Guarded := by
  have hr := reserved_blank h
  obtain ⟨-,id,b,rfl⟩ := h.eq_blank
  have honly : ∀ t c, (blank id n b : Pool J V).callOf? t = some c → c = .build :=
    fun _ _ hc => (callOf?_blank hc).2
  refine ⟨hr,?_,?_,?_,?_,?_,?_,?_,?_⟩
  · intro t c hc hs
    rw [honly t c hc] at hs
    cases hs
  · intro t c hc hs
    rw [honly t c hc] at hs
    cases hs
  · intro t ht
    cases ht
  · intro t next hc
    cases honly t _ hc
  · intro t why next hc
    cases honly t _ hc
  · intro hu
    exact absurd rfl hu
  · intro hgone
    cases hgone
  · intro hlost
    cases hlost

theorem Run.guarded {n : Nat} {p₀ p : Pool J V} {ms : List (Moment J V)} (h₀ : Fresh n p₀)
    (hr : Run p₀ ms p) (ht : ∀ m ∈ ms, m.Timely) : p.Guarded :=
  hr.invariant_of (I := Guarded) ht (guarded_blank h₀) guarded_step

/-- A shutdown from outside returns only once the handles are used up or lost. -/
theorem gone_or_lost_of_returned {p : Pool J V} {t : ThreadId} {c : Call J} {f : Effect J V}
    (h : p.step (.proceed t) = some f) (hc : p.callOf? t = some c) (hs : c.shuts = true)
    (ho : p.isWorker t = false) (hd : f.reply = some .done) :
    f.pool.handles = .gone ∨ f.pool.handles = .lost := by
  cases transition h with
  | destroy => exact .inl rfl
  | enterGone _ hover => exact hover
  | observe hc' =>
    rw [hc] at hc'
    cases hc'
    cases hs
  | wakeOwn _ hown =>
    rw [hown] at ho
    cases ho
  | refuse | append | wait | raise | wakeRefused | wakeOutside | enter | joinLeft | joinKilled
  | joinBurst | giveUp | giveUpBurst => cases hd

theorem Guarded.of_returned {p : Pool J V} (hg : p.Guarded) {t : ThreadId} {c : Call J}
    {f : Effect J V} (h : p.step (.proceed t) = some f) (hc : p.callOf? t = some c)
    (hs : c.shuts = true) (ho : p.isWorker t = false) (hd : f.reply = some .done) :
    f.pool.Standing ∧ f.pool.stopping = true ∧ (f.pool.Joinable → f.pool.deserted = true) := by
  rcases gone_or_lost_of_returned h hc hs ho hd with hgone | hlost
  · obtain ⟨hstop,hdeserted⟩ := gone_step h hg hgone
    exact ⟨used_step h hg (by simp [hgone]),hstop,fun _ => hdeserted⟩
  · obtain ⟨hstop,hj⟩ := lost_step h hg hlost
    exact ⟨used_step h hg (by simp [hlost]),hstop,fun hj' => absurd hj' hj⟩

/-- A shutdown by a worker of the pool raises the flag and wakes the others, and that is all. -/
theorem Guarded.own {p : Pool J V} (hg : p.Guarded) {t : ThreadId} {c : Call J}
    (hc : p.callOf? t = some c) (hs : c.shuts = true) (hw : p.isWorker t = true) :
    c = .raise .shutdown ∨ c = .wake .shutdown := by
  have hn : c.reaps = false := by
    cases hr : c.reaps with
    | false => rfl
    | true =>
      rw [hg.outside t c hc hr] at hw
      cases hw
  cases c with
  | raise why =>
    cases why with
    | shutdown => exact .inl rfl
    | refused => cases hs
  | wake why =>
    cases why with
    | shutdown => exact .inr rfl
    | refused => cases hs
  | enter => cases hn
  | join why =>
    cases why with
    | shutdown => cases hn
    | refused => cases hs
  | build | append | notify | await | parked => cases hs

end Pool
end PinnedPool
