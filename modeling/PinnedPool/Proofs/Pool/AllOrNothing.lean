import PinnedPool.Proofs.Pool.Answers
import PinnedPool.Proofs.Pool.Pinning

/-! # A pool comes about whole or not at all

A construction ends with all workers that were asked for, or with none of them left. Each worker asks
for the performance cores once, before it takes its first task, and what comes of that is up to the
backend; if there are no such cores the backend is not asked.
-/
namespace PinnedPool

variable {J V : Type}

/-- Is done with pinning itself. -/
def Worker.isPinned : Worker J → Bool
  | starting => false
  | ready | parked | running _ _ | left | killed _ => true

namespace Pool

def Event.pin? : Event J V → Option Nat
  | .pin w _ => some w
  | _ => none

def pinned (p : Pool J V) (w : Nat) : Bool := (p.workers[w]?).any Worker.isPinned

theorem pinned_set {p q : Pool J V} {v : Nat} {a s : Worker J} (hv : p.workers[v]? = some a)
    (hq : q.workers = p.workers.set v s) (w : Nat) :
    q.pinned w = if w = v then s.isPinned else p.pinned w := by
  have hlt := (List.getElem?_eq_some_iff.mp hv).1
  unfold pinned
  rw [hq]
  by_cases hw : w = v
  · rw [if_pos hw, hw, List.getElem?_set_self hlt, Option.any_some]
  · rw [if_neg hw, List.getElem?_set_ne (Ne.symm hw)]

theorem pinned_wakeWorkers (p : Pool J V) (w : Nat) : p.wakeWorkers.pinned w = p.pinned w := by
  unfold pinned
  rw [getElem?_wakeWorkers]
  cases p.workers[w]? with
  | none => rfl
  | some s => cases s <;> rfl

theorem pinned_start {p q : Pool J V} (hq : q.workers = p.workers ++ [.starting]) (w : Nat) :
    q.pinned w = p.pinned w := by
  unfold pinned
  rw [hq, List.getElem?_append]
  split
  · rfl
  · rename_i hw
    rw [List.getElem?_eq_none (l := p.workers) (by omega), List.getElem?_singleton]
    split <;> rfl

section Step
variable {p : Pool J V} {e : Event J V} {f : Effect J V} (h : p.step e = some f)
include h

theorem pinned_step (w : Nat) :
    (e.pin? ≠ some w ∧ f.pool.pinned w = p.pinned w) ∨
      e.pin? = some w ∧ p.pinned w = false ∧ f.pool.pinned w = true := by
  have hkept : ∀ {q : Pool J V} {v a s}, p.workers[v]? = some a → q.workers = p.workers.set v s →
      a.isPinned = true → s.isPinned = true → q.pinned w = p.pinned w := by
    intro q v a s hv hq ha hs
    rw [pinned_set hv hq]
    split
    · rename_i hw
      rw [hw, pinned, hv, Option.any_some, ha, hs]
    · rfl
  have hdone : ∀ {v s}, p.workers[v]? = some .starting → s.isPinned = true →
      ((some v : Option Nat) ≠ some w ∧ (p.setWorker v s).pinned w = p.pinned w) ∨
        (some v : Option Nat) = some w ∧ p.pinned w = false ∧ (p.setWorker v s).pinned w = true := by
    intro v s hv hs
    rw [pinned_set hv rfl]
    by_cases hw : w = v
    · subst hw
      right
      refine ⟨rfl,?_,?_⟩
      · rw [pinned, hv]
        rfl
      · rw [if_pos rfl, hs]
    · rw [if_neg hw]
      exact .inl ⟨fun heq => hw (Option.some.inj heq).symm,rfl⟩
  cases transition h with
  | pin hv | pinKilled _ hv => exact hdone hv rfl
  | signal _ hv | leave hv | park hv | stir hv =>
    exact .inl ⟨nofun,hkept hv rfl rfl rfl⟩
  | take hv => exact .inl ⟨nofun,hkept hv (relieve_workers _) rfl rfl⟩
  | finish hv =>
    refine .inl ⟨nofun,hkept hv (finish_workers ..) rfl ?_⟩
    unfold after
    split <;> rfl
  | wakeRefused | wakeOwn | wakeOutside => exact .inl ⟨nofun,p.pinned_wakeWorkers w⟩
  | start | startLast => exact .inl ⟨nofun,pinned_start rfl w⟩
  | call | startRefused | signalNobody | refuse | append | observe | wait | raise | enter
  | enterGone | joinLeft | joinKilled | destroy | joinBurst | giveUp | giveUpBurst | stirWaiter
  | free =>
    exact .inl ⟨nofun,rfl⟩

theorem ready_of_claim {c : Claim J} (hc : Moment.claim? ⟨p,e,f⟩ = some c) :
    p.workers[c.worker]? = some .ready := by
  cases transition h with
  | @take w task ticket rest hw hp =>
    have hr := getElem?_setWorker (p := { p with queue := rest }) hw (.running task ticket)
    simp only [Moment.claim?, relieve_workers, hr] at hc
    cases hc
    exact hw
  | leave hw | park hw =>
    simp only [Moment.claim?, getElem?_setWorker hw] at hc
    cases hc
  | call | start | startLast | startRefused | signal | signalNobody | refuse | append | observe
  | wait | raise | wakeRefused | wakeOwn | wakeOutside | enter | enterGone | joinLeft
  | joinKilled | destroy | joinBurst | giveUp | giveUpBurst | pin | pinKilled | finish | stir
  | stirWaiter | free => cases hc

end Step

end Pool

/-- If a backend panics over a worker that pins itself, the payload can be dropped. -/
def Driver.Harmless (d : Driver) : Prop :=
  ∀ asked thread mask q,
    (d.backend asked).pin thread .performance d.topology.performance mask = .unwound q →
      q.burst? = none

theorem Driver.Returns.harmless {d : Driver} (h : d.Returns) : d.Harmless :=
  fun asked _ _ q hq => absurd hq (h asked _ _ _ _ q)

theorem Controller.pin_of_unwound {c : Controller} {cores : CoreClass} {thread : Option String}
    {mask : Mask} {q : Payload} (h : (c.apply cores thread mask).unwound = some q) :
    c.backend.pin thread cores (c.cpus cores) mask = .unwound q := by
  by_cases he : (c.cpus cores).isEmpty = true
  · simp only [apply, if_pos he] at h
    cases h
  · cases hp : c.backend.pin thread cores (c.cpus cores) mask with
    | done | failed =>
      simp only [apply, if_neg he, hp] at h
      cases h
    | unwound =>
      simp only [apply, if_neg he, hp, Option.some.injEq] at h
      rw [h]

namespace Rig

/-- What a worker does before it runs a task. -/
inductive Deal where
  | pinned
  | claimed
deriving DecidableEq, Repr

def Event.start? : Event J V → Option Nat
  | .start w => some w
  | _ => none

/-- A step that somebody who is building or working takes by itself. -/
def Event.isProgress : Event J V → Bool
  | .pool e => e.isProgress
  | .start _ | .work _ _ => true
  | .apply _ _ _ => false

def Sight.claimer? (s : Sight J V) : Option Nat :=
  (s.moment?.bind Pool.Moment.claim?).map Pool.Claim.worker

def Sight.deal? (w : Nat) (s : Sight J V) : Option Deal :=
  if s.event.start? = some w then some .pinned
  else if s.claimer? = some w then some .claimed
  else none

/-- When a worker has pinned itself and claimed tasks, oldest first. -/
def dealings (x : Rig J V) (w : Nat) : List Deal := x.seen.reverse.filterMap (Sight.deal? w)

theorem dealings_cons {x y : Rig J V} {s : Sight J V} (h : y.seen = s :: x.seen) (w : Nat) :
    y.dealings w = x.dealings w ++ (s.deal? w).toList := by
  simp only [dealings, h, List.reverse_cons, List.filterMap_append]
  exact congrArg _ (Pool.filterMap_singleton _ _)

/-- A worker has done nothing before it has pinned itself, and nothing but claims since. -/
def Prepared (x : Rig J V) (w : Nat) : Prop :=
  (x.pool.pinned w = false → x.dealings w = []) ∧
    (x.pool.pinned w = true → ∃ k, x.dealings w = .pinned :: List.replicate k .claimed)

/-- What a step of the pool adds to the dealings of a worker. -/
theorem Prepared.step {x y : Rig J V} {e : Event J V} {s : Pool.Event J V} {f : Pool.Effect J V}
    {w : Nat} (hx : x.Prepared w) (hf : x.pool.step s = some f) (hpool : y.pool = f.pool)
    (hseen : y.seen = ⟨e,some ⟨x.pool,s,f⟩⟩ :: x.seen) (hstart : e.start? = s.pin?) :
    y.Prepared w := by
  unfold Prepared
  rw [hpool, dealings_cons hseen]
  rcases Pool.pinned_step hf w with ⟨hne,hsame⟩ | ⟨hpin,hbefore,hafter⟩
  · rw [hsame]
    -- whoever claims a task is ready for one, and so has pinned itself
    by_cases hclaim : Sight.claimer? (V := V) ⟨e,some ⟨x.pool,s,f⟩⟩ = some w
    · have hdeal : Sight.deal? w ⟨e,some ⟨x.pool,s,f⟩⟩ = some .claimed := by
        simp [Sight.deal?, hstart, hne, hclaim]
      obtain ⟨c,hc,rfl⟩ := Option.map_eq_some_iff.mp hclaim
      have hready := Pool.ready_of_claim hf hc
      have hpinned : x.pool.pinned c.worker = true := by
        simp [Pool.pinned, hready, Worker.isPinned]
      obtain ⟨k,hk⟩ := hx.2 hpinned
      constructor
      · intro hnot
        rw [hpinned] at hnot
        cases hnot
      · intro _
        refine ⟨k + 1,?_⟩
        rw [hdeal, hk, List.replicate_succ']
        rfl
    · have hdeal : Sight.deal? w ⟨e,some ⟨x.pool,s,f⟩⟩ = none := by
        simp [Sight.deal?, hstart, hne, hclaim]
      rw [hdeal, Option.toList_none, List.append_nil]
      exact hx
  · have hdeal : Sight.deal? w ⟨e,some ⟨x.pool,s,f⟩⟩ = some .pinned := by
      simp [Sight.deal?, hstart, hpin]
    constructor
    · intro hnot
      rw [hafter] at hnot
      cases hnot
    · intro _
      refine ⟨0,?_⟩
      rw [hdeal, hx.1 hbefore]
      rfl

theorem exists_start {x : Rig J V} {w : Nat} (hw : x.pool.workers[w]? = some .starting)
    (d : Driver) (conduct : Conduct J V) : ∃ y, x.step d conduct (.start w) = some y := by
  have hpin : ∀ death, ∃ f, x.pool.step (.pin w death) = some f := by
    intro death
    cases death <;> exact ⟨_,by simp only [Pool.step, hw]; rfl⟩
  obtain ⟨f,hf⟩ := hpin (x.request d (.worker x.pool.id w) (some (Log.workerName w))
    .performance).unwound
  exact ⟨_,Option.map_eq_some_iff.mpr ⟨f,hf,rfl⟩⟩

theorem exists_pool {x : Rig J V} {e : Pool.Event J V} {f : Pool.Effect J V}
    (hown : own x.pool e = false) (h : x.pool.step e = some f) (d : Driver)
    (conduct : Conduct J V) : ∃ y, x.step d conduct (.pool e) = some y := by
  have hstep : x.step d conduct (.pool e) = x.stepPool (.pool e) e := by
    simp only [step, hown, Bool.false_eq_true, ↓reduceIte]
  exact ⟨_,hstep.trans (Option.map_eq_some_iff.mpr ⟨f,h,rfl⟩)⟩

/-- What goes on in a pool without tasks goes on with its workers pinned by a controller. -/
theorem exists_progress {d : Driver} {conduct : Conduct J V} {x : Rig J V} (hu : x.pool.Unused)
    {e : Pool.Event J V} {f : Pool.Effect J V} (he : e.isProgress = true)
    (h : x.pool.step e = some f) : ∃ e' y, e'.isProgress = true ∧ (∀ s, e' = .pool s → s = e) ∧
      x.step d conduct e' = some y := by
  have hplain : own x.pool e = false → ∃ e' y, e'.isProgress = true ∧
      (∀ s, e' = .pool s → s = e) ∧ x.step d conduct e' = some y := by
    intro hown
    obtain ⟨y,hy⟩ := exists_pool hown h d conduct
    exact ⟨.pool e,y,he,fun s hs => (Event.pool.inj hs).symm,hy⟩
  cases e with
  | pin w survived =>
    have hw : x.pool.workers[w]? = some .starting := by
      cases Pool.transition h with
      | pin hw | pinKilled _ hw => exact hw
    obtain ⟨y,hy⟩ := exists_start hw d conduct
    exact ⟨.start w,y,rfl,nofun,hy⟩
  | finish =>
    cases Pool.transition h with
    | finish hw => cases hu.free _ (List.mem_of_getElem? hw)
  | spawn | notify | proceed | claim => exact hplain rfl
  | call | stir | stirWaiter | free => cases he

/-- If a worker is asked for, the system answers as `refusal` says. -/
def Event.AnsweredBy (refusal : Nat → Option Os.Error) (x : Rig J V) : Event J V → Prop
  | .pool e => e.AnsweredBy refusal x.pool
  | .start _ | .work _ _ | .apply _ _ _ => True

theorem harmless_step {d : Driver} (hd : d.Harmless) {conduct : Conduct J V} {x y : Rig J V}
    {e : Event J V} (h : x.step d conduct e = some y) (hx : ∀ m ∈ x.moments, m.Harmless) :
    ∀ m ∈ y.moments, m.Harmless := by
  have hadd : ∀ {z : Rig J V} {s : Pool.Event J V}, z.moments = x.moments →
      z.stepPool e s = some y → s.harmless = true → ∀ m ∈ y.moments, m.Harmless := by
    intro z s hz hs hharmless m hm
    obtain ⟨f,hf,rfl⟩ := Option.map_eq_some_iff.mp hs
    rw [moments_see] at hm
    rcases List.mem_append.mp hm with hm | hm
    · exact hx m (hz ▸ hm)
    · obtain rfl := Option.mem_some.mp (Option.mem_toList.mp hm)
      exact hharmless
  have hkept : ∀ {t a}, ((x.pinned t a).see e none).moments = x.moments := by
    intro t a
    rw [moments_see]
    exact List.append_nil _
  cases e with
  | pool s =>
    simp only [step] at h
    split at h
    · cases h
    · refine hadd rfl h ?_
      cases s <;> first | rfl | exact absurd rfl ‹_›
  | start w =>
    refine hadd (z := x.pinned _ _) rfl h ?_
    cases hq : (x.request d (.worker x.pool.id w) (some (Log.workerName w)) .performance).unwound with
    | none => rfl
    | some q => exact Option.isNone_iff_eq_none.mpr (hd _ _ _ q (Controller.pin_of_unwound hq))
  | work w heard =>
    simp only [step] at h
    split at h
    · split at h
      · exact hadd rfl h rfl
      · exact hadd rfl h rfl
      · simp only [workApply] at h
        split at h
        · cases h
          rwa [hkept]
        · exact hadd (z := x.pinned _ _) rfl h rfl
    · cases h
  | apply t name cores =>
    simp only [step] at h
    split at h
    · cases h
    · cases h
      rwa [hkept]

theorem Run.harmless {d : Driver} (hd : d.Harmless) {conduct : Conduct J V} {p₀ : Pool J V}
    {masks : ThreadId → Mask} {x : Rig J V} (hr : Run d conduct (.opened p₀ masks) x) :
    ∀ m ∈ x.moments, m.Harmless := by
  induction hr with
  | start => exact fun _ hm => nomatch hm
  | step _ h ih => exact harmless_step hd h ih

theorem Run.untold {d : Driver} (hd : d.Harmless) {conduct : Conduct J V} {id n : Nat}
    {b : ThreadId} {masks : ThreadId → Mask} {x : Rig J V}
    (h₀ : Pool.Fresh n (Pool.blank id n b : Pool J V))
    (hr : Run d conduct (.opened (Pool.blank id n b) masks) x) (ht : ∀ m ∈ x.moments, m.Timely)
    (huntold : Pool.verdicts x.moments = []) (refusal : Nat → Option Os.Error) :
    (∃ e y, e.isProgress = true ∧ e.AnsweredBy refusal x ∧ x.step d conduct e = some y) ∧
      x.moments.length ≤ 6 * n + 4 + 2 * Pool.stirs x.moments := by
  have hh := hr.harmless hd
  obtain ⟨c,hc,hb⟩ := hr.pool.builds_of_untold h₀ ht hh huntold
  have hunused := hr.pool.unused h₀ ht ((hr.pool.reserved h₀ ht).not_standing hc hb)
  obtain ⟨⟨e,f,he,ha,h⟩,hle⟩ := hr.pool.untold h₀ ht hh huntold refusal
  obtain ⟨e',y,he',hsame,hy⟩ : ∃ e' y, e'.isProgress = true ∧ (∀ s, e' = .pool s → s = e) ∧
      x.step d conduct e' = some y := exists_progress hunused he h
  refine ⟨⟨e',y,he',?_,hy⟩,hle⟩
  cases e' with
  | pool s => exact hsame s rfl ▸ ha
  | start | work | apply => trivial

theorem Run.goes_on {d : Driver} (hd : d.Harmless) {conduct : Conduct J V} {id n : Nat}
    {b : ThreadId} {masks : ThreadId → Mask} {x : Rig J V}
    (h₀ : Pool.Fresh n (Pool.blank id n b : Pool J V))
    (hr : Run d conduct (.opened (Pool.blank id n b) masks) x) (ht : ∀ m ∈ x.moments, m.Timely)
    {c : Call J} (hc : x.pool.callOf? b = some c) (hb : c.builds = true) :
    (∃ e y, e.isProgress = true ∧ x.step d conduct e = some y) ∧
      x.moments.length ≤ 6 * n + 4 + 2 * Pool.stirs x.moments := by
  have huntold := (hr.pool.builder h₀ ht (hr.harmless hd) hc hb).2
  obtain ⟨⟨e,y,he,-,hy⟩,hle⟩ := hr.untold hd h₀ ht huntold fun _ => none
  exact ⟨⟨e,y,he,hy⟩,hle⟩

end Rig
end PinnedPool
