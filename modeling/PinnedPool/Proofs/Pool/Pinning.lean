import PinnedPool.Affinity.Controller
import PinnedPool.Proofs.Pool.Run

/-! # Pinning does not change what a pool does

The workers of a pool pin themselves before they look for tasks, and jobs may ask for other cores
later. Whatever the controller makes of that, it shows in the threads' masks and in the log, and in
nothing that decides what a thread does next, as long as no job looks at a mask.
-/
namespace PinnedPool

variable {J V : Type}

/-- A controller whose backend may do something else at each request. -/
structure Driver where
  topology : Topology
  backend : Nat → Backend

namespace Driver

def name (d : Driver) : String := (d.backend 0).name

def controller (d : Driver) (asked : Nat) : Controller := ⟨d.topology,d.backend asked⟩

/-- Every request succeeds or fails. -/
def Returns (d : Driver) : Prop :=
  ∀ asked thread cores cpus mask p, (d.backend asked).pin thread cores cpus mask ≠ .unwound p

def idle (m : Machine) (t : Topology) : Driver := ⟨t,fun _ => .idle m⟩

theorem idle_returns (m : Machine) (t : Topology) : (idle m t).Returns := nofun

/-- Every request is refused by the system. -/
def rejecting (t : Topology) : Driver where
  topology := t
  backend _ := { Backend.minimal with
    name := "rejecting"
    pin := fun _ cores _ _ => .failed (.affinityRejected cores .invalidArgument) }

theorem rejecting_returns (t : Topology) : (rejecting t).Returns := nofun

end Driver

def Log.Line.unnamed : Log.Line → Log.Line
  | .creating n _ => .creating n ""
  | l => l

namespace Controller
variable (c : Controller) (cores : CoreClass) (thread : Option String) (mask : Mask)

theorem apply_unwound (h : ∀ cpus p, c.backend.pin thread cores cpus mask ≠ .unwound p) :
    (c.apply cores thread mask).unwound = none := by
  by_cases he : (c.cpus cores).isEmpty = true
  · simp only [apply, if_pos he]
  · cases hp : c.backend.pin thread cores (c.cpus cores) mask with
    | done | failed => simp only [apply, if_neg he, hp]
    | unwound p => exact absurd hp (h _ p)

theorem topic_of_apply {l : Log.Line} (hl : l ∈ (c.apply cores thread mask).lines) :
    l.topic = .affinity := by
  by_cases he : (c.cpus cores).isEmpty = true
  · simp only [apply, if_pos he, List.mem_singleton] at hl
    rw [hl]
    rfl
  · cases hp : c.backend.pin thread cores (c.cpus cores) mask with
    | done =>
      simp only [apply, if_neg he, hp, List.mem_singleton] at hl
      rw [hl]
      split <;> rfl
    | failed =>
      simp only [apply, if_neg he, hp, List.mem_singleton] at hl
      rw [hl]
      rfl
    | unwound => simp [apply, he, hp] at hl

end Controller

namespace Pool

def Opening.unnamed : Opening J V → Opening J V
  | .failed failure lines => .failed failure (lines.map Log.Line.unnamed)
  | .begun p lines => .begun p (lines.map Log.Line.unnamed)

/-- Whether a pool can be built has nothing to do with its backend. -/
theorem create_unnamed (id n : Nat) (b b' : String) (t : ThreadId) :
    (create id n b t : Opening J V).unnamed = (create id n b' t).unnamed := by
  unfold create
  by_cases hn : n = 0
  · rw [if_pos hn, if_pos hn]
  · rw [if_neg hn, if_neg hn]
    by_cases hlarge : handlesLimit < handleSize * n
    · rw [if_pos hlarge, if_pos hlarge]
      rfl
    · rw [if_neg hlarge, if_neg hlarge]
      rfl

end Pool

namespace Rig

/-- A step of the pool that is up to the scheduler or a thread outside, a worker that pins itself or
goes on with its job while the handle of the job is there or not, or a thread outside that applies a
class of cores to itself. -/
inductive Event (J V : Type) where
  | pool (e : Pool.Event J V)
  | start (w : Nat)
  | work (w : Nat) (heard : Bool := true)
  | apply (t : ThreadId) (name : Option String) (cores : CoreClass)

/-- A step as others may see it. -/
structure Sight (J V : Type) where
  event : Event J V
  moment? : Option (Pool.Moment J V)

/-- What a job does next. -/
inductive Deed (J V : Type) where
  | stop (e : Ending V)
  | call (r : Pool.Request J)
  | apply (cores : CoreClass)

/-- How jobs behave: whatever has been seen so far may bear on what a worker's job does next. No mask
is ever seen. -/
abbrev Conduct (J V : Type) := Nat → Task J → List (Sight J V) → Deed J V

end Rig

/-- A pool whose threads are pinned by a controller. -/
structure Rig (J V : Type) where
  pool : Pool J V
  masks : ThreadId → Mask
  /-- How many requests there were so far. -/
  asked : Nat
  /-- Those that have reached a journaled backend, oldest first. -/
  requests : List PinRequest
  /-- What has been seen, newest first. -/
  seen : List (Rig.Sight J V)
  log : List Log.Line

namespace Rig

def opened (p : Pool J V) (masks : ThreadId → Mask) : Rig J V := ⟨p,masks,0,[],[],[]⟩

def pinned (x : Rig J V) (t : ThreadId) (a : Applied) : Rig J V :=
  { x with
    masks := fun u => if u = t then a.mask else x.masks u
    asked := x.asked + 1
    requests := x.requests ++ a.requests
    log := x.log ++ a.lines }

def request (d : Driver) (x : Rig J V) (t : ThreadId) (name : Option String)
    (cores : CoreClass) : Applied :=
  (d.controller x.asked).apply cores name (x.masks t)

def see (x : Rig J V) (e : Event J V) (m : Option (Pool.Moment J V)) : Rig J V :=
  { x with seen := ⟨e,m⟩ :: x.seen }

/-- A new worker has the mask of the thread that starts it. -/
def inherited (x : Rig J V) : Pool.Event J V → ThreadId → Mask
  | .spawn t none => fun u => if u = .worker x.pool.id x.pool.workers.length then x.masks t
    else x.masks u
  | _ => x.masks

def stepPool (x : Rig J V) (e : Event J V) (step : Pool.Event J V) : Option (Rig J V) :=
  (x.pool.step step).map fun f =>
    { x with pool := f.pool, masks := x.inherited step, log := x.log ++ f.lines }.see e
      (some ⟨x.pool,step,f⟩)

/-- The steps that are up to a worker and its job. -/
def own (p : Pool J V) : Pool.Event J V → Bool
  | .pin _ _ | .finish _ _ _ => true
  | .call (.worker pool _) _ => pool = p.id
  | _ => false

/-- A job asks for a class of cores. A backend that panics ends it. -/
def workApply (d : Driver) (x : Rig J V) (w : Nat) (heard : Bool) (cores : CoreClass) :
    Option (Rig J V) :=
  let t := ThreadId.worker x.pool.id w
  let a := x.request d t (some (Log.workerName w)) cores
  match a.unwound with
  | none => some ((x.pinned t a).see (.work w heard) none)
  | some p => (x.pinned t a).stepPool (.work w heard) (.finish w (.unwound p) heard)

def step (d : Driver) (conduct : Conduct J V) (x : Rig J V) : Event J V → Option (Rig J V)
  | .pool e => if own x.pool e then none else x.stepPool (.pool e) e
  | .start w =>
    let t := ThreadId.worker x.pool.id w
    let a := x.request d t (some (Log.workerName w)) .performance
    (x.pinned t a).stepPool (.start w) (.pin w a.unwound)
  | .work w heard =>
    match x.pool.workers[w]?, x.pool.callOf? (.worker x.pool.id w) with
    | some (.running task _), none =>
      match conduct w task x.seen with
      | .stop e => x.stepPool (.work w heard) (.finish w e heard)
      | .call r => x.stepPool (.work w heard) (.call (.worker x.pool.id w) r)
      | .apply cores => x.workApply d w heard cores
    | _, _ => none
  | .apply t name cores =>
    if x.pool.isWorker t then none
    else some ((x.pinned t (x.request d t name cores)).see (.apply t name cores) none)

inductive Run (d : Driver) (conduct : Conduct J V) (x₀ : Rig J V) : Rig J V → Prop
  | start : Run d conduct x₀ x₀
  | step {x e y} : Run d conduct x₀ x → x.step d conduct e = some y → Run d conduct x₀ y

theorem run_of_foldlM {d : Driver} {conduct : Conduct J V} {x y : Rig J V} {es : List (Event J V)}
    (h : es.foldlM (step d conduct) x = some y) : Run d conduct x y :=
  Pool.foldlM_keeps (P := Run d conduct x) (fun hr he => hr.step he) .start h

/-- The moments of the pool, oldest first. -/
def moments (x : Rig J V) : List (Pool.Moment J V) := x.seen.reverse.filterMap Sight.moment?

/-- The log without the lines of the controller. -/
def told (lines : List Log.Line) : List Log.Line := lines.filter fun l => l.topic ≠ .affinity

theorem told_append (l l' : List Log.Line) : told (l ++ l') = told l ++ told l' :=
  List.filter_append ..

/-- The two differ in masks at most, and in what the controller has logged. -/
structure Alike (x y : Rig J V) : Prop where
  pool : x.pool = y.pool
  seen : x.seen = y.seen
  told : told x.log = told y.log

theorem moments_see (x : Rig J V) (e : Event J V) (m : Option (Pool.Moment J V)) :
    (x.see e m).moments = x.moments ++ m.toList := by
  simp only [moments, see, List.reverse_cons, List.filterMap_append]
  exact congrArg _ (Pool.filterMap_singleton _ _)

def Follows (x y : Rig J V) : Prop :=
  y.pool = x.pool ∧ y.moments = x.moments ∨
    ∃ e f, x.pool.step e = some f ∧ y.pool = f.pool ∧ y.moments = x.moments ++ [⟨x.pool,e,f⟩]

theorem follows_see (x : Rig J V) (t : ThreadId) (a : Applied) (e : Event J V) :
    x.Follows ((x.pinned t a).see e none) := by
  refine .inl ⟨rfl,?_⟩
  rw [moments_see]
  exact List.append_nil _

theorem follows_of_pinned {x y : Rig J V} {t : ThreadId} {a : Applied}
    (h : (x.pinned t a).Follows y) : x.Follows y := h

theorem follows_stepPool {x y : Rig J V} {e : Event J V} {s : Pool.Event J V}
    (h : x.stepPool e s = some y) : x.Follows y := by
  obtain ⟨f,hf,rfl⟩ := Option.map_eq_some_iff.mp h
  refine .inr ⟨s,f,hf,rfl,?_⟩
  rw [moments_see]
  rfl

theorem follows {d : Driver} {conduct : Conduct J V} {x y : Rig J V} {e : Event J V}
    (h : x.step d conduct e = some y) : x.Follows y := by
  cases e with
  | pool e =>
    simp only [step] at h
    split at h
    · cases h
    · exact follows_stepPool h
  | start w => exact follows_of_pinned (follows_stepPool h)
  | work w heard =>
    simp only [step] at h
    split at h
    · split at h
      · exact follows_stepPool h
      · exact follows_stepPool h
      · simp only [workApply] at h
        split at h
        · cases h
          exact x.follows_see ..
        · exact follows_of_pinned (follows_stepPool h)
    · cases h
  | apply t name cores =>
    simp only [step] at h
    split at h
    · cases h
    · cases h
      exact x.follows_see ..

theorem Run.pool {d : Driver} {conduct : Conduct J V} {p₀ : Pool J V} {masks : ThreadId → Mask}
    {x : Rig J V} (hr : Run d conduct (.opened p₀ masks) x) : Pool.Run p₀ x.moments x.pool := by
  induction hr with
  | start => exact .start
  | step _ h ih =>
    rcases follows h with ⟨hpool,hmoments⟩ | ⟨e,f,hf,hpool,hmoments⟩
    · rw [hpool, hmoments]
      exact ih
    · rw [hpool, hmoments]
      exact ih.step hf

theorem told_of_apply (c : Controller) (cores : CoreClass) (thread : Option String) (mask : Mask) :
    told (c.apply cores thread mask).lines = [] := by
  refine List.filter_eq_nil_iff.mpr ?_
  intro l hl
  simpa using c.topic_of_apply cores thread mask hl

theorem request_unwound {d : Driver} (h : d.Returns) (x : Rig J V) (t : ThreadId)
    (name : Option String) (cores : CoreClass) : (x.request d t name cores).unwound = none :=
  Controller.apply_unwound _ _ _ _ fun cpus p => h _ _ _ cpus _ p

section Alike
variable {x y : Rig J V} (h : x.Alike y)
include h

theorem Alike.pinned (t : ThreadId) {a b : Applied} (ha : Rig.told a.lines = [])
    (hb : Rig.told b.lines = []) : (x.pinned t a).Alike (y.pinned t b) where
  pool := h.pool
  seen := h.seen
  told := by
    simp only [Rig.pinned, told_append, ha, hb, h.told]

theorem Alike.see (e : Event J V) (m : Option (Pool.Moment J V)) :
    (x.see e m).Alike (y.see e m) where
  pool := h.pool
  seen := congrArg (List.cons _) h.seen
  told := h.told

theorem Alike.stepPool {e : Event J V} {s : Pool.Event J V} {x' : Rig J V}
    (hx : x.stepPool e s = some x') : ∃ y', y.stepPool e s = some y' ∧ x'.Alike y' := by
  obtain ⟨f,hf,rfl⟩ := Option.map_eq_some_iff.mp hx
  rw [h.pool] at hf
  refine ⟨_,Option.map_eq_some_iff.mpr ⟨f,hf,rfl⟩,rfl,?_,?_⟩
  · simp only [Rig.see, h.pool, h.seen]
  · simp only [Rig.see, told_append, h.told]

theorem Alike.step {d₁ d₂ : Driver} (h₁ : d₁.Returns) (h₂ : d₂.Returns) {conduct : Conduct J V}
    {e : Event J V} {x' : Rig J V} (hx : x.step d₁ conduct e = some x') :
    ∃ y', y.step d₂ conduct e = some y' ∧ x'.Alike y' := by
  have hpinned : ∀ t name cores, (x.pinned t (x.request d₁ t name cores)).Alike
      (y.pinned t (y.request d₂ t name cores)) := fun t _ _ =>
    h.pinned t (told_of_apply ..) (told_of_apply ..)
  cases e with
  | pool e =>
    simp only [Rig.step] at hx ⊢
    rw [← h.pool]
    split at hx
    · cases hx
    · rw [if_neg ‹_›]
      exact h.stepPool hx
  | start w =>
    simp only [Rig.step, x.request_unwound h₁, y.request_unwound h₂] at hx ⊢
    rw [← h.pool]
    exact (hpinned _ _ _).stepPool hx
  | work w heard =>
    simp only [Rig.step] at hx ⊢
    rw [← h.pool, ← h.seen]
    split at hx
    · split at hx
      · exact h.stepPool hx
      · exact h.stepPool hx
      · simp only [workApply, x.request_unwound h₁, y.request_unwound h₂] at hx ⊢
        cases hx
        rw [← h.pool]
        exact ⟨_,rfl,(hpinned _ _ _).see _ _⟩
    · cases hx
  | apply t name cores =>
    simp only [Rig.step] at hx ⊢
    rw [← h.pool]
    split at hx
    · cases hx
    · cases hx
      rw [if_neg ‹_›]
      exact ⟨_,rfl,(hpinned _ _ _).see _ _⟩

end Alike

theorem Run.alike {d₁ d₂ : Driver} (h₁ : d₁.Returns) (h₂ : d₂.Returns) {conduct : Conduct J V}
    {x₀ y₀ x : Rig J V} (h₀ : x₀.Alike y₀) (hr : Run d₁ conduct x₀ x) :
    ∃ y, Run d₂ conduct y₀ y ∧ x.Alike y := by
  induction hr with
  | start => exact ⟨y₀,.start,h₀⟩
  | step _ h ih =>
    obtain ⟨y,hry,hxy⟩ := ih
    obtain ⟨y',hy,halike⟩ := hxy.step h₁ h₂ h
    exact ⟨y',hry.step hy,halike⟩

/-- Two controllers whose backends always return make no difference to a pool, whatever requests
they refuse. It can be built with the one if and only if it can be built with the other, and every
run with the one is matched step for step by a run with the other: the pool is the same at every
moment, and but for the controller's own lines the log is. -/
theorem pinning_makes_no_difference {d₁ d₂ : Driver} (h₁ : d₁.Returns) (h₂ : d₂.Returns)
    (conduct : Conduct J V) (id n : Nat) (t : ThreadId) :
    (Pool.create id n d₁.name t : Pool.Opening J V).unnamed =
        (Pool.create id n d₂.name t).unnamed ∧
      ∀ p₀ lines, Pool.create id n d₁.name t = .begun p₀ lines →
        ∀ masks₁ masks₂ x, Run d₁ conduct (.opened p₀ masks₁) x →
          ∃ y, Run d₂ conduct (.opened p₀ masks₂) y ∧ y.pool = x.pool ∧ y.seen = x.seen ∧
            told y.log = told x.log ∧ Pool.Run p₀ y.moments y.pool := by
  constructor
  · exact Pool.create_unnamed ..
  · intro p₀ _ _ masks₁ masks₂ x hr
    have h₀ : (Rig.opened p₀ masks₁).Alike (.opened p₀ masks₂) := ⟨rfl,rfl,rfl⟩
    obtain ⟨y,hry,hxy⟩ := hr.alike h₁ h₂ h₀
    exact ⟨y,hry,hxy.pool.symm,hxy.seen.symm,hxy.told.symm,hry.pool⟩

/-- Jobs that ask for other cores once and shut their pool down, when they see that it is time. -/
def restless : Conduct Nat Nat := fun _ _ seen =>
  if seen.length = 6 then .apply .efficiency
  else if seen.length = 7 then .call .shutdown
  else .stop (.returned 7)

/-- With a backend that does nothing, a job asks for other cores and then shuts its pool down. With
one that refuses every request, on a machine without the cores of the other, it has the same result. -/
theorem pinning_makes_no_difference_rejected :
    ∃ (p₀ : Pool Nat Nat) (lines : List Log.Line) (x y : Rig Nat Nat),
      Pool.create 0 1 (Driver.idle .single ⟨[0],[0]⟩).name (.client 0) = .begun p₀ lines ∧
        Run (.idle .single ⟨[0],[0]⟩) restless (.opened p₀ fun _ => [0]) x ∧
        Run (.rejecting ⟨[5000],[1]⟩) restless (.opened p₀ fun _ => []) y ∧
        .pinned "pool-worker-0" [0] ∈ x.log ∧
        Pool.completions y.moments = [⟨0,⟨0,3,true⟩,.returned 7,true⟩] ∧ y.pool.deserted = true ∧
        told y.log = [.started 0, .executing 0 0, .notJoining, .leaving 0] := by
  have h : (List.foldlM (step (.idle .single ⟨[0],[0]⟩) restless)
      (.opened (Pool.blank 0 1 (.client 0)) fun _ => [0]) [.pool (.spawn (.client 0) none), .start 0,
        .pool (.call (.client 1) (.submit 3 true)), .pool (.proceed (.client 1)),
        .pool (.notify (.client 1) none), .pool (.claim 0), .work 0, .work 0,
        .pool (.proceed (.worker 0 0)), .pool (.proceed (.worker 0 0)), .work 0,
        .pool (.claim 0)]).any (fun x =>
          decide (.pinned "pool-worker-0" [0] ∈ x.log ∧
            Pool.completions x.moments = [⟨0,⟨0,3,true⟩,.returned 7,true⟩] ∧ x.pool.deserted = true ∧
            told x.log = [.started 0, .executing 0 0, .notJoining, .leaving 0])) = true := by
    decide +kernel
  obtain ⟨x,hreplay,hd⟩ := (Option.any_eq_true _ _).mp h
  obtain ⟨hpinned,hcompletions,hdeserted,htold⟩ := of_decide_eq_true hd
  have hr := run_of_foldlM hreplay
  obtain ⟨-,hmatch⟩ := pinning_makes_no_difference (Driver.idle_returns .single ⟨[0],[0]⟩)
    (Driver.rejecting_returns ⟨[5000],[1]⟩) restless 0 1 (.client 0)
  obtain ⟨y,hry,hpool,hseen,hlog,-⟩ := hmatch _ _ rfl _ (fun _ => []) x hr
  refine ⟨_,_,x,y,rfl,hr,hry,hpinned,?_,hpool ▸ hdeserted,hlog.trans htold⟩
  rw [moments, hseen]
  exact hcompletions

end Rig
end PinnedPool
