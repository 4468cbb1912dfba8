import PinnedPool.Registry
import PinnedPool.Proofs.Pool.Building

/-! # A registry with its pools

The thread that has got a registry's lock goes through a call of a pool: it builds one, or it shuts
one down. Here the two are put together: the calls of the registry and the steps of all pools that
were ever begun through it, taken by any threads in any order.
-/
namespace PinnedPool

variable {J V : Type}

namespace Registry

/-- The size of the pool that a call makes if it finds none. -/
def Request.wanted? : Request → Option Nat
  | setUp config => some config.threads
  | getOrInit => some Config.defaultThreads
  | get | shutdown => none

/-- What the return from a pool's call means to the registry, if the thread is in a call of it. -/
def follow (r : Registry) (t : ThreadId) (held : Held) (reply : PinnedPool.Reply) : Option Registry :=
  match r.callOf? t, reply with
  | some (.creating _ _), .built => (r.step (.created t (.ok held))).map Effect.registry
  | some (.creating _ _), .notBuilt e =>
    (r.step (.created t (.error (.refused (.os e))))).map Effect.registry
  | some (.creating _ _), .unwound p =>
    (r.step (.created t (.error (.unwound p.message)))).map Effect.registry
  | some (.stopping _), .done => (r.step (.stopped t)).map Effect.registry
  | some (.stopping _), .unwound p => (r.step (.stopped t (some p))).map Effect.registry
  | _, _ => some r

section
variable {r : Registry} {t : ThreadId}

theorem step_created {config : Config} {line : Nat → Log.Line}
    (h : r.callOf? t = some (.creating config line)) (result : Except Failure Held) :
    r.step (.created t result) = some (r.store t line result) := by
  simp only [step, h]

theorem step_stopped {held : Held} (h : r.callOf? t = some (.stopping held))
    (panic : Option Payload) : r.step (.stopped t panic) = some (r.quit t panic) := by
  simp only [step, h]

end

end Registry

structure Estate (J V : Type) where
  registry : Registry
  /-- The pools that were begun through the registry, by identity. -/
  pools : List (Pool J V)

namespace Estate

def empty : Estate J V := ⟨.empty,[]⟩

/-- Whether a thread is in no call of a pool. -/
def idle (s : Estate J V) (t : ThreadId) : Bool := s.pools.all fun p => (p.callOf? t).isNone

/-- Whether a thread is in no call at all. -/
def free (s : Estate J V) (t : ThreadId) : Bool := (s.registry.callOf? t).isNone && s.idle t

inductive Event (J V : Type) where
  /-- A thread enters a call of the registry. -/
  | ask (t : ThreadId) (request : Registry.Request)
  /-- A thread gets the lock and looks into the slot. -/
  | enter (t : ThreadId)
  /-- A thread that has found the slot empty begins to build a pool. -/
  | found (t : ThreadId) (backend : String)
  /-- A thread that has taken a pool out of the slot begins to shut it down. -/
  | shut (t : ThreadId)
  | leave (t : ThreadId)
  /-- A step of one of the pools. -/
  | pool (i : Nat) (e : Pool.Event J V)

/-- The estate after a step, and what the call of the registry returned if it did. -/
structure Effect (J V : Type) where
  estate : Estate J V
  reply : Option Registry.Reply := none

/-- Whether a pool's step fits to where the threads are: a pool that does not stand has not been
handed out, a thread is in one call at a time, and a task ends outside of all calls. The backends
that a registry gives to its pools are harmless. -/
def admits (s : Estate J V) (i : Nat) (p : Pool J V) : Pool.Event J V → Bool
  | .call t _ => decide p.Standing && s.free t
  | .finish w _ _ => s.free (.worker i w)
  | e => e.harmless

/-- A step of one pool, and the step of the registry that follows if a call returns to it. -/
def stepPool (s : Estate J V) (i : Nat) (p : Pool J V) (e : Pool.Event J V) : Option (Effect J V) :=
  (p.step e).bind fun f =>
    let pools := s.pools.set i f.pool
    match e.caller?, f.reply with
    | some t, some reply =>
      (s.registry.follow t ⟨i,p.threads⟩ reply).map fun r => { estate := ⟨r,pools⟩ }
    | _, _ => some { estate := ⟨s.registry,pools⟩ }

/-- One step of one thread. -/
def step (s : Estate J V) : Event J V → Option (Effect J V)
  | .ask t request =>
    if s.idle t then
      (s.registry.step (.call t request)).map fun f => { estate := ⟨f.registry,s.pools⟩ }
    else none
  | .enter t => (s.registry.step (.enter t)).map fun f => { estate := ⟨f.registry,s.pools⟩ }
  | .found t backend =>
    match s.registry.callOf? t with
    | some (.creating config _) =>
      if s.idle t then
        match Pool.create s.pools.length config.threads backend t with
        | .begun p _ => some { estate := ⟨s.registry,s.pools ++ [p]⟩ }
        | .failed failure _ =>
          (s.registry.step (.created t (.error failure))).map fun f =>
            { estate := ⟨f.registry,s.pools⟩ }
      else none
    | _ => none
  | .shut t =>
    match s.registry.callOf? t with
    | some (.stopping held) =>
      if s.idle t then
        (s.pools[held.pool]?).bind fun p => (p.step (.call t .shutdown)).map fun f =>
          { estate := ⟨s.registry,s.pools.set held.pool f.pool⟩ }
      else none
    | _ => none
  | .leave t =>
    (s.registry.step (.leave t)).map fun f =>
      { estate := ⟨f.registry,s.pools⟩, reply := f.reply }
  | .pool i e => (s.pools[i]?).bind fun p => if s.admits i p e then s.stepPool i p e else none

/-! ## Runs -/

structure Moment (J V : Type) where
  before : Estate J V
  event : Event J V
  effect : Effect J V

/-- The steps `ms` lead from a registry without pools to an estate, whichever threads took them. -/
inductive Run : List (Moment J V) → Estate J V → Prop
  | start : Run [] .empty
  | step {ms s e f} : Run ms s → s.step e = some f → Run (ms ++ [⟨s,e,f⟩]) f.estate

/-- What every step keeps whose moment is of a kind, a run of such moments keeps. -/
theorem Run.invariant_of {I : Estate J V → Prop} {G : Moment J V → Prop} {s : Estate J V}
    {ms : List (Moment J V)} (hr : Run ms s) (hg : ∀ m ∈ ms, G m) (h₀ : I .empty)
    (hs : ∀ {s e f}, s.step e = some f → G ⟨s,e,f⟩ → I s → I f.estate) : I s := by
  induction hr with
  | start => exact h₀
  | step _ h ih =>
    have hi := ih fun m hm => hg m (List.mem_append_left _ hm)
    exact hs h (hg _ (List.mem_append_right _ (List.mem_singleton_self _))) hi

/-- The moments of the steps that a schedule takes after others, and the estate after them. -/
def replay (ms : List (Moment J V)) (s : Estate J V) :
    List (Event J V) → Option (List (Moment J V) × Estate J V)
  | [] => some (ms,s)
  | e :: es => (s.step e).bind fun f => replay (ms ++ [⟨s,e,f⟩]) f.estate es

theorem Run.replay {ms : List (Moment J V)} {s : Estate J V} {es : List (Event J V)}
    {r : List (Moment J V) × Estate J V} (hr : Run ms s) (h : replay ms s es = some r) :
    Run r.1 r.2 := by
  induction es generalizing ms s with
  | nil =>
    cases h
    exact hr
  | cons e es ih =>
    obtain ⟨f,hf,h⟩ := Option.bind_eq_some_iff.mp h
    exact ih (hr.step hf) h

/-- The schedule can be taken from the beginning, and `P` holds of its moments and of the estate
after them. -/
def Leads (es : List (Event J V)) (P : List (Moment J V) → Estate J V → Prop) : Prop :=
  ∃ r ∈ replay [] .empty es, P r.1 r.2

instance (es : List (Event J V)) (P : List (Moment J V) → Estate J V → Prop)
    [∀ ms s, Decidable (P ms s)] : Decidable (Leads es P) :=
  match h : replay [] .empty es with
  | some r => decidable_of_iff (P r.1 r.2) (by simp [Leads, h])
  | none => .isFalse (by simp [Leads, h])

theorem Leads.run {es : List (Event J V)} {P : List (Moment J V) → Estate J V → Prop}
    (h : Leads es P) : ∃ ms s, Run ms s ∧ P ms s := by
  obtain ⟨r,hr,h⟩ := h
  exact ⟨r.1,r.2,Run.start.replay hr,h⟩

/-! ## What a step can do -/

/-- What a thread that has got the lock does with the slot. -/
inductive Looked (r : Registry) (t : ThreadId) : Registry.Request → Registry → Prop
  | found {request held} (stays : request ≠ .shutdown) (slot : r.slot = some held) :
    Looked r t request (r.setCall t (.leaving (.pool held)))
  | missed {request config line} (wanted : request.wanted? = some config.threads)
      (slot : r.slot = none) : Looked r t request (r.setCall t (.creating config line))
  | nothing (slot : r.slot = none) : Looked r t .get (r.setCall t (.leaving .none))
  | taken {held} (slot : r.slot = some held) :
    Looked r t .shutdown ({ r with slot := none }.setCall t (.stopping held))
  | vacant (slot : r.slot = none) : Looked r t .shutdown (r.setCall t (.leaving .done))

theorem looked (r : Registry) (t : ThreadId) (request : Registry.Request) :
    Looked r t request (r.look t request).registry := by
  unfold Registry.look
  rw [r.content_eq]
  cases hs : r.slot with
  | none =>
    cases request with
    | setUp | getOrInit => exact .missed rfl hs
    | get => exact .nothing hs
    | shutdown => exact .vacant hs
  | some held =>
    cases request with
    | setUp | getOrInit | get => exact .found nofun hs
    | shutdown => exact .taken hs

inductive Transition (s : Estate J V) : Event J V → Effect J V → Prop
  | ask {t request} (idle : s.idle t = true) (call : s.registry.callOf? t = none) :
    Transition s (.ask t request) { estate := ⟨s.registry.setCall t (.entering request),s.pools⟩ }
  | enter {t request r} (call : s.registry.callOf? t = some (.entering request))
      (unlocked : s.registry.locked = false) (look : Looked s.registry t request r) :
    Transition s (.enter t) { estate := ⟨r,s.pools⟩ }
  | begin {t backend config line p} (call : s.registry.callOf? t = some (.creating config line))
      (idle : s.idle t = true) (eq : p = Pool.blank s.pools.length config.threads t)
      (fresh : p.Fresh config.threads) :
    Transition s (.found t backend) { estate := ⟨s.registry,s.pools ++ [p]⟩ }
  | fail {t backend config line failure}
      (call : s.registry.callOf? t = some (.creating config line)) (idle : s.idle t = true)
      (fails : Pool.Fails config.threads failure) :
    Transition s (.found t backend)
      { estate := ⟨s.registry.setCall t (.leaving (.failed failure)),s.pools⟩ }
  | shut {t held p f} (call : s.registry.callOf? t = some (.stopping held)) (idle : s.idle t = true)
      (pool : s.pools[held.pool]? = some p) (step : p.step (.call t .shutdown) = some f) :
    Transition s (.shut t) { estate := ⟨s.registry,s.pools.set held.pool f.pool⟩ }
  | leave {t reply} (call : s.registry.callOf? t = some (.leaving reply)) :
    Transition s (.leave t) { estate := ⟨s.registry.endCall t reply,s.pools⟩, reply := some reply }
  | pool {i p e f} (pool : s.pools[i]? = some p) (admits : s.admits i p e = true)
      (step : p.step e = some f)
      (unbuilt : ∀ t config line, e.caller? = some t →
        s.registry.callOf? t = some (.creating config line) →
          f.reply ≠ some .built ∧ (∀ e, f.reply ≠ some (.notBuilt e)) ∧
            ∀ q, f.reply ≠ some (.unwound q)) :
    Transition s (.pool i e) { estate := ⟨s.registry,s.pools.set i f.pool⟩ }
  | built {i p e f t config line} (pool : s.pools[i]? = some p) (admits : s.admits i p e = true)
      (step : p.step e = some f) (caller : e.caller? = some t) (reply : f.reply = some .built)
      (call : s.registry.callOf? t = some (.creating config line)) :
    Transition s (.pool i e) { estate := ⟨{ s.registry with slot := some ⟨i,p.threads⟩ }.setCall t
      (.leaving (.pool ⟨i,p.threads⟩)),s.pools.set i f.pool⟩ }
  | notBuilt {i p e f t config line err} (pool : s.pools[i]? = some p)
      (admits : s.admits i p e = true) (step : p.step e = some f) (caller : e.caller? = some t)
      (reply : f.reply = some (.notBuilt err))
      (call : s.registry.callOf? t = some (.creating config line)) :
    Transition s (.pool i e) { estate := ⟨s.registry.setCall t
      (.leaving (.failed (.refused (.os err)))),s.pools.set i f.pool⟩ }
  | buildUnwound {i p e f t config line q} (pool : s.pools[i]? = some p)
      (admits : s.admits i p e = true) (step : p.step e = some f) (caller : e.caller? = some t)
      (reply : f.reply = some (.unwound q))
      (call : s.registry.callOf? t = some (.creating config line)) :
    Transition s (.pool i e) { estate := ⟨s.registry.setCall t
      (.leaving (.failed (.unwound q.message))),s.pools.set i f.pool⟩ }
  | stopped {i p e f t held} (pool : s.pools[i]? = some p) (admits : s.admits i p e = true)
      (step : p.step e = some f) (caller : e.caller? = some t) (reply : f.reply = some .done)
      (call : s.registry.callOf? t = some (.stopping held)) :
    Transition s (.pool i e)
      { estate := ⟨s.registry.setCall t (.leaving .done),s.pools.set i f.pool⟩ }
  | stopUnwound {i p e f t held q} (pool : s.pools[i]? = some p) (admits : s.admits i p e = true)
      (step : p.step e = some f) (caller : e.caller? = some t)
      (reply : f.reply = some (.unwound q))
      (call : s.registry.callOf? t = some (.stopping held)) :
    Transition s (.pool i e)
      { estate := ⟨s.registry.setCall t (.leaving (.unwound q)),s.pools.set i f.pool⟩ }

variable {s : Estate J V} {f : Effect J V}

theorem transition_pool {i : Nat} {p : Pool J V} {e : Pool.Event J V} (hp : s.pools[i]? = some p)
    (ha : s.admits i p e = true) (h : s.stepPool i p e = some f) : Transition s (.pool i e) f := by
  obtain ⟨g,hg,h⟩ := Option.bind_eq_some_iff.mp h
  cases hcaller : e.caller? with
  | none =>
    rw [hcaller] at h
    cases h
    exact .pool hp ha hg fun t _ _ ht => by rw [hcaller] at ht; cases ht
  | some t =>
    cases hreply : g.reply with
    | none =>
      rw [hcaller, hreply] at h
      cases h
      exact .pool hp ha hg fun _ _ _ _ _ => by simp [hreply]
    | some reply =>
      rw [hcaller, hreply] at h
      obtain ⟨r,hr,rfl⟩ := Option.map_eq_some_iff.mp h
      unfold Registry.follow at hr
      split at hr
      · rename_i hc
        rw [Registry.step_created hc] at hr
        cases hr
        exact .built hp ha hg hcaller hreply hc
      · rename_i hc
        rw [Registry.step_created hc] at hr
        cases hr
        exact .notBuilt hp ha hg hcaller hreply hc
      · rename_i hc
        rw [Registry.step_created hc] at hr
        cases hr
        exact .buildUnwound hp ha hg hcaller hreply hc
      · rename_i hc
        rw [Registry.step_stopped hc] at hr
        cases hr
        exact .stopped hp ha hg hcaller hreply hc
      · rename_i hc
        rw [Registry.step_stopped hc] at hr
        cases hr
        exact .stopUnwound hp ha hg hcaller hreply hc
      · rename_i hbuilt hnot hunwound _ _
        cases hr
        refine .pool hp ha hg ?_
        intro u config line hu hc
        rw [hcaller] at hu
        cases hu
        rw [hreply]
        refine ⟨?_,?_,?_⟩
        · rintro ⟨⟩
          exact hbuilt _ _ hc rfl
        · rintro err ⟨⟩
          exact hnot _ _ _ hc rfl
        · rintro q ⟨⟩
          exact hunwound _ _ _ hc rfl

theorem transition {e : Event J V} (h : s.step e = some f) : Transition s e f := by
  cases e with
  | ask t request =>
    simp only [step] at h
    split at h
    · obtain ⟨g,hg,rfl⟩ := Option.map_eq_some_iff.mp h
      cases hc : s.registry.callOf? t with
      | some c => simp [Registry.step, hc] at hg
      | none =>
        simp only [Registry.step, hc] at hg
        cases hg
        exact .ask ‹_› hc
    · cases h
  | enter t =>
    obtain ⟨g,hg,rfl⟩ := Option.map_eq_some_iff.mp h
    simp only [Registry.step] at hg
    split at hg
    · split at hg
      · cases hg
      · cases hg
        exact .enter ‹_› (Bool.eq_false_iff.mpr ‹_›) (looked ..)
    · cases hg
  | found t backend =>
    simp only [step] at h
    split at h
    · rename_i hc
      split at h
      · split at h
        · rename_i hcreate
          cases h
          exact .begin hc ‹_› (Pool.eq_blank_of_create hcreate).2 ⟨_,_,_,_,hcreate⟩
        · rename_i hcreate
          obtain ⟨g,hg,rfl⟩ := Option.map_eq_some_iff.mp h
          rw [Registry.step_created hc] at hg
          cases hg
          exact .fail hc ‹_› (Pool.fails_of_create hcreate)
      · cases h
    · cases h
  | shut t =>
    simp only [step] at h
    split at h
    · split at h
      · obtain ⟨p,hp,h⟩ := Option.bind_eq_some_iff.mp h
        obtain ⟨g,hg,rfl⟩ := Option.map_eq_some_iff.mp h
        exact .shut ‹_› ‹_› hp hg
      · cases h
    · cases h
  | leave t =>
    obtain ⟨g,hg,rfl⟩ := Option.map_eq_some_iff.mp h
    simp only [Registry.step] at hg
    split at hg
    · cases hg
      exact .leave ‹_›
    · cases hg
  | pool i e =>
    obtain ⟨p,hp,h⟩ := Option.bind_eq_some_iff.mp h
    split at h
    · exact transition_pool hp ‹_› h
    · cases h

end Estate
end PinnedPool
