import PinnedPool.Proofs.Pool.Calls
import PinnedPool.Proofs.Pool.Transition

/-! # Runs of a pool

A run is one interleaving of the threads' steps, kept as the list of its moments, the oldest first.
The submissions, claims and completions of a run are read off its moments, so a law about them
speaks of what has happened and not only of the state that is left.
-/
namespace PinnedPool

variable {J V : Type}

/-- The number of the submission that a call has made and not yet returned. -/
def Call.number? : Call J → Option Nat
  | notify seq => some seq
  | _ => none

def Worker.task? : Worker J → Option (Task J)
  | running task _ => some task
  | _ => none

namespace Pool

structure Moment (J V : Type) where
  before : Pool J V
  event : Event J V
  effect : Effect J V

/-- The steps `ms` lead from `p₀` to a pool, whichever threads took them. -/
inductive Run (p₀ : Pool J V) : List (Moment J V) → Pool J V → Prop
  | start : Run p₀ [] p₀
  | step {ms p e f} : Run p₀ ms p → p.step e = some f → Run p₀ (ms ++ [⟨p,e,f⟩]) f.pool

/-- A pool that is to have `n` workers, none of which is started yet. -/
def Fresh (n : Nat) (p : Pool J V) : Prop :=
  ∃ id backend t lines, create id n backend t = .begun p lines

theorem eq_blank_of_create {id n : Nat} {backend : String} {t : ThreadId} {p : Pool J V}
    {lines : List Log.Line} (h : create id n backend t = .begun p lines) :
    0 < n ∧ p = blank id n t := by
  unfold create at h
  split at h
  · cases h
  · split at h
    · cases h
    · cases h
      exact ⟨by omega,rfl⟩

theorem Fresh.eq_blank {n : Nat} {p : Pool J V} (h : Fresh n p) :
    0 < n ∧ ∃ id t, p = blank id n t := by
  obtain ⟨id,backend,t,lines,h⟩ := h
  obtain ⟨hn,rfl⟩ := eq_blank_of_create h
  exact ⟨hn,id,t,rfl⟩

theorem Run.trans {p q r : Pool J V} {ms ns : List (Moment J V)} (hp : Run p ms q)
    (hq : Run q ns r) : Run p (ms ++ ns) r := by
  induction hq with
  | start => simpa using hp
  | step _ hs ih => simpa only [List.append_assoc] using ih.step hs

theorem Run.cons {p q : Pool J V} {e : Event J V} {f : Effect J V} {ms : List (Moment J V)}
    (hs : p.step e = some f) (hr : Run f.pool ms q) : Run p (⟨p,e,f⟩ :: ms) q :=
  (Run.step .start hs).trans hr

/-- What every step keeps whose moment is of a kind, a run of such moments keeps. The step may rely
on what is known of all these runs. -/
theorem Run.invariant_under {I K : Pool J V → Prop} {G : Moment J V → Prop} {p₀ p : Pool J V}
    {ms : List (Moment J V)} (hr : Run p₀ ms p) (hg : ∀ m ∈ ms, G m)
    (hk : ∀ {ms p}, Run p₀ ms p → (∀ m ∈ ms, G m) → K p) (h₀ : I p₀)
    (hs : ∀ {p e f}, p.step e = some f → G ⟨p,e,f⟩ → K p → I p → I f.pool) : I p := by
  induction hr with
  | start => exact h₀
  | step hr h ih =>
    have hg' := fun m hm => hg m (List.mem_append_left _ hm)
    have hlast := hg _ (List.mem_append_right _ (List.mem_singleton_self _))
    exact hs h hlast (hk hr hg') (ih hg')

theorem Run.invariant_of {I : Pool J V → Prop} {G : Moment J V → Prop} {p₀ p : Pool J V}
    {ms : List (Moment J V)} (hr : Run p₀ ms p) (hg : ∀ m ∈ ms, G m) (h₀ : I p₀)
    (hs : ∀ {p e f}, p.step e = some f → G ⟨p,e,f⟩ → I p → I f.pool) : I p :=
  hr.invariant_under (K := fun _ => True) hg (fun _ _ => trivial) h₀ fun h hlast _ => hs h hlast

theorem Run.invariant {I : Pool J V → Prop} {p₀ p : Pool J V} {ms : List (Moment J V)}
    (hr : Run p₀ ms p) (h₀ : I p₀)
    (hs : ∀ {p e f}, p.step e = some f → I p → I f.pool) : I p :=
  hr.invariant_of (G := fun _ => True) (fun _ _ => trivial) h₀ fun h _ => hs h

theorem Run.step_of_mem {p₀ p : Pool J V} {ms : List (Moment J V)} (hr : Run p₀ ms p)
    {m : Moment J V} (hm : m ∈ ms) : m.before.step m.event = some m.effect := by
  induction hr with
  | start => cases hm
  | step _ hs ih =>
    rcases List.mem_append.mp hm with hm | hm
    · exact ih hm
    · rw [List.mem_singleton.mp hm]
      exact hs

/-- What every step of a schedule keeps, the whole schedule keeps. -/
theorem foldlM_keeps {A B : Type} {P : A → Prop} {step : A → B → Option A}
    (hs : ∀ {a b a'}, P a → step a b = some a' → P a') {bs : List B} {a a' : A} (ha : P a)
    (h : bs.foldlM step a = some a') : P a' := by
  induction bs generalizing a with
  | nil =>
    cases h
    exact ha
  | cons b bs ih =>
    rw [List.foldlM_cons] at h
    obtain ⟨c,hc,h⟩ := Option.bind_eq_some_iff.mp h
    exact ih (hs ha hc) h

/-- The moments of the steps that a schedule takes, and the pool after them. -/
def replay (p : Pool J V) : List (Event J V) → Option (List (Moment J V) × Pool J V)
  | [] => some ([], p)
  | e :: es => (p.step e).bind fun f => (f.pool.replay es).map fun r => (⟨p,e,f⟩ :: r.1, r.2)

theorem run_of_replay {p : Pool J V} {es : List (Event J V)} {r : List (Moment J V) × Pool J V}
    (h : p.replay es = some r) : Run p r.1 r.2 := by
  induction es generalizing p r with
  | nil =>
    cases h
    exact .start
  | cons e es ih =>
    obtain ⟨f,hf,h⟩ := Option.bind_eq_some_iff.mp h
    obtain ⟨r,hr,rfl⟩ := Option.map_eq_some_iff.mp h
    exact .cons hf (ih hr)

/-- The schedule can be taken, and `P` holds of its moments and of the pool after them. -/
def Leads (p : Pool J V) (es : List (Event J V)) (P : List (Moment J V) → Pool J V → Prop) : Prop :=
  ∃ r ∈ p.replay es, P r.1 r.2

instance (p : Pool J V) (es : List (Event J V)) (P : List (Moment J V) → Pool J V → Prop)
    [∀ ms q, Decidable (P ms q)] : Decidable (p.Leads es P) :=
  match h : p.replay es with
  | some r => decidable_of_iff (P r.1 r.2) (by simp [Leads, h])
  | none => .isFalse (by simp [Leads, h])

theorem Leads.run {p : Pool J V} {es : List (Event J V)}
    {P : List (Moment J V) → Pool J V → Prop} (h : p.Leads es P) : ∃ ms q, Run p ms q ∧ P ms q := by
  obtain ⟨r,hr,h⟩ := h
  exact ⟨r.1,r.2,run_of_replay hr,h⟩

/-! ## What has happened -/

/-- A submission at the moment that decides about it, and its number if it is accepted. -/
structure Submission (J : Type) where
  thread : ThreadId
  job : J
  watched : Bool
  seq? : Option Nat
deriving DecidableEq, Repr

/-- The task that an accepted submission puts into the queue. -/
def Submission.task? (s : Submission J) : Option (Task J) := s.seq?.map (⟨·, s.job, s.watched⟩)

structure Claim (J : Type) where
  worker : Nat
  task : Task J
  ticket : Ticket
deriving DecidableEq, Repr

structure Completion (J V : Type) where
  worker : Nat
  task : Task J
  ending : Ending V
  /-- Whether the handle of the task was still there. -/
  heard : Bool
deriving DecidableEq, Repr

def number? (p : Pool J V) (t : ThreadId) : Option Nat := (p.callOf? t).bind Call.number?

namespace Moment

def submission? (m : Moment J V) : Option (Submission J) :=
  match m.event with
  | .proceed t =>
    match m.before.callOf? t with
    | some (.append job watched) => some ⟨t, job, watched, m.effect.pool.number? t⟩
    | _ => none
  | _ => none

def accepted? (m : Moment J V) : Option (Task J) := m.submission?.bind Submission.task?

def claim? (m : Moment J V) : Option (Claim J) :=
  match m.event with
  | .claim w =>
    match m.effect.pool.workers[w]? with
    | some (.running task ticket) => some ⟨w, task, ticket⟩
    | _ => none
  | _ => none

def completion? (m : Moment J V) : Option (Completion J V) :=
  match m.event with
  | .finish w e heard =>
    match m.before.workers[w]? with
    | some (.running task _) => some ⟨w, task, e, heard⟩
    | _ => none
  | _ => none

end Moment

/-- The submissions of a run, in the order in which they were decided. -/
def submissions (ms : List (Moment J V)) : List (Submission J) := ms.filterMap Moment.submission?

def accepted (ms : List (Moment J V)) : List (Task J) := ms.filterMap Moment.accepted?

def claims (ms : List (Moment J V)) : List (Claim J) := ms.filterMap Moment.claim?

def completions (ms : List (Moment J V)) : List (Completion J V) :=
  ms.filterMap Moment.completion?

theorem filterMap_singleton {A B : Type} (g : A → Option B) (a : A) :
    [a].filterMap g = (g a).toList := by
  cases h : g a <;> simp [h]

section Append
variable (ms ns : List (Moment J V)) (m : Moment J V)

theorem submissions_append : submissions (ms ++ ns) = submissions ms ++ submissions ns :=
  List.filterMap_append

theorem submissions_snoc : submissions (ms ++ [m]) = submissions ms ++ m.submission?.toList := by
  rw [submissions_append]
  exact congrArg _ (filterMap_singleton _ m)

theorem accepted_append : accepted (ms ++ ns) = accepted ms ++ accepted ns :=
  List.filterMap_append

theorem accepted_snoc : accepted (ms ++ [m]) = accepted ms ++ m.accepted?.toList := by
  rw [accepted_append]
  exact congrArg _ (filterMap_singleton _ m)

theorem claims_append : claims (ms ++ ns) = claims ms ++ claims ns := List.filterMap_append

theorem claims_snoc : claims (ms ++ [m]) = claims ms ++ m.claim?.toList := by
  rw [claims_append]
  exact congrArg _ (filterMap_singleton _ m)

theorem completions_snoc : completions (ms ++ [m]) = completions ms ++ m.completion?.toList := by
  rw [completions, List.filterMap_append]
  exact congrArg _ (filterMap_singleton _ m)

theorem accepted_eq_filterMap : accepted ms = (submissions ms).filterMap Submission.task? :=
  List.filterMap_filterMap.symm

end Append

end Pool
end PinnedPool
