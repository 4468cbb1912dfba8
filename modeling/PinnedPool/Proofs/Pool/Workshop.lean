import PinnedPool.Proofs.Pool.Work

/-! # Jobs with bodies

The bodies of the jobs work on a state that they share. A body begins when a worker takes its task,
takes its steps while the other threads take theirs, and ends in the way that the worker reports.
-/
namespace PinnedPool

variable {S J V : Type}

/-- A body goes step by step, and each step sees the state as it is at that moment. -/
inductive Body (S V : Type) where
  | stop (e : Ending V)
  | act (next : S → S) (rest : S → Body S V)

/-- The state that a body leaves behind when nobody else touches it, and how the body ends. -/
def Body.run : Body S V → S → S × Ending V
  | stop e, s => (s,e)
  | act next rest, s => (rest s).run (next s)

/-- The bodies of some tasks one after the other: the state that they leave behind, and how each of
them ends. -/
def inTurn (body : J → Body S V) : S → List (Task J) → S × List (Task J × Ending V)
  | s, [] => (s,[])
  | s, t :: ts =>
    let after := inTurn body ((body t.job).run s).1 ts
    (after.1,(t,((body t.job).run s).2) :: after.2)

theorem inTurn_append (body : J → Body S V) (s : S) (ts us : List (Task J)) :
    inTurn body s (ts ++ us) =
      ((inTurn body (inTurn body s ts).1 us).1,
        (inTurn body s ts).2 ++ (inTurn body (inTurn body s ts).1 us).2) := by
  induction ts generalizing s with
  | nil => rfl
  | cons t ts ih => simp only [List.cons_append, inTurn, ih]

/-- A pool, the state that the bodies share, and what is left of the body that a worker is running. -/
structure Workshop (S J V : Type) where
  pool : Pool J V
  state : S
  rest? : Nat → Option (Body S V)

namespace Workshop

def opened (p : Pool J V) (s : S) : Workshop S J V := ⟨p,s,fun _ => none⟩

def setRest (x : Workshop S J V) (w : Nat) (b : Option (Body S V)) : Workshop S J V :=
  { x with rest? := fun v => if v = w then b else x.rest? v }

section SetRest
variable (x : Workshop S J V) {v w : Nat} (b : Option (Body S V))

theorem rest?_setRest_self : (x.setRest w b).rest? w = b := if_pos rfl

variable {x b}

theorem rest?_setRest_ne (h : v ≠ w) : (x.setRest w b).rest? v = x.rest? v := if_neg h

end SetRest

/-- The pool has moved on to `p`, where a worker has taken a task or found none. -/
def begin (body : J → Body S V) (x : Workshop S J V) (p : Pool J V) (w : Nat) : Workshop S J V :=
  { x with pool := p }.setRest w ((p.taskOf w).map fun task : Task J => body task.job)

inductive Event (J V : Type) where
  /-- A step of the pool. -/
  | pool (e : Pool.Event J V)
  /-- The next step of the body that a worker is running, or the end of it, while the task's handle is
  there or not. -/
  | work (w : Nat) (heard : Bool := true)

/-- The workshop after a step, and the pool's part in it if it had one. -/
structure Effect (S J V : Type) where
  shop : Workshop S J V
  moment? : Option (Pool.Moment J V)

/-- A step of the pool; a worker that takes a task begins its body. -/
def stepPool (body : J → Body S V) (x : Workshop S J V) (e : Pool.Event J V) :
    Option (Effect S J V) :=
  (x.pool.step e).map fun f =>
    ⟨match e with
      | .claim w => x.begin body f.pool w
      | _ => { x with pool := f.pool },some ⟨x.pool,e,f⟩⟩

def step (body : J → Body S V) (x : Workshop S J V) : Event J V → Option (Effect S J V)
  | .pool (.finish _ _ _) => none
  | .pool e => x.stepPool body e
  | .work w heard =>
    match x.rest? w with
    | none => none
    | some (.act next rest) =>
      some ⟨{ x with state := next x.state }.setRest w (some (rest x.state)),none⟩
    | some (.stop e) =>
      (x.pool.step (.finish w e heard)).map fun f =>
        ⟨{ x with pool := f.pool }.setRest w none,some ⟨x.pool,.finish w e heard,f⟩⟩

/-- The steps that lead from one workshop to another; `ms` are those of the pool. -/
inductive Run (body : J → Body S V) (x₀ : Workshop S J V) :
    List (Pool.Moment J V) → Workshop S J V → Prop
  | start : Run body x₀ [] x₀
  | step {ms x e f} : Run body x₀ ms x → x.step body e = some f →
    Run body x₀ (ms ++ f.moment?.toList) f.shop

/-- A step of a workshop together with what has happened to its pool so far. -/
def go (body : J → Body S V) (r : List (Pool.Moment J V) × Workshop S J V) (e : Event J V) :
    Option (List (Pool.Moment J V) × Workshop S J V) :=
  (r.2.step body e).map fun f => (r.1 ++ f.moment?.toList,f.shop)

theorem run_of_go {body : J → Body S V} {x : Workshop S J V} {es : List (Event J V)}
    {r : List (Pool.Moment J V) × Workshop S J V} (h : es.foldlM (go body) ([],x) = some r) :
    Run body x r.1 r.2 := by
  refine Pool.foldlM_keeps (P := fun r => Run body x r.1 r.2) ?_ .start h
  intro r e r' hr he
  obtain ⟨f,hf,rfl⟩ := Option.map_eq_some_iff.mp he
  exact hr.step hf

inductive Transition (body : J → Body S V) (x : Workshop S J V) : Effect S J V → Prop
  | acted {w next rest} (left : x.rest? w = some (.act next rest)) :
    Transition body x ⟨{ x with state := next x.state }.setRest w (some (rest x.state)),none⟩
  | stopped {w e heard f} (left : x.rest? w = some (.stop e))
      (step : x.pool.step (.finish w e heard) = some f) :
    Transition body x ⟨{ x with pool := f.pool }.setRest w none,some ⟨x.pool,.finish w e heard,f⟩⟩
  | claimed {w f} (step : x.pool.step (.claim w) = some f) :
    Transition body x ⟨x.begin body f.pool w,some ⟨x.pool,.claim w,f⟩⟩
  | other {e f} (step : x.pool.step e = some f) (claim : Pool.Moment.claim? ⟨x.pool,e,f⟩ = none)
      (completion : Pool.Moment.completion? ⟨x.pool,e,f⟩ = none) :
    Transition body x ⟨{ x with pool := f.pool },some ⟨x.pool,e,f⟩⟩

theorem transition {body : J → Body S V} {x : Workshop S J V} {e : Event J V} {f : Effect S J V}
    (h : x.step body e = some f) : Transition body x f := by
  cases e with
  | pool e =>
    cases e with
    | finish => cases h
    | claim w =>
      obtain ⟨g,hg,rfl⟩ := Option.map_eq_some_iff.mp h
      exact .claimed hg
    | call | spawn | notify | proceed | pin | stir | stirWaiter | free =>
      obtain ⟨g,hg,rfl⟩ := Option.map_eq_some_iff.mp h
      exact .other hg rfl rfl
  | work w heard =>
    simp only [step] at h
    split at h
    · cases h
    · cases h
      exact .acted ‹_›
    · obtain ⟨g,hg,rfl⟩ := Option.map_eq_some_iff.mp h
      exact .stopped ‹_› hg

theorem Run.pool {body : J → Body S V} {p₀ : Pool J V} {s₀ : S} {ms : List (Pool.Moment J V)}
    {x : Workshop S J V} (hr : Run body (.opened p₀ s₀) ms x) : Pool.Run p₀ ms x.pool := by
  induction hr with
  | start => exact .start
  | step _ h ih =>
    cases transition h with
    | acted =>
      rw [Option.toList_none, List.append_nil]
      exact ih
    | stopped _ hstep | claimed hstep | other hstep => exact ih.step hstep

end Workshop

end PinnedPool
