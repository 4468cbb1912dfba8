import PinnedPool.Proofs.Pool.Construction

/-! # What the system's answers make of a pool

The builder asks the system for one worker after the other, and the answers come in the order of the
workers. So the number of workers and the answers tell what the builder is told in the end, whatever
the workers do in the meantime.
-/
namespace PinnedPool.Pool

variable {J V : Type}

/-- If a worker is asked for, the system answers as `refusal` says. -/
def Event.AnsweredBy (refusal : Nat → Option Os.Error) (p : Pool J V) : Event J V → Prop
  | .spawn _ a => a = refusal p.workers.length
  | _ => True

def Moment.AnsweredBy (refusal : Nat → Option Os.Error) (m : Moment J V) : Prop :=
  m.event.AnsweredBy refusal m.before

instance (refusal : Nat → Option Os.Error) (p : Pool J V) :
    (e : Event J V) → Decidable (e.AnsweredBy refusal p)
  | .spawn _ a => inferInstanceAs (Decidable (a = _))
  | .call _ _ | .notify _ _ | .proceed _ | .pin _ _ | .claim _ | .finish _ _ _ | .stir _
  | .stirWaiter _ | .free => inferInstanceAs (Decidable True)

instance (refusal : Nat → Option Os.Error) (m : Moment J V) : Decidable (m.AnsweredBy refusal) :=
  inferInstanceAs (Decidable (m.event.AnsweredBy refusal m.before))

/-- What the request for a pool of `n` workers comes to. -/
def outcome (refusal : Nat → Option Os.Error) (n : Nat) : Except Failure Unit :=
  if n = 0 then .error (.refused .invalidThreadCount)
  else if handlesLimit < handleSize * n then .error (.unwound "capacity overflow")
  else
    match (List.range n).findSome? refusal with
    | some e => .error (.refused (.os e))
    | none => .ok ()

section Outcome
variable {refusal : Nat → Option Os.Error} {n : Nat}

theorem findSome?_range_of_granted (h : ∀ k < n, refusal k = none) :
    (List.range n).findSome? refusal = none :=
  List.findSome?_eq_none_iff.mpr fun k hk => h k (List.mem_range.mp hk)

theorem findSome?_range_of_first {k : Nat} {e : Os.Error} (hk : k < n) (he : refusal k = some e)
    (hfirst : ∀ i < k, refusal i = none) : (List.range n).findSome? refusal = some e := by
  refine List.findSome?_eq_some_iff.mpr ⟨List.range k,k,List.range' (k + 1) (n - (k + 1)),?_,he,?_⟩
  · have hrest : n - k = n - (k + 1) + 1 := by omega
    have hsplit : List.range' 0 k ++ List.range' (0 + k) (n - k) = List.range' 0 (k + (n - k)) :=
      List.range'_append_1
    rw [Nat.zero_add, Nat.add_sub_cancel' (Nat.le_of_lt hk)] at hsplit
    rw [← List.range'_succ, ← hrest, List.range_eq_range', List.range_eq_range', hsplit]
  · intro i hi
    exact hfirst i (List.mem_range.mp hi)

theorem outcome_of_feasible (h : Feasible n) : outcome refusal n =
    match (List.range n).findSome? refusal with
    | some e => .error (.refused (.os e))
    | none => .ok () := by
  unfold outcome
  rw [if_neg (Nat.ne_of_gt h.1), if_neg (Nat.not_lt.mpr h.2)]

theorem outcome_of_granted (h : Feasible n) (hall : ∀ k < n, refusal k = none) :
    outcome refusal n = .ok () := by
  rw [outcome_of_feasible h, findSome?_range_of_granted hall]

theorem outcome_of_refused (h : Feasible n) {k : Nat} {e : Os.Error} (hk : k < n)
    (he : refusal k = some e) (hfirst : ∀ i < k, refusal i = none) :
    outcome refusal n = .error (.refused (.os e)) := by
  rw [outcome_of_feasible h, findSome?_range_of_first hk he hfirst]

/-- A pool that cannot even be begun comes to this, whatever the system would answer. -/
theorem outcome_of_create {id : Nat} {backend : String} {t : ThreadId} {failure : Failure}
    {lines : List Log.Line} (h : (create id n backend t : Opening J V) = .failed failure lines)
    (refusal : Nat → Option Os.Error) : outcome refusal n = .error failure := by
  unfold create at h
  unfold outcome
  split at h
  · rw [if_pos ‹_›]
    cases h
    rfl
  · rw [if_neg ‹_›]
    split at h
    · rw [if_pos ‹_›]
      cases h
      rfl
    · cases h

/-- No list of join handles holds so many of them. -/
theorem overflow_iff : handlesLimit < handleSize * n ↔ 384307168202282326 ≤ n := by
  have hlimit : handlesLimit = 9223372036854775807 := by decide
  rw [hlimit, handleSize]
  omega

theorem unwound_iff : (∃ message, outcome refusal n = .error (.unwound message)) ↔
    384307168202282326 ≤ n := by
  rw [← overflow_iff]
  unfold outcome
  split
  · subst n
    simp
  · split
    · simp [*]
    · split <;> simp [*]

end Outcome

theorem call_of_spawn {p : Pool J V} {t : ThreadId} {refusal : Option Os.Error} {f : Effect J V}
    (h : p.step (.spawn t refusal) = some f) : p.callOf? t = some .build := by
  cases transition h <;> assumption

section Runs
variable {id n : Nat} {b : ThreadId} {p : Pool J V} {ms : List (Moment J V)}
  (h₀ : Fresh n (blank id n b : Pool J V)) (hr : Run (blank id n b) ms p)
  (ht : ∀ m ∈ ms, m.Timely) (hh : ∀ m ∈ ms, m.Harmless)
include h₀ hr ht hh

/-- Whoever builds the pool is the one who has begun it, and has not been told anything. -/
theorem Run.builder {t : ThreadId} {c : Call J} (hc : p.callOf? t = some c)
    (hb : c.builds = true) : t = b ∧ verdicts ms = [] := by
  have hres := hr.reserved h₀ ht
  cases hr.construction h₀.eq_blank.1 h₀ ht hh with
  | building call _ _ untold => exact ⟨hres.alone call rfl hc,untold⟩
  | failing call retreat _ _ untold => exact ⟨hres.alone call retreat.builds hc,untold⟩
  | stands full =>
    have hshort := hres.not_standing hc hb
    unfold Standing at hshort
    rw [hr.threads_eq h₀] at hshort
    omega
  | failed gone =>
    rw [gone.2 t c hc] at hb
    cases hb

/-- Whoever asks for the next worker has got as many as there are answers. -/
theorem Run.length_answers {t : ThreadId} (hc : p.callOf? t = some .build) :
    (answers ms).length = p.workers.length := by
  obtain ⟨rfl,huntold⟩ := hr.builder h₀ ht hh hc rfl
  cases hr.construction h₀.eq_blank.1 h₀ ht hh with
  | building _ _ answered => rw [answered, List.length_replicate]
  | failing call retreat =>
    rw [hc] at call
    cases call
    cases retreat
  | stands _ _ told | failed _ _ _ told =>
    rw [huntold] at told
    cases told

variable {refusal : Nat → Option Os.Error} (ha : ∀ m ∈ ms, m.AnsweredBy refusal)
include ha

/-- The builder asks for one worker after the other, and the system's answers come in this order. -/
theorem Run.answers_eq : answers ms = (List.range (answers ms).length).map refusal := by
  induction hr with
  | start => rfl
  | @step ms p e f hr h ih =>
    have ht' := fun m hm => ht m (List.mem_append_left _ hm)
    have hh' := fun m hm => hh m (List.mem_append_left _ hm)
    have ih := ih ht' hh' fun m hm => ha m (List.mem_append_left _ hm)
    have hlast : e.AnsweredBy refusal p :=
      ha ⟨p,e,f⟩ (List.mem_append_right _ (List.mem_singleton_self _))
    rw [answers_snoc]
    cases e with
    | spawn t a =>
      obtain rfl : a = refusal p.workers.length := hlast
      rw [ih, hr.length_answers h₀ ht' hh' (call_of_spawn h)]
      simp [Moment.answer?, List.range_succ]
    | call | notify | proceed | pin | claim | finish | stir | stirWaiter | free =>
      rw [ih]
      simp [Moment.answer?]

theorem Run.refusal_eq {k : Nat} {a : Option Os.Error} (h : (answers ms)[k]? = some a) :
    refusal k = a := by
  have hlt := (List.getElem?_eq_some_iff.mp h).1
  rw [hr.answers_eq h₀ ht hh ha, List.getElem?_map, List.getElem?_range hlt] at h
  exact Option.some.inj h

theorem Run.granted (hfull : p.workers.length = n) : ∀ k < n, refusal k = none := by
  intro k hk
  refine hr.refusal_eq h₀ ht hh ha ?_
  cases hr.construction h₀.eq_blank.1 h₀ ht hh with
  | building _ short | failing _ _ short | failed _ short => omega
  | stands _ answered =>
    rw [answered]
    exact List.getElem?_replicate_of_lt hk

/-- The builder is told of the first refusal. -/
theorem Run.refused {e : Os.Error} (htold : .error (.refused (.os e)) ∈ verdicts ms) :
    ∃ k < n, refusal k = some e ∧ ∀ i < k, refusal i = none := by
  cases hr.construction h₀.eq_blank.1 h₀ ht hh with
  | building _ _ _ untold | failing _ _ _ _ untold =>
    rw [untold] at htold
    cases htold
  | stands _ _ told =>
    rw [told] at htold
    simp at htold
  | failed _ short answered told =>
    rw [told] at htold
    simp only [List.mem_singleton, Except.error.injEq, Failure.refused.injEq,
      PoolError.os.injEq] at htold
    subst htold
    refine ⟨p.workers.length,short,hr.refusal_eq h₀ ht hh ha ?_,fun i hi => ?_⟩
    · rw [answered]
      simp
    · refine hr.refusal_eq h₀ ht hh ha ?_
      rw [answered, List.getElem?_append_left (by simpa using hi)]
      exact List.getElem?_replicate_of_lt hi

/-- The builder is told what the pool has come to, and nothing else. -/
theorem Run.told_outcome (htold : verdicts ms ≠ []) : verdicts ms = [outcome refusal n] ∧
    (outcome refusal n = .ok () → p.workers.length = n) := by
  cases hr.construction h₀.eq_blank.1 h₀ ht hh with
  | building _ _ _ untold | failing _ _ _ _ untold => exact absurd untold htold
  | stands full _ told =>
    have hall := hr.granted h₀ ht hh ha full
    rw [told, outcome_of_granted h₀.feasible hall]
    exact ⟨rfl,fun _ => full⟩
  | failed _ _ _ told =>
    obtain ⟨k,hk,he,hfirst⟩ := hr.refused h₀ ht hh ha (told ▸ List.mem_singleton_self _)
    rw [told, outcome_of_refused h₀.feasible hk he hfirst]
    exact ⟨rfl,nofun⟩

omit ha

theorem Run.builds_of_untold (huntold : verdicts ms = []) :
    ∃ c, p.callOf? b = some c ∧ c.builds = true := by
  cases hr.construction h₀.eq_blank.1 h₀ ht hh with
  | building call => exact ⟨_,call,rfl⟩
  | failing call retreat => exact ⟨_,call,retreat.builds⟩
  | stands _ _ told | failed _ _ _ told =>
    rw [huntold] at told
    cases told

/-- As long as the builder is not told, somebody can go on, whatever the system answers next, and
there are not many steps left. -/
theorem Run.untold (huntold : verdicts ms = []) (refusal : Nat → Option Os.Error) :
    (∃ e f, e.isProgress = true ∧ e.AnsweredBy refusal p ∧ p.step e = some f) ∧
      ms.length ≤ 6 * n + 4 + 2 * stirs ms := by
  obtain ⟨c,hc,hb⟩ := hr.builds_of_untold h₀ ht hh huntold
  constructor
  · by_cases hbuild : c = .build
    · subst hbuild
      have hspawn : p.step (.spawn b (refusal p.workers.length)) =
          some (p.spawn b (refusal p.workers.length)) := by
        simp only [Pool.step, hc]
      exact ⟨.spawn b _,_,rfl,rfl,hspawn⟩
    · obtain ⟨e,f,he,h⟩ := hr.not_stuck h₀ ht hc hb
      refine ⟨e,f,he,?_,h⟩
      cases e with
      | spawn t a =>
        -- nobody else could ask for a worker
        have hspawn := call_of_spawn h
        obtain rfl := (hr.reserved h₀ ht).alone hc hb hspawn
        rw [hc] at hspawn
        cases hspawn
        exact absurd rfl hbuild
      | call | notify | proceed | pin | claim | finish | stir | stirWaiter | free => trivial
  · have hle := hr.effort_le h₀ ht hc hb
    omega

end Runs

end PinnedPool.Pool
