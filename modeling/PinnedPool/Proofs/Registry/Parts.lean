import PinnedPool.Proofs.Pool.Answers
import PinnedPool.Proofs.Registry.Whereabouts

/-! # The part of each pool in a run of a registry

Each step that a registry and its pools take is at most one step of each pool. The steps of one pool
make up a run of it from the moment when it is begun, and nobody calls it before it stands, so what is
known of pools is known of those of a registry.
-/
namespace PinnedPool.Estate

variable {J V : Type}

/-- What the pool of this identity does at a moment. -/
def Moment.poolEvent? (i : Nat) (m : Moment J V) : Option (Pool.Event J V) :=
  match m.event with
  | .pool j e => if j = i then some e else none
  | .shut t =>
    match m.before.registry.callOf? t with
    | some (.stopping held) => if held.pool = i then some (.call t .shutdown) else none
    | _ => none
  | _ => none

/-- The moment of the pool of this identity, if it takes a step. -/
def Moment.ofPool? (i : Nat) (m : Moment J V) : Option (Pool.Moment J V) :=
  (m.poolEvent? i).bind fun e => (m.before.pools[i]?).bind fun p => (p.step e).map (⟨p,e,·⟩)

/-- The moments of the pool of this identity. -/
def poolMoments (i : Nat) (ms : List (Moment J V)) : List (Pool.Moment J V) :=
  ms.filterMap (Moment.ofPool? i)

theorem poolMoments_snoc (i : Nat) (ms : List (Moment J V)) (m : Moment J V) :
    poolMoments i (ms ++ [m]) = poolMoments i ms ++ (m.ofPool? i).toList := by
  rw [poolMoments, List.filterMap_append]
  exact congrArg _ (Pool.filterMap_singleton _ m)

theorem ofPool?_pool {s : Estate J V} {i : Nat} {p : Pool J V} {e : Pool.Event J V}
    {g : Pool.Effect J V} (hp : s.pools[i]? = some p) (hg : p.step e = some g) (f : Effect J V) :
    Moment.ofPool? i ⟨s,.pool i e,f⟩ = some ⟨p,e,g⟩ := by
  simp [Moment.ofPool?, Moment.poolEvent?, hp, hg]

/-- If a worker of a pool is asked for, the system answers as `refusal` says for that pool. -/
def Event.AnsweredBy (refusal : Nat → Nat → Option Os.Error) (s : Estate J V) : Event J V → Prop
  | .pool i e => ∀ p ∈ s.pools[i]?, e.AnsweredBy (refusal i) p
  | _ => True

def Moment.AnsweredBy (refusal : Nat → Nat → Option Os.Error) (m : Moment J V) : Prop :=
  m.event.AnsweredBy refusal m.before

instance (refusal : Nat → Nat → Option Os.Error) (s : Estate J V) :
    (e : Event J V) → Decidable (e.AnsweredBy refusal s)
  | .pool i e => inferInstanceAs (Decidable (∀ p ∈ s.pools[i]?, e.AnsweredBy (refusal i) p))
  | .ask _ _ | .enter _ | .found _ _ | .shut _ | .leave _ => inferInstanceAs (Decidable True)

instance (refusal : Nat → Nat → Option Os.Error) (m : Moment J V) :
    Decidable (m.AnsweredBy refusal) :=
  inferInstanceAs (Decidable (m.event.AnsweredBy refusal m.before))

/-- What a step of the registry and its pools is to the pool of identity `i`. -/
inductive Part (s : Estate J V) (e : Event J V) (f : Effect J V) (i : Nat) (p : Pool J V) : Prop
  | none (stays : f.estate.pools[i]? = some p) (part : Moment.ofPool? i ⟨s,e,f⟩ = none)
  | some {e' g} (step : p.step e' = some g) (goes : f.estate.pools[i]? = some g.pool)
      (part : Moment.ofPool? i ⟨s,e,f⟩ = some ⟨p,e',g⟩)
      (timely : e'.isCall = true → p.Standing) (harmless : e'.harmless = true)
      (answered : ∀ refusal, e.AnsweredBy refusal s → e'.AnsweredBy (refusal i) p)

section Step
variable {s : Estate J V} {e : Event J V} {f : Effect J V} (h : s.step e = some f)
include h

theorem Posted.part (hs : s.Posted) {i : Nat} {p : Pool J V} (hp : s.pools[i]? = some p) :
    Part s e f i p := by
  have hlt := (List.getElem?_eq_some_iff.mp hp).1
  have hpool : ∀ {j : Nat} {q : Pool J V} {e' : Pool.Event J V} {g : Pool.Effect J V}
      {r : Registry} {reply : Option Registry.Reply}, s.pools[j]? = some q →
      s.admits j q e' = true → q.step e' = some g →
        Part s (.pool j e') ⟨⟨r,s.pools.set j g.pool⟩,reply⟩ i p := by
    intro j q e' g r reply hq ha hg
    by_cases hj : j = i
    · subst hj
      rw [hp] at hq
      cases hq
      refine .some hg (List.getElem?_set_self hlt) (ofPool?_pool hp hg _) ?_
        (harmless_of_admits ha) ?_
      · intro hcall
        cases e' with
        | call t r => exact (stationed_of_admits ha t r rfl).1
        | spawn | notify | proceed | pin | claim | finish | stir | stirWaiter | free => cases hcall
      · exact fun refusal hanswered => hanswered p hp
    · refine .none ((List.getElem?_set_ne hj).trans hp) ?_
      simp [Moment.ofPool?, Moment.poolEvent?, hj]
  cases transition h with
  | ask | enter | fail | leave => exact .none hp rfl
  | begin => exact .none ((List.getElem?_append_left hlt).trans hp) rfl
  | pool hq ha hg => exact hpool hq ha hg
  | built hq ha hg => exact hpool hq ha hg
  | notBuilt hq ha hg | buildUnwound hq ha hg => exact hpool hq ha hg
  | stopped hq ha hg | stopUnwound hq ha hg => exact hpool hq ha hg
  | @shut t held q g hc hidle hq hg =>
    by_cases hj : held.pool = i
    · subst hj
      obtain ⟨q',hq',hstands,-⟩ := hs.taken t held hc
      rw [hp] at hq hq'
      cases hq
      cases hq'
      refine .some hg (List.getElem?_set_self hlt) ?_ (fun _ => hstands) rfl fun _ _ => trivial
      simp [Moment.ofPool?, Moment.poolEvent?, hc, hp, hg]
    · refine .none ((List.getElem?_set_ne hj).trans hp) ?_
      simp [Moment.ofPool?, Moment.poolEvent?, hc, hj]

/-- Where there is no pool yet, none takes a step, and one may be begun. -/
theorem unpooled_step {i : Nat} (hp : s.pools[i]? = none) : Moment.ofPool? i ⟨s,e,f⟩ = none ∧
    ∀ p, f.estate.pools[i]? = some p → ∃ n t, p = .blank i n t ∧ p.Fresh n := by
  constructor
  · simp [Moment.ofPool?, hp]
  · intro p hq
    have hset : ∀ {j : Nat} {q : Pool J V}, (s.pools.set j q)[i]? ≠ some p := by
      intro j q hq
      rw [List.getElem?_eq_none_iff] at hp
      rw [List.getElem?_eq_none (by simpa using hp)] at hq
      cases hq
    cases transition h with
    | ask | enter | fail | leave =>
      rw [hp] at hq
      cases hq
    | begin hc hidle heq hfresh =>
      rw [List.getElem?_append_right (List.getElem?_eq_none_iff.mp hp),
        List.getElem?_singleton] at hq
      split at hq
      · cases hq
        have hi : i = s.pools.length := by
          have hle := List.getElem?_eq_none_iff.mp hp
          omega
        exact ⟨_,_,hi ▸ heq,hfresh⟩
      · cases hq
    | shut | pool | built | notBuilt | buildUnwound | stopped | stopUnwound => exact absurd hq hset

end Step

/-- The pool of identity `i` has come about by the moments that are its own. -/
structure Own (i : Nat) (ms : List (Moment J V)) (n : Nat) (b : ThreadId) (p : Pool J V) : Prop where
  fresh : Pool.Fresh n (Pool.blank i n b : Pool J V)
  run : Pool.Run (Pool.blank i n b) (poolMoments i ms) p
  timely : ∀ m ∈ poolMoments i ms, m.Timely
  harmless : ∀ m ∈ poolMoments i ms, m.Harmless
  answered : ∀ refusal, (∀ m ∈ ms, m.AnsweredBy refusal) →
    ∀ m ∈ poolMoments i ms, m.AnsweredBy (refusal i)

/-- A pool that has just been begun has no moments of its own. -/
theorem own_blank {i n : Nat} {b : ThreadId} {ms : List (Moment J V)}
    (h₀ : Pool.Fresh n (Pool.blank i n b : Pool J V)) (hms : poolMoments i ms = []) :
    Own i ms n b (.blank i n b) where
  fresh := h₀
  run := hms ▸ .start
  timely := hms ▸ fun _ hm => nomatch hm
  harmless := hms ▸ fun _ hm => nomatch hm
  answered := hms ▸ fun _ _ _ hm => nomatch hm

theorem Own.step {i n : Nat} {b : ThreadId} {ms : List (Moment J V)} {s : Estate J V}
    {e : Event J V} {f : Effect J V} {p : Pool J V} (ho : Own i ms n b p) (hpart : Part s e f i p) :
    ∃ q, f.estate.pools[i]? = some q ∧ Own i (ms ++ [⟨s,e,f⟩]) n b q := by
  cases hpart with
  | none hstays hnone =>
    have hms : poolMoments i (ms ++ [⟨s,e,f⟩]) = poolMoments i ms := by
      rw [poolMoments_snoc, hnone]
      exact List.append_nil _
    refine ⟨p,hstays,ho.fresh,hms ▸ ho.run,hms ▸ ho.timely,hms ▸ ho.harmless,?_⟩
    intro refusal ha
    rw [hms]
    exact ho.answered refusal fun m hm => ha m (List.mem_append_left _ hm)
  | @some e' g hstep hgoes hsome htimely hharmless hanswered =>
    have hms : poolMoments i (ms ++ [⟨s,e,f⟩]) = poolMoments i ms ++ [⟨p,e',g⟩] := by
      rw [poolMoments_snoc, hsome]
      rfl
    refine ⟨g.pool,hgoes,ho.fresh,hms ▸ ho.run.step hstep,?_,?_,?_⟩
    · rw [hms]
      exact List.forall_mem_append.mpr ⟨ho.timely,List.forall_mem_singleton.mpr htimely⟩
    · rw [hms]
      exact List.forall_mem_append.mpr ⟨ho.harmless,List.forall_mem_singleton.mpr hharmless⟩
    · intro refusal ha
      rw [hms]
      intro m hm
      rcases List.mem_append.mp hm with hm | hm
      · exact ho.answered refusal (fun m hm => ha m (List.mem_append_left _ hm)) m hm
      · rw [List.mem_singleton.mp hm]
        exact hanswered refusal (ha ⟨s,e,f⟩ (List.mem_append_right _ (List.mem_singleton_self _)))

/-- Every pool has come about by its own moments, and before it is begun it has none. -/
theorem Run.own {s : Estate J V} {ms : List (Moment J V)} (hr : Run ms s) (i : Nat) :
    (s.pools[i]? = none → poolMoments i ms = []) ∧
      ∀ p, s.pools[i]? = some p → ∃ n b, Own i ms n b p := by
  induction hr with
  | start =>
    refine ⟨fun _ => rfl,?_⟩
    intro p hp
    cases hp
  | @step ms s e f hr h ih =>
    cases hp : s.pools[i]? with
    | none =>
      obtain ⟨hnone,hbegun⟩ := unpooled_step h hp
      have hms : poolMoments i (ms ++ [⟨s,e,f⟩]) = [] := by
        rw [poolMoments_snoc, ih.1 hp, hnone]
        rfl
      refine ⟨fun _ => hms,?_⟩
      intro p hq
      obtain ⟨n,b,rfl,hfresh⟩ := hbegun p hq
      exact ⟨n,b,own_blank hfresh hms⟩
    | some p =>
      obtain ⟨n,b,ho⟩ := ih.2 p hp
      obtain ⟨q,hq,ho'⟩ := ho.step (hr.posted.part h hp)
      rw [hq]
      refine ⟨nofun,?_⟩
      rintro q' ⟨⟩
      exact ⟨n,b,ho'⟩

end PinnedPool.Estate
