import PinnedPool.Proofs.Registry.Estate

/-! # Cells and histories

A cell is what a registry is for a caller: it is empty or holds one pool, and serves one call after
the other. A history is what the callers see of a registry, the beginnings and ends of all calls.
-/
namespace PinnedPool.Registry

def Reply.isFailure : Reply → Bool
  | failed _ => true
  | _ => false

/-- What a shutdown answers, depending on the panic in which it ends if it does. -/
def Reply.quit : Option Payload → Reply
  | .none => .done
  | some p => .unwound p

/-- The slot, and all pools that have ever been in it. -/
structure Cell where
  slot : Option Held
  past : List Held

namespace Cell

def empty : Cell := ⟨none,[]⟩

/-- A call of the registry as one step. -/
inductive Serves (c : Cell) : Request → Reply → Cell → Prop
  | found {q held} (stays : q ≠ .shutdown) (slot : c.slot = some held) : Serves c q (.pool held) c
  | nothing (slot : c.slot = none) : Serves c .get .none c
  | created {q n i} (wanted : q.wanted? = some n) (slot : c.slot = none)
      (feasible : Pool.Feasible n) (new : ∀ held ∈ c.past, held.pool ≠ i) :
    Serves c q (.pool ⟨i,n⟩) ⟨some ⟨i,n⟩,⟨i,n⟩ :: c.past⟩
  | failed {q n f} (wanted : q.wanted? = some n) (slot : c.slot = none) (fails : Pool.Fails n f) :
    Serves c q (.failed f) c
  | shutdown : Serves c .shutdown .done { c with slot := none }
  | burst {held p} (slot : c.slot = some held) :
    Serves c .shutdown (.unwound p) { c with slot := none }

/-- Calls that are served one after the other, each with its answer. -/
inductive Serial (c : Cell) : List (Request × Reply) → Cell → Prop
  | start : Serial c [] c
  | serve {l d q r e} : Serial c l d → d.Serves q r e → Serial c (l ++ [(q,r)]) e

variable {c d : Cell} {q : Request} {r : Reply} {held : Held}

theorem Serves.quit (hc : c.slot = some held) (panic : Option Payload) :
    c.Serves .shutdown (.quit panic) { c with slot := none } := by
  cases panic with
  | none => exact .shutdown
  | some => exact .burst hc

theorem Serves.slot_of_pool (h : c.Serves q (.pool held) d) : d.slot = some held := by
  cases h with
  | found _ hslot => exact hslot
  | created => rfl

theorem Serves.of_slot (h : c.Serves q r d) (hc : c.slot = some held) (hq : q ≠ .shutdown) :
    r = .pool held ∧ d.slot = some held := by
  cases h with
  | found _ hslot =>
    rw [hc] at hslot
    cases hslot
    exact ⟨rfl,hc⟩
  | nothing hslot | created _ hslot | failed _ hslot =>
    rw [hc] at hslot
    cases hslot
  | shutdown | burst => exact absurd rfl hq

/-- What is in the slot has been put into it, and so has every pool that is handed out. -/
theorem Serves.past (h : c.Serves q r d) (hc : ∀ held, c.slot = some held → held ∈ c.past) :
    (∀ held ∈ c.past, held ∈ d.past) ∧ (∀ held, d.slot = some held → held ∈ d.past) ∧
      ∀ held, r = .pool held → held ∈ d.past := by
  cases h with
  | @found _ held _ hslot =>
    refine ⟨fun _ => id,hc,?_⟩
    rintro held' ⟨⟩
    exact hc held hslot
  | nothing | failed => exact ⟨fun _ => id,hc,nofun⟩
  | created =>
    refine ⟨fun _ => List.mem_cons_of_mem _,?_,?_⟩
    · rintro held ⟨⟩
      exact List.mem_cons_self
    · rintro held ⟨⟩
      exact List.mem_cons_self
  | shutdown | burst => exact ⟨fun _ => id,nofun,nofun⟩

theorem Serves.eq_of_failure (h : c.Serves q r d) (hr : r.isFailure = true) : d = c := by
  cases h with
  | failed => rfl
  | found | nothing | created | shutdown | burst => cases hr

theorem Serial.past {l : List (Request × Reply)} (h : c.Serial l d)
    (hc : ∀ held, c.slot = some held → held ∈ c.past) :
    (∀ held, d.slot = some held → held ∈ d.past) ∧
      ∀ q held, (q,.pool held) ∈ l → held ∈ d.past := by
  induction h with
  | start => exact ⟨hc,nofun⟩
  | @serve l d q r e _ hserve ih =>
    obtain ⟨hslot,hl⟩ := ih
    obtain ⟨hkept,hslot',hr⟩ := hserve.past hslot
    refine ⟨hslot',?_⟩
    intro q' held hmem
    rcases List.mem_append.mp hmem with hold | hnew
    · exact hkept held (hl q' held hold)
    · cases List.mem_singleton.mp hnew
      exact hr held rfl

/-- Once a call has been given a pool, all that follow are given the same one until a shutdown. -/
theorem Serial.shared {l : List (Request × Reply)} (h : c.Serial l d)
    {a b : List (Request × Reply)} (hl : l = a ++ (q,.pool held) :: b)
    (hb : ∀ x ∈ b, x.1 ≠ .shutdown) : (∀ x ∈ b, x.2 = .pool held) ∧ d.slot = some held := by
  induction h generalizing b with
  | start => simp at hl
  | @serve l d q' r e hl' hserve ih =>
    -- the last call is the one that was given the pool, or one of those that follow
    rcases List.eq_nil_or_concat b with rfl | ⟨b,x,rfl⟩
    · obtain ⟨-,h⟩ := List.append_inj' hl rfl
      cases h
      refine ⟨?_,hserve.slot_of_pool⟩
      intro x hx
      cases hx
    · rw [List.concat_eq_append, ← List.cons_append, ← List.append_assoc] at hl
      obtain ⟨rfl,h⟩ := List.append_inj' hl rfl
      cases h
      simp only [List.concat_eq_append, List.mem_append, List.mem_singleton] at hb ⊢
      obtain ⟨hall,hd⟩ := ih rfl fun x hx => hb x (.inl hx)
      obtain ⟨hr,he⟩ := hserve.of_slot hd (hb _ (.inr rfl))
      refine ⟨?_,he⟩
      rintro x (hx | rfl)
      · exact hall x hx
      · exact hr

/-- The calls that failed might as well not have been made. -/
theorem Serial.forget {l : List (Request × Reply)} (h : c.Serial l d) :
    c.Serial (l.filter fun x => !x.2.isFailure) d := by
  induction h with
  | start => exact .start
  | @serve l d q r e hl hserve ih =>
    rw [List.filter_append, List.filter_singleton]
    by_cases hr : r.isFailure = true
    · have heq := hserve.eq_of_failure hr
      simpa [hr, heq] using ih
    · simpa [hr] using ih.serve hserve

end Cell

/-! ## Histories -/

/-- A thread enters a call, the call is served, or it returns. -/
inductive Mark where
  | asked (t : ThreadId) (q : Request)
  | served (t : ThreadId) (q : Request) (r : Reply)
  | answered (t : ThreadId) (r : Reply)
deriving DecidableEq

def Mark.thread : Mark → ThreadId
  | asked t _ | served t _ _ | answered t _ => t

def Mark.service? : Mark → Option (Request × Reply)
  | served _ q r => some (q,r)
  | _ => none

def services (marks : List Mark) : List (Request × Reply) := marks.filterMap Mark.service?

theorem services_snoc (marks : List Mark) (m : Mark) :
    services (marks ++ [m]) = services marks ++ m.service?.toList := by
  rw [services, List.filterMap_append]
  exact congrArg _ (Pool.filterMap_singleton _ m)

/-- How far a thread has come with its marks. -/
inductive Stage where
  | out
  | waiting (q : Request)
  | done (r : Reply)

/-- What a thread is asked, is served and is answered follow each other. -/
def Stage.next : Stage → Mark → Option Stage
  | out, .asked _ q => some (waiting q)
  | waiting q, .served _ q' r => if q = q' then some (done r) else none
  | done r, .answered _ r' => if r = r' then some out else none
  | _, _ => none

/-- How far the thread has come, if its marks are in order. -/
def stage? (t : ThreadId) (marks : List Mark) : Option Stage :=
  (marks.filter (·.thread = t)).foldlM Stage.next .out

theorem stage?_snoc (t : ThreadId) (marks : List Mark) (m : Mark) :
    stage? t (marks ++ [m]) =
      if m.thread = t then (stage? t marks).bind (·.next m) else stage? t marks := by
  simp only [stage?, List.filter_append, List.filter_singleton, List.foldlM_append]
  by_cases h : m.thread = t
  · simp [h]
  · simp [h]

/-- The marks serve every call of a history, each one between its beginning and its end, and do it
as the empty cell would do, which becomes `c`. -/
structure Linearizes (history marks : List Mark) (c : Cell) : Prop where
  whole : marks.filter (·.service?.isNone) = history
  orderly : ∀ t, (stage? t marks).isSome
  serial : Cell.empty.Serial (services marks) c

end PinnedPool.Registry
