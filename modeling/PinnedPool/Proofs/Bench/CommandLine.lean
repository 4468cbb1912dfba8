import Mathlib.Algebra.Ring.Nat
import PinnedPool.Bench.Arguments

/-! # The numbers of a command line

Whatever the arguments are, a number that is read from them is a word: each setting is assigned in one
place, which reads its value as one.
-/
namespace PinnedPool

namespace Decimal.Word

theorem lt_of_readFrom {n k : Nat} {cs : List Char} (hn : n < bound)
    (h : readFrom n cs = .ok k) : k < bound := by
  induction cs generalizing n with
  | nil =>
    cases h
    exact hn
  | cons c cs ih =>
    rw [readFrom] at h
    split at h
    · cases h
    · split at h
      · exact ih ‹_› h
      · cases h

theorem lt_of_ofString {text : String} {k : Nat} (h : ofString text = .ok k) : k < bound := by
  have hzero : 0 < bound := by decide
  unfold ofString at h
  split at h
  · cases h
  · cases h
  · exact lt_of_readFrom hzero h
  · exact lt_of_readFrom hzero h

end Decimal.Word

namespace Bench.Arguments

section Results
variable {E F A B : Type}

theorem eq_ok_of_mapError {f : E → F} {x : Except E A} {a : A} (h : x.mapError f = .ok a) :
    x = .ok a := by
  cases x with
  | error => cases h
  | ok =>
    cases h
    rfl

theorem map_eq_ok {f : A → B} {x : Except E A} {b : B} (h : x.map f = .ok b) :
    ∃ a, x = .ok a ∧ f a = b := by
  cases x with
  | error => cases h
  | ok a => exact ⟨a,rfl,Except.ok.inj h⟩

theorem bind_eq_ok {f : A → Except E B} {x : Except E A} {b : B} (h : x.bind f = .ok b) :
    ∃ a, x = .ok a ∧ f a = .ok b := by
  cases x with
  | error => cases h
  | ok a => exact ⟨a,rfl,h⟩

end Results

/-- The numbers that are given are words. -/
structure Words (a : Arguments) : Prop where
  threads : ∀ n ∈ a.threads, n < Decimal.Word.bound
  tasks : ∀ n ∈ a.tasks, n < Decimal.Word.bound
  work : ∀ n ∈ a.work, n < Decimal.Word.bound

theorem words_empty : empty.Words := ⟨nofun,nofun,nofun⟩

theorem words_assign {a a' : Arguments} {s : Setting} {value : String} (ha : a.Words)
    (h : a.assign s value = .ok a') : a'.Words := by
  have hnumber : ∀ {g : Nat → Arguments},
      ((Decimal.Word.ofString value).mapError (UsageError.malformed value s)).map g = .ok a' →
        ∃ n < Decimal.Word.bound, g n = a' := by
    intro g hg
    obtain ⟨n,hv,rfl⟩ := map_eq_ok hg
    exact ⟨n,Decimal.Word.lt_of_ofString (eq_ok_of_mapError hv),rfl⟩
  unfold assign at h
  split at h
  · cases h
  · cases s with
    | config =>
      dsimp only at h
      split at h
      · cases h
      · cases h
        exact ⟨ha.threads,ha.tasks,ha.work⟩
    | threads =>
      obtain ⟨n,hn,rfl⟩ := hnumber h
      exact ⟨by simpa using hn,ha.tasks,ha.work⟩
    | tasks =>
      obtain ⟨n,hn,rfl⟩ := hnumber h
      exact ⟨ha.threads,by simpa using hn,ha.work⟩
    | work =>
      obtain ⟨n,hn,rfl⟩ := hnumber h
      exact ⟨ha.threads,ha.tasks,by simpa using hn⟩

theorem words_settle {a a' : Arguments} {pending : Pending} (ha : a.Words)
    (h : a.settle pending = .ok a') : a'.Words := by
  unfold settle at h
  split at h
  · cases h
    exact ha
  · cases h
  · exact words_assign ha h

theorem words_turn {a a' : Arguments} {s : Switch} (ha : a.Words) (h : a.turn s = .ok a') :
    a'.Words := by
  unfold turn at h
  split at h
  · split at h
    · cases h
    · cases h
      exact ⟨ha.threads,ha.tasks,ha.work⟩
  · cases h
  · cases h

theorem words_option {a : Arguments} {pending : Pending} {name : String} {value : Option String}
    {r : Arguments × Pending} (ha : a.Words) (h : a.option pending name value = .ok r) :
    r.1.Words := by
  unfold option at h
  split at h
  · obtain ⟨a',hset,rfl⟩ := map_eq_ok h
    exact words_settle ha (eq_ok_of_mapError hset)
  · obtain ⟨a',hset,rfl⟩ := map_eq_ok h
    obtain ⟨a₁,hset,hassign⟩ := bind_eq_ok (eq_ok_of_mapError hset)
    exact words_assign (words_settle ha hset) hassign
  · obtain ⟨a₁,hset,h⟩ := bind_eq_ok h
    obtain ⟨a₂,hturn,h⟩ := bind_eq_ok h
    cases h
    exact words_turn (words_settle ha (eq_ok_of_mapError hset)) hturn
  · cases h
  · cases h

theorem words_letter {a : Arguments} {pending : Pending} {c : Char} {r : Arguments × Pending}
    (ha : a.Words) (h : a.letter pending c = .ok r) : r.1.Words := by
  have hturn : ∀ {s : Switch}, (do
      let a ← (a.settle pending).mapError Interruption.refused
      return (← a.turn s, (none : Pending))) = Except.ok r → r.1.Words := by
    intro s h
    obtain ⟨a₁,hset,h⟩ := bind_eq_ok h
    obtain ⟨a₂,hturn,h⟩ := bind_eq_ok h
    cases h
    exact words_turn (words_settle ha (eq_ok_of_mapError hset)) hturn
  unfold letter at h
  split at h
  · exact hturn h
  · exact hturn h
  · cases h

theorem words_readFrom {a a' : Arguments} {pending : Pending} {arguments : List String}
    (ha : a.Words) (h : a.readFrom pending arguments = .ok a') : a'.Words := by
  induction arguments generalizing a pending with
  | nil => exact words_settle ha (eq_ok_of_mapError h)
  | cons argument rest ih =>
    unfold readFrom at h
    split at h
    · split at h
      · exact words_settle ha (eq_ok_of_mapError h)
      · cases h
    · obtain ⟨r,hoption,h⟩ := bind_eq_ok h
      exact ih (words_option ha hoption) h
    · obtain ⟨r,hletter,h⟩ := bind_eq_ok h
      exact ih (words_letter ha hletter) h
    · split at h
      · exact ih ha h
      · cases h

/-- The tasks and the rounds of work that are asked for are words. -/
theorem words_read {a : Arguments} {arguments : List String} (h : read arguments = .ok a) :
    a.taskCount < 2 ^ 64 ∧ a.workCount < 2 ^ 64 := by
  have ha := words_readFrom words_empty h
  constructor
  · unfold taskCount
    cases ht : a.tasks with
    | none => decide
    | some n => exact ha.tasks n ht
  · unfold workCount
    cases hw : a.work with
    | none => decide
    | some n => exact ha.work n hw

end Bench.Arguments
end PinnedPool
