import Mathlib.Data.Fintype.EquivFin
import Mathlib.Dynamics.FixedPoints.Basic
import PinnedPool.Bench.Xorshift

/-! # Rounds that lose nothing

A shift takes every bit of a word to a place further on, so the word can be told from what is left
after it has been xored with its own shift, one bit after the other. Each round does this three times.
Hence no number of rounds makes a state zero or brings two states together, and seeds that differ in
more than their lowest bit never come to the same.
-/
namespace PinnedPool.Bench.Xorshift

variable {w : Nat}

/-- A bit of `f x` is told by those bits of `x` that come before it in some order. -/
def LooksBack (rank : Nat → Nat) (f : BitVec w → BitVec w) : Prop :=
  ∀ x y i, (∀ j, rank j < rank i → x.getLsbD j = y.getLsbD j) →
    (f x).getLsbD i = (f y).getLsbD i

theorem LooksBack.xor_injective {rank : Nat → Nat} {f : BitVec w → BitVec w}
    (hf : LooksBack rank f) : Function.Injective fun x => x ^^^ f x := by
  intro x y h
  have hbits : ∀ i, x.getLsbD i = y.getLsbD i := by
    intro i
    -- the bits that come before this one are known to agree
    induction i using (measure rank).wf.induction with
    | h i ih =>
      have hbit : (x ^^^ f x).getLsbD i = (y ^^^ f y).getLsbD i :=
        congrArg (fun z : BitVec w => z.getLsbD i) h
      rw [BitVec.getLsbD_xor, BitVec.getLsbD_xor, hf x y i ih] at hbit
      exact Bool.xor_left_inj.mp hbit
  exact BitVec.eq_of_getLsbD_eq fun i _ => hbits i

/-- To the left, a bit comes from a lower one. -/
theorem looksBack_shiftLeft {k : Nat} (hk : 0 < k) :
    LooksBack id fun x : BitVec w => x <<< k := by
  intro x y i hxy
  simp only [BitVec.getLsbD_shiftLeft]
  by_cases hi : i < k
  · simp [hi]
  · rw [hxy (i - k) (Nat.sub_lt_of_pos_le hk (Nat.not_lt.mp hi))]

/-- To the right, it comes from a higher one, if there is one. -/
theorem looksBack_shiftRight {k : Nat} (hk : 0 < k) :
    LooksBack (w - ·) fun x : BitVec w => x >>> k := by
  intro x y i hxy
  simp only [BitVec.getLsbD_ushiftRight]
  by_cases hi : k + i < w
  · have hback : w - (k + i) < w - i := by omega
    exact hxy (k + i) hback
  · have hout : w ≤ k + i := Nat.not_lt.mp hi
    rw [BitVec.getLsbD_of_ge x _ hout, BitVec.getLsbD_of_ge y _ hout]

theorem round_injective : Function.Injective round := by
  have hleft : ∀ k, 0 < k → Function.Injective fun x : BitVec 64 => x ^^^ x <<< k :=
    fun _ hk => (looksBack_shiftLeft hk).xor_injective
  have hright : Function.Injective fun x : BitVec 64 => x ^^^ x >>> 7 :=
    (looksBack_shiftRight (by decide)).xor_injective
  intro x y h
  have hwords := congrArg UInt64.toBitVec h
  exact UInt64.toBitVec_inj.mp (hleft 13 (by decide) (hright (hleft 17 (by decide) hwords)))

theorem round_bijective : Function.Bijective round := by
  have hfinite : Finite UInt64 := .of_injective UInt64.toFin fun _ _ => UInt64.toFin_inj.mp
  exact Finite.injective_iff_bijective.mp round_injective

theorem rounds_eq_iterate (n : Nat) : rounds n = round^[n] := by
  induction n with
  | zero => rfl
  | succ n ih =>
    funext x
    exact congrFun ih (round x)

theorem rounds_bijective (n : Nat) : Function.Bijective (rounds n) := by
  rw [rounds_eq_iterate]
  exact round_bijective.iterate n

theorem rounds_zero (n : Nat) : rounds n 0 = 0 := by
  have hzero : Function.IsFixedPt round 0 := rfl
  rw [rounds_eq_iterate]
  exact hzero.iterate n

theorem rounds_eq_zero_iff {n : Nat} {x : UInt64} : rounds n x = 0 ↔ x = 0 := by
  constructor
  · intro h
    exact (rounds_bijective n).1 (h.trans (rounds_zero n).symm)
  · rintro rfl
    exact rounds_zero n

theorem start_ne_zero (seed : UInt64) : seed ||| 1 ≠ 0 := by
  intro h
  exact absurd (UInt64.or_eq_zero_iff.mp h).2 (by decide)

/-- However many rounds there are, they permute the words and keep zero, and only zero, at zero. So no
task's work comes to zero, and two tasks come to the same only if their seeds start the same. -/
theorem spin_separates_seeds (n : Nat) :
    Function.Bijective (rounds n) ∧ (∀ x, rounds n x = 0 ↔ x = 0) ∧ (∀ seed, spin seed n ≠ 0) ∧
      ∀ a b, spin a n = spin b n ↔ a ||| 1 = b ||| 1 := by
  refine ⟨rounds_bijective n,fun _ => rounds_eq_zero_iff,?_,?_⟩
  · intro seed h
    exact start_ne_zero seed (rounds_eq_zero_iff.mp h)
  · intro a b
    exact (rounds_bijective n).1.eq_iff

end PinnedPool.Bench.Xorshift
