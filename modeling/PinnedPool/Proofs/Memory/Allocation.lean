import Mathlib.Algebra.Ring.Nat
import Mathlib.Order.Bounds.Basic
import PinnedPool.Memory.AlignedBuffer

/-! # Requests for buffers

A request is worked out on machine words, and it comes out as on numbers without a bound. The one sum
that may not be a word is looked after, and an extent that is no word has no layout anyway.
-/
namespace PinnedPool

namespace Layout

/-- The least multiple of the alignment that a request fits into. An empty one is one of a byte. -/
def IsExtent (size alignment r : Nat) : Prop := IsLeast {k | alignment ∣ k ∧ max size 1 ≤ k} r

theorem toNat_log2 (a : UInt64) : a.log2.toNat = a.toNat.log2 := rfl

theorem isPowerOfTwo_iff {a : UInt64} : isPowerOfTwo a = true ↔ a.toNat.isPowerOfTwo := by
  by_cases hzero : a = 0
  · subst hzero
    have hnot : ¬Nat.isPowerOfTwo 0 := by
      rintro ⟨k,hk⟩
      exact absurd hk.symm (Nat.two_pow_pos k).ne'
    exact iff_of_false (by decide) hnot
  · have hne : a.toNat ≠ 0 := by simpa [← UInt64.toNat_inj] using hzero
    have hlog : a.toNat.log2 < 64 := (Nat.log2_lt hne).mpr a.toNat_lt
    have hbound : 2 ^ a.toNat.log2 < 2 ^ 64 := Nat.pow_lt_pow_right (by decide) hlog
    have hshift : ((1 : UInt64) <<< a.log2).toNat = 2 ^ a.toNat.log2 := by
      rw [UInt64.toNat_shiftLeft, toNat_log2, Nat.mod_eq_of_lt hlog, Nat.shiftLeft_eq,
        UInt64.toNat_one, Nat.one_mul, Nat.mod_eq_of_lt hbound]
    rw [isPowerOfTwo, decide_eq_true_eq, ← UInt64.toNat_inj, hshift]
    constructor
    · exact fun h => ⟨_,h.symm⟩
    · rintro ⟨k,hk⟩
      rw [hk, Nat.log2_two_pow]

theorem pos_of_isPowerOfTwo {a : Nat} (ha : a.isPowerOfTwo) : 0 < a := by
  obtain ⟨k,rfl⟩ := ha
  exact Nat.two_pow_pos k

/-- A power of two that is a word leaves room below the greatest extent. -/
theorem le_maxExtent {a : UInt64} (ha : a.toNat.isPowerOfTwo) : a ≤ maxExtent := by
  obtain ⟨k,hk⟩ := ha
  have hlt : 2 ^ k < 2 ^ 64 := hk ▸ a.toNat_lt
  have hle : k ≤ 63 := Nat.le_of_lt_succ ((Nat.pow_lt_pow_iff_right (by decide)).mp hlt)
  rw [UInt64.le_iff_toNat_le, hk]
  exact Nat.pow_le_pow_right (by decide) hle

theorem toNat_room {a : UInt64} (ha : a.toNat.isPowerOfTwo) :
    (maxExtent - a).toNat = 2 ^ 63 - a.toNat := by
  rw [UInt64.toNat_sub_of_le _ _ (le_maxExtent ha)]
  rfl

theorem checkedAdd_eq (a b : UInt64) : checkedAdd a b =
    if a.toNat + b.toNat < 2 ^ 64 then some (.ofNat (a.toNat + b.toNat)) else none := by
  have ha := a.toNat_lt
  have hb := b.toNat_lt
  unfold checkedAdd
  simp only [UInt64.lt_iff_toNat_lt, UInt64.toNat_add]
  split
  · rw [if_neg (by omega)]
  · rw [if_pos (by omega), UInt64.ofNat_add, UInt64.ofNat_toNat, UInt64.ofNat_toNat]

/-- Rounding up adds what is missing to the next multiple. -/
theorem isLeast_multiple (n : Nat) {a : Nat} (ha : 0 < a) :
    IsLeast {k | a ∣ k ∧ n ≤ k} (if n % a = 0 then n else n + (a - n % a)) := by
  have hmod := Nat.mod_lt n ha
  have hdiv := Nat.div_add_mod n a
  split
  · rename_i h
    exact ⟨⟨Nat.dvd_of_mod_eq_zero h,Nat.le_refl n⟩,fun k hk => hk.2⟩
  · rename_i h
    have hnext : n + (a - n % a) = a * (n / a + 1) := by
      rw [Nat.mul_add, Nat.mul_one]
      omega
    refine ⟨⟨⟨_,hnext⟩,Nat.le_add_right ..⟩,?_⟩
    rintro k ⟨⟨q,rfl⟩,hle⟩
    rw [hnext]
    refine Nat.mul_le_mul_left a ?_
    -- a smaller multiple is not past the last one before `n`
    refine Nat.succ_le_of_lt (Nat.lt_of_not_le fun hq => ?_)
    have hback := Nat.mul_le_mul_left a hq
    omega

theorem toNat_missing {n a : UInt64} (ha : 0 < a.toNat) :
    (a - n % a).toNat = a.toNat - n.toNat % a.toNat := by
  have hle : n % a ≤ a := by
    rw [UInt64.le_iff_toNat_le, UInt64.toNat_mod]
    exact (Nat.mod_lt _ ha).le
  rw [UInt64.toNat_sub_of_le _ _ hle, UInt64.toNat_mod]

theorem nextMultiple?_eq {n a : UInt64} (ha : 0 < a.toNat) {r : Nat}
    (hr : IsLeast {k | a.toNat ∣ k ∧ n.toNat ≤ k} r) :
    nextMultiple? n a = if r < 2 ^ 64 then some (.ofNat r) else none := by
  have hround := (isLeast_multiple n.toNat ha).unique hr
  simp only [nextMultiple?, ← UInt64.toNat_inj, UInt64.toNat_mod, UInt64.toNat_zero]
  split at hround
  · rename_i h
    rw [if_pos h, ← hround, if_pos n.toNat_lt, UInt64.ofNat_toNat]
  · rename_i h
    rw [if_neg h, checkedAdd_eq, toNat_missing ha, hround]

theorem toNat_taken (size : UInt64) : (taken size).toNat = max size.toNat 1 := by
  unfold taken
  split
  · rename_i h
    rw [h]
    rfl
  · rename_i h
    have hne : size.toNat ≠ 0 := by simpa [← UInt64.toNat_inj] using h
    omega

theorem exists_extent (size : Nat) {a : Nat} (ha : 0 < a) : ∃ r, IsExtent size a r :=
  ⟨_,isLeast_multiple (max size 1) ha⟩

theorem IsExtent.pos {size alignment r : Nat} (hr : IsExtent size alignment r) : 0 < r :=
  Nat.lt_of_lt_of_le (Nat.lt_of_lt_of_le Nat.one_pos (Nat.le_max_right ..)) hr.1.2

/-- An extent is its own extent. -/
theorem IsExtent.again {size alignment r : Nat} (hr : IsExtent size alignment r) :
    IsExtent r alignment r :=
  ⟨⟨hr.1.1,Nat.max_le.mpr ⟨Nat.le_refl r,hr.pos⟩⟩,
    fun _ hk => Nat.le_trans (Nat.le_max_left ..) hk.2⟩

/-- No step from a request to a layout passes an end of the words, but for a sum that is noticed. -/
structure Exact (size alignment : UInt64) (r : Nat) : Prop where
  taken : (taken size).toNat = max size.toNat 1
  missing : (Layout.taken size % alignment).toNat + (alignment - Layout.taken size % alignment).toNat =
    alignment.toNat
  rounded : nextMultiple? (Layout.taken size) alignment =
    if r < 2 ^ 64 then some (.ofNat r) else none
  room : alignment.toNat + (maxExtent - alignment).toNat = 2 ^ 63

section Request
variable {size alignment : UInt64} {r : Nat} (ha : alignment.toNat.isPowerOfTwo)
  (hr : IsExtent size.toNat alignment.toNat r)
include ha hr

theorem exact : Exact size alignment r where
  taken := toNat_taken size
  missing := by
    have hmod := Nat.mod_lt (Layout.taken size).toNat (pos_of_isPowerOfTwo ha)
    rw [toNat_missing (pos_of_isPowerOfTwo ha), UInt64.toNat_mod]
    omega
  rounded := nextMultiple?_eq (pos_of_isPowerOfTwo ha) (by rwa [toNat_taken])
  room := by
    have hle := UInt64.le_iff_toNat_le.mp (le_maxExtent ha)
    rw [toNat_room ha]
    exact Nat.add_sub_of_le hle

theorem forRequest?_eq : forRequest? size alignment =
    if 2 ^ 63 - alignment.toNat < r then none else some ⟨.ofNat r,alignment⟩ := by
  rw [forRequest?, (exact ha hr).rounded]
  by_cases hword : r < 2 ^ 64
  · simp only [if_pos hword, Option.bind_some, ofSize?, UInt64.lt_iff_toNat_lt, toNat_room ha,
      UInt64.toNat_ofNat_of_lt' hword]
  · rw [if_neg hword, Option.bind_none, if_pos (by omega)]

end Request

end Layout

namespace AlignedBuffer
open Layout

theorem read_zeroed (l : Layout) :
    (zeroed l).read 0 (zeroed l).size = .ok (List.replicate l.size.toNat 0) := by
  have hrange : (zeroed l).checkRange 0 (zeroed l).size = .ok () := by simp [checkRange]
  have hbytes : (List.range l.size.toNat).map (fun k => (zeroed l).byteAt (0 + k)) =
      List.replicate l.size.toNat 0 := by
    refine List.eq_replicate_iff.mpr ⟨by simp,?_⟩
    intro v hv
    obtain ⟨k,-,rfl⟩ := List.mem_map.mp hv
    simp [byteAt, zeroed]
  rw [read, hrange]
  exact congrArg Except.ok hbytes

theorem new_of_not_isPowerOfTwo {alignment : UInt64} (ha : ¬alignment.toNat.isPowerOfTwo)
    (size : UInt64) : new size alignment = .error (.invalidAlignment alignment.toNat) := by
  rw [← isPowerOfTwo_iff] at ha
  rw [new, if_pos (by simpa using ha)]

theorem new_of_isPowerOfTwo {size alignment : UInt64} {r : Nat} (ha : alignment.toNat.isPowerOfTwo)
    (hr : IsExtent size.toNat alignment.toNat r) :
    new size alignment =
      if 2 ^ 63 - alignment.toNat < r then
        .error (.allocationTooLarge size.toNat alignment.toNat)
      else .ok (zeroed ⟨.ofNat r,alignment⟩) := by
  rw [new, if_neg (by simpa using isPowerOfTwo_iff.mpr ha), forRequest?_eq ha hr]
  by_cases hlarge : 2 ^ 63 - alignment.toNat < r
  · rw [if_pos hlarge, if_pos hlarge]
  · rw [if_neg hlarge, if_neg hlarge]

/-- What comes of a request, for all sizes and alignments that are words. An alignment that is no
power of two is refused whatever the size. With any other one the request is for the least multiple
of it that is large enough, which is refused exactly if it comes too close to half of the words; no
step wraps around on the way. The buffer has that size, which is not zero, the alignment, and only
zeroes in it, and to ask for its size once more gives the same. -/
theorem new_exact (size alignment : UInt64) :
    (new size alignment = .error (.invalidAlignment alignment.toNat) ↔
      ¬alignment.toNat.isPowerOfTwo) ∧
    (alignment.toNat.isPowerOfTwo → ∃ r, IsExtent size.toNat alignment.toNat r ∧
      Exact size alignment r ∧
      (new size alignment = .error (.allocationTooLarge size.toNat alignment.toNat) ↔
        2 ^ 63 - alignment.toNat < r) ∧
      (r ≤ 2 ^ 63 - alignment.toNat → ∃ l b, forRequest? size alignment = some l ∧
        0 < l.size.toNat ∧ l.size.toNat = r ∧ l.alignment = alignment ∧
        new size alignment = .ok b ∧ b.size = r ∧ b.alignment = alignment.toNat ∧
        b.read 0 b.size = .ok (List.replicate r 0) ∧ new (.ofNat b.size) alignment = .ok b)) := by
  constructor
  · constructor
    · intro hnew ha
      obtain ⟨r,hr⟩ := exists_extent size.toNat (pos_of_isPowerOfTwo ha)
      rw [new_of_isPowerOfTwo ha hr] at hnew
      split at hnew <;> cases hnew
    · exact fun ha => new_of_not_isPowerOfTwo ha size
  · intro ha
    obtain ⟨r,hr⟩ := exists_extent size.toNat (pos_of_isPowerOfTwo ha)
    have hnew := new_of_isPowerOfTwo ha hr
    refine ⟨r,hr,exact ha hr,?_,?_⟩
    · rw [hnew]
      split <;> simp_all
    · intro hle
      have hfits := Nat.not_lt.mpr hle
      have hlt : r < 2 ^ 64 := by omega
      have hword : (UInt64.ofNat r).toNat = r := UInt64.toNat_ofNat_of_lt' hlt
      have hsame : IsExtent (UInt64.ofNat r).toNat alignment.toNat r := by
        rw [hword]
        exact hr.again
      have hagain := new_of_isPowerOfTwo ha hsame
      rw [if_neg hfits] at hnew hagain
      have hzero := read_zeroed ⟨.ofNat r,alignment⟩
      rw [hword] at hzero
      refine ⟨_,_,by rw [forRequest?_eq ha hr, if_neg hfits],hword.symm ▸ hr.pos,hword,rfl,hnew,hword,
        rfl,hzero,?_⟩
      have hsize : (zeroed ⟨.ofNat r,alignment⟩).size = r := hword
      rw [hsize]
      exact hagain

/-- The longest block for the alignment of a cache line. One byte more is refused. -/
theorem new_exact_longest :
    Nat.isPowerOfTwo 64 ∧ IsExtent (2 ^ 63 - 127) 64 (2 ^ 63 - 64) ∧
      (∃ b, new (.ofNat (2 ^ 63 - 127)) 64 = .ok b ∧ b.size = 2 ^ 63 - 64) ∧
      new (.ofNat (2 ^ 63 - 63)) 64 = .error (.allocationTooLarge (2 ^ 63 - 63) 64) := by
  have ha : (64 : UInt64).toNat.isPowerOfTwo := ⟨6,rfl⟩
  have hextent : IsExtent (2 ^ 63 - 127) 64 (2 ^ 63 - 64) := by
    refine ⟨⟨by decide,by decide⟩,?_⟩
    rintro k ⟨hdvd,hle⟩
    omega
  have hbeyond : IsExtent (2 ^ 63 - 63) 64 (2 ^ 63) := by
    refine ⟨⟨by decide,by decide⟩,?_⟩
    rintro k ⟨hdvd,hle⟩
    omega
  obtain ⟨-,hgranted⟩ := new_exact (.ofNat (2 ^ 63 - 127)) 64
  obtain ⟨-,hrefused⟩ := new_exact (.ofNat (2 ^ 63 - 63)) 64
  obtain ⟨r,hr,-,-,hblock⟩ := hgranted ha
  obtain ⟨s,hs,-,hlarge,-⟩ := hrefused ha
  obtain rfl : r = 2 ^ 63 - 64 := hr.unique hextent
  obtain rfl : s = 2 ^ 63 := hs.unique hbeyond
  obtain ⟨l,b,-,-,-,-,hnew,hsize,-⟩ := hblock (by decide)
  exact ⟨ha,hextent,⟨b,hnew,hsize⟩,hlarge.mpr (by decide)⟩

end AlignedBuffer
end PinnedPool
