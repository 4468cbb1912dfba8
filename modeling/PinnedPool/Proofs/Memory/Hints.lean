import Mathlib.Data.List.Nodup
import PinnedPool.Memory.Prefetch

/-! # Which cache lines a range of hints reaches

The hints of a range go from its start in steps of one cache line. No two of them name the same line,
and none lies outside of the range. But a range that starts inside a line may end in one more line than
there are hints, and then nothing hints at its last line.
-/
namespace PinnedPool.Prefetch
open AlignedBuffer

def lineOf (address : Nat) : Nat := address / cacheLine

/-- Some hint names an address in the same cache line. -/
def Covers (hints : List Prefetch) (address : Nat) : Prop :=
  ∃ p ∈ hints, lineOf p.address = lineOf address

instance (hints : List Prefetch) (address : Nat) : Decidable (Covers hints address) :=
  inferInstanceAs (Decidable (∃ p ∈ hints, _))

theorem lineOf_add_mul (address k : Nat) :
    lineOf (address + k * cacheLine) = lineOf address + k :=
  Nat.add_mul_div_right address k (by decide)

variable {start len : UInt64} (h : start.toNat + len.toNat ≤ UInt64.size)
include h

/-- As long as the range does not wrap around, neither does an address in it. -/
theorem toNat_step {k : Nat} (hk : k * cacheLine < len.toNat) :
    (start + .ofNat (k * cacheLine)).toNat = start.toNat + k * cacheLine := by
  rw [UInt64.toNat_add, UInt64.toNat_ofNat', Nat.add_mod_mod]
  refine Nat.mod_eq_of_lt (Nat.lt_of_lt_of_le ?_ h)
  omega

theorem mem_range_iff {p : Prefetch} :
    p ∈ range start len ↔
      ∃ k, k * cacheLine < len.toNat ∧ p = line (start.toNat + k * cacheLine) := by
  have hcount : ∀ k, k < (len.toNat + cacheLine - 1) / cacheLine ↔ k * cacheLine < len.toNat := by
    intro k
    unfold cacheLine
    omega
  simp only [range, List.mem_map, List.mem_range, hcount]
  constructor
  · rintro ⟨k,hk,rfl⟩
    exact ⟨k,hk,by rw [toNat_step h hk]⟩
  · rintro ⟨k,hk,rfl⟩
    exact ⟨k,hk,by rw [toNat_step h hk]⟩

theorem nodup_lines : ((range start len).map fun p => lineOf p.address).Nodup := by
  rw [range, List.map_map]
  refine List.Nodup.map_on ?_ List.nodup_range
  intro k hk j hj heq
  have hstep : ∀ i ∈ List.range ((len.toNat + cacheLine - 1) / cacheLine),
      lineOf (start + .ofNat (i * cacheLine)).toNat = lineOf start.toNat + i := by
    intro i hi
    have hlt : i * cacheLine < len.toNat := by
      rw [List.mem_range] at hi
      unfold cacheLine at hi ⊢
      omega
    rw [toNat_step h hlt, lineOf_add_mul]
  have hlines : lineOf start.toNat + k = lineOf start.toNat + j :=
    (hstep k hk).symm.trans (heq.trans (hstep j hj))
  exact Nat.add_left_cancel hlines

/-- The lines that are hinted at are as many as it takes for a range from the start of a line. -/
theorem covers_iff {a : Nat} (ha : start.toNat ≤ a) (hlen : 0 < len.toNat) :
    Covers (range start len) a ↔ lineOf a ≤ lineOf start.toNat + (len.toNat - 1) / cacheLine := by
  have hmem : Covers (range start len) a ↔
      ∃ k, k * cacheLine < len.toNat ∧ lineOf start.toNat + k = lineOf a := by
    constructor
    · rintro ⟨p,hp,hline⟩
      obtain ⟨k,hk,rfl⟩ := (mem_range_iff h).mp hp
      exact ⟨k,hk,(lineOf_add_mul ..).symm.trans hline⟩
    · rintro ⟨k,hk,hline⟩
      exact ⟨_,(mem_range_iff h).mpr ⟨k,hk,rfl⟩,(lineOf_add_mul ..).trans hline⟩
  have hle : lineOf start.toNat ≤ lineOf a := Nat.div_le_div_right ha
  rw [hmem]
  constructor
  · rintro ⟨k,hk,hline⟩
    unfold cacheLine at hk ⊢
    omega
  · intro hreach
    refine ⟨lineOf a - lineOf start.toNat,?_,by omega⟩
    unfold cacheLine at hreach ⊢
    omega

/-- The hints of a range that does not wrap around are reads for every cache level, one for each of the
lines that they name, at addresses inside the range; an empty range has none. They reach every line of
the range but perhaps the last one, and this one too exactly if the range is empty or the places of its
start and of its end within a line leave room for each other, as they do if it starts with a line. -/
theorem range_hints :
    (∀ p ∈ range start len,
      p = line p.address ∧ start.toNat ≤ p.address ∧ p.address < start.toNat + len.toNat) ∧
    ((range start len).map fun p => lineOf p.address).Nodup ∧
    (len = 0 → range start len = []) ∧
    (∀ a, start.toNat ≤ a → a < start.toNat + len.toNat → ¬Covers (range start len) a →
      lineOf a = lineOf (start.toNat + len.toNat - 1)) ∧
    ((∀ a, start.toNat ≤ a → a < start.toNat + len.toNat → Covers (range start len) a) ↔
      len = 0 ∨ start.toNat % cacheLine + (len.toNat - 1) % cacheLine < cacheLine) := by
  refine ⟨?_,nodup_lines h,?_,?_,?_⟩
  · intro p hp
    obtain ⟨k,hk,rfl⟩ := (mem_range_iff h).mp hp
    exact ⟨rfl,Nat.le_add_right _ _,Nat.add_lt_add_left hk _⟩
  · rintro rfl
    rfl
  · intro a ha halt hno
    rw [covers_iff h ha (by omega)] at hno
    unfold lineOf cacheLine at hno ⊢
    omega
  · rcases Nat.eq_zero_or_pos len.toNat with hzero | hlen
    · have hempty : len = 0 := UInt64.toNat_inj.mp hzero
      exact ⟨fun _ => .inl hempty,fun _ a ha halt => by omega⟩
    · have hne : len ≠ 0 := fun heq => by simp [heq] at hlen
      -- if any address is missed, the last one is
      constructor
      · intro hall
        have hlast := (covers_iff h (by omega) hlen).mp
          (hall (start.toNat + len.toNat - 1) (by omega) (by omega))
        right
        unfold lineOf cacheLine at hlast
        unfold cacheLine
        omega
      · intro hroom a ha halt
        have hroom := hroom.resolve_left hne
        rw [covers_iff h ha hlen]
        unfold cacheLine at hroom
        unfold lineOf cacheLine
        omega

omit h

theorem range_hints_last :
    (18446744073709551516 : UInt64).toNat + (100 : UInt64).toNat ≤ UInt64.size ∧
      ∀ a, 18446744073709551516 ≤ a → a < 18446744073709551616 →
        Covers (range 18446744073709551516 100) a := by
  have h : (18446744073709551516 : UInt64).toNat + (100 : UInt64).toNat ≤ UInt64.size := by decide
  obtain ⟨-,-,-,-,hall⟩ := range_hints h
  exact ⟨h,hall.mpr (.inr (by decide))⟩

/-- Of two bytes on either side of a border between two lines, only the first is hinted at. -/
theorem last_line_missed :
    (63 : UInt64).toNat + (2 : UInt64).toNat ≤ UInt64.size ∧ (63 : UInt64).toNat ≤ 64 ∧
      64 < (63 : UInt64).toNat + (2 : UInt64).toNat ∧ ¬Covers (range 63 2) 64 := by
  decide

end PinnedPool.Prefetch
