import PinnedPool.Json.Number
import PinnedPool.Proofs.Json.Wellformed

/-! # Numerals of sizes

The digits of a size below `2 ^ 64` are gathered to the last one: the value never passes the bound on
the way, since it does not at the end.
-/
namespace PinnedPool.Json

/-- The decimal numeral of a size. -/
def SizeText (n : Nat) (s t : Bytes) : Prop := n < Number.wordBound ∧ s = utf8 (toString n) ++ t

def digitByte (c : Char) : UInt8 := c.val.toUInt8

theorem digit_range {c : Char} (h : c.isDigit = true) : 48 ≤ c.toNat ∧ c.toNat ≤ 57 := by
  simpa [Char.isDigit, UInt32.le_iff_toNat_le] using h

theorem utf8_digits {l : List Char} (h : ∀ c ∈ l, c.isDigit = true) :
    utf8 (String.ofList l) = l.map digitByte := by
  rw [utf8_ofList]
  induction l with
  | nil => rfl
  | cons c l ih =>
    have hc := digit_range (h c (List.mem_cons_self ..))
    have hsize : c.utf8Size = 1 := by
      have hle : c.val ≤ 0x7F := UInt32.le_iff_toNat_le.mpr (Nat.le_trans hc.2 (by decide))
      exact if_pos hle
    rw [List.flatMap_cons, List.map_cons, String.utf8EncodeChar_eq_singleton hsize,
      ih fun d hd => h d (List.mem_cons_of_mem _ hd)]
    rfl

theorem toNat_digitByte {c : Char} (h : c.isDigit = true) : (digitByte c).toNat = c.toNat := by
  have hc := digit_range h
  have hle : c.toNat < 256 := by omega
  exact Nat.mod_eq_of_lt hle

theorem isDigit_digitByte {c : Char} (h : c.isDigit = true) : isDigit (digitByte c) = true := by
  have hc := digit_range h
  rw [← toNat_digitByte h] at hc
  simp [isDigit, UInt8.le_iff_toNat_le, hc]

theorem digit_digitByte {c : Char} (h : c.isDigit = true) :
    digit (digitByte c) = c.toNat - '0'.toNat := by
  rw [digit, toNat_digitByte h]
  rfl

theorem le_ofDigitChars (l : List Char) (a : Nat) : a ≤ Nat.ofDigitChars 10 l a := by
  induction l generalizing a with
  | nil => exact Nat.le_refl _
  | cons c l ih =>
    rw [Nat.ofDigitChars_cons]
    exact Nat.le_trans (by omega) (ih _)

/-- Digits whose value stays below the bound are gathered to the last one. -/
theorem gather_digits {l : List Char} (hl : ∀ c ∈ l, c.isDigit = true) {t : Bytes} (ht : NoDigit t)
    {a : Nat} (h : Nat.ofDigitChars 10 l a < Number.wordBound) (count : Nat) :
    Number.gather a count (l.map digitByte ++ t) =
      (Nat.ofDigitChars 10 l a,count + l.length,t) := by
  -- the value so far is at most the one at the end, so the bound holds at each digit
  induction l generalizing a count with
  | nil =>
    cases t with
    | nil => rfl
    | cons b t =>
      have hb : isDigit b = false := ht b rfl
      simp [Number.gather, hb, Nat.ofDigitChars]
  | cons c l ih =>
    have hc := hl c (List.mem_cons_self ..)
    have hacc : a * 10 + digit (digitByte c) = 10 * a + (c.toNat - '0'.toNat) := by
      rw [digit_digitByte hc, Nat.mul_comm]
    rw [Nat.ofDigitChars_cons] at h
    have hbound := Nat.lt_of_le_of_lt (le_ofDigitChars l _) h
    rw [List.map_cons, List.cons_append, Number.gather, hacc, if_pos ⟨isDigit_digitByte hc,hbound⟩,
      ih (fun d hd => hl d (List.mem_cons_of_mem _ hd)) h, Nat.ofDigitChars_cons, List.length_cons]
    simp only [Nat.add_assoc, Nat.add_comm 1]

theorem startsWithDigit_eq {t : Bytes} (h : NoDigit t) : Number.startsWithDigit t = false := by
  cases t with
  | nil => rfl
  | cons b t => exact h b rfl

theorem readRest_ends {t : Bytes} (h : Ends t) (n : Nat) :
    Number.readRest false n t = .ok (.natural n,t) := by
  cases t with
  | nil => rfl
  | cons b t =>
    obtain ⟨-,hpoint,hmark⟩ := h.head
    simp [Number.readRest, hpoint, hmark, Number.ofInteger]

theorem isDigit_of_mem_digits {n : Nat} {c : Char} (h : c ∈ Nat.toDigits 10 n) :
    c.isDigit = true :=
  Nat.isDigit_of_mem_toDigits (by decide) (by decide) h

/-- The numeral of a positive number does not begin with a zero. -/
theorem head_digits {n : Nat} (hn : 0 < n) : ∃ c l, Nat.toDigits 10 n = c :: l ∧ c ≠ '0' := by
  induction n using Nat.strongRecOn with
  | ind n ih =>
    rw [Nat.toDigits_eq_if (by decide)]
    split
    · rename_i hlt
      have hdigit : ∀ d < 10, 0 < d → d.digitChar ≠ '0' := by decide
      exact ⟨n.digitChar,[],rfl,hdigit n hlt hn⟩
    · obtain ⟨c,l,hl,hc⟩ := ih (n / 10) (by omega) (by omega)
      exact ⟨c,l ++ [(n % 10).digitChar],by rw [hl, List.cons_append],hc⟩

theorem utf8_toString (n : Nat) : utf8 (toString n) = (Nat.toDigits 10 n).map digitByte := by
  rw [Nat.toString_eq_ofList_toDigits]
  exact utf8_digits fun c hc => isDigit_of_mem_digits hc

theorem digits_append {l : List Char} (hl : ∀ c ∈ l, c.isDigit = true) (hne : l ≠ []) (t : Bytes) :
    Digits (l.map digitByte ++ t) t := by
  induction l with
  | nil => exact absurd rfl hne
  | cons c l ih =>
    obtain ⟨hc,hl⟩ := List.forall_mem_cons.mp hl
    cases l with
    | nil => exact .last (isDigit_digitByte hc)
    | cons d l => exact .cons (isDigit_digitByte hc) (ih hl (List.cons_ne_nil _ _))

theorem digitByte_ne_zero {c : Char} (hc : c.isDigit = true) (hne : c ≠ '0') :
    digitByte c ≠ 48 := by
  intro heq
  have hnat : c.toNat = 48 := by rw [← toNat_digitByte hc, heq]; rfl
  exact hne (Char.toNat_inj.mp hnat)

theorem SizeText.whole {n : Nat} {s t : Bytes} (h : SizeText n s t) : Whole s t := by
  obtain ⟨-,rfl⟩ := h
  rw [utf8_toString]
  rcases Nat.eq_zero_or_pos n with rfl | hpos
  · exact .zero
  · obtain ⟨c,l,hl,hc⟩ := head_digits hpos
    have hdigits : ∀ d ∈ c :: l, d.isDigit = true := fun d hd => isDigit_of_mem_digits (hl ▸ hd)
    obtain ⟨hcdigit,hldigit⟩ := List.forall_mem_cons.mp hdigits
    rw [hl]
    cases l with
    | nil => exact .single (isDigit_digitByte hcdigit) (digitByte_ne_zero hcdigit hc)
    | cons d l =>
      exact .many (isDigit_digitByte hcdigit) (digitByte_ne_zero hcdigit hc)
        (digits_append hldigit (List.cons_ne_nil _ _) t)

/-- The numeral of a size is its first digit and those that follow, and read as that size. -/
theorem SizeText.read {n : Nat} {s t : Bytes} (h : SizeText n s t) (ht : Ends t) :
    ∃ b r, s = b :: r ∧ isDigit b = true ∧ Number.read s = .ok (.natural n,t) := by
  obtain ⟨hn,rfl⟩ := h
  have hread : ∀ b r, isDigit b = true →
      Number.read (b :: r) = Number.readUnsigned false (b :: r) := by
    intro b r hb
    rw [Number.read, if_neg (ne_of_isDigit hb rfl)]
  rw [utf8_toString]
  rcases Nat.eq_zero_or_pos n with rfl | hpos
  · refine ⟨48,t,rfl,rfl,?_⟩
    have hzero : Number.readUnsigned false (48 :: t) = Number.readRest false 0 t := by
      simp only [Number.readUnsigned, startsWithDigit_eq ht.noDigit, Bool.false_eq_true, ↓reduceIte]
    exact (hread 48 t rfl).trans (hzero.trans (readRest_ends ht 0))
  · obtain ⟨c,l,hl,hc⟩ := head_digits hpos
    have hdigits : ∀ d ∈ c :: l, d.isDigit = true := fun d hd => isDigit_of_mem_digits (hl ▸ hd)
    have hcdigit := hdigits c (List.mem_cons_self ..)
    have hb := isDigit_digitByte hcdigit
    have hvalue : Nat.ofDigitChars 10 l (digit (digitByte c)) = n := by
      have hall := Nat.ofDigitChars_ten_toDigits (n := n)
      rw [hl, Nat.ofDigitChars_cons, Nat.mul_zero, Nat.zero_add] at hall
      rw [digit_digitByte hcdigit, hall]
    have hne := digitByte_ne_zero hcdigit hc
    rw [hl]
    refine ⟨digitByte c,l.map digitByte ++ t,rfl,hb,?_⟩
    have hgather := gather_digits (fun d hd => hdigits d (List.mem_cons_of_mem _ hd)) ht.noDigit
      (a := digit (digitByte c)) (hvalue ▸ hn) 1
    rw [hvalue] at hgather
    rw [List.map_cons, List.cons_append, hread _ _ hb, Number.readUnsigned, if_neg hne, if_pos hb,
      hgather]
    simp only [startsWithDigit_eq ht.noDigit, Bool.false_eq_true, ↓reduceIte]
    exact readRest_ends ht n

end PinnedPool.Json
