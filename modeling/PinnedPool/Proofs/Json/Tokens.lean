import PinnedPool.Proofs.Json.Positions

/-! # Number tokens

A number token is taken for a size exactly if it has nothing but digits and its value has 64 bits, and
the size is that value. A sign, a fraction, an exponent or a digit too many is never taken, whatever
the value.
-/
namespace PinnedPool.Json

/-- The value of decimal digits. -/
def valueOf (w : Bytes) : Nat := w.foldl (fun n b => n * 10 + digit b) 0

/-- Nothing but digits, with a value of 64 bits. -/
def Exact (w : Bytes) : Prop := (∀ b ∈ w, isDigit b = true) ∧ valueOf w < Number.wordBound

instance (w : Bytes) : Decidable (Exact w) := inferInstanceAs (Decidable (_ ∧ _))

/-- A number token with whatever comes after it. -/
def NumberText (w s t : Bytes) : Prop := Numeral w [] ∧ s = w ++ t

/-! ## Tokens within texts -/

theorem Digits.append {s t : Bytes} (h : Digits s t) (u : Bytes) : Digits (s ++ u) (t ++ u) := by
  induction h with
  | last hb => exact .last hb
  | cons hb _ ih => exact .cons hb ih

theorem Whole.append {s t : Bytes} (h : Whole s t) (u : Bytes) : Whole (s ++ u) (t ++ u) := by
  cases h with
  | zero => exact .zero
  | single hb hne => exact .single hb hne
  | many hb hne h => exact .many hb hne (h.append u)

theorem Fraction.append {s t : Bytes} (h : Fraction s t) (u : Bytes) :
    Fraction (s ++ u) (t ++ u) := by
  cases h with
  | none => exact .none
  | some h => exact .some (h.append u)

theorem Exponent.append {s t : Bytes} (h : Exponent s t) (u : Bytes) :
    Exponent (s ++ u) (t ++ u) := by
  cases h with
  | none => exact .none
  | bare hm h => exact .bare hm (h.append u)
  | signed hm hb h => exact .signed hm hb (h.append u)

theorem Numeral.append {s t : Bytes} (h : Numeral s t) (u : Bytes) :
    Numeral (s ++ u) (t ++ u) := by
  cases h with
  | positive hw hf he => exact .positive (hw.append u) (hf.append u) (he.append u)
  | negative hw hf he => exact .negative (hw.append u) (hf.append u) (he.append u)

theorem NumberText.value {w s t : Bytes} (h : NumberText w s t) : Value s t := by
  obtain ⟨hw,rfl⟩ := h
  exact .number (hw.append t)

/-! ## Digits alone -/

theorem Digits.suffix {s t : Bytes} (h : Digits s t) : t <:+ s := by
  induction h with
  | last => exact List.suffix_cons ..
  | cons _ _ ih => exact ih.trans (List.suffix_cons ..)

theorem Whole.suffix {s t : Bytes} (h : Whole s t) : t <:+ s := by
  cases h with
  | zero | single => exact List.suffix_cons ..
  | many _ _ h => exact h.suffix.trans (List.suffix_cons ..)

/-- A fraction and an exponent have a byte that is no digit. -/
theorem eq_nil_of_digits {u v : Bytes} (hf : Fraction u v) (he : Exponent v [])
    (h : ∀ b ∈ u, isDigit b = true) : u = [] := by
  cases hf with
  | some => cases h point (List.mem_cons_self ..)
  | none =>
    cases he with
    | none => rfl
    | bare hm | signed hm =>
      have hdigit := h _ (List.mem_cons_self ..)
      rw [isDigit_of_mark hm] at hdigit
      cases hdigit

theorem Numeral.whole_of_digits {w : Bytes} (h : Numeral w [])
    (hdigits : ∀ b ∈ w, isDigit b = true) : Whole w [] := by
  cases h with
  | positive hw hf he =>
    obtain rfl := eq_nil_of_digits hf he fun b hb => hdigits b (hw.suffix.subset hb)
    exact hw
  | negative => cases hdigits minus (List.mem_cons_self ..)

/-- Digits that follow the numeral of a positive number spell the numeral of the value that they
complete. -/
theorem utf8_toString_digits {a : Nat} (ha : 0 < a) {w : Bytes} (hw : ∀ b ∈ w, isDigit b = true) :
    utf8 (toString a) ++ w = utf8 (toString (w.foldl (fun n b => n * 10 + digit b) a)) := by
  induction w generalizing a with
  | nil => rw [List.append_nil, List.foldl_nil]
  | cons b w ih =>
    obtain ⟨hb,hw⟩ := List.forall_mem_cons.mp hw
    rw [List.foldl_cons, ← ih (by omega) hw, Number.utf8_toString_digit ha hb, List.append_assoc]
    rfl

theorem Whole.eq_utf8 {w : Bytes} (h : Whole w []) (hdigits : ∀ b ∈ w, isDigit b = true) :
    w = utf8 (toString (valueOf w)) := by
  have hfirst : ∀ {b : UInt8} (s : Bytes), isDigit b = true → b ≠ 48 →
      (∀ c ∈ s, isDigit c = true) → b :: s = utf8 (toString (valueOf (b :: s))) := by
    intro b s hb hne hs
    have htext := utf8_toString_digits (Number.digit_pos hb hne) hs
    rw [Number.utf8_toString_of_digit hb, ← Nat.zero_add (digit b)] at htext
    exact htext
  have htail := fun b hb => hdigits b (List.mem_of_mem_tail hb)
  cases h with
  | zero => rw [valueOf, List.foldl_cons, List.foldl_nil, Nat.zero_mul, Nat.zero_add, Number.utf8_toString_of_digit rfl]
  | single hb hne | many hb hne => exact hfirst _ hb hne htail

theorem foldl_digitByte {l : List Char} (hl : ∀ c ∈ l, c.isDigit = true) (a : Nat) :
    (l.map digitByte).foldl (fun n b => n * 10 + digit b) a = Nat.ofDigitChars 10 l a := by
  induction l generalizing a with
  | nil => rfl
  | cons c l ih =>
    obtain ⟨hc,hl⟩ := List.forall_mem_cons.mp hl
    rw [List.map_cons, List.foldl_cons, ih hl, digit_digitByte hc, Nat.ofDigitChars_cons,
      Nat.mul_comm]

theorem valueOf_utf8 (n : Nat) : valueOf (utf8 (toString n)) = n := by
  rw [valueOf, utf8_toString, foldl_digitByte fun c hc => isDigit_of_mem_digits hc,
    Nat.ofDigitChars_ten_toDigits]

/-! ## What is read -/

theorem NumberText.size {w s t : Bytes} (h : NumberText w s t) (hw : Exact w) :
    SizeText (valueOf w) s t := by
  obtain ⟨hnumeral,rfl⟩ := h
  obtain ⟨hdigits,hlt⟩ := hw
  have heq := (hnumeral.whole_of_digits hdigits).eq_utf8 hdigits
  exact ⟨hlt,congrArg (· ++ t) heq⟩

theorem exact_of_accepts {w : Bytes} (h : Accepts .size (NumberText w)) : Exact w := by
  obtain ⟨s,u,t,n,t',hs,hu,ht,hrun⟩ := h
  obtain ⟨b,r,hdrop,-,⟨hlt,htext⟩,-⟩ := readSize_eq_ok hrun
  obtain ⟨c,v,hc,hspace,-⟩ := hu.value.head
  obtain rfl := agrees_size.rest_eq hrun hs hu.value ht
  rw [hc] at hs
  rw [hs.dropSpace_cons hspace] at hdrop
  rw [← hdrop, ← hc, hu.2] at htext
  obtain rfl := List.append_cancel_right htext
  refine ⟨?_,(valueOf_utf8 n).symm ▸ hlt⟩
  rw [utf8_toString]
  intro b hb
  obtain ⟨d,hd,rfl⟩ := List.mem_map.mp hb
  exact isDigit_digitByte (isDigit_of_mem_digits hd)

end PinnedPool.Json
