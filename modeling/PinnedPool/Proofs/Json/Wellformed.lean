import PinnedPool.Json.Skip
import PinnedPool.Proofs.Json.Spelling

/-! # Values and how they are passed over

The grammar of values, and the check that passes over them: it stops right behind the value, however
deep its brackets are nested. The grammar says nothing of the stack of open brackets that the check
carries along, so a value is passed over under any stack.
-/
namespace PinnedPool.Json

inductive Digits : Bytes → Bytes → Prop
  | last {b s} : isDigit b = true → Digits (b :: s) s
  | cons {b s t} : isDigit b = true → Digits s t → Digits (b :: s) t

/-- The digits of an integer. A zero comes alone. -/
inductive Whole : Bytes → Bytes → Prop
  | zero {s} : Whole (48 :: s) s
  | single {b s} : isDigit b = true → b ≠ 48 → Whole (b :: s) s
  | many {b s t} : isDigit b = true → b ≠ 48 → Digits s t → Whole (b :: s) t

inductive Fraction : Bytes → Bytes → Prop
  | none {s} : Fraction s s
  | some {s t} : Digits s t → Fraction (point :: s) t

inductive Exponent : Bytes → Bytes → Prop
  | none {s} : Exponent s s
  | bare {m s t} : isExponentMark m = true → Digits s t → Exponent (m :: s) t
  | signed {m b s t} : isExponentMark m = true → b = plus ∨ b = minus → Digits s t →
    Exponent (m :: b :: s) t

inductive Numeral : Bytes → Bytes → Prop
  | positive {s u v t} : Whole s u → Fraction u v → Exponent v t → Numeral s t
  | negative {s u v t} : Whole s u → Fraction u v → Exponent v t → Numeral (minus :: s) t

inductive Phrase where
  | value
  | items
  | members

/-- A value, or the items or members after an opening bracket up to the closing one. -/
inductive Wellformed : Phrase → Bytes → Bytes → Prop
  | literal {w t} : w ∈ ["null", "true", "false"] → Wellformed .value (utf8 w ++ t) t
  | number {s t} : Numeral s t → Wellformed .value s t
  | text {s t} : Quoted s t → Wellformed .value (quote :: s) t
  | emptyList {s t} : Space s (listClose :: t) → Wellformed .value (listOpen :: s) t
  | list {s t} : Wellformed .items s t → Wellformed .value (listOpen :: s) t
  | emptyObject {s t} : Space s (objectClose :: t) → Wellformed .value (objectOpen :: s) t
  | object {s t} : Wellformed .members s t → Wellformed .value (objectOpen :: s) t
  | lastItem {s u v t} : Space s u → Wellformed .value u v → Space v (listClose :: t) →
    Wellformed .items s t
  | item {s u v w t} : Space s u → Wellformed .value u v → Space v (comma :: w) →
    Wellformed .items w t → Wellformed .items s t
  | lastMember {s k c u v w t} : Space s (quote :: k) → Quoted k c → Space c (colon :: u) →
    Space u v → Wellformed .value v w → Space w (objectClose :: t) → Wellformed .members s t
  | member {s k c u v w x t} : Space s (quote :: k) → Quoted k c → Space c (colon :: u) →
    Space u v → Wellformed .value v w → Space w (comma :: x) → Wellformed .members x t →
    Wellformed .members s t

abbrev Value : Bytes → Bytes → Prop := Wellformed .value

/-! ## Numbers -/

def NoDigit (t : Bytes) : Prop := ∀ b ∈ t.head?, isDigit b = false

theorem Ends.noDigit {t : Bytes} (h : Ends t) : NoDigit t := fun b hb => (h b hb).1

theorem dropDigits_eq {t : Bytes} (h : NoDigit t) : dropDigits t = t := by
  cases t with
  | nil => rfl
  | cons b t =>
    rw [dropDigits, List.dropWhile_cons_of_neg (by simp [h b rfl])]

theorem Digits.drop {s t : Bytes} (h : Digits s t) (ht : NoDigit t) : dropDigits s = t := by
  induction h with
  | last hb =>
    rw [dropDigits, List.dropWhile_cons_of_pos hb]
    exact dropDigits_eq ht
  | cons hb _ ih =>
    rw [dropDigits, List.dropWhile_cons_of_pos hb]
    exact ih ht

/-- A run of digits is its first digit and those that follow. -/
theorem Digits.head {s t : Bytes} (h : Digits s t) (ht : NoDigit t) :
    ∃ b r, s = b :: r ∧ isDigit b = true ∧ dropDigits r = t := by
  cases h with
  | last hb => exact ⟨_,_,rfl,hb,dropDigits_eq ht⟩
  | cons hb h => exact ⟨_,_,rfl,hb,h.drop ht⟩

theorem not_sign_of_digit {b : UInt8} (h : isDigit b = true) : ¬(b = plus ∨ b = minus) := by
  rintro (rfl | rfl) <;> cases h

theorem skipExponent_digits {s t : Bytes} (h : Digits s t) (ht : NoDigit t) :
    skipExponent s = .ok t := by
  obtain ⟨b,r,rfl,hb,hr⟩ := h.head ht
  simp only [skipExponent, if_neg (not_sign_of_digit hb), hb, ↓reduceIte, hr]

theorem skipExponent_signed {b : UInt8} {s t : Bytes} (hb : b = plus ∨ b = minus)
    (h : Digits s t) (ht : NoDigit t) : skipExponent (b :: s) = .ok t := by
  obtain ⟨c,r,rfl,hc,hr⟩ := h.head ht
  simp only [skipExponent, if_pos hb, hc, ↓reduceIte, hr]

theorem Exponent.skip {s t : Bytes} (h : Exponent s t) (ht : Ends t) : skipTail s = .ok t := by
  cases h with
  | none =>
    cases s with
    | nil => rfl
    | cons b s => simp only [skipTail, ht.head.2.2, Bool.false_eq_true, ↓reduceIte]
  | bare hm h => rw [skipTail, if_pos hm, skipExponent_digits h ht.noDigit]
  | signed hm hb h => rw [skipTail, if_pos hm, skipExponent_signed hb h ht.noDigit]

theorem isDigit_of_mark {b : UInt8} (h : isExponentMark b = true) : isDigit b = false := by
  simp only [isExponentMark, Bool.or_eq_true, decide_eq_true_eq] at h
  rcases h with rfl | rfl <;> rfl

theorem Exponent.noDigit {s t : Bytes} (h : Exponent s t) (ht : Ends t) : NoDigit s := by
  cases h with
  | none => exact ht.noDigit
  | bare hm | signed hm =>
    rintro _ ⟨⟩
    exact isDigit_of_mark hm

theorem Fraction.noDigit {s t : Bytes} (h : Fraction s t) (ht : NoDigit t) : NoDigit s := by
  cases h with
  | none => exact ht
  | some =>
    rintro _ ⟨⟩
    rfl

theorem Fraction.skip {s u t : Bytes} (h : Fraction s u) (he : Exponent u t) (ht : Ends t) :
    skipRest s = .ok t := by
  cases h with
  | none =>
    cases s with
    | nil => exact he.skip ht
    | cons b s =>
      have hb : b ≠ point := by
        cases he with
        | none => exact ht.head.2.1
        | bare hm | signed hm =>
          rintro rfl
          cases hm
      rw [skipRest, if_neg hb, he.skip ht]
  | some hd =>
    obtain ⟨b,r,rfl,hb,hr⟩ := hd.head (he.noDigit ht)
    rw [skipRest, if_pos rfl, skipFraction, if_pos hb, hr, he.skip ht]

theorem skipUnsigned_zero {s : Bytes} (h : NoDigit s) : skipUnsigned (48 :: s) = skipRest s := by
  cases s with
  | nil => rfl
  | cons b s => simp only [skipUnsigned, h b rfl, Bool.false_eq_true, ↓reduceIte]

theorem skipUnsigned_digit {b : UInt8} (hb : isDigit b = true) (hne : b ≠ 48) (s : Bytes) :
    skipUnsigned (b :: s) = skipRest (dropDigits s) := by
  rw [skipUnsigned.eq_def]
  simp only [if_neg hne, hb, ↓reduceIte]

theorem Whole.skip {s u v t : Bytes} (h : Whole s u) (hf : Fraction u v) (he : Exponent v t)
    (ht : Ends t) : skipUnsigned s = .ok t := by
  have hu := hf.noDigit (he.noDigit ht)
  have hrest := hf.skip he ht
  cases h with
  | zero => rw [skipUnsigned_zero hu, hrest]
  | single hb hne => rw [skipUnsigned_digit hb hne, dropDigits_eq hu, hrest]
  | many hb hne h => rw [skipUnsigned_digit hb hne, h.drop hu, hrest]

theorem Whole.head {s t : Bytes} (h : Whole s t) : ∃ b r, s = b :: r ∧ isDigit b = true := by
  cases h with
  | zero => exact ⟨_,_,rfl,rfl⟩
  | single hb | many hb => exact ⟨_,_,rfl,hb⟩

/-! ## Scalars -/

theorem ne_of_isDigit {b c : UInt8} (hb : isDigit b = true) (hc : isDigit c = false) : b ≠ c := by
  rintro rfl
  rw [hb] at hc
  cases hc

theorem ofLetter?_of_isDigit {b : UInt8} (hb : isDigit b = true) : Literal.ofLetter? b = none := by
  rw [Literal.ofLetter?, if_neg (ne_of_isDigit hb rfl), if_neg (ne_of_isDigit hb rfl),
    if_neg (ne_of_isDigit hb rfl)]

theorem isSpace_of_isDigit {b : UInt8} (hb : isDigit b = true) : isSpace b = false := by
  simp [isSpace, ne_of_isDigit hb (c := 32) rfl, ne_of_isDigit hb (c := 10) rfl,
    ne_of_isDigit hb (c := 9) rfl, ne_of_isDigit hb (c := 13) rfl]

theorem skipScalar_digit {b : UInt8} (hb : isDigit b = true) (s : Bytes) :
    skipScalar b s = skipUnsigned (b :: s) := by
  have hne : b ≠ minus := ne_of_isDigit hb rfl
  simp only [skipScalar, ofLetter?_of_isDigit hb, hne, hb, ↓reduceIte]

/-- Begins a value that is no list and no object, which is passed up to `t`. -/
structure Scalar (b : UInt8) (s t : Bytes) : Prop where
  skip : skipScalar b s = .ok t
  space : isSpace b = false
  listOpen : b ≠ listOpen
  listClose : b ≠ listClose
  objectOpen : b ≠ objectOpen

theorem Numeral.scalar {s t : Bytes} (h : Numeral s t) (ht : Ends t) :
    ∃ b r, s = b :: r ∧ Scalar b r t := by
  cases h with
  | positive hw hf he =>
    obtain ⟨b,r,rfl,hb⟩ := hw.head
    have hskip := hw.skip hf he ht
    exact ⟨b,r,rfl,(skipScalar_digit hb r).trans hskip,isSpace_of_isDigit hb,
      ne_of_isDigit hb rfl,ne_of_isDigit hb rfl,ne_of_isDigit hb rfl⟩
  | negative hw hf he =>
    have hskip := hw.skip hf he ht
    exact ⟨_,_,rfl,hskip,rfl,by decide,by decide,by decide⟩

theorem readLetters_append (w t : Bytes) : readLetters w (w ++ t) = .ok t := by
  induction w with
  | nil => rfl
  | cons b w ih => rw [List.cons_append, readLetters, if_pos rfl, ih]

theorem Literal.scalar {w : String} (hw : w ∈ ["null", "true", "false"]) (t : Bytes) :
    ∃ b r, utf8 w ++ t = b :: r ∧ Scalar b r t := by
  have hletters : ∀ l b, ofLetter? b = some l → skipScalar b (l.letters ++ t) = .ok t := by
    intro l b hl
    rw [skipScalar, hl]
    exact readLetters_append ..
  simp only [List.mem_cons, List.not_mem_nil, or_false] at hw
  rcases hw with rfl | rfl | rfl
  · have hnull : utf8 "null" = 110 :: null.letters := by decide +kernel
    rw [hnull]
    exact ⟨_,_,rfl,hletters _ _ rfl,rfl,by decide,by decide,by decide⟩
  · have hyes : utf8 "true" = 116 :: yes.letters := by decide +kernel
    rw [hyes]
    exact ⟨_,_,rfl,hletters _ _ rfl,rfl,by decide,by decide,by decide⟩
  · have hno : utf8 "false" = 102 :: no.letters := by decide +kernel
    rw [hno]
    exact ⟨_,_,rfl,hletters _ _ rfl,rfl,by decide,by decide,by decide⟩

theorem Quoted.scalar {s t : Bytes} (h : Quoted s t) : Scalar quote s t where
  skip := h.skip
  space := rfl
  listOpen := by decide
  listClose := by decide
  objectOpen := by decide

/-! ## Brackets -/

section Steps
variable {s r : Bytes} {b : UInt8} (h : dropSpace s = b :: r) (o : List Bracket)
include h

theorem skipFrom_value : skipFrom .value o s =
    if b = listOpen then skipFrom .opened (.list :: o) r
    else if b = objectOpen then skipFrom .opened (.object :: o) r
    else
      match skipScalar b r with
      | .error f => .error f
      | .ok r => skipFrom .after o r := by
  rw [skipFrom]
  split
  · rename_i hs
    rw [h] at hs
    cases hs
  · rename_i hs
    rw [h] at hs
    cases hs
    split
    · rfl
    · split
      · rfl
      · split <;> simp_all

theorem skipFrom_opened (k : Bracket) : skipFrom .opened (k :: o) s =
    if b = k.closing then skipFrom .after o r
    else
      match skipLead k (b :: r) with
      | .error f => .error f
      | .ok r => skipFrom .value (k :: o) r := by
  rw [skipFrom]
  split
  · rename_i hs
    rw [h] at hs
    cases hs
  · rename_i hs
    rw [h] at hs
    cases hs
    split
    · rfl
    · split <;> simp_all

theorem skipFrom_after (k : Bracket) : skipFrom .after (k :: o) s =
    if b = comma then
      match skipLead k r with
      | .error f => .error f
      | .ok r => skipFrom .value (k :: o) r
    else if b = k.closing then skipFrom .after o r
    else .error ⟨k.unfinished, r⟩ := by
  rw [skipFrom]
  split
  · rename_i hs
    rw [h] at hs
    cases hs
  · rename_i hs
    rw [h] at hs
    cases hs
    split
    · split <;> simp_all
    · rfl

end Steps

theorem skipFrom_value_space {s u : Bytes} (h : Space s u) (o : List Bracket) :
    skipFrom .value o s = skipFrom .value o u := by
  have hdrop := h.dropSpace_eq
  cases hu : dropSpace u with
  | nil =>
    rw [hu] at hdrop
    rw [skipFrom, skipFrom]
    split
    · split <;> simp_all
    · simp_all
  | cons b r => rw [skipFrom_value hu, skipFrom_value (hdrop.trans hu)]

theorem Scalar.value {b : UInt8} {s t : Bytes} (h : Scalar b s t) (o : List Bracket) :
    skipFrom .value o (b :: s) = skipFrom .after o t := by
  rw [skipFrom_value (dropSpace_cons h.space s), if_neg h.listOpen, if_neg h.objectOpen, h.skip]

theorem skipFrom_list (s : Bytes) (o : List Bracket) :
    skipFrom .value o (listOpen :: s) = skipFrom .opened (.list :: o) s := by
  rw [skipFrom_value (dropSpace_cons rfl s), if_pos rfl]

theorem skipFrom_object (s : Bytes) (o : List Bracket) :
    skipFrom .value o (objectOpen :: s) = skipFrom .opened (.object :: o) s := by
  rw [skipFrom_value (dropSpace_cons rfl s), if_neg (by decide), if_pos rfl]

theorem Bracket.closing_space (k : Bracket) : isSpace k.closing = false := by
  cases k <;> rfl

theorem Bracket.closing_ne_comma (k : Bracket) : k.closing ≠ comma := by
  cases k <;> decide

theorem skipFrom_empty {k : Bracket} {s t : Bytes} (h : Space s (k.closing :: t))
    (o : List Bracket) : skipFrom .opened (k :: o) s = skipFrom .after o t := by
  rw [skipFrom_opened (h.dropSpace_cons k.closing_space), if_pos rfl]

theorem skipFrom_close {k : Bracket} {s t : Bytes} (h : Space s (k.closing :: t))
    (o : List Bracket) : skipFrom .after (k :: o) s = skipFrom .after o t := by
  rw [skipFrom_after (h.dropSpace_cons k.closing_space), if_neg k.closing_ne_comma, if_pos rfl]

theorem skipFrom_comma {k : Bracket} {s r t : Bytes} (h : Space s (comma :: r))
    (hlead : skipLead k r = .ok t) (o : List Bracket) :
    skipFrom .after (k :: o) s = skipFrom .value (k :: o) t := by
  rw [skipFrom_after (h.dropSpace_cons rfl), if_pos rfl, hlead]

theorem skipFrom_lead {k : Bracket} {s t r : Bytes} {b : UInt8} (h : Space s (b :: r))
    (hb : isSpace b = false) (hne : b ≠ k.closing) (hlead : skipLead k (b :: r) = .ok t)
    (o : List Bracket) : skipFrom .opened (k :: o) s = skipFrom .value (k :: o) t := by
  rw [skipFrom_opened (h.dropSpace_cons hb), if_neg hne, hlead]

theorem readColon_eq {s t : Bytes} (h : Space s (colon :: t)) : readColon s = .ok t := by
  rw [readColon, h.dropSpace_cons rfl]
  exact if_pos rfl

theorem skipKey_eq {s k c t : Bytes} (hs : Space s (quote :: k)) (hk : Quoted k c)
    (hc : Space c (colon :: t)) : skipKey s = .ok t := by
  rw [skipKey, hs.dropSpace_cons rfl]
  simp only [↓reduceIte, hk.skip, readColon_eq hc]

/-- A value begins with no white space and no closing bracket. -/
theorem Wellformed.head {s t : Bytes} (h : Value s t) :
    ∃ b r, s = b :: r ∧ isSpace b = false ∧ b ≠ listClose := by
  cases h with
  | literal hw =>
    obtain ⟨b,r,hs,hb⟩ := Literal.scalar hw t
    exact ⟨b,r,hs,hb.space,hb.listClose⟩
  | number h =>
    cases h with
    | positive hw =>
      obtain ⟨b,r,rfl,hb⟩ := hw.head
      exact ⟨b,r,rfl,isSpace_of_isDigit hb,ne_of_isDigit hb rfl⟩
    | negative => exact ⟨_,_,rfl,rfl,by decide⟩
  | text | emptyList | list | emptyObject | object => exact ⟨_,_,rfl,rfl,by decide⟩

/-- What the check does with a phrase. -/
def Passes (o : List Bracket) : Phrase → Bytes → Bytes → Prop
  | .value, s, t => Ends t → skipFrom .value o s = skipFrom .after o t
  | .items, s, t => skipFrom .value (.list :: o) s = skipFrom .after o t ∧
    skipFrom .opened (.list :: o) s = skipFrom .after o t
  | .members, s, t => (∃ r, skipKey s = .ok r ∧
      skipFrom .value (.object :: o) r = skipFrom .after o t) ∧
    skipFrom .opened (.object :: o) s = skipFrom .after o t

theorem passes_items {s u t : Bytes} {o : List Bracket} (hs : Space s u) (hu : Value u v)
    (h : skipFrom .value (.list :: o) u = skipFrom .after o t) : Passes o .items s t := by
  obtain ⟨b,r,rfl,hb,hne⟩ := hu.head
  exact ⟨(skipFrom_value_space hs _).trans h,(skipFrom_lead (k := .list) hs hb hne rfl o).trans h⟩

theorem passes_members {s k c u v t : Bytes} {o : List Bracket} (hs : Space s (quote :: k))
    (hk : Quoted k c) (hc : Space c (colon :: u)) (hu : Space u v)
    (h : skipFrom .value (.object :: o) v = skipFrom .after o t) : Passes o .members s t := by
  have hv := (skipFrom_value_space hu (.object :: o)).trans h
  have hkey := skipKey_eq (Space.none (s := quote :: k)) hk hc
  exact ⟨⟨u,skipKey_eq hs hk hc,hv⟩,(skipFrom_lead (k := .object) hs rfl (by decide) hkey o).trans hv⟩

/-- A phrase is passed over to its very end, whatever brackets are open around it. -/
theorem Wellformed.passes {p : Phrase} {s t : Bytes} (h : Wellformed p s t) :
    ∀ o, Passes o p s t := by
  -- on the grammar, for every stack: a phrase inside is passed with one bracket more
  induction h with
  | @literal w t hw =>
    intro o _
    obtain ⟨b,r,hs,hb⟩ := Literal.scalar hw t
    rw [hs]
    exact hb.value o
  | number h =>
    intro o ht
    obtain ⟨b,r,rfl,hb⟩ := h.scalar ht
    exact hb.value o
  | text h => exact fun o _ => h.scalar.value o
  | emptyList h => exact fun o _ => (skipFrom_list _ o).trans (skipFrom_empty (k := .list) h o)
  | list _ ih => exact fun o _ => (skipFrom_list _ o).trans (ih o).2
  | emptyObject h => exact fun o _ => (skipFrom_object _ o).trans (skipFrom_empty (k := .object) h o)
  | object _ ih => exact fun o _ => (skipFrom_object _ o).trans (ih o).2
  | lastItem hs hu hv ih =>
    intro o
    have hvalue := ih (.list :: o) (hv.ends (ends_listClose _))
    exact passes_items hs hu (hvalue.trans (skipFrom_close (k := .list) hv o))
  | item hs hu hv _ ih ih' =>
    intro o
    have hvalue := ih (.list :: o) (hv.ends (ends_comma _))
    have hcomma := skipFrom_comma (k := .list) hv rfl o
    exact passes_items hs hu (hvalue.trans (hcomma.trans (ih' o).1))
  | lastMember hs hk hc hu _ hw ih =>
    intro o
    have hvalue := ih (.object :: o) (hw.ends (ends_objectClose _))
    exact passes_members hs hk hc hu (hvalue.trans (skipFrom_close (k := .object) hw o))
  | member hs hk hc hu _ hw _ ih ih' =>
    intro o
    have hvalue := ih (.object :: o) (hw.ends (ends_comma _))
    obtain ⟨r,hkey,hr⟩ := (ih' o).1
    have hcomma := skipFrom_comma (k := .object) hw hkey o
    exact passes_members hs hk hc hu (hvalue.trans (hcomma.trans hr))

/-- A value that nobody asked for is skipped to its very end. -/
theorem Wellformed.skip {s u t : Bytes} (h : Value u t) (hs : Space s u) (ht : Ends t) :
    skipValue s = .ok t := by
  rw [skipValue, skipFrom_value_space hs, h.passes [] ht, skipFrom]
  decide

end PinnedPool.Json
