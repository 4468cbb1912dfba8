import PinnedPool.Proofs.Json.Wellformed

/-! # What passes is in the grammar

Strings that are read or passed over, and values that are passed over, are phrases of the grammar. The
check of a value keeps its open brackets on a stack, so what it has accepted is a value only together
with what closes the brackets around it.
-/
namespace PinnedPool.Json

/-! ## Strings -/

theorem forall_byte {p : UInt8 → Prop} (h : ∀ n < 256, p (UInt8.ofNat n)) (b : UInt8) : p b := by
  have hb := h b.toNat b.toNat_lt
  rw [UInt8.ofNat_toNat] at hb
  exact hb

theorem hexDigit_of_eq {b : UInt8} {d : Nat} (h : hexDigit? b = some d) : HexDigit b d := by
  have hall : ∀ b, ∀ d ∈ hexDigit? b, HexDigit b d := forall_byte (by decide +kernel)
  exact hall b d h

theorem HexDigit.lt {b : UInt8} {d : Nat} (h : HexDigit b d) : d < 16 := by
  have hlower : (utf8 "0123456789abcdef").length = 16 := by decide +kernel
  have hupper : (utf8 "0123456789ABCDEF").length = 16 := by decide +kernel
  rcases h with h | h
  · exact hlower ▸ (List.getElem?_eq_some_iff.mp h).1
  · exact hupper ▸ (List.getElem?_eq_some_iff.mp h).1

theorem hex_of_readHex {s t : Bytes} {n : Nat} (h : readHex s = .ok (n,t)) : Hex n s t := by
  unfold readHex at h
  split at h
  · split at h
    · rename_i ha hb hc hd
      cases h
      exact ⟨_,_,_,_,_,_,_,_,rfl,hexDigit_of_eq ha,hexDigit_of_eq hb,hexDigit_of_eq hc,
        hexDigit_of_eq hd,rfl⟩
    · cases h
  · cases h

theorem Hex.lt {n : Nat} {s t : Bytes} (h : Hex n s t) : n < 0x10000 := by
  obtain ⟨a,b,c,d,w,x,y,z,-,ha,hb,hc,hd,rfl⟩ := h
  have := ha.lt
  have := hb.lt
  have := hc.lt
  have := hd.lt
  omega

theorem mem_shortEscapes {b c : UInt8} (h : shortEscape? b = some c) : (b,c) ∈ shortEscapes := by
  have hall : ∀ b, ∀ c ∈ shortEscape? b, (b,c) ∈ shortEscapes := forall_byte (by decide +kernel)
  exact hall b c h

theorem passByte_eq_ok {b : UInt8} {s t : Bytes} (h : passByte b s = .ok t) : s = b :: t := by
  unfold passByte at h
  split at h
  · cases h
  · split at h
    · rename_i hb
      cases h
      rw [hb]
    · cases h

theorem toNat_ofNat {n : Nat} (h : n < 0xD800 ∨ 0xDFFF < n ∧ n < 0x110000) :
    (Char.ofNat n).toNat = n := by
  rw [Char.ofNat, dif_pos h]
  rfl

theorem isTrailing_iff {n : Nat} : isTrailing n = true ↔ 0xDC00 ≤ n ∧ n ≤ 0xDFFF := by
  simp [isTrailing]

theorem isLeading_iff {n : Nat} : isLeading n = true ↔ 0xD800 ≤ n ∧ n ≤ 0xDBFF := by
  simp [isLeading]

/-- An escape of a code point that is read is a point or a pair. -/
theorem spells_of_readPoint {s u d e t : Bytes} (h : readPoint s = .ok (d,u)) (hu : Spells u e t) :
    Spells (backslash :: letterU :: s) (d ++ e) t := by
  unfold readPoint at h
  split at h
  · cases h
  · rename_i n r hn
    have hhex := hex_of_readHex hn
    have hlt := hhex.lt
    split at h
    · cases h
    · rename_i htrailing
      rw [isTrailing_iff] at htrailing
      split at h
      · rename_i hleading
        rw [isLeading_iff] at hleading
        split at h
        · cases h
        · rename_i r₁ h₁
          split at h
          · cases h
          · rename_i r₂ h₂
            split at h
            · cases h
            · rename_i m r₃ h₃
              split at h
              · rename_i hm
                rw [isTrailing_iff] at hm
                obtain ⟨rfl,rfl⟩ := Prod.mk.inj (Except.ok.inj h)
                have hpoint : (Char.ofNat (pairPoint n m)).toNat = pairPoint n m :=
                  toNat_ofNat (by unfold pairPoint; omega)
                have hhigh : 0x10000 ≤ (Char.ofNat (pairPoint n m)).toNat := by
                  rw [hpoint]
                  unfold pairPoint
                  omega
                have hlead :
                    0xD800 + ((Char.ofNat (pairPoint n m)).toNat - 0x10000) / 0x400 = n := by
                  rw [hpoint]
                  unfold pairPoint
                  omega
                have htrail :
                    0xDC00 + ((Char.ofNat (pairPoint n m)).toNat - 0x10000) % 0x400 = m := by
                  rw [hpoint]
                  unfold pairPoint
                  omega
                rw [passByte_eq_ok h₁, passByte_eq_ok h₂] at hhex
                exact .pair hhigh (hlead.symm ▸ hhex) (htrail.symm ▸ hex_of_readHex h₃) hu
              · cases h
      · rename_i hleading
        rw [isLeading_iff] at hleading
        cases h
        have hpoint : (Char.ofNat n).toNat = n := toNat_ofNat (by omega)
        refine .point (c := Char.ofNat n) ?_ ?_ hu
        · rw [hpoint]
          exact hlt
        · rw [hpoint]
          exact hhex

theorem spells_of_readEscape {s u d e t : Bytes} (h : readEscape s = .ok (d,u))
    (hu : Spells u e t) : Spells (backslash :: s) (d ++ e) t := by
  unfold readEscape at h
  split at h
  · cases h
  · split at h
    · rename_i hc
      cases h
      exact .short (mem_shortEscapes hc) hu
    · split at h
      · rename_i hb
        obtain rfl := hb
        exact spells_of_readPoint h hu
      · cases h

/-- A string that is read spells what has been read. -/
theorem spells_of_readText {s d t : Bytes} (h : readText s = .ok (d,t)) : Spells s d t := by
  fun_induction readText s generalizing d t with
  | case1 => cases h
  | case2 =>
    cases h
    exact .close
  | case3 => cases h
  | case4 => cases h
  | case5 s d₁ u hu d₂ v hv _ ih =>
    cases h
    exact spells_of_readEscape hu (ih hv)
  | case6 => cases h
  | case7 => cases h
  | case8 b s hquote hescape hlow d₁ u hu ih =>
    cases h
    exact .plain ⟨UInt8.not_lt.mp hlow,hquote,hescape⟩ (ih hu)

theorem quoted_of_skipEscape {s u t : Bytes} (h : skipEscape s = .ok u) (hu : Quoted u t) :
    Quoted (backslash :: s) t := by
  unfold skipEscape at h
  split at h
  · cases h
  · split at h
    · rename_i hc
      cases h
      exact .short (mem_shortEscapes hc) hu
    · split at h
      · rename_i hb
        obtain rfl := hb
        split at h
        · cases h
        · rename_i hn
          cases h
          exact .point (hex_of_readHex hn) hu
      · cases h

/-- A string that is passed over has only legal escapes and no control character. -/
theorem quoted_of_skipText {s t : Bytes} (h : skipText s = .ok t) : Quoted s t := by
  fun_induction skipText s generalizing t with
  | case1 => cases h
  | case2 =>
    cases h
    exact .close
  | case3 => cases h
  | case4 s u hu _ ih => exact quoted_of_skipEscape hu (ih h)
  | case5 => cases h
  | case6 b s hquote hescape hlow ih =>
    exact .plain ⟨UInt8.not_lt.mp hlow,hquote,hescape⟩ (ih h)

/-! ## Numbers -/

theorem digits_dropDigits {b : UInt8} (hb : isDigit b = true) (s : Bytes) :
    Digits (b :: s) (dropDigits s) := by
  induction s generalizing b with
  | nil => exact .last hb
  | cons c s ih =>
    cases hc : isDigit c with
    | false =>
      rw [dropDigits_eq (by rintro _ ⟨⟩; exact hc)]
      exact .last hb
    | true =>
      rw [dropDigits, List.dropWhile_cons_of_pos hc]
      exact .cons hb (ih hc)

theorem exponent_of_skipExponent {m : UInt8} (hm : isExponentMark m = true) {s t : Bytes}
    (h : skipExponent s = .ok t) : Exponent (m :: s) t := by
  unfold skipExponent at h
  cases s with
  | nil => cases h
  | cons b s =>
    simp only at h
    split at h
    · cases h
    · rename_i c r hr
      split at h
      · rename_i hc
        cases h
        split at hr
        · rename_i hb
          obtain rfl := hr
          exact .signed hm hb (digits_dropDigits hc _)
        · cases hr
          exact .bare hm (digits_dropDigits hc _)
      · cases h

theorem exponent_of_skipTail {s t : Bytes} (h : skipTail s = .ok t) : Exponent s t := by
  unfold skipTail at h
  split at h
  · cases h
    exact .none
  · split at h
    · rename_i hm
      exact exponent_of_skipExponent hm h
    · cases h
      exact .none

theorem fraction_of_skipRest {s t : Bytes} (h : skipRest s = .ok t) :
    ∃ v, Fraction s v ∧ Exponent v t := by
  unfold skipRest at h
  split at h
  · cases h
    exact ⟨[],.none,.none⟩
  · rename_i b s
    split at h
    · rename_i hb
      obtain rfl := hb
      unfold skipFraction at h
      split at h
      · cases h
      · split at h
        · rename_i hd
          exact ⟨_,.some (digits_dropDigits hd _),exponent_of_skipTail h⟩
        · cases h
    · exact ⟨b :: s,.none,exponent_of_skipTail h⟩

theorem numeral_of_skipUnsigned {s t : Bytes} (h : skipUnsigned s = .ok t) :
    Numeral s t ∧ Numeral (minus :: s) t := by
  have hwhole : ∃ u, Whole s u ∧ skipRest u = .ok t := by
    unfold skipUnsigned at h
    split at h
    · cases h
    · rename_i b s
      split at h
      · rename_i hb
        obtain rfl := hb
        split at h
        · exact ⟨[],.zero,h⟩
        · split at h
          · cases h
          · exact ⟨_,.zero,h⟩
      · rename_i hzero
        split at h
        · rename_i hb
          have hdigits := digits_dropDigits hb s
          generalize dropDigits s = u at hdigits h
          cases hdigits with
          | last => exact ⟨_,.single hb hzero,h⟩
          | cons _ hd => exact ⟨_,.many hb hzero hd,h⟩
        · cases h
  obtain ⟨u,hu,hrest⟩ := hwhole
  obtain ⟨v,hv,ht⟩ := fraction_of_skipRest hrest
  exact ⟨.positive hu hv ht,.negative hu hv ht⟩

/-! ## Values -/

theorem eq_append_of_readLetters {w s t : Bytes} (h : readLetters w s = .ok t) : s = w ++ t := by
  induction w generalizing s with
  | nil =>
    cases h
    rfl
  | cons b w ih =>
    cases s with
    | nil => cases h
    | cons c s =>
      rw [readLetters] at h
      split at h
      · rename_i hc
        rw [hc, ih h, List.cons_append]
      · cases h

def Literal.word : Literal → String
  | null => "null"
  | yes => "true"
  | no => "false"

theorem utf8_word {b : UInt8} {l : Literal} (h : Literal.ofLetter? b = some l) :
    utf8 l.word = b :: l.letters := by
  have hall : ∀ b, ∀ l ∈ Literal.ofLetter? b, utf8 l.word = b :: l.letters :=
    forall_byte (by decide +kernel)
  exact hall b l h

theorem value_of_literal {b : UInt8} {l : Literal} (h : Literal.ofLetter? b = some l) (t : Bytes) :
    Value (b :: (l.letters ++ t)) t := by
  have hword : l.word ∈ ["null", "true", "false"] := by cases l <;> decide
  have hvalue := Wellformed.literal (t := t) hword
  rw [utf8_word h] at hvalue
  exact hvalue

theorem value_of_skipScalar {b : UInt8} {s t : Bytes} (h : skipScalar b s = .ok t) :
    Value (b :: s) t := by
  unfold skipScalar at h
  split at h
  · rename_i hl
    rw [eq_append_of_readLetters h]
    exact value_of_literal hl t
  · split at h
    · rename_i hb
      rw [hb]
      exact .number (numeral_of_skipUnsigned h).2
    · split at h
      · exact .number (numeral_of_skipUnsigned h).1
      · split at h
        · rename_i hb
          rw [hb]
          exact .text (quoted_of_skipText h)
        · cases h

theorem colon_of_readColon {s t : Bytes} (h : readColon s = .ok t) : Space s (colon :: t) := by
  unfold readColon at h
  split at h
  · cases h
  · rename_i hs
    split at h
    · rename_i hb
      cases h
      exact space_of_dropSpace (hb ▸ hs)
    · cases h

theorem key_of_skipKey {s t : Bytes} (h : skipKey s = .ok t) :
    ∃ k c, Space s (quote :: k) ∧ Quoted k c ∧ Space c (colon :: t) := by
  unfold skipKey at h
  split at h
  · cases h
  · rename_i r hs
    split at h
    · rename_i hb
      split at h
      · cases h
      · rename_i c hc
        exact ⟨r,c,space_of_dropSpace (hb ▸ hs),quoted_of_skipText hc,colon_of_readColon h⟩
    · cases h

/-- What stands in a bracket. -/
def Bracket.phrase : Bracket → Phrase
  | list => .items
  | object => .members

/-- What comes after a value in a bracket, up to the end of the bracket. -/
inductive Tail (k : Bracket) (s t : Bytes) : Prop
  | close : Space s (k.closing :: t) → Tail k s t
  | comma {u} : Space s (comma :: u) → Wellformed k.phrase u t → Tail k s t

/-- The brackets are closed one after the other. -/
def Closes : List Bracket → Bytes → Bytes → Prop
  | [], s, t => s = t
  | k :: o, s, t => ∃ u, Tail k s u ∧ Closes o u t

/-- What is left to come from a place with the given open brackets. -/
def Remainder : Place → List Bracket → Bytes → Bytes → Prop
  | .value, o, s, t => ∃ u v, Space s u ∧ Value u v ∧ Closes o v t
  | .opened, k :: o, s, t =>
    ∃ u, (Space s (k.closing :: u) ∨ Wellformed k.phrase s u) ∧ Closes o u t
  | .opened, [], s, t => s = t
  | .after, o, s, t => Closes o s t

/-- A value and what comes after it in its bracket, behind what leads up to it. -/
theorem phrase_of_lead {k : Bracket} {s r u v w t : Bytes} (hs : Space s r)
    (h : skipLead k r = .ok u) (hu : Space u v) (hv : Value v w) (hw : Tail k w t) :
    Wellformed k.phrase s t := by
  cases k with
  | list =>
    cases h
    cases hw with
    | close hw => exact .lastItem (hs.trans hu) hv hw
    | comma hw ht => exact .item (hs.trans hu) hv hw ht
  | object =>
    obtain ⟨k,c,hk,hc,hcolon⟩ := key_of_skipKey h
    cases hw with
    | close hw => exact .lastMember (hs.trans hk) hc hcolon hu hv hw
    | comma hw ht => exact .member (hs.trans hk) hc hcolon hu hv hw ht

/-- The check leaves a text only where all open brackets are closed around phrases of the grammar. -/
theorem remainder_of_skipFrom {p : Place} {o : List Bracket} {s t : Bytes}
    (h : skipFrom p o s = .ok t) : Remainder p o s t := by
  fun_induction skipFrom p o s with
  | case1 => cases h
  | case2 s o r hs ih =>
    obtain ⟨u,hu,ho⟩ := ih h
    exact ⟨_,u,space_of_dropSpace hs,hu.elim .emptyList .list,ho⟩
  | case3 s o r hs _ ih =>
    obtain ⟨u,hu,ho⟩ := ih h
    exact ⟨_,u,space_of_dropSpace hs,hu.elim .emptyObject .object,ho⟩
  | case4 => cases h
  | case5 s o b r hs _ _ u hu ih =>
    exact ⟨_,u,space_of_dropSpace hs,value_of_skipScalar hu,ih h⟩
  | case6 p s hp =>
    cases h
    cases p with
    | value => exact absurd rfl hp
    | opened | after => rfl
  | case7 => cases h
  | case8 s k o r hs ih => exact ⟨r,.inl (space_of_dropSpace hs),ih h⟩
  | case9 => cases h
  | case10 s k o b r hs _ u hu ih =>
    obtain ⟨v,w,hv,hw,x,hx,ho⟩ := ih h
    exact ⟨x,.inr (phrase_of_lead (space_of_dropSpace hs) hu hv hw hx),ho⟩
  | case11 => cases h
  | case12 => cases h
  | case13 s k o r u hu hs ih =>
    obtain ⟨v,w,hv,hw,x,hx,ho⟩ := ih h
    exact ⟨x,.comma (space_of_dropSpace hs) (phrase_of_lead .none hu hv hw hx),ho⟩
  | case14 s k o r hs _ ih => exact ⟨r,.close (space_of_dropSpace hs),ih h⟩
  | case15 => cases h

/-- Whatever is passed over is white space and a value. -/
theorem value_of_skipValue {s t : Bytes} (h : skipValue s = .ok t) : ∃ u, Space s u ∧ Value u t := by
  obtain ⟨u,v,hs,hu,rfl⟩ := remainder_of_skipFrom h
  exact ⟨u,hs,hu⟩

end PinnedPool.Json
