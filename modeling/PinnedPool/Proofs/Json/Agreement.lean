import PinnedPool.Proofs.Json.Soundness
import PinnedPool.Proofs.Json.Typed

/-! # Typed readers and the check stop at the same place

Whatever a typed reader takes, the check of a value that nobody asked for passes over as well, and
both go on from the same byte. So a member's value is used up whether or not its key is known.
-/
namespace PinnedPool.Json

/-- The brackets that are open underneath make no difference to the check of a value. -/
theorem skipFrom_under {p : Place} {k : List Bracket} {s t : Bytes} (hp : p = .opened → k ≠ [])
    (h : skipFrom p k s = .ok t) (o : List Bracket) :
    skipFrom p (k ++ o) s = skipFrom .after o t := by
  fun_induction skipFrom p k s with
  | case1 => cases h
  | case2 s k r hs ih =>
    rw [skipFrom_value hs, if_pos rfl]
    exact ih (fun _ => List.cons_ne_nil _ _) h
  | case3 s k r hs _ ih =>
    rw [skipFrom_value hs, if_neg (by decide), if_pos rfl]
    exact ih (fun _ => List.cons_ne_nil _ _) h
  | case4 => cases h
  | case5 s k b r hs hlist hobject u hu ih =>
    rw [skipFrom_value hs, if_neg hlist, if_neg hobject, hu]
    exact ih (fun hplace => Place.noConfusion hplace) h
  | case6 p s hvalue =>
    cases h
    cases p with
    | value => exact absurd rfl hvalue
    | opened => exact absurd rfl (hp rfl)
    | after => rfl
  | case7 => cases h
  | case8 s k o' r hs ih =>
    rw [List.cons_append, skipFrom_opened hs, if_pos rfl]
    exact ih (fun hplace => Place.noConfusion hplace) h
  | case9 => cases h
  | case10 s k o' b r hs hne u hu ih =>
    rw [List.cons_append, skipFrom_opened hs, if_neg hne, hu]
    exact ih (fun hplace => Place.noConfusion hplace) h
  | case11 => cases h
  | case12 => cases h
  | case13 s k o' r u hu hs ih =>
    rw [List.cons_append, skipFrom_after hs, if_pos rfl, hu]
    exact ih (fun hplace => Place.noConfusion hplace) h
  | case14 s k o' r hs hne ih =>
    rw [List.cons_append, skipFrom_after hs, if_neg hne, if_pos rfl]
    exact ih (fun hplace => Place.noConfusion hplace) h
  | case15 => cases h

theorem skipValue_under {s t : Bytes} (h : skipValue s = .ok t) (o : List Bracket) :
    skipFrom .value o s = skipFrom .after o t :=
  skipFrom_under (p := .value) (k := []) (fun hplace => Place.noConfusion hplace) h o

/-- The check passes over what the reader takes, whatever brackets are open. -/
def Agrees {α : Type} (r : Reader α) : Prop :=
  ∀ ⦃s a t⦄, r.run s = .ok (a,t) → ∀ o, skipFrom .value o s = skipFrom .after o t

/-- The two go on from the same byte after a value. -/
theorem Agrees.rest_eq {α : Type} {r : Reader α} (hr : Agrees r) {s u t t' : Bytes} {a : α}
    (h : r.run s = .ok (a,t')) (hs : Space s u) (hu : Value u t) (ht : Ends t) : t' = t := by
  have hskip := hu.skip hs ht
  rw [skipValue, hr h [], skipFrom] at hskip
  · cases hskip
    rfl
  · decide

theorem skipFrom_scalar {s r t : Bytes} {b : UInt8} (h : dropSpace s = b :: r)
    (hskip : skipScalar b r = .ok t) (hlist : b ≠ listOpen) (hobject : b ≠ objectOpen)
    (o : List Bracket) : skipFrom .value o s = skipFrom .after o t := by
  rw [skipFrom_value h, if_neg hlist, if_neg hobject, hskip]

/-! ## Sizes -/

namespace Number
variable {negative : Bool} {n : Nat} {s t : Bytes} {sig : Nat} {shift : Int}

theorem not_natural_of_ofParts : ofParts negative sig shift s ≠ .ok (.natural n,t) := by
  unfold ofParts
  split <;> simp

theorem not_natural_of_readExponent :
    readExponent negative sig shift s ≠ .ok (.natural n,t) := by
  intro h
  unfold readExponent at h
  split at h
  split at h
  · cases h
  · split at h
    · split at h
      split at h
      · split at h <;> simp at h
      · exact not_natural_of_ofParts h
    · cases h

theorem not_natural_of_readTail : readTail negative sig shift s ≠ .ok (.natural n,t) := by
  intro h
  unfold readTail at h
  split at h
  · exact not_natural_of_ofParts h
  · split at h
    · exact not_natural_of_readExponent h
    · exact not_natural_of_ofParts h

theorem not_natural_of_readFraction :
    readFraction negative sig shift s ≠ .ok (.natural n,t) := by
  intro h
  unfold readFraction at h
  split at h
  split at h
  · exact not_natural_of_readTail h
  · split at h
    · cases h
    · exact not_natural_of_readTail h

theorem not_natural_of_readLong : readLong negative sig s ≠ .ok (.natural n,t) := by
  intro h
  unfold readLong at h
  simp only at h
  split at h
  · exact not_natural_of_ofParts h
  · split at h
    · exact not_natural_of_readFraction h
    · exact not_natural_of_readTail h

theorem natural_of_ofInteger (h : ofInteger negative sig = .natural n) :
    negative = false ∧ sig = n := by
  unfold ofInteger at h
  split at h
  · split at h <;> cases h
  · cases h
    exact ⟨Bool.eq_false_iff.mpr ‹_›,rfl⟩

theorem natural_of_readRest (h : readRest negative sig s = .ok (.natural n,t)) :
    negative = false ∧ n = sig ∧ t = s ∧ skipRest s = .ok s := by
  unfold readRest at h
  split at h
  · obtain ⟨hn,ht⟩ := Prod.mk.inj (Except.ok.inj h)
    obtain ⟨hneg,hsig⟩ := natural_of_ofInteger hn
    exact ⟨hneg,hsig.symm,ht.symm,rfl⟩
  · split at h
    · exact absurd h not_natural_of_readFraction
    · split at h
      · exact absurd h not_natural_of_readExponent
      · rename_i hpoint hmark
        obtain ⟨hn,ht⟩ := Prod.mk.inj (Except.ok.inj h)
        obtain ⟨hneg,hsig⟩ := natural_of_ofInteger hn
        refine ⟨hneg,hsig.symm,ht.symm,?_⟩
        rw [skipRest, if_neg hpoint, skipTail, if_neg hmark]

theorem dropDigits_of_gather {a count : Nat} {k : Nat}
    (h : gather a count s = (sig,k,t)) (ht : startsWithDigit t = false) :
    dropDigits s = t := by
  induction s generalizing a count with
  | nil =>
    cases h
    rfl
  | cons b s ih =>
    unfold gather at h
    split at h
    · rename_i hb
      rw [dropDigits, List.dropWhile_cons_of_pos hb.1]
      exact ih h
    · cases h
      exact List.dropWhile_cons_of_neg (by simpa [startsWithDigit] using ht)

theorem digitByte_digitChar {b : UInt8} (hb : isDigit b = true) :
    digit b < 10 ∧ digitByte (digit b).digitChar = b := by
  have hall : ∀ b, isDigit b = true → digit b < 10 ∧ digitByte (digit b).digitChar = b :=
    forall_byte (by decide +kernel)
  exact hall b hb

theorem digit_pos {b : UInt8} (hb : isDigit b = true) (hne : b ≠ 48) : 0 < digit b := by
  refine Nat.pos_of_ne_zero fun hzero => hne ?_
  rw [← (digitByte_digitChar hb).2, hzero]
  rfl

theorem utf8_toString_of_digit {b : UInt8} (hb : isDigit b = true) :
    utf8 (toString (digit b)) = [b] := by
  obtain ⟨hten,hbyte⟩ := digitByte_digitChar hb
  rw [utf8_toString, Nat.toDigits_of_lt_base hten, List.map_singleton, hbyte]

/-- A digit more at the end of the numeral of a positive number. -/
theorem utf8_toString_digit {a : Nat} (ha : 0 < a) {b : UInt8} (hb : isDigit b = true) :
    utf8 (toString (a * 10 + digit b)) = utf8 (toString a) ++ [b] := by
  obtain ⟨hten,hbyte⟩ := digitByte_digitChar hb
  rw [utf8_toString, utf8_toString, Nat.mul_comm, ← Nat.toDigits_append_toDigits (by decide) ha hten,
    Nat.toDigits_of_lt_base hten, List.map_append, List.map_singleton, hbyte]

/-- Behind a first digit that is no zero, gathering spells a numeral digit by digit. -/
theorem gather_spells {a k k' : Nat} (ha : 0 < a) (hlt : a < wordBound)
    (h : gather a k s = (n,k',t)) :
    n < wordBound ∧ utf8 (toString a) ++ s = utf8 (toString n) ++ t := by
  induction s generalizing a k with
  | nil =>
    cases h
    exact ⟨hlt,rfl⟩
  | cons b s ih =>
    unfold gather at h
    split at h
    · rename_i hb
      obtain ⟨hdigit,hlt'⟩ := hb
      obtain ⟨hn,heq⟩ := ih (by omega) hlt' h
      rw [utf8_toString_digit ha hdigit, List.append_assoc] at heq
      exact ⟨hn,heq⟩
    · cases h
      exact ⟨hlt,rfl⟩

/-- A number that is read as a size is its numeral, and ends where the check of a number does. -/
theorem natural_of_readUnsigned (h : readUnsigned negative s = .ok (.natural n,t)) :
    negative = false ∧ SizeText n s t ∧ skipUnsigned s = .ok t := by
  unfold readUnsigned at h
  split at h
  · cases h
  · rename_i b s
    split at h
    · rename_i hzero
      obtain rfl := hzero
      split at h
      · cases h
      · rename_i hdigit
        obtain ⟨hneg,rfl,rfl,hskip⟩ := natural_of_readRest h
        have hno : NoDigit t := by
          intro c hc
          cases t with
          | nil => cases hc
          | cons d s =>
            cases hc
            simpa [startsWithDigit] using hdigit
        have hzero : utf8 (toString 0) = [48] := by
          rw [utf8_toString]
          rfl
        exact ⟨hneg,⟨by decide,by rw [hzero]; rfl⟩,(skipUnsigned_zero hno).trans hskip⟩
    · split at h
      · rename_i hzero hb
        generalize hg : gather (digit b) 1 s = g at h
        obtain ⟨sig,k,r⟩ := g
        simp only at h
        split at h
        · exact absurd h not_natural_of_readLong
        · rename_i hdigit
          obtain ⟨hneg,rfl,rfl,hskip⟩ := natural_of_readRest h
          have hdrop := dropDigits_of_gather hg (Bool.eq_false_iff.mpr hdigit)
          have hten := (digitByte_digitChar hb).1
          have hword : 10 < wordBound := by decide
          obtain ⟨hlt,htext⟩ := gather_spells (digit_pos hb hzero) (by omega) hg
          rw [utf8_toString_of_digit hb] at htext
          refine ⟨hneg,⟨hlt,htext⟩,?_⟩
          rw [skipUnsigned_digit hb hzero, hdrop, hskip]
      · cases h

end Number

theorem readSize_eq_ok {s t : Bytes} {n : Nat} (h : Reader.readSize s = .ok (n,t)) :
    ∃ b r, dropSpace s = b :: r ∧ isDigit b = true ∧ SizeText n (b :: r) t ∧
      skipUnsigned (b :: r) = .ok t := by
  unfold Reader.readSize at h
  split at h
  · cases h
  · rename_i b r hs
    split at h
    · rename_i hb
      split at h
      · cases h
      · rename_i hread
        cases h
        rcases (Bool.or_eq_true ..).mp hb with hminus | hdigit
        · obtain rfl := of_decide_eq_true hminus
          change Number.readUnsigned true r = _ at hread
          obtain ⟨hneg,-⟩ := Number.natural_of_readUnsigned hread
          cases hneg
        · rw [Number.read, if_neg (ne_of_isDigit hdigit rfl)] at hread
          obtain ⟨-,hn,hskip⟩ := Number.natural_of_readUnsigned hread
          exact ⟨b,r,hs,hdigit,hn,hskip⟩
      · cases h
      · cases h
    · cases h

theorem agrees_size : Agrees .size := by
  intro s n t h o
  obtain ⟨b,r,hs,hb,-,hskip⟩ := readSize_eq_ok h
  exact skipFrom_scalar hs ((skipScalar_digit hb r).trans hskip) (ne_of_isDigit hb rfl)
    (ne_of_isDigit hb rfl) o

/-! ## Flags and lists -/

theorem ofLetter?_eq_some {b : UInt8} {l : Literal} (h : Literal.ofLetter? b = some l) :
    b ≠ listOpen ∧ b ≠ objectOpen := by
  constructor
  · rintro rfl
    cases h
  · rintro rfl
    cases h

theorem skipScalar_letter {b : UInt8} {l : Literal} (h : Literal.ofLetter? b = some l)
    (s : Bytes) : skipScalar b s = readLetters l.letters s := by
  simp only [skipScalar, h]

theorem agrees_flag : Agrees .flag := by
  intro s b t h o
  obtain ⟨c,r,hs,hc,hr⟩ := Reader.readFlag_eq_ok h
  obtain ⟨hlist,hobject⟩ := ofLetter?_eq_some hc
  exact skipFrom_scalar hs ((skipScalar_letter hc r).trans hr) hlist hobject o

def placeOf (first : Bool) : Place := if first then .opened else .after

theorem skipFrom_of_close {k : Bracket} {s t : Bytes} (h : Space s (k.closing :: t))
    (first : Bool) (o : List Bracket) :
    skipFrom (placeOf first) (k :: o) s = skipFrom .after o t := by
  cases first with
  | false => exact skipFrom_close h o
  | true => exact skipFrom_empty h o

namespace Reader

theorem nextItem_eq_stop {first : Bool} {s t : Bytes} (h : nextItem first s = .ok (.stop t)) :
    Space s (listClose :: t) := by
  unfold nextItem at h
  split at h
  · cases h
  · rename_i hs
    split at h
    · rename_i hb
      cases h
      exact space_of_dropSpace (hb ▸ hs)
    · split at h
      · cases h
      · split at h
        · split at h
          · cases h
          · split at h <;> cases h
        · cases h

theorem nextItem_eq_item {first : Bool} {s u : Bytes} (h : nextItem first s = .ok (.item u)) :
    ∃ w b r, u = b :: r ∧ b ≠ listClose ∧ Leads first s w ∧ dropSpace w = b :: r := by
  unfold nextItem at h
  split at h
  · cases h
  · rename_i b r hs
    split at h
    · cases h
    · rename_i hclose
      split at h
      · rename_i hfirst
        cases h
        obtain rfl := hfirst
        exact ⟨s,b,r,rfl,hclose,.first,hs⟩
      · rename_i hfirst
        obtain rfl := Bool.eq_false_iff.mpr hfirst
        split at h
        · rename_i hcomma
          obtain rfl := hcomma
          split at h
          · cases h
          · rename_i c w hr
            split at h
            · cases h
            · rename_i hne
              cases h
              exact ⟨r,c,w,rfl,hne,.next (space_of_dropSpace hs),hr⟩
        · cases h

theorem nextItem_agrees {first : Bool} {s u : Bytes} (h : nextItem first s = .ok (.item u))
    (o : List Bracket) :
    skipFrom (placeOf first) (.list :: o) s = skipFrom .value (.list :: o) u := by
  obtain ⟨w,b,r,rfl,hne,hlead,hw⟩ := nextItem_eq_item h
  cases hlead with
  | first =>
    have hne' : b ≠ Bracket.list.closing := hne
    rw [placeOf, if_pos rfl, skipFrom_opened hw, if_neg hne']
    rfl
  | next hs =>
    rw [placeOf, if_neg (by decide), skipFrom_comma hs rfl]
    exact skipFrom_value_space (space_of_dropSpace hw) _

theorem readItems_agrees {α : Type} {item : Reader α} (hitem : Agrees item) {first : Bool}
    {s t : Bytes} {as : List α} (h : readItems item first s = .ok (as,t)) (o : List Bracket) :
    skipFrom (placeOf first) (.list :: o) s = skipFrom .after o t := by
  fun_induction readItems item first s generalizing as t with
  | case1 => cases h
  | case2 first s r hs =>
    cases h
    exact skipFrom_of_close (k := .list) (nextItem_eq_stop hs) first o
  | case3 => cases h
  | case4 => cases h
  | case5 first s u hs a v hu as' w hv ih =>
    cases h
    rw [nextItem_agrees hs, hitem hu]
    exact ih hv

end Reader

theorem agrees_list {α : Type} {item : Reader α} (hitem : Agrees item) : Agrees (.list item) := by
  intro s as t h o
  obtain ⟨r,hs,hr⟩ := Reader.readList_eq_ok h
  rw [skipFrom_value hs, if_pos rfl]
  exact Reader.readItems_agrees hitem hr o

/-! ## Records -/

namespace Reader
variable {σ : Type}

theorem nextKey_eq_stop {first : Bool} {s t : Bytes} (h : nextKey first s = .ok (.stop t)) :
    Space s (objectClose :: t) := by
  unfold nextKey at h
  split at h
  · cases h
  · rename_i hs
    split at h
    · rename_i hb
      cases h
      exact space_of_dropSpace (hb ▸ hs)
    · split at h
      · split at h <;> cases h
      · split at h
        · split at h
          · cases h
          · split at h
            · cases h
            · split at h <;> cases h
        · cases h

theorem nextKey_eq_item {first : Bool} {s u : Bytes} (h : nextKey first s = .ok (.item u)) :
    ∃ w, Leads first s w ∧ Space w (quote :: u) := by
  unfold nextKey at h
  split at h
  · cases h
  · rename_i b r hs
    split at h
    · cases h
    · split at h
      · rename_i hfirst
        obtain rfl := hfirst
        split at h
        · rename_i hb
          cases h
          exact ⟨s,.first,space_of_dropSpace (hb ▸ hs)⟩
        · cases h
      · rename_i hfirst
        obtain rfl := Bool.eq_false_iff.mpr hfirst
        split at h
        · rename_i hcomma
          obtain rfl := hcomma
          split at h
          · cases h
          · rename_i c w hr
            split at h
            · rename_i hc
              cases h
              exact ⟨r,.next (space_of_dropSpace hs),space_of_dropSpace (hc ▸ hr)⟩
            · split at h <;> cases h
        · cases h

theorem nextKey_agrees {first : Bool} {s u d c v : Bytes} (h : nextKey first s = .ok (.item u))
    (hu : readText u = .ok (d,c)) (hc : readColon c = .ok v) (o : List Bracket) :
    skipFrom (placeOf first) (.object :: o) s = skipFrom .value (.object :: o) v := by
  have hkey : ∀ {r}, Space r (quote :: u) → skipKey r = .ok v := by
    intro r hr
    exact skipKey_eq hr (spells_of_readText hu).quoted (colon_of_readColon hc)
  obtain ⟨w,hlead,hw⟩ := nextKey_eq_item h
  cases hlead with
  | first => exact skipFrom_lead (k := .object) hw rfl (by decide) (hkey .none) o
  | next hs => exact skipFrom_comma (k := .object) hs (hkey hw) o

section Members
variable {fields : List (Field σ)} (hfields : ∀ f ∈ fields, Agrees f.update)
include hfields

theorem readMember_agrees {key c t : Bytes} {x y : σ}
    (h : readMember (fieldOf? fields key) x c = .ok (y,t)) :
    ∃ v, readColon c = .ok v ∧ ∀ o, skipFrom .value o v = skipFrom .after o t := by
  obtain ⟨v,hv,⟨f,g,-,hf,hu,-⟩ | ⟨-,hu,-⟩⟩ := readMember_eq_ok h
  · exact ⟨v,hv,hfields f hf hu⟩
  · exact ⟨v,hv,skipValue_under hu⟩

theorem readMembers_agrees {seen : List String} {first : Bool} {x y : σ} {s t : Bytes}
    (h : readMembers fields seen first x s = .ok (y,t)) (o : List Bracket) :
    skipFrom (placeOf first) (.object :: o) s = skipFrom .after o t := by
  fun_induction readMembers fields seen first x s generalizing y t with
  | case1 => cases h
  | case2 seen first x s r hs =>
    cases h
    exact skipFrom_of_close (k := .object) (nextKey_eq_stop hs) first o
  | case3 => cases h
  | case4 => cases h
  | case5 => cases h
  | case6 =>
    rename_i hs key c hu _ _ _ x' w hm ih
    obtain ⟨v,hv,hvalue⟩ := readMember_agrees hfields hm
    rw [nextKey_agrees hs hu hv, hvalue]
    exact ih h

end Members

theorem readListEnd_eq_ok {s t : Bytes} (h : readListEnd s = .ok t) : Space s (listClose :: t) := by
  unfold readListEnd at h
  split at h
  · cases h
  · rename_i hs
    split at h
    · rename_i hb
      cases h
      exact space_of_dropSpace (hb ▸ hs)
    · split at h
      · split at h <;> cases h
      · cases h

theorem readPositions_agrees {gs : List (Field σ)} (hgs : ∀ f ∈ gs, Agrees f.update) {first : Bool}
    {x y : σ} {s t : Bytes} (h : readPositions first gs x s = .ok (y,t)) (o : List Bracket) :
    skipFrom (placeOf first) (.list :: o) s = skipFrom .after o t := by
  induction gs generalizing first x s with
  | nil =>
    have hs := readListEnd_eq_ok (readPositions_nil_eq_ok h).1
    exact skipFrom_of_close (k := .list) hs first o
  | cons f gs ih =>
    rcases readPositions_cons_eq_ok h with ⟨hs,-⟩ | ⟨u,g,v,hs,hu,hv⟩
    · exact skipFrom_of_close (k := .list) (nextItem_eq_stop hs) first o
    · rw [nextItem_agrees hs, hgs f (List.mem_cons_self ..) hu]
      exact ih (fun g hg => hgs g (List.mem_cons_of_mem _ hg)) hv

end Reader

theorem agrees_record {σ : Type} {fields : List (Field σ)}
    (hfields : ∀ f ∈ fields, Agrees f.update) (name : String) (start : σ) :
    Agrees (.record name fields start) := by
  intro s x t h o
  rcases Reader.readRecord_eq_ok h with ⟨r,hs,hr⟩ | ⟨r,hs,hr⟩
  · rw [skipFrom_value hs, if_neg (by decide), if_pos rfl]
    exact Reader.readMembers_agrees hfields hr o
  · rw [skipFrom_value hs, if_pos rfl]
    exact Reader.readPositions_agrees hfields hr o

theorem agrees_field {σ α : Type} {r : Reader α} (hr : Agrees r) (name : String) (set : α → σ → σ) :
    Agrees (Field.of name r set).update := by
  intro s g t h
  obtain ⟨a,hrun,-⟩ := Reader.of_eq_ok h
  exact hr hrun

end PinnedPool.Json
