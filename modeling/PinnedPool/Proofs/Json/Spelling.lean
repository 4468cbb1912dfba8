import PinnedPool.Json.Text

/-! # How strings are spelled

A phrase of a text is a relation between what is left before it and what is left after it. A string
may be spelled in many ways: any of its characters may be written as an escape, and one beyond the
basic plane takes a pair of them.
-/
namespace ByteArray

theorem toList_loop (bs : ByteArray) (i : Nat) (r : List UInt8) :
    toList.loop bs i r = r.reverse ++ bs.data.toList.drop i := by
  fun_induction toList.loop bs i r with
  | case1 i r h ih =>
    have hi : i < bs.data.toList.length := h
    have hget : bs.get! i = bs.data.toList[i] := getElem!_pos bs.data i h
    rw [ih, List.drop_eq_getElem_cons hi, hget]
    simp
  | case2 i r h =>
    rw [List.drop_eq_nil_of_le (by simpa using h), List.append_nil]

theorem toList_eq_data (bs : ByteArray) : bs.toList = bs.data.toList := by
  rw [toList, toList_loop]
  rfl

end ByteArray

namespace PinnedPool.Json

def utf8 (text : String) : Bytes := text.toUTF8.toList

theorem utf8_append (s t : String) : utf8 (s ++ t) = utf8 s ++ utf8 t := by
  simp [utf8, ByteArray.toList_eq_data, String.toUTF8_eq_toByteArray]

theorem utf8_ofList (l : List Char) :
    utf8 (String.ofList l) = l.flatMap String.utf8EncodeChar := by
  rw [utf8, ByteArray.toList_eq_data, String.toUTF8_eq_toByteArray, String.toByteArray_ofList,
    List.utf8Encode, List.toList_data_toByteArray]

theorem utf8_injective : Function.Injective utf8 := by
  intro s t h
  have hbytes : s.toByteArray = t.toByteArray := by
    simp only [utf8, ByteArray.toList_eq_data, String.toUTF8_eq_toByteArray] at h
    exact ByteArray.ext (Array.toList_inj.mp h)
  exact String.toByteArray_inj.mp hbytes

/-- White space: blanks, line feeds, tabs and carriage returns. -/
inductive Space : Bytes → Bytes → Prop
  | none {s} : Space s s
  | some {b s t} : b ∈ [32, 10, 9, 13] → Space s t → Space (b :: s) t

theorem Space.dropSpace_eq {s t : Bytes} (h : Space s t) : dropSpace s = dropSpace t := by
  induction h with
  | none => rfl
  | @some b s t hb _ ih =>
    have hspace : isSpace b = true := by
      simp only [List.mem_cons, List.not_mem_nil, or_false] at hb
      rcases hb with rfl | rfl | rfl | rfl <;> rfl
    rw [dropSpace, List.dropWhile_cons_of_pos hspace]
    exact ih

theorem dropSpace_cons {b : UInt8} (hb : isSpace b = false) (s : Bytes) :
    dropSpace (b :: s) = b :: s := by
  rw [dropSpace, List.dropWhile_cons_of_neg (by simp [hb])]

theorem Space.dropSpace_cons {s t : Bytes} {b : UInt8} (h : Space s (b :: t))
    (hb : isSpace b = false) : dropSpace s = b :: t := by
  rw [h.dropSpace_eq, Json.dropSpace_cons hb]

theorem space_dropSpace (s : Bytes) : Space s (dropSpace s) := by
  induction s with
  | nil => exact .none
  | cons b s ih =>
    cases hb : isSpace b with
    | false =>
      rw [dropSpace_cons hb]
      exact .none
    | true =>
      rw [dropSpace, List.dropWhile_cons_of_pos hb]
      refine .some ?_ ih
      simpa [isSpace, or_assoc] using hb

theorem space_of_dropSpace {s t : Bytes} (h : dropSpace s = t) : Space s t :=
  h ▸ space_dropSpace s

theorem Space.of_eq {s t : Bytes} (h : s = t) : Space s t := h ▸ .none

theorem Space.trans {s t u : Bytes} (h : Space s t) (h' : Space t u) : Space s u := by
  induction h with
  | none => exact h'
  | some hb _ ih => exact .some hb (ih h')

/-- A number cannot go on with the bytes `t`. -/
def Ends (t : Bytes) : Prop :=
  ∀ b ∈ t.head?, isDigit b = false ∧ b ≠ point ∧ isExponentMark b = false

theorem ends_nil : Ends [] := nofun

theorem Ends.head {b : UInt8} {t : Bytes} (h : Ends (b :: t)) :
    isDigit b = false ∧ b ≠ point ∧ isExponentMark b = false :=
  h b rfl

theorem Space.ends {s t : Bytes} (h : Space s t) (ht : Ends t) : Ends s := by
  cases h with
  | none => exact ht
  | @some b s _ hb _ =>
    intro c hc
    cases hc
    simp only [List.mem_cons, List.not_mem_nil, or_false] at hb
    rcases hb with rfl | rfl | rfl | rfl <;> decide

theorem ends_comma (t : Bytes) : Ends (comma :: t) := by
  rintro _ ⟨⟩
  decide

theorem ends_listClose (t : Bytes) : Ends (listClose :: t) := by
  rintro _ ⟨⟩
  decide

theorem ends_objectClose (t : Bytes) : Ends (objectClose :: t) := by
  rintro _ ⟨⟩
  decide

/-- A hexadecimal digit of either case. -/
def HexDigit (b : UInt8) (d : Nat) : Prop :=
  (utf8 "0123456789abcdef")[d]? = some b ∨ (utf8 "0123456789ABCDEF")[d]? = some b

instance (b : UInt8) (d : Nat) : Decidable (HexDigit b d) := inferInstanceAs (Decidable (_ ∨ _))

theorem HexDigit.read {b : UInt8} {d : Nat} (h : HexDigit b d) : hexDigit? b = some d := by
  have hlower : utf8 "0123456789abcdef" =
      [48, 49, 50, 51, 52, 53, 54, 55, 56, 57, 97, 98, 99, 100, 101, 102] := by decide +kernel
  have hupper : utf8 "0123456789ABCDEF" =
      [48, 49, 50, 51, 52, 53, 54, 55, 56, 57, 65, 66, 67, 68, 69, 70] := by decide +kernel
  rw [HexDigit, hlower, hupper] at h
  rcases h with h | h
  · obtain ⟨hd,rfl⟩ := List.getElem?_eq_some_iff.mp h
    revert d
    decide
  · obtain ⟨hd,rfl⟩ := List.getElem?_eq_some_iff.mp h
    revert d
    decide

def Hex (n : Nat) (s t : Bytes) : Prop :=
  ∃ a b c d w x y z, s = a :: b :: c :: d :: t ∧ HexDigit a w ∧ HexDigit b x ∧ HexDigit c y ∧
    HexDigit d z ∧ n = ((w * 16 + x) * 16 + y) * 16 + z

theorem Hex.read {n : Nat} {s t : Bytes} (h : Hex n s t) : readHex s = .ok (n, t) := by
  obtain ⟨a,b,c,d,w,x,y,z,rfl,ha,hb,hc,hd,rfl⟩ := h
  simp only [readHex, ha.read, hb.read, hc.read, hd.read]

/-- The letters that may follow a backslash, with what they stand for. -/
def shortEscapes : List (UInt8 × UInt8) :=
  [(34, 34), (92, 92), (47, 47), (98, 8), (102, 12), (110, 10), (114, 13), (116, 9)]

theorem shortEscape?_of_mem {b c : UInt8} (h : (b,c) ∈ shortEscapes) :
    shortEscape? b = some c := by
  simp only [shortEscapes, List.mem_cons, Prod.mk.injEq, List.not_mem_nil, or_false] at h
  rcases h with ⟨rfl,rfl⟩ | ⟨rfl,rfl⟩ | ⟨rfl,rfl⟩ | ⟨rfl,rfl⟩ | ⟨rfl,rfl⟩ | ⟨rfl,rfl⟩ | ⟨rfl,rfl⟩ |
    ⟨rfl,rfl⟩ <;> rfl

/-- Stands for itself in a string. -/
def Plain (b : UInt8) : Prop := 32 ≤ b ∧ b ≠ quote ∧ b ≠ backslash

instance (b : UInt8) : Decidable (Plain b) := inferInstanceAs (Decidable (_ ∧ _ ∧ _))

/-- `Spells s d t`: up to the closing quote `s` spells the bytes `d`, and `t` is left after it. -/
inductive Spells : Bytes → Bytes → Bytes → Prop
  | close {s} : Spells (quote :: s) [] s
  | plain {b s d t} : Plain b → Spells s d t → Spells (b :: s) (b :: d) t
  | short {b c s d t} : (b,c) ∈ shortEscapes → Spells s d t →
    Spells (backslash :: b :: s) (c :: d) t
  | point {c : Char} {s u d t} : c.toNat < 0x10000 → Hex c.toNat s u → Spells u d t →
    Spells (backslash :: letterU :: s) (String.utf8EncodeChar c ++ d) t
  | pair {c : Char} {s u v d t} : 0x10000 ≤ c.toNat →
    Hex (0xD800 + (c.toNat - 0x10000) / 0x400) s (backslash :: letterU :: u) →
    Hex (0xDC00 + (c.toNat - 0x10000) % 0x400) u v → Spells v d t →
    Spells (backslash :: letterU :: s) (String.utf8EncodeChar c ++ d) t

theorem spells_plain {d : Bytes} (h : ∀ b ∈ d, Plain b) (t : Bytes) :
    Spells (d ++ quote :: t) d t := by
  induction d with
  | nil => exact .close
  | cons b d ih =>
    exact .plain (h b (List.mem_cons_self ..)) (ih fun c hc => h c (List.mem_cons_of_mem _ hc))

theorem encodePoint_toNat (c : Char) : encodePoint c.toNat = String.utf8EncodeChar c := by
  rw [encodePoint, Char.ofNat_toNat]

theorem toNat_not_surrogate (c : Char) : c.toNat < 0xD800 ∨ 0xDFFF < c.toNat ∧ c.toNat < 0x110000 :=
  c.valid

theorem readPoint_of_point {c : Char} {s u : Bytes} (hlow : c.toNat < 0x10000)
    (h : Hex c.toNat s u) : readPoint s = .ok (String.utf8EncodeChar c,u) := by
  have hvalid := toNat_not_surrogate c
  have htrailing : isTrailing c.toNat = false := by
    simp only [isTrailing, Bool.and_eq_false_iff, decide_eq_false_iff_not]
    omega
  have hleading : isLeading c.toNat = false := by
    simp only [isLeading, Bool.and_eq_false_iff, decide_eq_false_iff_not]
    omega
  simp only [readPoint, h.read, htrailing, hleading, encodePoint_toNat, Bool.false_eq_true,
    ↓reduceIte]

theorem readPoint_of_pair {c : Char} {s u v : Bytes} (hhigh : 0x10000 ≤ c.toNat)
    (h : Hex (0xD800 + (c.toNat - 0x10000) / 0x400) s (backslash :: letterU :: u))
    (h' : Hex (0xDC00 + (c.toNat - 0x10000) % 0x400) u v) :
    readPoint s = .ok (String.utf8EncodeChar c,v) := by
  have hvalid := toNat_not_surrogate c
  have hlead : isTrailing (0xD800 + (c.toNat - 0x10000) / 0x400) = false := by
    simp only [isTrailing, Bool.and_eq_false_iff, decide_eq_false_iff_not]
    omega
  have hleading : isLeading (0xD800 + (c.toNat - 0x10000) / 0x400) = true := by
    simp only [isLeading, Bool.and_eq_true, decide_eq_true_eq]
    omega
  have htrailing : isTrailing (0xDC00 + (c.toNat - 0x10000) % 0x400) = true := by
    simp only [isTrailing, Bool.and_eq_true, decide_eq_true_eq]
    omega
  have hpair : pairPoint (0xD800 + (c.toNat - 0x10000) / 0x400)
      (0xDC00 + (c.toNat - 0x10000) % 0x400) = c.toNat := by
    unfold pairPoint
    omega
  simp only [readPoint, h.read, hlead, hleading, passByte, h'.read, htrailing, hpair,
    encodePoint_toNat, Bool.false_eq_true, ↓reduceIte]

theorem readText_escape {s d t u v : Bytes} (h : readEscape s = .ok (d,u))
    (h' : readText u = .ok (t,v)) : readText (backslash :: s) = .ok (d ++ t,v) := by
  rw [readText, if_neg (by decide), if_pos rfl]
  split
  · rename_i he
    rw [h] at he
    cases he
  · rename_i he
    rw [h] at he
    cases he
    rw [h']

theorem readEscape_letterU (s : Bytes) : readEscape (letterU :: s) = readPoint s := rfl

/-- A string is read to its closing quote and decoded. -/
theorem Spells.read {s d t : Bytes} (h : Spells s d t) : readText s = .ok (d,t) := by
  induction h with
  | close => rw [readText, if_pos rfl]
  | plain hb _ ih =>
    rw [readText, if_neg hb.2.1, if_neg hb.2.2, if_neg (UInt8.not_lt.mpr hb.1), ih]
  | @short b c s d t hb _ ih =>
    have hescape : readEscape (b :: s) = .ok ([c],s) := by
      rw [readEscape, shortEscape?_of_mem hb]
    exact readText_escape hescape ih
  | point hlow hhex _ ih =>
    exact readText_escape ((readEscape_letterU _).trans (readPoint_of_point hlow hhex)) ih
  | pair hhigh hlead htrail _ ih =>
    exact readText_escape ((readEscape_letterU _).trans (readPoint_of_pair hhigh hlead htrail)) ih

/-- A surrogate that no other escape follows spells nothing. -/
theorem not_spells_surrogate {n : Nat} {s u : Bytes} (h : Hex n s u)
    (hn : 0xD800 ≤ n ∧ n ≤ 0xDFFF) (hu : u.head? ≠ some backslash) (d t : Bytes) :
    ¬Spells (backslash :: letterU :: s) d t := by
  intro hspells
  cases hspells with
  | plain hb => exact hb.2.2 rfl
  | short hb => cases shortEscape?_of_mem hb
  | @point c _ _ _ _ hlow hhex =>
    obtain ⟨rfl,-⟩ := Prod.mk.inj (Except.ok.inj (hhex.read.symm.trans h.read))
    have := toNat_not_surrogate c
    omega
  | pair _ hlead =>
    obtain ⟨-,rfl⟩ := Prod.mk.inj (Except.ok.inj (hlead.read.symm.trans h.read))
    exact hu rfl

/-- The bytes up to the closing quote of a string, where any four digits do for an escape. -/
inductive Quoted : Bytes → Bytes → Prop
  | close {s} : Quoted (quote :: s) s
  | plain {b s t} : Plain b → Quoted s t → Quoted (b :: s) t
  | short {b c s t} : (b,c) ∈ shortEscapes → Quoted s t → Quoted (backslash :: b :: s) t
  | point {n s u t} : Hex n s u → Quoted u t → Quoted (backslash :: letterU :: s) t

theorem Spells.quoted {s d t : Bytes} (h : Spells s d t) : Quoted s t := by
  induction h with
  | close => exact .close
  | plain hb _ ih => exact .plain hb ih
  | short hb _ ih => exact .short hb ih
  | point _ hhex _ ih => exact .point hhex ih
  | pair _ hlead htrail _ ih => exact .point hlead (.point htrail ih)

theorem skipText_escape {s u : Bytes} (h : skipEscape s = .ok u) :
    skipText (backslash :: s) = skipText u := by
  rw [skipText, if_neg (by decide), if_pos rfl]
  split
  · rename_i he
    rw [h] at he
    cases he
  · rename_i he
    rw [h] at he
    cases he
    rfl

/-- A string that is only checked is passed to its closing quote. -/
theorem Quoted.skip {s t : Bytes} (h : Quoted s t) : skipText s = .ok t := by
  induction h with
  | close => rw [skipText, if_pos rfl]
  | plain hb _ ih =>
    rw [skipText, if_neg hb.2.1, if_neg hb.2.2, if_neg (UInt8.not_lt.mpr hb.1), ih]
  | @short b c s t hb _ ih =>
    have hescape : skipEscape (b :: s) = .ok s := by
      rw [skipEscape, shortEscape?_of_mem hb]
    rw [skipText_escape hescape, ih]
  | @point n s u t hhex _ ih =>
    have hescape : skipEscape (letterU :: s) = .ok u := by
      have hletter : shortEscape? letterU = none := by decide
      simp only [skipEscape, hletter, hhex.read, ↓reduceIte]
    rw [skipText_escape hescape, ih]

end PinnedPool.Json
