import PinnedPool.Json.Text

/-! # Values that nobody asked for

The value of an unknown key is only checked. Open brackets stand on an explicit stack, so nesting
may be as deep as the text is long. Numbers are checked for their form, not for their range.
-/
namespace PinnedPool.Json

inductive Bracket where
  | list
  | object
deriving DecidableEq, Repr

namespace Bracket

def closing : Bracket → UInt8
  | list => listClose
  | object => objectClose

def ended : Bracket → Cause
  | list => .endInList
  | object => .endInObject

def unfinished : Bracket → Cause
  | list => .expectedListEnd
  | object => .expectedObjectEnd

end Bracket

/-- Checks an exponent part after its mark. -/
def skipExponent (s : Bytes) : Except Fault Bytes :=
  let t := match s with
    | b :: r => if b = plus ∨ b = minus then r else s
    | [] => []
  match t with
  | [] => .error ⟨.invalidNumber, []⟩
  | b :: r => if isDigit b then .ok (dropDigits r) else .error ⟨.invalidNumber, r⟩

theorem skipExponent_shorter {s r} (h : skipExponent s = .ok r) : r.length ≤ s.length := by
  unfold skipExponent at h
  cases s with
  | nil => simp at h
  | cons b s =>
    simp only at h
    split at h
    · simp at h
    · rename_i c t ht
      have hl : t.length ≤ s.length := by
        split at ht
        · simp [ht]
        · simp only [List.cons.injEq] at ht; simp [ht.2]
      split at h
      · simp only [Except.ok.injEq] at h
        have := length_dropDigits_le t
        rw [← h]; simp only [List.length_cons]; omega
      · simp at h

/-- What may follow the digits of a number. -/
def skipTail : Bytes → Except Fault Bytes
  | [] => .ok []
  | b :: s => if isExponentMark b then skipExponent s else .ok (b :: s)

theorem skipTail_shorter {s r} (h : skipTail s = .ok r) : r.length ≤ s.length := by
  unfold skipTail at h
  split at h
  · simp_all
  · split at h
    · exact Nat.le_succ_of_le (skipExponent_shorter h)
    · simp_all

/-- Checks a fraction part after its point. -/
def skipFraction : Bytes → Except Fault Bytes
  | [] => .error ⟨.invalidNumber, []⟩
  | b :: s =>
    if isDigit b then skipTail (dropDigits s) else .error (Fault.atByte .invalidNumber (b :: s))

theorem skipFraction_shorter {s r} (h : skipFraction s = .ok r) : r.length ≤ s.length := by
  unfold skipFraction at h
  split at h
  · simp at h
  · split at h
    · rename_i b s _
      have := skipTail_shorter h
      have := length_dropDigits_le s
      simp only [List.length_cons]; omega
    · simp at h

/-- What follows the integer digits. -/
def skipRest : Bytes → Except Fault Bytes
  | [] => .ok []
  | b :: s => if b = point then skipFraction s else skipTail (b :: s)

theorem skipRest_shorter {s r} (h : skipRest s = .ok r) : r.length ≤ s.length := by
  unfold skipRest at h
  split at h
  · simp_all
  · split at h
    · exact Nat.le_succ_of_le (skipFraction_shorter h)
    · exact skipTail_shorter h

/-- Checks a number after its sign. -/
def skipUnsigned : Bytes → Except Fault Bytes
  | [] => .error ⟨.invalidNumber, []⟩
  | b :: s =>
    if b = 48 then
      match s with
      | [] => .ok []
      | c :: t => if isDigit c then .error ⟨.invalidNumber, t⟩ else skipRest (c :: t)
    else if isDigit b then skipRest (dropDigits s)
    else .error ⟨.invalidNumber, s⟩

theorem skipUnsigned_shorter {s r} (h : skipUnsigned s = .ok r) : r.length < s.length := by
  unfold skipUnsigned at h
  split at h
  · simp at h
  · rename_i b s
    simp only [List.length_cons]
    split at h
    · split at h
      · simp_all
      · split at h
        · simp at h
        · have := skipRest_shorter h; omega
    · split at h
      · have := skipRest_shorter h
        have := length_dropDigits_le s
        omega
      · simp at h

/-- Checks a number, literal or string that starts with the given byte. -/
def skipScalar (b : UInt8) (s : Bytes) : Except Fault Bytes :=
  match Literal.ofLetter? b with
  | some l => readLetters l.letters s
  | none =>
    if b = minus then skipUnsigned s
    else if isDigit b then skipUnsigned (b :: s)
    else if b = quote then skipText s
    else .error ⟨.expectedValue, s⟩

theorem skipScalar_shorter {b s r} (h : skipScalar b s = .ok r) : r.length ≤ s.length := by
  unfold skipScalar at h
  split at h
  · exact readLetters_shorter h
  · split at h
    · exact Nat.le_of_lt (skipUnsigned_shorter h)
    · split at h
      · have := skipUnsigned_shorter h
        simp only [List.length_cons] at this; omega
      · split at h
        · exact Nat.le_of_lt (skipText_shorter h)
        · simp at h

/-- The colon after a key. -/
def readColon (s : Bytes) : Except Fault Bytes :=
  match dropSpace s with
  | [] => .error ⟨.endInObject, []⟩
  | b :: r => if b = colon then .ok r else .error ⟨.expectedColon, r⟩

theorem readColon_shorter {s r} (h : readColon s = .ok r) : r.length < s.length := by
  unfold readColon at h
  have := length_dropSpace_le s
  split at h
  · simp at h
  · rename_i b t ht
    rw [ht] at this
    simp only [List.length_cons] at this
    split at h
    · simp only [Except.ok.injEq] at h; rw [← h]; omega
    · simp at h

/-- Checks a key and its colon. -/
def skipKey (s : Bytes) : Except Fault Bytes :=
  match dropSpace s with
  | [] => .error ⟨.endInObject, []⟩
  | b :: r =>
    if b = quote then
      match skipText r with
      | .error f => .error f
      | .ok r => readColon r
    else .error ⟨.keyMustBeString, r⟩

theorem skipKey_shorter {s r} (h : skipKey s = .ok r) : r.length < s.length := by
  unfold skipKey at h
  have := length_dropSpace_le s
  split at h
  · simp at h
  · rename_i b t ht
    rw [ht] at this
    simp only [List.length_cons] at this
    split at h
    · split at h
      · simp at h
      · rename_i u hu
        have := skipText_shorter hu
        have := readColon_shorter h
        omega
    · simp at h

/-- What comes before the next value inside a bracket. -/
def skipLead : Bracket → Bytes → Except Fault Bytes
  | .list, s => .ok s
  | .object, s => skipKey s

theorem skipLead_shorter {b s r} (h : skipLead b s = .ok r) : r.length ≤ s.length := by
  cases b with
  | list => simp_all [skipLead]
  | object => exact Nat.le_of_lt (skipKey_shorter h)

/-- Where the check stands: before a value, right after an opening bracket, or after a value. -/
inductive Place where
  | value
  | opened
  | after
deriving DecidableEq, Repr

/-- Checks the rest of a value with the given open brackets, the innermost first. -/
def skipFrom (place : Place) (open_ : List Bracket) (s : Bytes) : Except Fault Bytes :=
  match place, open_ with
  | .value, open_ =>
    match _h : dropSpace s with
    | [] => .error ⟨.endInValue, []⟩
    | b :: r =>
      if b = listOpen then skipFrom .opened (.list :: open_) r
      else if b = objectOpen then skipFrom .opened (.object :: open_) r
      else
        match _h2 : skipScalar b r with
        | .error f => .error f
        | .ok r => skipFrom .after open_ r
  | _, [] => .ok s
  | .opened, k :: rest =>
    match _h : dropSpace s with
    | [] => .error ⟨k.ended, []⟩
    | b :: r =>
      if b = k.closing then skipFrom .after rest r
      else
        match _h2 : skipLead k (b :: r) with
        | .error f => .error f
        | .ok r => skipFrom .value (k :: rest) r
  | .after, k :: rest =>
    match _h : dropSpace s with
    | [] => .error ⟨k.ended, []⟩
    | b :: r =>
      if b = comma then
        match _h2 : skipLead k r with
        | .error f => .error f
        | .ok r => skipFrom .value (k :: rest) r
      else if b = k.closing then skipFrom .after rest r
      else .error ⟨k.unfinished, r⟩
termination_by (s.length, if place = .opened then 1 else 0)
decreasing_by
  all_goals
    have hd := length_dropSpace_le s
    rw [_h] at hd
    simp only [List.length_cons] at hd
  · exact Prod.Lex.left _ _ (by omega)
  · exact Prod.Lex.left _ _ (by omega)
  · have := skipScalar_shorter _h2
    exact Prod.Lex.left _ _ (by omega)
  · exact Prod.Lex.left _ _ (by omega)
  · have := skipLead_shorter _h2
    simp only [List.length_cons] at this
    rcases Nat.lt_or_ge (List.length _) s.length with hl | hl
    · exact Prod.Lex.left _ _ hl
    · have he : List.length _ = s.length := Nat.le_antisymm (by omega) hl
      rw [he]
      exact Prod.Lex.right _ (by simp)
  · have := skipLead_shorter _h2
    exact Prod.Lex.left _ _ (by omega)
  · exact Prod.Lex.left _ _ (by omega)

/-- A check never lengthens the text, and passes a byte where a value is due. -/
theorem skipFrom_shorter {p o s r} (h : skipFrom p o s = .ok r) :
    r.length + (if p = .value then 1 else 0) ≤ s.length := by
  fun_induction skipFrom p o s generalizing r with
  | case1 => simp at h
  | case2 s o t hs ih =>
    have := length_lt_of_dropSpace hs
    have := ih h
    simp at this ⊢; omega
  | case3 s o t hs _ ih =>
    have := length_lt_of_dropSpace hs
    have := ih h
    simp at this ⊢; omega
  | case4 => simp at h
  | case5 s o b t hs _ _ u hu ih =>
    have := length_lt_of_dropSpace hs
    have := skipScalar_shorter hu
    have := ih h
    simp at this ⊢; omega
  | case6 p s hp =>
    simp only [Except.ok.injEq] at h
    have : p ≠ .value := hp
    simp [h, this]
  | case7 => simp at h
  | case8 s k o t hs ih =>
    have := length_lt_of_dropSpace hs
    have := ih h
    simp at this ⊢; omega
  | case9 => simp at h
  | case10 s k o b t hs _ u hu ih =>
    have := length_lt_of_dropSpace hs
    have := skipLead_shorter hu
    have := ih h
    simp at * ; omega
  | case11 => simp at h
  | case12 => simp at h
  | case13 s k o t u hu hs ih =>
    have := length_lt_of_dropSpace hs
    have := skipLead_shorter hu
    have := ih h
    simp at this ⊢; omega
  | case14 s k o t hs _ ih =>
    have := length_lt_of_dropSpace hs
    have := ih h
    simp at this ⊢; omega
  | case15 => simp at h

/-- Checks one value. -/
def skipValue (s : Bytes) : Except Fault Bytes := skipFrom .value [] s

theorem skipValue_shorter {s r} (h : skipValue s = .ok r) : r.length < s.length := by
  have := skipFrom_shorter h
  simp at this; omega

end PinnedPool.Json
