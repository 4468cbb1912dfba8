import PinnedPool.Json.Byte

/-! # Strings and literals

A string is read from the byte after its opening quote. Its escapes are decoded, and a surrogate
escape must be one half of a pair. In a value that nobody asked for a string is only checked: there
any four hexadecimal digits do after `\u`.
-/
namespace PinnedPool.Json

/-- Four hexadecimal digits. All four bytes are passed before one of them is refused. -/
def readHex : Bytes → Except Fault (Nat × Bytes)
  | a :: b :: c :: d :: r =>
    match hexDigit? a, hexDigit? b, hexDigit? c, hexDigit? d with
    | some w, some x, some y, some z => .ok (((w * 16 + x) * 16 + y) * 16 + z, r)
    | _, _, _, _ => .error ⟨.invalidEscape, r⟩
  | _ => .error ⟨.endInText, []⟩

theorem readHex_shorter {s n r} (h : readHex s = .ok (n, r)) : r.length < s.length := by
  unfold readHex at h
  split at h
  · split at h
    · simp only [Except.ok.injEq, Prod.mk.injEq] at h
      rw [← h.2]; simp only [List.length_cons]; omega
    · simp at h
  · simp at h

def isLeading (n : Nat) : Bool := 0xD800 ≤ n && n ≤ 0xDBFF

def isTrailing (n : Nat) : Bool := 0xDC00 ≤ n && n ≤ 0xDFFF

/-- The bytes of a code point. -/
def encodePoint (n : Nat) : Bytes := String.utf8EncodeChar (Char.ofNat n)

/-- The code point of a surrogate pair. -/
def pairPoint (leading trailing : Nat) : Nat :=
  0x10000 + (leading - 0xD800) * 0x400 + (trailing - 0xDC00)

/-- Passes the byte that has to come next. -/
def passByte (want : UInt8) : Bytes → Except Fault Bytes
  | [] => .error ⟨.endInText, []⟩
  | b :: s => if b = want then .ok s else .error ⟨.brokenSurrogatePair, s⟩

theorem passByte_shorter {w s r} (h : passByte w s = .ok r) : r.length < s.length := by
  unfold passByte at h
  split at h
  · simp at h
  · split at h
    · simp_all
    · simp at h

/-- A code point after `\u`. -/
def readPoint (s : Bytes) : Except Fault (Bytes × Bytes) :=
  match readHex s with
  | .error f => .error f
  | .ok (n, r) =>
    if isTrailing n then .error ⟨.loneSurrogate, r⟩
    else if isLeading n then
      match passByte backslash r with
      | .error f => .error f
      | .ok r =>
        match passByte letterU r with
        | .error f => .error f
        | .ok r =>
          match readHex r with
          | .error f => .error f
          | .ok (m, r) =>
            if isTrailing m then .ok (encodePoint (pairPoint n m), r)
            else .error ⟨.loneSurrogate, r⟩
    else .ok (encodePoint n, r)

theorem readPoint_shorter {s t r} (h : readPoint s = .ok (t, r)) : r.length < s.length := by
  unfold readPoint at h
  split at h
  · simp at h
  · rename_i n r1 h1
    have := readHex_shorter h1
    split at h
    · simp at h
    · split at h
      · split at h
        · simp at h
        · rename_i r2 h2
          have := passByte_shorter h2
          split at h
          · simp at h
          · rename_i r3 h3
            have := passByte_shorter h3
            split at h
            · simp at h
            · rename_i m r4 h4
              have := readHex_shorter h4
              split at h
              · simp only [Except.ok.injEq, Prod.mk.injEq] at h
                rw [← h.2]; omega
              · simp at h
      · simp only [Except.ok.injEq, Prod.mk.injEq] at h
        rw [← h.2]; omega

/-- The byte that a letter after a backslash stands for. -/
def shortEscape? (b : UInt8) : Option UInt8 :=
  if b = quote then some quote
  else if b = backslash then some backslash
  else if b = slash then some slash
  else if b = 98 then some 8
  else if b = 102 then some 12
  else if b = 110 then some 10
  else if b = 114 then some 13
  else if b = 116 then some 9
  else none

/-- An escape after its backslash. -/
def readEscape : Bytes → Except Fault (Bytes × Bytes)
  | [] => .error ⟨.endInText, []⟩
  | b :: s =>
    match shortEscape? b with
    | some c => .ok ([c], s)
    | none => if b = letterU then readPoint s else .error ⟨.invalidEscape, s⟩

theorem readEscape_shorter {s t r} (h : readEscape s = .ok (t, r)) : r.length < s.length := by
  unfold readEscape at h
  split at h
  · simp at h
  · split at h
    · simp_all
    · split at h
      · have := readPoint_shorter h
        simp only [List.length_cons]; omega
      · simp at h

/-- The bytes of a string up to its closing quote, and what follows the quote. -/
def readText : Bytes → Except Fault (Bytes × Bytes)
  | [] => .error ⟨.endInText, []⟩
  | b :: s =>
    if b = quote then .ok ([], s)
    else if b = backslash then
      match _h : readEscape s with
      | .error f => .error f
      | .ok (t, r) =>
        match readText r with
        | .error f => .error f
        | .ok (u, r) => .ok (t ++ u, r)
    else if b < 32 then .error ⟨.controlCharacter, s⟩
    else
      match readText s with
      | .error f => .error f
      | .ok (u, r) => .ok (b :: u, r)
termination_by s => s.length
decreasing_by
  · have := readEscape_shorter _h
    simp only [List.length_cons]; omega
  · simp

theorem readText_shorter {s t r} (h : readText s = .ok (t, r)) : r.length < s.length := by
  fun_induction readText s generalizing t r with
  | case1 => simp at h
  | case2 => simp_all
  | case3 => simp at h
  | case4 => simp at h
  | case5 s e r1 h1 u r2 h2 _ ih =>
    have := readEscape_shorter h1
    have := ih h2
    simp only [Except.ok.injEq, Prod.mk.injEq] at h
    rw [← h.2]; simp only [List.length_cons]; omega
  | case6 => simp at h
  | case7 => simp at h
  | case8 b s _ _ _ u r1 h1 ih =>
    have := ih h1
    simp only [Except.ok.injEq, Prod.mk.injEq] at h
    rw [← h.2]; simp only [List.length_cons]; omega

/-- Checks an escape after its backslash without decoding it. -/
def skipEscape : Bytes → Except Fault Bytes
  | [] => .error ⟨.endInText, []⟩
  | b :: s =>
    match shortEscape? b with
    | some _ => .ok s
    | none =>
      if b = letterU then
        match readHex s with
        | .error f => .error f
        | .ok (_, r) => .ok r
      else .error ⟨.invalidEscape, s⟩

theorem skipEscape_shorter {s r} (h : skipEscape s = .ok r) : r.length < s.length := by
  unfold skipEscape at h
  split at h
  · simp at h
  · split at h
    · simp_all
    · split at h
      · split at h
        · simp at h
        · rename_i h1
          have := readHex_shorter h1
          simp only [Except.ok.injEq] at h
          rw [← h]; simp only [List.length_cons]; omega
      · simp at h

/-- Checks a string up to its closing quote. A control byte is not passed. -/
def skipText : Bytes → Except Fault Bytes
  | [] => .error ⟨.endInText, []⟩
  | b :: s =>
    if b = quote then .ok s
    else if b = backslash then
      match _h : skipEscape s with
      | .error f => .error f
      | .ok r => skipText r
    else if b < 32 then .error ⟨.controlCharacter, b :: s⟩
    else skipText s
termination_by s => s.length
decreasing_by
  · have := skipEscape_shorter _h
    simp only [List.length_cons]; omega
  · simp

theorem skipText_shorter {s r} (h : skipText s = .ok r) : r.length < s.length := by
  fun_induction skipText s generalizing r with
  | case1 => simp at h
  | case2 => simp_all
  | case3 => simp at h
  | case4 s r1 h1 _ ih =>
    have := skipEscape_shorter h1
    have := ih h
    simp only [List.length_cons]; omega
  | case5 => simp at h
  | case6 b s _ _ _ ih =>
    have := ih h
    simp only [List.length_cons]; omega

/-- The letters of a literal after its first one. A wrong byte is passed. -/
def readLetters : (want : Bytes) → Bytes → Except Fault Bytes
  | [], s => .ok s
  | _ :: _, [] => .error ⟨.endInValue, []⟩
  | w :: ws, b :: s => if b = w then readLetters ws s else .error ⟨.expectedIdent, s⟩

theorem readLetters_shorter {ws s r} (h : readLetters ws s = .ok r) : r.length ≤ s.length := by
  induction ws generalizing s with
  | nil => simp_all [readLetters]
  | cons w ws ih =>
    cases s with
    | nil => simp [readLetters] at h
    | cons b s =>
      simp only [readLetters] at h
      split at h
      · have := ih h
        simp only [List.length_cons]; omega
      · simp at h

/-- The three literals, by their first letter. -/
inductive Literal where
  | null
  | yes
  | no
deriving DecidableEq, Repr

def Literal.ofLetter? (b : UInt8) : Option Literal :=
  if b = 110 then some null else if b = 116 then some yes else if b = 102 then some no else none

/-- What follows the first letter. -/
def Literal.letters : Literal → Bytes
  | null => [117, 108, 108]
  | yes => [114, 117, 101]
  | no => [97, 108, 115, 101]

def Literal.found : Literal → Found
  | null => .null
  | yes => .flag true
  | no => .flag false

end PinnedPool.Json
