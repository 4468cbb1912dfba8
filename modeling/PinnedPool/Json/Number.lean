import PinnedPool.Json.Byte

/-! # Numbers

An integer is exact as long as its digits fit 64 bits and, below zero, the value fits 64 bits with
a sign. Any other number is a float: a significand of as many leading digits as fit, times a power
of ten. A float beyond the finite ones is refused.
-/
namespace PinnedPool.Json

open Decimal (Binary64)

inductive Number where
  | natural (n : Nat)
  /-- The integer `-n`, for `n` from 1 to `2 ^ 63`. -/
  | negative (n : Nat)
  | float (negative : Bool) (f : Binary64)
deriving DecidableEq, Repr

namespace Number

/-- Significands and sizes stay below this bound. -/
abbrev wordBound : Nat := Nat.pow 2 64

/-- Appends digits to a significand while it stays below `wordBound`, and counts them. -/
def gather (acc count : Nat) : Bytes → Nat × Nat × Bytes
  | [] => (acc, count, [])
  | b :: s =>
    if isDigit b ∧ acc * 10 + digit b < wordBound then gather (acc * 10 + digit b) (count + 1) s
    else (acc, count, b :: s)

theorem gather_shorter (acc count : Nat) (s : Bytes) :
    (gather acc count s).2.2.length ≤ s.length := by
  induction s generalizing acc count with
  | nil => simp [gather]
  | cons b s ih =>
    unfold gather
    split
    · exact Nat.le_succ_of_le (ih _ _)
    · simp

def startsWithDigit : Bytes → Bool
  | [] => false
  | b :: _ => isDigit b

/-- `10 ^ e` as a magnitude; exponents up to 308 have one. -/
def power (e : Nat) : Binary64 := (Binary64.powTen e).getD Binary64.zero

def stride : Nat := 308

def divStrides : Nat → Binary64 → Option Binary64
  | 0, f => some f
  | k + 1, f => if f.isZero then some f else (f.div (power stride)).bind (divStrides k)

/-- Divides by a power of ten, by `stride` places at a time while more than that are left. -/
def divPower (f : Binary64) (e : Nat) : Option Binary64 :=
  let k := (e - 1) / stride
  (divStrides k f).bind fun g => g.div (power (e - k * stride))

/-- The magnitude of `significand * 10 ^ e`, rounded at each of the operations; none if infinite. -/
def scaled (significand : Nat) (e : Int) : Option Binary64 :=
  match Binary64.ofNat significand with
  | none => none
  | some f =>
    if e < 0 then divPower f e.natAbs
    else if (stride : Int) < e then if f.isZero then some f else none
    else f.mul (power e.toNat)

/-- A float from its parts, refused when it is infinite. -/
def ofParts (negative : Bool) (significand : Nat) (e : Int) (rest : Bytes) :
    Except Fault (Number × Bytes) :=
  match scaled significand e with
  | some f => .ok (.float negative f, rest)
  | none => .error ⟨.numberOutOfRange, rest⟩

abbrev exponentBound : Nat := Nat.pow 2 31

/-- Appends digits to an exponent. The flag says that the last digit led beyond the bound. -/
def gatherExponent (acc : Nat) : Bytes → Nat × Bool × Bytes
  | [] => (acc, false, [])
  | b :: s =>
    if isDigit b then
      if acc * 10 + digit b < exponentBound then gatherExponent (acc * 10 + digit b) s
      else (acc, true, s)
    else (acc, false, b :: s)

theorem gatherExponent_shorter (acc : Nat) (s : Bytes) :
    (gatherExponent acc s).2.2.length ≤ s.length := by
  induction s generalizing acc with
  | nil => simp [gatherExponent]
  | cons b s ih =>
    unfold gatherExponent
    split
    · split
      · exact Nat.le_succ_of_le (ih _)
      · simp
    · simp

/-- A sign, if one is written, and what follows it. -/
def readSign : Bytes → Bool × Bytes
  | [] => (false, [])
  | b :: s => if b = minus then (true, s) else if b = plus then (false, s) else (false, b :: s)

theorem readSign_shorter (s : Bytes) : (readSign s).2.length ≤ s.length := by
  cases s with
  | nil => simp [readSign]
  | cons b s =>
    simp only [readSign]
    split
    · simp
    · split <;> simp

/-- The exponent part after its mark. An exponent out of bounds makes the number zero or infinite. -/
def readExponent (negative : Bool) (significand : Nat) (shift : Int) (s : Bytes) :
    Except Fault (Number × Bytes) :=
  let (below, t) := readSign s
  match t with
  | [] => .error ⟨.endInValue, []⟩
  | b :: t =>
    if isDigit b then
      let (e, tooBig, r) := gatherExponent (digit b) t
      if tooBig then
        if significand ≠ 0 ∧ !below then .error ⟨.numberOutOfRange, r⟩
        else .ok (.float negative Binary64.zero, dropDigits r)
      else ofParts negative significand (if below then shift - e else shift + e) r
    else .error ⟨.invalidNumber, t⟩

/-- What may follow the digits of a float: an exponent part or nothing. -/
def readTail (negative : Bool) (significand : Nat) (shift : Int) (s : Bytes) :
    Except Fault (Number × Bytes) :=
  match s with
  | [] => ofParts negative significand shift []
  | b :: r =>
    if isExponentMark b then readExponent negative significand shift r
    else ofParts negative significand shift (b :: r)

/-- The fraction part after its point. Digits that no longer fit are passed over. -/
def readFraction (negative : Bool) (significand : Nat) (shift : Int) (s : Bytes) :
    Except Fault (Number × Bytes) :=
  let (sig, n, r) := gather significand 0 s
  if startsWithDigit r then readTail negative sig (shift - n) (dropDigits r)
  else if n = 0 then
    .error (Fault.atByte (if r.isEmpty then .endInValue else .invalidNumber) r)
  else readTail negative sig (shift - n) r

/-- An integer too long for its significand: each digit left counts in the exponent. -/
def readLong (negative : Bool) (significand : Nat) (s : Bytes) : Except Fault (Number × Bytes) :=
  let r := dropDigits s
  let shift : Int := s.length - r.length
  match r with
  | [] => ofParts negative significand shift []
  | b :: t =>
    if b = point then readFraction negative significand shift t
    else readTail negative significand shift (b :: t)

/-- An integer without a fraction or an exponent part. Minus zero and integers below `-2 ^ 63` are
floats. -/
def ofInteger (negative : Bool) (n : Nat) : Number :=
  if negative then
    if 0 < n ∧ n ≤ Nat.pow 2 63 then .negative n
    else .float true ((Binary64.ofNat n).getD Binary64.zero)
  else .natural n

def readRest (negative : Bool) (significand : Nat) (s : Bytes) : Except Fault (Number × Bytes) :=
  match s with
  | [] => .ok (ofInteger negative significand, [])
  | b :: r =>
    if b = point then readFraction negative significand 0 r
    else if isExponentMark b then readExponent negative significand 0 r
    else .ok (ofInteger negative significand, b :: r)

def readUnsigned (negative : Bool) : Bytes → Except Fault (Number × Bytes)
  | [] => .error ⟨.endInValue, []⟩
  | b :: s =>
    if b = 48 then
      if startsWithDigit s then .error (Fault.atByte .invalidNumber s)
      else readRest negative 0 s
    else if isDigit b then
      let (sig, _, r) := gather (digit b) 1 s
      if startsWithDigit r then readLong negative sig r else readRest negative sig r
    else .error ⟨.invalidNumber, s⟩

/-- A number that starts with a minus or a digit. -/
def read : Bytes → Except Fault (Number × Bytes)
  | [] => .error ⟨.endInValue, []⟩
  | b :: s => if b = minus then readUnsigned true s else readUnsigned false (b :: s)

def found : Number → Found
  | natural n => .integer n
  | negative n => .integer (-n)
  | float neg f => .float neg f

theorem ofParts_rest {neg sig e s n r} (h : ofParts neg sig e s = .ok (n, r)) : r = s := by
  unfold ofParts at h
  split at h <;> simp_all

theorem readExponent_shorter {neg sig shift s n r}
    (h : readExponent neg sig shift s = .ok (n, r)) : r.length ≤ s.length := by
  unfold readExponent at h
  have hs := readSign_shorter s
  generalize readSign s = p at h hs
  obtain ⟨below, t⟩ := p
  cases t with
  | nil => simp at h
  | cons b t =>
    simp only [List.length_cons] at h hs
    split at h
    · have hg := gatherExponent_shorter (digit b) t
      generalize gatherExponent (digit b) t = q at h hg
      obtain ⟨e, tooBig, q⟩ := q
      simp only at h hg
      have hd := length_dropDigits_le q
      split at h
      · split at h
        · simp at h
        · simp only [Except.ok.injEq, Prod.mk.injEq] at h
          rw [← h.2]; omega
      · rw [ofParts_rest h]; omega
    · simp at h

theorem readTail_shorter {neg sig shift s n r} (h : readTail neg sig shift s = .ok (n, r)) :
    r.length ≤ s.length := by
  unfold readTail at h
  split at h
  · simp [ofParts_rest h]
  · split at h
    · exact Nat.le_succ_of_le (readExponent_shorter h)
    · simp [ofParts_rest h]

theorem readFraction_shorter {neg sig shift s n r}
    (h : readFraction neg sig shift s = .ok (n, r)) : r.length ≤ s.length := by
  unfold readFraction at h
  have hg := gather_shorter sig 0 s
  generalize gather sig 0 s = p at h hg
  obtain ⟨sig', k, t⟩ := p
  simp only at h hg
  have hd := length_dropDigits_le t
  split at h
  · exact Nat.le_trans (readTail_shorter h) (Nat.le_trans hd hg)
  · split at h
    · simp at h
    · exact Nat.le_trans (readTail_shorter h) hg

theorem readLong_shorter {neg sig s n r} (h : readLong neg sig s = .ok (n, r)) :
    r.length ≤ s.length := by
  unfold readLong at h
  have hd := length_dropDigits_le s
  generalize dropDigits s = t at h hd
  cases t with
  | nil => simp [ofParts_rest h]
  | cons b t =>
    simp only [List.length_cons] at h hd
    split at h
    · have := readFraction_shorter h; omega
    · have := readTail_shorter h; simp only [List.length_cons] at this; omega

theorem readRest_shorter {neg sig s n r} (h : readRest neg sig s = .ok (n, r)) :
    r.length ≤ s.length := by
  unfold readRest at h
  split at h
  · simp_all
  · split at h
    · exact Nat.le_succ_of_le (readFraction_shorter h)
    · split at h
      · exact Nat.le_succ_of_le (readExponent_shorter h)
      · simp_all

theorem readUnsigned_shorter {neg s n r} (h : readUnsigned neg s = .ok (n, r)) :
    r.length < s.length := by
  unfold readUnsigned at h
  split at h
  · simp at h
  · rename_i b s
    simp only [List.length_cons]
    split at h
    · split at h
      · simp at h
      · exact Nat.lt_succ_of_le (readRest_shorter h)
    · split at h
      · have hg := gather_shorter (digit b) 1 s
        generalize gather (digit b) 1 s = p at h hg
        obtain ⟨sig', k, t⟩ := p
        simp only at h hg
        split at h
        · have := readLong_shorter h; omega
        · have := readRest_shorter h; omega
      · simp at h

theorem read_shorter {s n r} (h : read s = .ok (n, r)) : r.length < s.length := by
  unfold read at h
  split at h
  · simp at h
  · split at h
    · have := readUnsigned_shorter h
      simp only [List.length_cons]; omega
    · exact readUnsigned_shorter h

end Number
end PinnedPool.Json
