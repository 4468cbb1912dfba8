import PinnedPool.Json.Number
import PinnedPool.Json.Skip

/-! # Typed readers

A reader takes a value of one type from the front of a text and always passes at least one byte,
which bounds the loops over lists and members. A record is read by its fields, either by key in any
order or by position, and fields that are not written keep their starting value.
-/
namespace PinnedPool.Json

structure Reader (α : Type) where
  run : Bytes → Except Fault (α × Bytes)
  shorter : ∀ {s a r}, run s = .ok (a, r) → r.length < s.length

namespace Reader

/-- The text of a string whose bytes are known to be well formed. -/
def decodeText (t : Bytes) : String := (String.fromUTF8? ⟨t.toArray⟩).getD ""

/-- The fault of a value of another type. A scalar is read first and may be at fault itself. -/
def mismatch (expected : String) (b : UInt8) (s : Bytes) : Fault :=
  match Literal.ofLetter? b with
  | some l =>
    match readLetters l.letters s with
    | .error f => f
    | .ok r => ⟨.invalidType l.found expected, r⟩
  | none =>
    if b = minus || isDigit b then
      match Number.read (b :: s) with
      | .error f => f
      | .ok (n, r) => ⟨.invalidType n.found expected, r⟩
    else if b = quote then
      match readText s with
      | .error f => f
      | .ok (t, r) => ⟨.invalidType (.text (decodeText t)) expected, r⟩
    else if b = listOpen then ⟨.invalidType .sequence expected, b :: s⟩
    else if b = objectOpen then ⟨.invalidType .map expected, b :: s⟩
    else ⟨.expectedValue, s⟩

/-- A size: an integer from 0 to `2 ^ 64 - 1`. -/
def readSize (s : Bytes) : Except Fault (Nat × Bytes) :=
  match dropSpace s with
  | [] => .error ⟨.endInValue, []⟩
  | b :: t =>
    if b = minus || isDigit b then
      match Number.read (b :: t) with
      | .error f => .error f
      | .ok (.natural n, r) => .ok (n, r)
      | .ok (.negative n, r) => .error ⟨.invalidValue (.integer (-n)) "usize", r⟩
      | .ok (.float neg f, r) => .error ⟨.invalidType (.float neg f) "usize", r⟩
    else .error (mismatch "usize" b t)

theorem readSize_shorter {s n r} (h : readSize s = .ok (n, r)) : r.length < s.length := by
  unfold readSize at h
  split at h
  · simp at h
  · rename_i b t hs
    have := length_lt_of_dropSpace hs
    split at h
    · split at h
      · simp at h
      · rename_i hn
        have := Number.read_shorter hn
        simp only [List.length_cons] at this
        simp only [Except.ok.injEq, Prod.mk.injEq] at h
        rw [← h.2]; omega
      · simp at h
      · simp at h
    · simp at h

def size : Reader Nat := ⟨readSize, readSize_shorter⟩

/-- A flag: one of the two literals. -/
def readFlag (s : Bytes) : Except Fault (Bool × Bytes) :=
  match dropSpace s with
  | [] => .error ⟨.endInValue, []⟩
  | b :: t =>
    match Literal.ofLetter? b with
    | some .yes =>
      match readLetters Literal.yes.letters t with
      | .error f => .error f
      | .ok r => .ok (true, r)
    | some .no =>
      match readLetters Literal.no.letters t with
      | .error f => .error f
      | .ok r => .ok (false, r)
    | _ => .error (mismatch "a boolean" b t)

theorem readFlag_shorter {s n r} (h : readFlag s = .ok (n, r)) : r.length < s.length := by
  unfold readFlag at h
  split at h
  · simp at h
  · rename_i b t hs
    have := length_lt_of_dropSpace hs
    split at h
    · split at h
      · simp at h
      · rename_i hl
        have := readLetters_shorter hl
        simp only [Except.ok.injEq, Prod.mk.injEq] at h
        rw [← h.2]; omega
    · split at h
      · simp at h
      · rename_i hl
        have := readLetters_shorter hl
        simp only [Except.ok.injEq, Prod.mk.injEq] at h
        rw [← h.2]; omega
    · simp at h

def flag : Reader Bool := ⟨readFlag, readFlag_shorter⟩

/-- What the next item of a list starts at, or that the list ends. -/
inductive Next where
  | stop (rest : Bytes)
  | item (rest : Bytes)

/-- Finds the next item. After the first one a comma has to come before it. -/
def nextItem (first : Bool) (s : Bytes) : Except Fault Next :=
  match dropSpace s with
  | [] => .error ⟨.endInList, []⟩
  | b :: r =>
    if b = listClose then .ok (.stop r)
    else if first then .ok (.item (b :: r))
    else if b = comma then
      match dropSpace r with
      | [] => .error ⟨.endInValue, []⟩
      | c :: t => if c = listClose then .error ⟨.trailingComma, t⟩ else .ok (.item (c :: t))
    else .error ⟨.expectedListEnd, r⟩

theorem nextItem_stop {f s r} (h : nextItem f s = .ok (.stop r)) : r.length < s.length := by
  unfold nextItem at h
  split at h
  · simp at h
  · rename_i b t hs
    have := length_lt_of_dropSpace hs
    split at h
    · simp only [Except.ok.injEq, Next.stop.injEq] at h
      rw [← h]; exact this
    · split at h
      · simp at h
      · split at h
        · split at h
          · simp at h
          · split at h <;> simp at h
        · simp at h

theorem nextItem_item {f s r} (h : nextItem f s = .ok (.item r)) : r.length ≤ s.length := by
  unfold nextItem at h
  split at h
  · simp at h
  · rename_i b t hs
    have := length_lt_of_dropSpace hs
    split at h
    · simp at h
    · split at h
      · simp only [Except.ok.injEq, Next.item.injEq] at h
        rw [← h]; simp only [List.length_cons]; omega
      · split at h
        · split at h
          · simp at h
          · rename_i c u hu
            have := length_lt_of_dropSpace hu
            split at h
            · simp at h
            · simp only [Except.ok.injEq, Next.item.injEq] at h
              rw [← h]; simp only [List.length_cons]; omega
        · simp at h

/-- The items of a list after its opening bracket. -/
def readItems {α : Type} (item : Reader α) (first : Bool) (s : Bytes) :
    Except Fault (List α × Bytes) :=
  match _h : nextItem first s with
  | .error f => .error f
  | .ok (.stop r) => .ok ([], r)
  | .ok (.item r) =>
    match _h2 : item.run r with
    | .error f => .error f
    | .ok (a, r) =>
      match readItems item false r with
      | .error f => .error f
      | .ok (as, r) => .ok (a :: as, r)
termination_by s.length
decreasing_by
  have := nextItem_item _h
  have := item.shorter _h2
  omega

theorem readItems_shorter {α : Type} {item : Reader α} {first s as r}
    (h : readItems item first s = .ok (as, r)) : r.length < s.length := by
  fun_induction readItems item first s generalizing as r with
  | case1 => simp at h
  | case2 first s t ht =>
    simp only [Except.ok.injEq, Prod.mk.injEq] at h
    rw [← h.2]; exact nextItem_stop ht
  | case3 => simp at h
  | case4 => simp at h
  | case5 first s t ht a u hu as' v hv ih =>
    have := nextItem_item ht
    have := item.shorter hu
    have := ih hv
    simp only [Except.ok.injEq, Prod.mk.injEq] at h
    rw [← h.2]; omega

/-- A list of values of one type. -/
def readList {α : Type} (item : Reader α) (s : Bytes) : Except Fault (List α × Bytes) :=
  match dropSpace s with
  | [] => .error ⟨.endInValue, []⟩
  | b :: t => if b = listOpen then readItems item true t else .error (mismatch "a sequence" b t)

theorem readList_shorter {α : Type} {item : Reader α} {s as r}
    (h : readList item s = .ok (as, r)) : r.length < s.length := by
  unfold readList at h
  split at h
  · simp at h
  · rename_i b t hs
    have := length_lt_of_dropSpace hs
    split at h
    · have := readItems_shorter h
      omega
    · simp at h

def list {α : Type} (item : Reader α) : Reader (List α) := ⟨readList item, readList_shorter⟩

/-- A reader followed by a function of its value. -/
def map {α β : Type} (f : α → β) (r : Reader α) : Reader β where
  run s :=
    match r.run s with
    | .error e => .error e
    | .ok (a, t) => .ok (f a, t)
  shorter {s b t} h := by
    split at h
    · simp at h
    · rename_i a u hu
      simp only [Except.ok.injEq, Prod.mk.injEq] at h
      rw [← h.2]; exact r.shorter hu

end Reader

/-- A field of a record: its key and how its value changes the record. -/
structure Field (σ : Type) where
  key : String
  update : Reader (σ → σ)

/-- A field whose value is stored by `set`. -/
def Field.of {σ α : Type} (key : String) (reader : Reader α) (set : α → σ → σ) : Field σ :=
  ⟨key, reader.map set⟩

namespace Reader

variable {σ : Type}

/-- What follows the last field of a record written by position. -/
def readListEnd (s : Bytes) : Except Fault Bytes :=
  match dropSpace s with
  | [] => .error ⟨.endInList, []⟩
  | b :: r =>
    if b = listClose then .ok r
    else if b = comma then
      match dropSpace r with
      | [] => .error ⟨.trailingCharacters, []⟩
      | c :: t => .error ⟨if c = listClose then .trailingComma else .trailingCharacters, t⟩
    else .error ⟨.trailingCharacters, r⟩

theorem readListEnd_shorter {s r} (h : readListEnd s = .ok r) : r.length < s.length := by
  unfold readListEnd at h
  split at h
  · simp at h
  · rename_i b t hs
    have := length_lt_of_dropSpace hs
    split at h
    · simp only [Except.ok.injEq] at h
      rw [← h]; exact this
    · split at h
      · split at h <;> simp at h
      · simp at h

/-- The fields of a record by position, after the opening bracket. -/
def readPositions (first : Bool) : List (Field σ) → σ → Bytes → Except Fault (σ × Bytes)
  | [], x, s =>
    match readListEnd s with
    | .error f => .error f
    | .ok r => .ok (x, r)
  | field :: fields, x, s =>
    match nextItem first s with
    | .error f => .error f
    | .ok (.stop r) => .ok (x, r)
    | .ok (.item r) =>
      match field.update.run r with
      | .error f => .error f
      | .ok (set, r) => readPositions false fields (set x) r

theorem readPositions_shorter {first fields} {x y : σ} {s r}
    (h : readPositions first fields x s = .ok (y, r)) : r.length < s.length := by
  induction fields generalizing first x s with
  | nil =>
    simp only [readPositions] at h
    split at h
    · simp at h
    · rename_i he
      simp only [Except.ok.injEq, Prod.mk.injEq] at h
      rw [← h.2]; exact readListEnd_shorter he
  | cons field fields ih =>
    simp only [readPositions] at h
    split at h
    · simp at h
    · rename_i he
      simp only [Except.ok.injEq, Prod.mk.injEq] at h
      rw [← h.2]; exact nextItem_stop he
    · rename_i t he
      have := nextItem_item he
      split at h
      · simp at h
      · rename_i hu
        have := field.update.shorter hu
        have := ih h
        omega

/-- Finds the next key of an object, or its end. A key starts after its opening quote. -/
def nextKey (first : Bool) (s : Bytes) : Except Fault Next :=
  match dropSpace s with
  | [] => .error ⟨.endInObject, []⟩
  | b :: r =>
    if b = objectClose then .ok (.stop r)
    else if first then
      if b = quote then .ok (.item r) else .error ⟨.keyMustBeString, r⟩
    else if b = comma then
      match dropSpace r with
      | [] => .error ⟨.endInValue, []⟩
      | c :: t =>
        if c = quote then .ok (.item t)
        else if c = objectClose then .error ⟨.trailingComma, t⟩
        else .error ⟨.keyMustBeString, t⟩
    else .error ⟨.expectedObjectEnd, r⟩

theorem nextKey_stop {f s r} (h : nextKey f s = .ok (.stop r)) : r.length < s.length := by
  unfold nextKey at h
  split at h
  · simp at h
  · rename_i b t hs
    have := length_lt_of_dropSpace hs
    split at h
    · simp only [Except.ok.injEq, Next.stop.injEq] at h
      rw [← h]; exact this
    · split at h
      · split at h <;> simp at h
      · split at h
        · split at h
          · simp at h
          · split at h
            · simp at h
            · split at h <;> simp at h
        · simp at h

theorem nextKey_item {f s r} (h : nextKey f s = .ok (.item r)) : r.length ≤ s.length := by
  unfold nextKey at h
  split at h
  · simp at h
  · rename_i b t hs
    have := length_lt_of_dropSpace hs
    split at h
    · simp at h
    · split at h
      · split at h
        · simp only [Except.ok.injEq, Next.item.injEq] at h
          rw [← h]; omega
        · simp at h
      · split at h
        · split at h
          · simp at h
          · rename_i c u hu
            have := length_lt_of_dropSpace hu
            split at h
            · simp only [Except.ok.injEq, Next.item.injEq] at h
              rw [← h]; omega
            · split at h <;> simp at h
        · simp at h

def fieldOf? (fields : List (Field σ)) (key : Bytes) : Option (Field σ) :=
  fields.find? fun f => f.key.toUTF8.toList = key

/-- A known key for the second time. The brace that may close the object counts as passed. -/
def duplicate (key : String) (s : Bytes) : Fault :=
  ⟨.duplicateField key,
    match dropSpace s with
    | [] => []
    | b :: r => if b = objectClose then r else b :: r⟩

/-- The value of a member: read for a field, checked for any other key. -/
def readMember (field : Option (Field σ)) (x : σ) (s : Bytes) : Except Fault (σ × Bytes) :=
  match readColon s with
  | .error f => .error f
  | .ok r =>
    match field with
    | some field =>
      match field.update.run r with
      | .error f => .error f
      | .ok (set, r) => .ok (set x, r)
    | none =>
      match skipValue r with
      | .error f => .error f
      | .ok r => .ok (x, r)

theorem readMember_shorter {field} {x y : σ} {s r} (h : readMember field x s = .ok (y, r)) :
    r.length < s.length := by
  unfold readMember at h
  split at h
  · simp at h
  · rename_i hc
    have := readColon_shorter hc
    split at h
    · split at h
      · simp at h
      · rename_i hu
        have := Reader.shorter _ hu
        simp only [Except.ok.injEq, Prod.mk.injEq] at h
        rw [← h.2]; omega
    · split at h
      · simp at h
      · rename_i hu
        have := skipValue_shorter hu
        simp only [Except.ok.injEq, Prod.mk.injEq] at h
        rw [← h.2]; omega

/-- The members of an object. `seen` holds the known keys that have occurred. -/
def readMembers (fields : List (Field σ)) (seen : List String) (first : Bool) (x : σ) (s : Bytes) :
    Except Fault (σ × Bytes) :=
  match _h : nextKey first s with
  | .error f => .error f
  | .ok (.stop r) => .ok (x, r)
  | .ok (.item r) =>
    match _h2 : readText r with
    | .error f => .error f
    | .ok (key, r) =>
      let field := fieldOf? fields key
      let name := field.map Field.key
      if name.any seen.contains then .error (duplicate (name.getD "") r)
      else
        match _h3 : readMember field x r with
        | .error f => .error f
        | .ok (x, r) => readMembers fields (name.toList ++ seen) false x r
termination_by s.length
decreasing_by
  have := nextKey_item _h
  have := readText_shorter _h2
  have := readMember_shorter _h3
  omega

theorem readMembers_shorter {fields seen first} {x y : σ} {s r}
    (h : readMembers fields seen first x s = .ok (y, r)) : r.length < s.length := by
  fun_induction readMembers fields seen first x s generalizing y r with
  | case1 => simp at h
  | case2 seen first x s t ht =>
    simp only [Except.ok.injEq, Prod.mk.injEq] at h
    rw [← h.2]; exact nextKey_stop ht
  | case3 => simp at h
  | case4 => simp at h
  | case5 => simp at h
  | case6 =>
    rename_i ht _ _ hu _ _ _ _ _ hv ih
    have := nextKey_item ht
    have := readText_shorter hu
    have := readMember_shorter hv
    have := ih h
    omega

/-- A record by key or by position. -/
def readRecord (name : String) (fields : List (Field σ)) (start : σ) (s : Bytes) :
    Except Fault (σ × Bytes) :=
  match dropSpace s with
  | [] => .error ⟨.endInValue, []⟩
  | b :: t =>
    if b = objectOpen then readMembers fields [] true start t
    else if b = listOpen then readPositions true fields start t
    else .error (mismatch ("struct " ++ name) b t)

theorem readRecord_shorter {name fields} {start x : σ} {s r}
    (h : readRecord name fields start s = .ok (x, r)) : r.length < s.length := by
  unfold readRecord at h
  split at h
  · simp at h
  · rename_i b t hs
    have := length_lt_of_dropSpace hs
    split at h
    · have := readMembers_shorter h
      omega
    · split at h
      · have := readPositions_shorter h
        omega
      · simp at h

/-- A record whose missing fields keep the values of `start`. -/
def record (name : String) (fields : List (Field σ)) (start : σ) : Reader σ :=
  ⟨readRecord name fields start, readRecord_shorter⟩

end Reader
end PinnedPool.Json
