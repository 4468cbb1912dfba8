import PinnedPool.Proofs.Json.Numerals
import PinnedPool.Proofs.Json.Success

/-! # What a typed reader takes

Texts of sizes, flags, lists and records, and that the readers take them to their very end. A record
is given by its members in any order. The members of unknown keys may have any value, and those of
known ones come at most once.
-/
namespace PinnedPool.Json

def Bracket.opening : Bracket → UInt8
  | list => listOpen
  | object => objectOpen

section Sequences
variable {M : Type} (P : M → Bytes → Bytes → Prop)

/-- Phrases with commas between them, up to a closing byte. -/
inductive Sequence (close : UInt8) : List M → Bytes → Bytes → Prop
  | last {m s u v t} : Space s u → P m u v → Space v (close :: t) → Sequence close [m] s t
  | cons {m ms s u v w t} : Space s u → P m u v → Space v (comma :: w) → Sequence close ms w t →
    Sequence close (m :: ms) s t

/-- Phrases with commas between them, in brackets. -/
inductive Bracketed (k : Bracket) : List M → Bytes → Bytes → Prop
  | empty {s t} : Space s (k.closing :: t) → Bracketed k [] (k.opening :: s) t
  | some {ms s t} : Sequence P k.closing ms s t → Bracketed k ms (k.opening :: s) t

theorem Sequence.exists_of_mem {P : M → Bytes → Bytes → Prop} {close : UInt8} {ms : List M}
    {s t : Bytes} (h : Sequence P close ms s t) {m : M} (hm : m ∈ ms) : ∃ u v, P m u v := by
  induction h with
  | last _ hp _ => exact ⟨_,_,List.mem_singleton.mp hm ▸ hp⟩
  | cons _ hp _ _ ih =>
    rcases List.mem_cons.mp hm with rfl | hm
    · exact ⟨_,_,hp⟩
    · exact ih hm

theorem Bracketed.exists_of_mem {P : M → Bytes → Bytes → Prop} {k : Bracket} {ms : List M}
    {s t : Bytes} (h : Bracketed P k ms s t) {m : M} (hm : m ∈ ms) : ∃ u v, P m u v := by
  cases h with
  | empty => cases hm
  | some hseq => exact hseq.exists_of_mem hm

end Sequences

section Maps
variable {M N : Type} {P : M → Bytes → Bytes → Prop} {Q : N → Bytes → Bytes → Prop} (f : M → N)

theorem Sequence.map {close : UInt8} {ms : List M} {s t : Bytes} (h : Sequence P close ms s t)
    (hf : ∀ m ∈ ms, ∀ {s t}, P m s t → Q (f m) s t) : Sequence Q close (ms.map f) s t := by
  induction h with
  | last hs hm hv => exact .last hs (hf _ (List.mem_cons_self ..) hm) hv
  | cons hs hm hv _ ih =>
    exact .cons hs (hf _ (List.mem_cons_self ..) hm) hv
      (ih fun m hm => hf m (List.mem_cons_of_mem _ hm))

theorem Bracketed.map {k : Bracket} {ms : List M} {s t : Bytes} (h : Bracketed P k ms s t)
    (hf : ∀ m ∈ ms, ∀ {s t}, P m s t → Q (f m) s t) : Bracketed Q k (ms.map f) s t := by
  cases h with
  | empty hs => exact .empty hs
  | some hseq => exact .some (hseq.map f hf)

theorem Sequence.of_map {close : UInt8} {ms : List M} {s t : Bytes}
    (h : Sequence Q close (ms.map f) s t) : Sequence (fun m => Q (f m)) close ms s t := by
  generalize hns : ms.map f = ns at h
  induction h generalizing ms with
  | last hs hm hv =>
    obtain ⟨m,rfl,rfl⟩ := List.map_eq_singleton_iff.mp hns
    exact .last hs hm hv
  | cons hs hm hv _ ih =>
    obtain ⟨m,ms,rfl,rfl,hms⟩ := List.map_eq_cons_iff.mp hns
    exact .cons hs hm hv (ih hms)

theorem Bracketed.of_map {k : Bracket} {ms : List M} {s t : Bytes}
    (h : Bracketed Q k (ms.map f) s t) : Bracketed (fun m => Q (f m)) k ms s t := by
  generalize hns : ms.map f = ns at h
  cases h with
  | empty hs =>
    obtain rfl := List.map_eq_nil_iff.mp hns
    exact .empty hs
  | some hseq => exact .some (Sequence.of_map f (hns ▸ hseq))

end Maps

/-- A member of an object, whose key may be spelled in any way. -/
inductive Member (V : Bytes → Bytes → Prop) (key : Bytes) : Bytes → Bytes → Prop
  | mk {s c u v t} : Spells s key c → Space c (colon :: u) → Space u v → V v t →
    Member V key (quote :: s) t

theorem Member.mono {V W : Bytes → Bytes → Prop} (hVW : ∀ {s t}, V s t → W s t)
    {key s t : Bytes} (h : Member V key s t) : Member W key s t := by
  cases h with
  | mk hk hc hu hv => exact .mk hk hc hu (hVW hv)

section Values
variable {M : Type} {P : M → Bytes → Bytes → Prop} {ms : List M} {s t : Bytes}

theorem value_of_list (hP : ∀ m ∈ ms, ∀ {s t}, P m s t → Value s t)
    (h : Bracketed P .list ms s t) : Value s t := by
  have hitems : ∀ {ms : List M} {s t}, (∀ m ∈ ms, ∀ {s t}, P m s t → Value s t) →
      Sequence P listClose ms s t → Wellformed .items s t := by
    intro ms s t hP h
    induction h with
    | last hs hm hv => exact .lastItem hs (hP _ (List.mem_cons_self ..) hm) hv
    | cons hs hm hv _ ih =>
      exact .item hs (hP _ (List.mem_cons_self ..) hm) hv
        (ih fun m hm => hP m (List.mem_cons_of_mem _ hm))
  cases h with
  | empty hs => exact .emptyList hs
  | some hseq => exact .list (hitems hP hseq)

theorem value_of_object (hP : ∀ m ∈ ms, ∀ {s t}, P m s t → ∃ key, Member Value key s t)
    (h : Bracketed P .object ms s t) : Value s t := by
  have hmembers : ∀ {ms : List M} {s t},
      (∀ m ∈ ms, ∀ {s t}, P m s t → ∃ key, Member Value key s t) →
      Sequence P objectClose ms s t → Wellformed .members s t := by
    intro ms s t hP h
    induction h with
    | last hs hm hv =>
      obtain ⟨key,hk,hc,hu,hx⟩ := hP _ (List.mem_cons_self ..) hm
      exact .lastMember hs hk.quoted hc hu hx hv
    | cons hs hm hv _ ih =>
      obtain ⟨key,hk,hc,hu,hx⟩ := hP _ (List.mem_cons_self ..) hm
      exact .member hs hk.quoted hc hu hx hv (ih fun m hm => hP m (List.mem_cons_of_mem _ hm))
  cases h with
  | empty hs => exact .emptyObject hs
  | some hseq => exact .object (hmembers hP hseq)

end Values

/-- The reader takes every text of a value to its end. -/
structure Reads {α : Type} (r : Reader α) (P : α → Bytes → Bytes → Prop) : Prop where
  head {a u t} : P a u t → ∃ b v, u = b :: v ∧ isSpace b = false ∧ b ≠ listClose
  run {a s u t} : P a u t → Space s u → Ends t → r.run s = .ok (a,t)

theorem reads_size : Reads .size SizeText where
  head {n u t} h := by
    obtain ⟨hn,rfl⟩ := h
    have hne : Nat.toDigits 10 n ≠ [] := Nat.toDigits_ne_nil
    obtain ⟨c,l,hl⟩ := List.exists_cons_of_ne_nil hne
    have hb : isDigit (digitByte c) = true :=
      isDigit_digitByte (isDigit_of_mem_digits (hl ▸ List.mem_cons_self ..))
    rw [utf8_toString, hl]
    exact ⟨_,_,rfl,isSpace_of_isDigit hb,ne_of_isDigit hb rfl⟩
  run {n s u t} h hs ht := by
    obtain ⟨b,r,rfl,hb,hread⟩ := h.read ht
    have hdrop := hs.dropSpace_cons (isSpace_of_isDigit hb)
    show Reader.readSize s = _
    simp only [Reader.readSize, hdrop, hb, Bool.or_true, ↓reduceIte, hread]

theorem SizeText.value {n : Nat} {s t : Bytes} (h : SizeText n s t) : Value s t :=
  .number (.positive h.whole .none .none)

def FlagText (b : Bool) (s t : Bytes) : Prop := s = utf8 (toString b) ++ t

theorem utf8_true : utf8 (toString true) = 116 :: Literal.yes.letters := by decide +kernel

theorem utf8_false : utf8 (toString false) = 102 :: Literal.no.letters := by decide +kernel

theorem reads_flag : Reads .flag FlagText where
  head {b u t} h := by
    obtain rfl := h
    cases b with
    | true =>
      rw [utf8_true]
      exact ⟨_,_,rfl,rfl,by decide⟩
    | false =>
      rw [utf8_false]
      exact ⟨_,_,rfl,rfl,by decide⟩
  run {b s u t} h hs _ := by
    obtain rfl := h
    show Reader.readFlag s = _
    cases b with
    | true =>
      rw [utf8_true, List.cons_append] at hs
      have hletter : Literal.ofLetter? 116 = some .yes := rfl
      simp only [Reader.readFlag, hs.dropSpace_cons rfl, hletter, readLetters_append]
    | false =>
      rw [utf8_false, List.cons_append] at hs
      have hletter : Literal.ofLetter? 102 = some .no := rfl
      simp only [Reader.readFlag, hs.dropSpace_cons rfl, hletter, readLetters_append]

theorem FlagText.value {b : Bool} {s t : Bytes} (h : FlagText b s t) : Value s t := by
  obtain rfl := h
  cases b with
  | true => exact .literal (w := "true") (by simp)
  | false => exact .literal (w := "false") (by simp)

/-! ## Lists -/

/-- Where the next phrase of a sequence begins, seen from the end of the one before it. -/
inductive Leads : Bool → Bytes → Bytes → Prop
  | first {s} : Leads true s s
  | next {s v} : Space v (comma :: s) → Leads false v s

namespace Reader

theorem nextItem_item_eq {first : Bool} {v s r : Bytes} {b : UInt8} (h : Leads first v s)
    (hs : Space s (b :: r)) (hb : isSpace b = false) (hne : b ≠ listClose) :
    nextItem first v = .ok (.item (b :: r)) := by
  have hdrop := hs.dropSpace_cons hb
  cases h with
  | first => simp only [nextItem, hdrop, hne, ↓reduceIte]
  | next hv =>
    have hcomma : comma ≠ listClose := by decide
    simp only [nextItem, hv.dropSpace_cons rfl, hcomma, hdrop, hne, Bool.false_eq_true, ↓reduceIte]

theorem nextItem_stop_eq {v t : Bytes} (h : Space v (listClose :: t)) (first : Bool) :
    nextItem first v = .ok (.stop t) := by
  simp only [nextItem, h.dropSpace_cons rfl, ↓reduceIte]

section Items
variable {α : Type} {item : Reader α} {first : Bool} {s u v t : Bytes}

theorem readItems_stop (h : nextItem first s = .ok (.stop t)) :
    readItems item first s = .ok ([],t) := by
  rw [readItems]
  split <;> simp_all

theorem readItems_item {a : α} {as : List α} (h : nextItem first s = .ok (.item u))
    (hu : item.run u = .ok (a,v)) (hv : readItems item false v = .ok (as,t)) :
    readItems item first s = .ok (a :: as,t) := by
  rw [readItems]
  split
  · simp_all
  · simp_all
  · rename_i hs
    rw [h] at hs
    cases hs
    split
    · simp_all
    · rename_i hr
      rw [hu] at hr
      cases hr
      rw [hv]

end Items

theorem readItems_of_sequence {α : Type} {r : Reader α} {P : α → Bytes → Bytes → Prop}
    (hr : Reads r P) {as : List α} {s t : Bytes} (h : Sequence P listClose as s t) :
    ∀ {first v}, Leads first v s → readItems r first v = .ok (as,t) := by
  induction h with
  | @last a s u v t hs ha hv =>
    intro first x hx
    obtain ⟨b,w,rfl,hb,hne⟩ := hr.head ha
    have hrun := hr.run ha .none (hv.ends (ends_listClose t))
    exact readItems_item (nextItem_item_eq hx hs hb hne) hrun
      (readItems_stop (nextItem_stop_eq hv false))
  | @cons a as s u v w t hs ha hv _ ih =>
    intro first x hx
    obtain ⟨b,r,rfl,hb,hne⟩ := hr.head ha
    have hrun := hr.run ha .none (hv.ends (ends_comma w))
    exact readItems_item (nextItem_item_eq hx hs hb hne) hrun (ih (.next hv))

end Reader

theorem Bracketed.head {M : Type} {P : M → Bytes → Bytes → Prop} {k : Bracket} {ms : List M}
    {s t : Bytes} (h : Bracketed P k ms s t) :
    ∃ v, s = k.opening :: v ∧ isSpace k.opening = false ∧ k.opening ≠ listClose := by
  have hopening : isSpace k.opening = false ∧ k.opening ≠ listClose := by cases k <;> decide
  cases h with
  | empty | some => exact ⟨_,rfl,hopening⟩

theorem reads_list {α : Type} {r : Reader α} {P : α → Bytes → Bytes → Prop} (hr : Reads r P) :
    Reads (.list r) (Bracketed P .list) where
  head h := by
    obtain ⟨v,hv,hb⟩ := h.head
    exact ⟨_,v,hv,hb⟩
  run {as s u t} h hs _ := by
    show Reader.readList r s = _
    obtain ⟨v,rfl,hb,-⟩ := h.head
    have hdrop := hs.dropSpace_cons hb
    have hopening : Bracket.list.opening = listOpen := rfl
    simp only [Reader.readList, hdrop, hopening, ↓reduceIte]
    cases h with
    | empty hu => exact Reader.readItems_stop (Reader.nextItem_stop_eq hu true)
    | some hseq => exact Reader.readItems_of_sequence hr hseq .first

/-! ## Records -/

namespace Reader

theorem nextKey_item_eq {first : Bool} {v s r : Bytes} (h : Leads first v s)
    (hs : Space s (quote :: r)) : nextKey first v = .ok (.item r) := by
  have hdrop := hs.dropSpace_cons rfl
  have hclose : quote ≠ objectClose := by decide
  cases h with
  | first => simp only [nextKey, hdrop, hclose, ↓reduceIte]
  | next hv =>
    have hcomma : comma ≠ objectClose := by decide
    simp only [nextKey, hv.dropSpace_cons rfl, hcomma, hdrop, Bool.false_eq_true, ↓reduceIte]

theorem nextKey_stop_eq {v t : Bytes} (h : Space v (objectClose :: t)) (first : Bool) :
    nextKey first v = .ok (.stop t) := by
  simp only [nextKey, h.dropSpace_cons rfl, ↓reduceIte]

variable {σ : Type}

/-- What the loop over the members does with one of them: it is the field of the given name, or
none, and changes the record by `put`. -/
def Takes (fields : List (Field σ)) (name : Option String) (put : σ → σ) (s t : Bytes) : Prop :=
  ∃ r key u, s = quote :: r ∧ readText r = .ok (key,u) ∧
    (fieldOf? fields key).map Field.key = name ∧
    ∀ x, readMember (fieldOf? fields key) x u = .ok (put x,t)

section Members
variable {fields : List (Field σ)} {seen : List String} {first : Bool} {x : σ} {s u v t : Bytes}

theorem readMembers_stop (h : nextKey first s = .ok (.stop t)) :
    readMembers fields seen first x s = .ok (x,t) := by
  rw [readMembers]
  split <;> simp_all

theorem readMembers_item {name : Option String} {put : σ → σ}
    (hv : Leads first v s) (hs : Space s u) (hu : Takes fields name put u t)
    (hfresh : ∀ k ∈ name, k ∉ seen) :
    readMembers fields seen first x v =
      readMembers fields (name.toList ++ seen) false (put x) t := by
  obtain ⟨r,key,w,rfl,hkey,rfl,hmember⟩ := hu
  have hunseen : ((fieldOf? fields key).map Field.key).any seen.contains = false := by
    cases hf : (fieldOf? fields key).map Field.key with
    | none => rfl
    | some k => simpa using hfresh k hf
  rw [readMembers_key (nextKey_item_eq hv hs) hkey, hunseen, hmember]
  rfl

end Members

theorem takes_field {α : Type} {r : Reader α} {P : α → Bytes → Bytes → Prop} (hr : Reads r P)
    {fields : List (Field σ)} {key s t : Bytes} {name : String} {set : α → σ → σ} {a : α}
    (hf : fieldOf? fields key = some (.of name r set)) (h : Member (P a) key s t)
    (ht : Ends t) : Takes fields (some name) (set a) s t := by
  cases h with
  | mk hs hc hu ha =>
    refine ⟨_,key,_,rfl,hs.read,by rw [hf]; rfl,?_⟩
    intro x
    have hrun := hr.run ha hu ht
    simp only [readMember, readColon_eq hc, hf, Field.of, Reader.map, hrun]

theorem takes_other {fields : List (Field σ)} {key s t : Bytes} (hf : fieldOf? fields key = none)
    (h : Member Value key s t) (ht : Ends t) : Takes fields none id s t := by
  cases h with
  | mk hs hc hu ha =>
    refine ⟨_,key,_,rfl,hs.read,by rw [hf]; rfl,?_⟩
    intro x
    simp only [readMember, readColon_eq hc, hf, ha.skip hu ht, id]

end Reader

/-- Every member is taken for the field of its name, with its own change of the record. -/
def Members {σ M : Type} (fields : List (Field σ)) (P : M → Bytes → Bytes → Prop)
    (name? : M → Option String) (put : M → σ → σ) : Prop :=
  ∀ {m s t}, P m s t → Ends t → Reader.Takes fields (name? m) (put m) s t

/-- No field is given twice. -/
def Once {M : Type} (name? : M → Option String) (ms : List M) : Prop := (ms.filterMap name?).Nodup

theorem once_cons {M : Type} {name? : M → Option String} {m : M} {ms : List M} :
    Once name? (m :: ms) ↔
      (∀ m' ∈ ms, ∀ k, name? m = some k → name? m' ≠ some k) ∧ Once name? ms := by
  unfold Once
  cases hname : name? m with
  | none => simp [hname]
  | some k =>
    rw [List.filterMap_cons_some hname, List.nodup_cons]
    refine and_congr_left fun _ => ?_
    constructor
    · rintro hk m' hm' _ ⟨⟩ hk'
      exact hk (List.mem_filterMap.mpr ⟨m',hm',hk'⟩)
    · intro h hk
      obtain ⟨m',hm',hk'⟩ := List.mem_filterMap.mp hk
      exact h m' hm' k rfl hk'

section Records
variable {σ M : Type} {fields : List (Field σ)} {P : M → Bytes → Bytes → Prop}
  {name? : M → Option String} {put : M → σ → σ} (hP : Members fields P name? put)
include hP

theorem Members.read {ms : List M} {s t : Bytes} (h : Sequence P objectClose ms s t) :
    ∀ {first v seen x}, Leads first v s → Once name? ms →
      (∀ m ∈ ms, ∀ k ∈ name? m, k ∉ seen) →
      Reader.readMembers fields seen first x v = .ok (ms.foldl (fun x m => put m x) x,t) := by
  -- the names that are to come stay apart from those that have been seen
  induction h with
  | @last m s u v t hs hm hv =>
    intro first w seen x hw _ hseen
    have htakes := hP hm (hv.ends (ends_objectClose t))
    rw [Reader.readMembers_item hw hs htakes (hseen m (List.mem_singleton_self m))]
    exact Reader.readMembers_stop (Reader.nextKey_stop_eq hv false)
  | @cons m ms s u v w t hs hm hv _ ih =>
    intro first y seen x hy honce hseen
    have htakes := hP hm (hv.ends (ends_comma w))
    rw [Reader.readMembers_item hy hs htakes (hseen m (List.mem_cons_self ..))]
    obtain ⟨hother,hrest⟩ := once_cons.mp honce
    refine ih (.next hv) hrest ?_
    intro m' hm' k hk hmem
    rcases List.mem_append.mp hmem with hname | hold
    · exact hother m' hm' k (Option.mem_toList.mp hname) hk
    · exact hseen m' (List.mem_cons_of_mem _ hm') k hk hold

/-- A record is read over its starting value, whatever the order of its members. -/
theorem Members.reads (name : String) (start : σ) : Reads (.record name fields start)
    fun y s t => ∃ ms, Bracketed P .object ms s t ∧ Once name? ms ∧
      y = ms.foldl (fun x m => put m x) start where
  head h := by
    obtain ⟨ms,h,-⟩ := h
    obtain ⟨v,hv,hb⟩ := h.head
    exact ⟨_,v,hv,hb⟩
  run {y s u t} h hs _ := by
    obtain ⟨ms,h,honce,rfl⟩ := h
    show Reader.readRecord name fields start s = _
    obtain ⟨v,rfl,hb,-⟩ := h.head
    have hdrop := hs.dropSpace_cons hb
    have hopening : Bracket.object.opening = objectOpen := rfl
    simp only [Reader.readRecord, hdrop, hopening, ↓reduceIte]
    cases h with
    | empty hu => exact Reader.readMembers_stop (Reader.nextKey_stop_eq hu true)
    | some hseq => exact hP.read hseq .first honce fun _ _ _ _ => List.not_mem_nil

end Records

/-! ## Records by position -/

theorem Reads.field {σ α : Type} {r : Reader α} {P Q : α → Bytes → Bytes → Prop} (hr : Reads r P)
    {a : α} (hQ : ∀ {u t}, Q a u t → P a u t) (name : String) (set : α → σ → σ) :
    Reads (Field.of name r set).update fun g u t => Q a u t ∧ g = set a where
  head h := hr.head (hQ h.1)
  run {g s u t} h hs ht := by
    obtain ⟨h,rfl⟩ := h
    have hrun := hr.run (hQ h) hs ht
    simp only [Field.of, Reader.map, hrun]

section Positions
variable {σ M : Type} {P : M → Bytes → Bytes → Prop} {name? : M → Option String}
  {put : M → σ → σ}

/-- A field reads the values of the members of its name. -/
def Fills (P : M → Bytes → Bytes → Prop) (name? : M → Option String) (put : M → σ → σ)
    (f : Field σ) : Prop :=
  ∀ m, name? m = some f.key → Reads f.update fun g u t => P m u t ∧ g = put m

namespace Reader

theorem readPositions_of_sequence {ms : List M} {s t : Bytes} (h : Sequence P listClose ms s t) :
    ∀ {first v} {fields : List (Field σ)} {x : σ}, (∀ f ∈ fields, Fills P name? put f) →
      ms.map name? <+: (fields.map Field.key).map some → Leads first v s →
      readPositions first fields x v = .ok (ms.foldl (fun x m => put m x) x,t) := by
  induction h with
  | @last m s u v t hs hm hv =>
    intro first w fields x hfields hnames hw
    cases fields with
    | nil => simp at hnames
    | cons f fields =>
      have hf := hfields f (List.mem_cons_self ..) m (List.cons_prefix_cons.mp hnames).1
      obtain ⟨b,y,rfl,hb,hne⟩ := hf.head ⟨hm,rfl⟩
      have hrun := hf.run ⟨hm,rfl⟩ .none (hv.ends (ends_listClose t))
      simp only [readPositions, nextItem_item_eq hw hs hb hne, hrun, List.foldl_cons,
        List.foldl_nil]
      cases fields with
      | nil => simp only [readPositions, readListEnd, hv.dropSpace_cons rfl, ↓reduceIte]
      | cons f fields => simp only [readPositions, nextItem_stop_eq hv]
  | @cons m ms s u v w t hs hm hv _ ih =>
    intro first y fields x hfields hnames hy
    cases fields with
    | nil => simp at hnames
    | cons f fields =>
      obtain ⟨hname,hrest⟩ := List.cons_prefix_cons.mp hnames
      have hf := hfields f (List.mem_cons_self ..) m hname
      obtain ⟨b,z,rfl,hb,hne⟩ := hf.head ⟨hm,rfl⟩
      have hrun := hf.run ⟨hm,rfl⟩ .none (hv.ends (ends_comma w))
      simp only [readPositions, nextItem_item_eq hy hs hb hne, hrun, List.foldl_cons]
      exact ih (fun g hg => hfields g (List.mem_cons_of_mem _ hg)) hrest (.next hv)

/-- The first fields of a record may be given by their values alone. -/
theorem readRecord_of_list {fields : List (Field σ)} (hfields : ∀ f ∈ fields, Fills P name? put f)
    (name : String) (start : σ) {ms : List M} {s u t : Bytes} (h : Bracketed P .list ms u t)
    (hnames : ms.map name? <+: (fields.map Field.key).map some) (hne : fields ≠ [])
    (hs : Space s u) :
    readRecord name fields start s = .ok (ms.foldl (fun x m => put m x) start,t) := by
  obtain ⟨v,rfl,hb,-⟩ := h.head
  have hdrop := hs.dropSpace_cons hb
  have hopening : Bracket.list.opening = listOpen := rfl
  have hobject : listOpen ≠ objectOpen := by decide
  simp only [readRecord, hdrop, hopening, hobject, ↓reduceIte]
  cases h with
  | empty hu =>
    obtain ⟨f,fields,rfl⟩ := List.exists_cons_of_ne_nil hne
    rw [readPositions, nextItem_stop_eq hu]
    rfl
  | some hseq => exact readPositions_of_sequence hseq hfields hnames .first

end Reader

theorem once_of_names {ms : List M} {names : List String}
    (h : ms.map name? <+: names.map some) (hnames : names.Nodup) : Once name? ms := by
  have hfilter := h.filterMap id
  rw [List.filterMap_map, List.filterMap_map] at hfilter
  have hid : names.filterMap (id ∘ some) = names := List.filterMap_some
  rw [hid] at hfilter
  exact hnames.sublist hfilter.sublist

theorem ne_none_of_names {ms : List M} {names : List String}
    (h : ms.map name? <+: names.map some) : ∀ m ∈ ms, name? m ≠ none := by
  intro m hm hnone
  have hmem := h.subset (List.mem_map_of_mem hm)
  rw [hnone] at hmem
  simp at hmem

end Positions

/-- The members of a record, by key and each at most once, or the values of the first ones by
position. -/
inductive Recorded {M : Type} (text content : M → Bytes → Bytes → Prop)
    (name? : M → Option String) (names : List String) (ms : List M) (s t : Bytes) : Prop
  | keyed (members : Bracketed text .object ms s t) (once : Once name? ms)
  | listed (values : Bracketed content .list ms s t)
    (order : ms.map name? <+: names.map some)

namespace Recorded
variable {M : Type} {text content : M → Bytes → Bytes → Prop} {name? : M → Option String}
  {names : List String} {ms : List M} {s t : Bytes}

theorem once (h : Recorded text content name? names ms s t) (hnames : names.Nodup) :
    Once name? ms := by
  cases h with
  | keyed _ honce => exact honce
  | listed _ horder => exact once_of_names horder hnames

theorem value (htext : ∀ m ∈ ms, ∀ {s t}, text m s t → ∃ key, Member Value key s t)
    (hcontent : ∀ m ∈ ms, ∀ {s t}, content m s t → Value s t)
    (h : Recorded text content name? names ms s t) : Value s t := by
  cases h with
  | keyed h => exact value_of_object htext h
  | listed h => exact value_of_list hcontent h

theorem map {N : Type} {text' content' : N → Bytes → Bytes → Prop} {name?' : N → Option String}
    (f : M → N) (htext : ∀ m ∈ ms, ∀ {s t}, text m s t → text' (f m) s t)
    (hcontent : ∀ m ∈ ms, ∀ {s t}, content m s t → content' (f m) s t)
    (hname : ∀ m, name?' (f m) = name? m) (h : Recorded text content name? names ms s t) :
    Recorded text' content' name?' names (ms.map f) s t := by
  have hnames : name?' ∘ f = name? := funext hname
  cases h with
  | keyed h honce =>
    refine .keyed (h.map f htext) ?_
    rw [Once, List.filterMap_map, hnames]
    exact honce
  | listed h horder =>
    refine .listed (h.map f hcontent) ?_
    rw [List.map_map, hnames]
    exact horder

end Recorded

/-- With no field given twice, a field of the record is the value of its member, or what it was. -/
theorem foldl_field {σ β M : Type} {name? : M → Option String} (put : M → σ → σ) (get : σ → β)
    (value? : M → Option β) {name : String} {ms : List M} (h : Once name? ms)
    (hname : ∀ m b, value? m = some b → name? m = some name)
    (hput : ∀ m x, get (put m x) = (value? m).getD (get x)) (x : σ) :
    get (ms.foldl (fun x m => put m x) x) = (ms.findSome? value?).getD (get x) := by
  induction ms generalizing x with
  | nil => rfl
  | cons m ms ih =>
    obtain ⟨hother,hrest⟩ := once_cons.mp h
    rw [List.foldl_cons, ih hrest, hput, List.findSome?_cons]
    cases hv : value? m with
    | none => rfl
    | some b =>
      have hnone : ms.findSome? value? = none := by
        refine List.findSome?_eq_none_iff.mpr fun m' hm' => ?_
        refine Option.eq_none_iff_forall_ne_some.mpr fun b' hb' => ?_
        exact hother m' hm' name (hname m b hv) (hname m' b' hb')
      rw [hnone]
      rfl

section Values
variable {β M : Type} {name? : M → Option String} {value? : M → Option β} {name : String}
  {ms : List M} (hname : ∀ m b, value? m = some b → name? m = some name)
include hname

/-- With no field given twice, the value that is found is that of any member with one. -/
theorem findSome?_eq_some_iff (honce : Once name? ms) {b : β} :
    ms.findSome? value? = some b ↔ ∃ m ∈ ms, value? m = some b := by
  refine ⟨List.exists_of_findSome?_eq_some,?_⟩
  induction ms with
  | nil =>
    rintro ⟨m,hm,-⟩
    cases hm
  | cons m ms ih =>
    rintro ⟨m',hm',hb⟩
    obtain ⟨hother,hrest⟩ := once_cons.mp honce
    rw [List.findSome?_cons]
    cases hv : value? m with
    | none =>
      rcases List.mem_cons.mp hm' with rfl | hm'
      · cases hv.symm.trans hb
      · exact ih hrest ⟨m',hm',hb⟩
    | some b' =>
      rcases List.mem_cons.mp hm' with rfl | hm'
      · exact hv.symm.trans hb
      · exact absurd (hname m' b hb) (hother m' hm' name (hname m b' hv))

theorem findSome?_perm {ms' : List M} (h : ms.Perm ms') (honce : Once name? ms) :
    ms.findSome? value? = ms'.findSome? value? := by
  have honce' : Once name? ms' := (h.filterMap name?).nodup_iff.mp honce
  refine Option.ext fun b => ?_
  rw [findSome?_eq_some_iff hname honce, findSome?_eq_some_iff hname honce']
  exact exists_congr fun m => and_congr_left fun _ => h.mem_iff

end Values

/-! ## Whole texts and keys -/

/-- White space around a value makes no difference. -/
theorem Reads.parse {α : Type} {r : Reader α} {P : α → Bytes → Bytes → Prop} (hr : Reads r P) {a : α}
    {s u t : Bytes} (h : P a u t) (hs : Space s u) (ht : Space t []) : r.parse s = .ok a := by
  have hrun := hr.run h hs (ht.ends ends_nil)
  have hend : dropSpace t = [] := ht.dropSpace_eq
  simp only [Reader.parse, Reader.runAll, hrun, hend]
  rfl

namespace Reader
variable {σ : Type} (fields : List (Field σ))

theorem fieldOf?_utf8 (key : String) :
    fieldOf? fields (utf8 key) = fields.find? fun f => f.key = key := by
  have hkeys : ∀ f : Field σ, (f.key.toUTF8.toList = utf8 key) ↔ f.key = key := fun f =>
    utf8_injective.eq_iff
  simp only [fieldOf?, hkeys]

theorem fieldOf?_eq_none {key : Bytes} (h : key ∉ fields.map fun f => utf8 f.key) :
    fieldOf? fields key = none := by
  refine List.find?_eq_none.mpr fun f hf => ?_
  exact fun hkey => h (List.mem_map.mpr ⟨f,hf,of_decide_eq_true hkey⟩)

end Reader

/-! ## Compact texts -/

/-- The bytes are a phrase of this kind, whatever comes after them. -/
def Writes (P : Bytes → Bytes → Prop) (w : Bytes) : Prop := ∀ t, P (w ++ t) t

def commas : List Bytes → Bytes
  | [] => []
  | [w] => w
  | w :: ws => w ++ comma :: commas ws

def memberBytes (key : String) (w : Bytes) : Bytes := quote :: (utf8 key ++ quote :: colon :: w)

def bracketBytes (k : Bracket) (ws : List Bytes) : Bytes := k.opening :: (commas ws ++ [k.closing])

theorem writes_member {V : Bytes → Bytes → Prop} {key : String} {w : Bytes}
    (hkey : ∀ b ∈ utf8 key, Plain b) (h : Writes V w) :
    Writes (Member V (utf8 key)) (memberBytes key w) := by
  intro t
  rw [memberBytes, List.cons_append, List.append_assoc]
  exact .mk (spells_plain hkey _) .none .none (h t)

section Bracketed
variable {M : Type} {P : M → Bytes → Bytes → Prop}

theorem sequence_written {close : UInt8} {m : M × Bytes} {ms : List (M × Bytes)}
    (h : ∀ x ∈ m :: ms, Writes (P x.1) x.2) (t : Bytes) :
    Sequence P close ((m :: ms).map Prod.fst) (commas ((m :: ms).map Prod.snd) ++ close :: t) t := by
  induction ms generalizing m with
  | nil => exact .last .none (h m (List.mem_singleton_self m) _) .none
  | cons m' ms ih =>
    obtain ⟨hm,hms⟩ := List.forall_mem_cons.mp h
    simp only [List.map_cons, commas, List.append_assoc, List.cons_append]
    exact .cons .none (hm _) .none (ih hms)

theorem writes_bracketed (k : Bracket) (ms : List (M × Bytes))
    (h : ∀ x ∈ ms, Writes (P x.1) x.2) :
    Writes (Bracketed P k (ms.map Prod.fst)) (bracketBytes k (ms.map Prod.snd)) := by
  intro t
  rw [bracketBytes, List.cons_append, List.append_assoc]
  cases ms with
  | nil => exact .empty .none
  | cons m ms => exact .some (sequence_written h t)

end Bracketed

theorem utf8_intercalate (l : List String) : utf8 (",".intercalate l) = commas (l.map utf8) := by
  have hnil : utf8 "" = [] := by decide +kernel
  have hcomma : utf8 "," = [comma] := by decide +kernel
  induction l with
  | nil => rw [String.intercalate_nil, hnil, List.map_nil, commas]
  | cons s l ih =>
    cases l with
    | nil => rw [String.intercalate_singleton, List.map_singleton, commas]
    | cons t l =>
      rw [String.intercalate_cons_cons, utf8_append, utf8_append, hcomma, ih, List.append_assoc]
      rfl

end PinnedPool.Json
