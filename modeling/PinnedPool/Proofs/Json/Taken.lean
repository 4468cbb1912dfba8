import PinnedPool.Proofs.Json.Repeated

/-! # What a typed reader has taken

The converse of what typed readers take: a reader that succeeds has gone over white space and a text of
its kind, and nothing else. A record has found members with a field of their own, each at most once,
or members of unknown keys, or the first fields by position.
-/
namespace PinnedPool.Json

/-- Whatever the reader takes is a text of the given kind, behind white space. -/
def TakesOnly {α : Type} (r : Reader α) (P : α → Bytes → Bytes → Prop) : Prop :=
  ∀ ⦃s a t⦄, r.run s = .ok (a,t) → ∃ u, Space s u ∧ P a u t

theorem takesOnly_size : TakesOnly .size SizeText := by
  intro s n t h
  obtain ⟨b,r,hs,-,htext,-⟩ := readSize_eq_ok h
  exact ⟨b :: r,space_of_dropSpace hs,htext⟩

theorem takesOnly_flag : TakesOnly .flag FlagText := by
  intro s b t h
  obtain ⟨c,r,hs,hc,hr⟩ := Reader.readFlag_eq_ok h
  have hword : utf8 (toString b) = c :: (if b then Literal.yes else .no).letters := by
    rw [← utf8_word hc]
    cases b <;> rfl
  refine ⟨c :: r,space_of_dropSpace hs,?_⟩
  rw [FlagText, hword, eq_append_of_readLetters hr, List.cons_append]

/-! ## Lists -/

section Sequences
variable {M : Type} {P : M → Bytes → Bytes → Prop}

/-- What is left of a sequence: its end, or the phrases to come. -/
inductive Remains (P : M → Bytes → Bytes → Prop) (close : UInt8) (first : Bool) :
    List M → Bytes → Bytes → Prop
  | done {s t} : Space s (close :: t) → Remains P close first [] s t
  | more {ms s w t} : Leads first s w → Sequence P close ms w t → Remains P close first ms s t

theorem Remains.cons {close : UInt8} {first : Bool} {m : M} {ms : List M} {s w u v t : Bytes}
    (hs : Leads first s w) (hw : Space w u) (hu : P m u v) (h : Remains P close false ms v t) :
    Remains P close first (m :: ms) s t := by
  refine .more hs ?_
  cases h with
  | done hv => exact .last hw hu hv
  | more hv hseq =>
    cases hv with
    | next hv => exact .cons hw hu hv hseq

theorem Remains.bracketed {k : Bracket} {ms : List M} {s t : Bytes}
    (h : Remains P k.closing true ms s t) : Bracketed P k ms (k.opening :: s) t := by
  cases h with
  | done hs => exact .empty hs
  | more hs hseq =>
    cases hs with
    | first => exact .some hseq

end Sequences

theorem readItems_takes {α : Type} {r : Reader α} {P : α → Bytes → Bytes → Prop}
    (hr : TakesOnly r P) {first : Bool} {s t : Bytes} {as : List α}
    (h : Reader.readItems r first s = .ok (as,t)) : Remains P listClose first as s t := by
  fun_induction Reader.readItems r first s generalizing as t with
  | case1 => cases h
  | case2 first s u hs =>
    cases h
    exact .done (Reader.nextItem_eq_stop hs)
  | case3 => cases h
  | case4 => cases h
  | case5 first s u hs a v hu as' w hv ih =>
    cases h
    obtain ⟨x,b,y,rfl,-,hlead,hx⟩ := Reader.nextItem_eq_item hs
    obtain ⟨z,hz,ha⟩ := hr hu
    exact .cons hlead ((space_of_dropSpace hx).trans hz) ha (ih hv)

theorem takesOnly_list {α : Type} {r : Reader α} {P : α → Bytes → Bytes → Prop}
    (hr : TakesOnly r P) : TakesOnly (.list r) (Bracketed P .list) := by
  intro s as t h
  obtain ⟨u,hs,hu⟩ := Reader.readList_eq_ok h
  exact ⟨listOpen :: u,space_of_dropSpace hs,(readItems_takes hr hu).bracketed (k := .list)⟩

/-! ## Records -/

/-- The members of a record: the field that one gives, the text of its value and its own, and what it
does to the record. -/
structure Schema (σ M : Type) where
  name? : M → Option String
  content : M → Bytes → Bytes → Prop
  text : M → Bytes → Bytes → Prop
  put : M → σ → σ
  other : Bytes → M

namespace Schema
variable {σ M : Type} (S : Schema σ M)

/-- The field takes nothing but the value of a member of its name. -/
def Fits (f : Field σ) : Prop :=
  TakesOnly f.update fun g u t => ∃ m, S.name? m = some f.key ∧ S.content m u t ∧ g = S.put m

/-- Whatever the fields take, and any member of another key, is a member. -/
structure Covers (fields : List (Field σ)) : Prop where
  fits : ∀ f ∈ fields, S.Fits f
  known : ∀ {m k s t}, S.name? m = some k → Member (S.content m) (utf8 k) s t → S.text m s t
  unknown : ∀ {key s t}, key ∉ fields.map (fun f => utf8 f.key) → Member Value key s t →
    S.text (S.other key) s t
  unnamed : ∀ key, S.name? (S.other key) = none
  idle : ∀ key x, S.put (S.other key) x = x

theorem fits_of {α : Type} {r : Reader α} {P : α → Bytes → Bytes → Prop} (hr : TakesOnly r P)
    {name : String} {set : α → σ → σ}
    (h : ∀ a, ∃ m, S.name? m = some name ∧ S.content m = P a ∧ S.put m = set a) :
    S.Fits (.of name r set) := by
  intro s g t hrun
  obtain ⟨a,ha,rfl⟩ := Reader.of_eq_ok hrun
  obtain ⟨u,hs,hu⟩ := hr ha
  obtain ⟨m,hname,hcontent,hput⟩ := h a
  exact ⟨u,hs,m,hname,hcontent ▸ hu,hput.symm⟩

variable {S} {fields : List (Field σ)} (hS : S.Covers fields)
include hS

theorem Covers.member {key s c t : Bytes} {x y : σ} (hkey : Spells s key c)
    (h : Reader.readMember (Reader.fieldOf? fields key) x c = .ok (y,t)) :
    ∃ m, S.text m (quote :: s) t ∧ S.name? m = Reader.nameOf fields key ∧ y = S.put m x := by
  obtain ⟨v,hv,⟨f,g,hf,hmem,hu,rfl⟩ | ⟨hf,hu,rfl⟩⟩ := Reader.readMember_eq_ok h
  · obtain ⟨u,hs,m,hname,hcontent,rfl⟩ := hS.fits f hmem hu
    have hfound := List.find?_some (p := fun f : Field σ => decide (utf8 f.key = key)) hf
    obtain rfl := of_decide_eq_true hfound
    have htext := hS.known hname (.mk hkey (colon_of_readColon hv) hs hcontent)
    exact ⟨m,htext,by rw [hname, Reader.nameOf, hf]; rfl,rfl⟩
  · obtain ⟨u,hs,hvalue⟩ := value_of_skipValue hu
    have hnone : key ∉ fields.map fun f => utf8 f.key := by
      intro hmem
      obtain ⟨f,hfield,hfkey⟩ := List.mem_map.mp hmem
      exact List.find?_eq_none.mp hf f hfield (decide_eq_true hfkey)
    have htext := hS.unknown hnone (.mk hkey (colon_of_readColon hv) hs hvalue)
    exact ⟨S.other key,htext,by rw [hS.unnamed, Reader.nameOf, hf]; rfl,(hS.idle key y).symm⟩

theorem Covers.members {seen : List String} {first : Bool} {x y : σ} {s t : Bytes}
    (h : Reader.readMembers fields seen first x s = .ok (y,t)) :
    ∃ ms, Remains S.text objectClose first ms s t ∧ Once S.name? ms ∧
      (∀ m ∈ ms, ∀ k ∈ S.name? m, k ∉ seen) ∧ y = ms.foldl (fun x m => S.put m x) x := by
  fun_induction Reader.readMembers fields seen first x s generalizing y t with
  | case1 => cases h
  | case2 seen first x s r hs =>
    cases h
    exact ⟨[],.done (Reader.nextKey_eq_stop hs),List.nodup_nil,
      fun _ hm => absurd hm List.not_mem_nil,rfl⟩
  | case3 => cases h
  | case4 => cases h
  | case5 => cases h
  | case6 =>
    rename_i hs key c hu field name hfresh x' w hm ih
    obtain ⟨ms,hrest,honce,hseen,rfl⟩ := ih h
    obtain ⟨m,htext,hname,rfl⟩ := hS.member (spells_of_readText hu) hm
    obtain ⟨z,hlead,hz⟩ := Reader.nextKey_eq_item hs
    have hmname : S.name? m = name := hname
    refine ⟨m :: ms,.cons hlead hz htext hrest,once_cons.mpr ⟨?_,honce⟩,?_,rfl⟩
    · intro m' hm' k hk hk'
      refine hseen m' hm' k hk' (List.mem_append_left _ ?_)
      rw [← hmname]
      exact Option.mem_toList.mpr hk
    · intro m' hm' k hk hmem
      rcases List.mem_cons.mp hm' with rfl | hm'
      · rw [← hmname, hk] at hfresh
        exact hfresh (by simpa using hmem)
      · exact hseen m' hm' k hk (List.mem_append_right _ hmem)

omit hS in
theorem positions {fs : List (Field σ)} (hfs : ∀ f ∈ fs, S.Fits f) {first : Bool} {x y : σ}
    {s t : Bytes} (h : Reader.readPositions first fs x s = .ok (y,t)) :
    ∃ ms, Remains S.content listClose first ms s t ∧
      ms.map S.name? <+: (fs.map Field.key).map some ∧
      y = ms.foldl (fun x m => S.put m x) x := by
  induction fs generalizing first x s with
  | nil =>
    obtain ⟨hs,rfl⟩ := Reader.readPositions_nil_eq_ok h
    exact ⟨[],.done (Reader.readListEnd_eq_ok hs),List.nil_prefix,rfl⟩
  | cons f fs ih =>
    rcases Reader.readPositions_cons_eq_ok h with ⟨hs,rfl⟩ | ⟨u,g,v,hs,hu,hv⟩
    · exact ⟨[],.done (Reader.nextItem_eq_stop hs),List.nil_prefix,rfl⟩
    · obtain ⟨ms,hrest,hnames,rfl⟩ := ih (fun g hg => hfs g (List.mem_cons_of_mem _ hg)) hv
      obtain ⟨z,hz,m,hname,hcontent,rfl⟩ := hfs f (List.mem_cons_self ..) hu
      obtain ⟨w,b,r,rfl,-,hlead,hw⟩ := Reader.nextItem_eq_item hs
      refine ⟨m :: ms,.cons hlead ((space_of_dropSpace hw).trans hz) hcontent hrest,?_,rfl⟩
      exact List.cons_prefix_cons.mpr ⟨hname,hnames⟩

/-- A record that is read is one by key, without a field that comes twice, or one by position. -/
theorem Covers.takesOnly (name : String) (start : σ) :
    TakesOnly (.record name fields start) fun y s t =>
      ∃ ms, Recorded S.text S.content S.name? (fields.map Field.key) ms s t ∧
        y = ms.foldl (fun x m => S.put m x) start := by
  intro s y t h
  rcases Reader.readRecord_eq_ok h with ⟨r,hs,hr⟩ | ⟨r,hs,hr⟩
  · obtain ⟨ms,hrest,honce,-,rfl⟩ := hS.members hr
    exact ⟨_,space_of_dropSpace hs,ms,.keyed (hrest.bracketed (k := .object)) honce,rfl⟩
  · obtain ⟨ms,hrest,hnames,rfl⟩ := positions hS.fits hr
    exact ⟨_,space_of_dropSpace hs,ms,.listed (hrest.bracketed (k := .list)) hnames,rfl⟩

end Schema
end PinnedPool.Json
