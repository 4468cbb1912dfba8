import Mathlib.Data.List.Nodup
import PinnedPool.Proofs.Json.Repeated

/-! # Values by position

A list that is read has been read at each of its elements, whatever their values. A record that is
read from a list has no more elements than fields, and each field has been read at its own place.
-/
namespace PinnedPool.Json

/-- A list of so many values. -/
abbrev Values (n : Nat) : Bytes → Bytes → Prop :=
  Bracketed (fun _ : Unit => Value) .list (List.replicate n ())

/-- Any value, or a list of so many. -/
def Extent : Option Nat → Bytes → Bytes → Prop
  | none => Value
  | some n => Values n

theorem Extent.value {e : Option Nat} {s t : Bytes} (h : Extent e s t) : Value s t := by
  cases e with
  | none => exact h
  | some n => exact value_of_list (fun _ _ _ _ => id) h

namespace Reader

theorem nextItem_of_value {first : Bool} {v s u t : Bytes} (h : Leads first v s) (hs : Space s u)
    (hu : Value u t) : nextItem first v = .ok (.item u) := by
  obtain ⟨b,r,rfl,hb,hne⟩ := hu.head
  exact nextItem_item_eq h hs hb hne

section Steps
variable {V : Bytes → Bytes → Prop} (hV : ∀ {s t}, V s t → Value s t) {first : Bool}
  {s u v w r : Bytes} (hv : Leads first v s) (hs : Space s u) (hu : V u w) (hw : Ends w)
include hV hv hs hu hw

/-- What it takes to get past an item. -/
theorem readItems_inv {α : Type} {item : Reader α} (hitem : Agrees item) {as : List α}
    (h : readItems item first v = .ok (as,r)) :
    Accepts item V ∧ ∃ as', readItems item false w = .ok (as',r) := by
  have hnext := nextItem_of_value hv hs (hV hu)
  rcases readItems_eq_ok h with ⟨hstop,-⟩ | ⟨x,a,y,as',hx,hrun,hrest,-⟩
  · cases hnext.symm.trans hstop
  · cases hnext.symm.trans hx
    obtain rfl := hitem.rest_eq hrun .none (hV hu) hw
    exact ⟨⟨_,_,_,_,_,.none,hu,hw,hrun⟩,as',hrest⟩

/-- What it takes to get past a value by position: there must be a field for it. -/
theorem readPositions_inv {σ : Type} {fs : List (Field σ)} (hfs : ∀ f ∈ fs, Agrees f.update)
    {x y : σ} (h : readPositions first fs x v = .ok (y,r)) :
    ∃ f gs x', fs = f :: gs ∧ Accepts f.update V ∧ readPositions false gs x' w = .ok (y,r) := by
  have hnext := nextItem_of_value hv hs (hV hu)
  cases fs with
  | nil =>
    have hstop := nextItem_stop_eq (readListEnd_eq_ok (readPositions_nil_eq_ok h).1) first
    cases hnext.symm.trans hstop
  | cons f gs =>
    rcases readPositions_cons_eq_ok h with ⟨hstop,-⟩ | ⟨z,g,z',hz,hrun,hrest⟩
    · cases hnext.symm.trans hstop
    · cases hnext.symm.trans hz
      obtain rfl := (hfs f (List.mem_cons_self ..)).rest_eq hrun .none (hV hu) hw
      exact ⟨f,gs,_,rfl,⟨_,_,_,_,_,.none,hu,hw,hrun⟩,hrest⟩

end Steps

section Elements
variable {E : Type} {V : E → Bytes → Bytes → Prop} (hV : ∀ {e s t}, V e s t → Value s t)
include hV

section Items
variable {α : Type} {item : Reader α} (hitem : Agrees item)
include hitem

theorem readItems_sound {es : List E} {s t : Bytes} (h : Sequence V listClose es s t) :
    ∀ {first v as r}, Leads first v s → readItems item first v = .ok (as,r) →
      ∀ e ∈ es, Accepts item (V e) := by
  induction h with
  | @last e s u v t hs he hv =>
    intro first x as r hx h
    rw [List.forall_mem_singleton]
    exact (readItems_inv hV hx hs he (hv.ends (ends_listClose t)) hitem h).1
  | @cons e es s u v w t hs he hv _ ih =>
    intro first x as r hx h
    obtain ⟨haccepts,as',hrest⟩ := readItems_inv hV hx hs he (hv.ends (ends_comma w)) hitem h
    exact List.forall_mem_cons.mpr ⟨haccepts,ih (.next hv) hrest⟩

theorem list_sound {es : List E} {as : List α} {s u t r : Bytes} (h : Bracketed V .list es u t)
    (hs : Space s u) (hrun : (Reader.list item).run s = .ok (as,r)) :
    ∀ e ∈ es, Accepts item (V e) := by
  obtain ⟨v,rfl,hb,-⟩ := h.head
  obtain ⟨w,hw,hread⟩ := readList_eq_ok hrun
  cases (hs.dropSpace_cons hb).symm.trans hw
  cases h with
  | empty => exact fun _ he => absurd he List.not_mem_nil
  | some hseq => exact readItems_sound hV hitem hseq .first hread

end Items

variable {σ : Type}

omit hV in
theorem forall_places_cons {P : Field σ → E → Prop} {f : Field σ} {fs : List (Field σ)} {e : E}
    {es : List E} (h : P f e)
    (hs : ∀ (i : Nat) (f : Field σ) (e : E), fs[i]? = some f → es[i]? = some e → P f e)
    (i : Nat) (f' : Field σ) (e' : E) (hf : (f :: fs)[i]? = some f')
    (he : (e :: es)[i]? = some e') : P f' e' := by
  cases i with
  | zero =>
    cases hf
    cases he
    exact h
  | succ i => exact hs i f' e' hf he

theorem readPositions_sound {es : List E} {s t : Bytes} (h : Sequence V listClose es s t) :
    ∀ {first v r} {fs : List (Field σ)} {x y : σ}, (∀ f ∈ fs, Agrees f.update) → Leads first v s →
      readPositions first fs x v = .ok (y,r) →
      es.length ≤ fs.length ∧
        ∀ (i : Nat) (f : Field σ) (e : E), fs[i]? = some f → es[i]? = some e →
          Accepts f.update (V e) := by
  induction h with
  | @last e s u v t hs he hv =>
    intro first w r fs x y hfs hw h
    obtain ⟨f,gs,-,rfl,haccepts,-⟩ :=
      readPositions_inv hV hw hs he (hv.ends (ends_listClose t)) hfs h
    exact ⟨Nat.succ_le_succ (Nat.zero_le _),
      forall_places_cons haccepts fun _ _ _ _ he => nomatch he⟩
  | @cons e es s u v w t hs he hv _ ih =>
    intro first z r fs x y hfs hz h
    obtain ⟨f,gs,x',rfl,haccepts,hrest⟩ :=
      readPositions_inv hV hz hs he (hv.ends (ends_comma w)) hfs h
    obtain ⟨hlength,hall⟩ := ih (fun g hg => hfs g (List.mem_cons_of_mem _ hg)) (.next hv) hrest
    exact ⟨Nat.succ_le_succ hlength,forall_places_cons haccepts hall⟩

/-- A record that is read from a list has a field for each element, and the field is read there. -/
theorem positions_sound {fields : List (Field σ)} (hfields : ∀ f ∈ fields, Agrees f.update)
    {name : String} {start y : σ} {es : List E} {s u t r : Bytes} (h : Bracketed V .list es u t)
    (hs : Space s u) (hrun : (Reader.record name fields start).run s = .ok (y,r)) :
    es.length ≤ fields.length ∧
      ∀ (i : Nat) (f : Field σ) (e : E), fields[i]? = some f → es[i]? = some e →
        Accepts f.update (V e) := by
  obtain ⟨v,rfl,hb,-⟩ := h.head
  have hdrop := hs.dropSpace_cons hb
  rcases readRecord_eq_ok hrun with ⟨w,hw,-⟩ | ⟨w,hw,hread⟩
  · cases hdrop.symm.trans hw
  · cases hdrop.symm.trans hw
    cases h with
    | empty => exact ⟨Nat.zero_le _,fun _ _ _ _ he => nomatch he⟩
    | some hseq => exact readPositions_sound hV hseq hfields .first hread

end Elements

theorem fieldOf?_of_mem {σ : Type} {fields : List (Field σ)} (hkeys : (fields.map Field.key).Nodup)
    {f : Field σ} (hf : f ∈ fields) : fieldOf? fields (utf8 f.key) = some f := by
  rw [fieldOf?_utf8]
  cases hfind : fields.find? fun g => g.key = f.key with
  | none => exact absurd (decide_eq_true rfl) (List.find?_eq_none.mp hfind f hf)
  | some g =>
    have hkey : g.key = f.key := by simpa using List.find?_some hfind
    exact congrArg some (List.inj_on_of_nodup_map hkeys (List.mem_of_find?_eq_some hfind) hf hkey)

/-- Whatever a member gives a field has been read for it, by key or by position. -/
theorem record_accepts {σ M : Type} {fields : List (Field σ)}
    (hfields : ∀ f ∈ fields, Agrees f.update) (hkeys : (fields.map Field.key).Nodup)
    {text content : M → Bytes → Bytes → Prop} {name? : M → Option String} {name : String}
    {start y : σ} {ms : List M} {s u t r : Bytes}
    (h : Recorded text content name? (fields.map Field.key) ms u t) (hs : Space s u)
    (hrun : (Reader.record name fields start).run s = .ok (y,r)) {key : M → Bytes}
    (hcontent : ∀ {m s t}, content m s t → Value s t)
    (htext : ∀ {m s t}, text m s t → Member (content m) (key m) s t)
    (hkey : ∀ {m k}, name? m = some k → key m = utf8 k) :
    ∀ m ∈ ms, ∀ f ∈ fields, name? m = some f.key → Accepts f.update (content m) := by
  intro m hm f hf hname
  cases h with
  | keyed h =>
    have hmembers := h.map id (Q := fun m => Member (content m) (key m)) fun _ _ _ _ => htext
    rw [List.map_id] at hmembers
    refine (record_sound hfields hcontent hmembers hs hrun).2 m hm f ?_
    rw [hkey hname, fieldOf?_of_mem hkeys hf]
  | listed h horder =>
    obtain ⟨hlength,haccepts⟩ := positions_sound hcontent hfields h hs hrun
    obtain ⟨i,hi,rfl⟩ := List.getElem_of_mem hm
    have hplace := horder.getElem (i := i) (by rwa [List.length_map])
    simp only [List.getElem_map, hname, Option.some.injEq] at hplace
    have hfound := List.inj_on_of_nodup_map hkeys (List.getElem_mem (by omega)) hf hplace.symm
    exact haccepts i f ms[i] (List.getElem?_eq_some_iff.mpr ⟨_,hfound⟩)
      (List.getElem?_eq_getElem hi)

end Reader
end PinnedPool.Json
