import PinnedPool.Proofs.Json.Agreement

/-! # Keys that come twice

An object whose members have any values at all is refused if a known key comes twice in it, however
its key is spelled. Up to the second one the reader keeps step with the members, since it uses up the
value of each of them.
-/
namespace PinnedPool.Json

/-- An object with the given keys, one for each member. -/
abbrev Keys : List Bytes → Bytes → Bytes → Prop := Bracketed (Member Value) .object

theorem Keys.value {ks : List Bytes} {s t : Bytes} (h : Keys ks s t) : Value s t :=
  value_of_object (fun k _ _ _ hm => ⟨k,hm⟩) h

/-- The reader takes some text of the given kind. -/
def Accepts {α : Type} (r : Reader α) (V : Bytes → Bytes → Prop) : Prop :=
  ∃ s u t a t', Space s u ∧ V u t ∧ Ends t ∧ r.run s = .ok (a,t')

theorem Accepts.of_field {σ α : Type} {r : Reader α} {name : String} {set : α → σ → σ}
    {V : Bytes → Bytes → Prop} (h : Accepts (Field.of name r set).update V) : Accepts r V := by
  obtain ⟨s,u,t,g,t',hs,hu,ht,hrun⟩ := h
  obtain ⟨a,ha,-⟩ := Reader.of_eq_ok hrun
  exact ⟨s,u,t,a,t',hs,hu,ht,ha⟩

namespace Reader
variable {σ : Type} {fields : List (Field σ)}

def nameOf (fields : List (Field σ)) (key : Bytes) : Option String :=
  (fieldOf? fields key).map Field.key

section Members
variable (hfields : ∀ f ∈ fields, Agrees f.update)
include hfields

/-- What it takes to get past a member. -/
theorem readMembers_inv {V : Bytes → Bytes → Prop} (hV : ∀ {s t}, V s t → Value s t)
    {seen : List String} {first : Bool} {x y : σ} {key s u v w r : Bytes} (hv : Leads first v s)
    (hs : Space s u) (hu : Member V key u w) (hw : Ends w)
    (h : readMembers fields seen first x v = .ok (y,r)) :
    (∀ k ∈ nameOf fields key, k ∉ seen) ∧
      (∀ f, fieldOf? fields key = some f → Accepts f.update V) ∧
      ∃ x', readMembers fields ((nameOf fields key).toList ++ seen) false x' w = .ok (y,r) := by
  cases hu with
  | mk hkey hc hspace hvalue =>
    obtain ⟨hfresh,x',w',hmember,hrest⟩ :=
      readMembers_key_eq_ok (nextKey_item_eq hv hs) hkey.read h
    obtain ⟨z,hz,hread⟩ := readMember_eq_ok hmember
    rw [readColon_eq hc] at hz
    cases hz
    have hend : w' = w ∧ ∀ f, fieldOf? fields key = some f → Accepts f.update V := by
      rcases hread with ⟨f,g,hf,hmem,hrun,-⟩ | ⟨hf,hskip,-⟩
      · refine ⟨(hfields f hmem).rest_eq hrun hspace (hV hvalue) hw,?_⟩
        intro f' hf'
        obtain rfl := Option.some.inj (hf.symm.trans hf')
        exact ⟨_,_,_,_,_,hspace,hvalue,hw,hrun⟩
      · rw [(hV hvalue).skip hspace hw] at hskip
        cases hskip
        refine ⟨rfl,?_⟩
        intro f hf'
        cases hf.symm.trans hf'
    obtain ⟨rfl,haccepts⟩ := hend
    refine ⟨?_,haccepts,x',hrest⟩
    intro k hk hseen
    have hany : (nameOf fields key).any seen.contains = true := by
      rw [hk]
      simpa using hseen
    rw [nameOf, hfresh] at hany
    cases hany

variable {M : Type} {key : M → Bytes} {V : M → Bytes → Bytes → Prop}
  (hV : ∀ {m s t}, V m s t → Value s t)
include hV

theorem readMembers_sound {ms : List M} {s t : Bytes}
    (h : Sequence (fun m => Member (V m) (key m)) objectClose ms s t) :
    ∀ {first v seen x y r}, Leads first v s →
      readMembers fields seen first x v = .ok (y,r) →
      (∀ m ∈ ms, ∀ k ∈ nameOf fields (key m), k ∉ seen) ∧
        Once (fun m => nameOf fields (key m)) ms ∧
        ∀ m ∈ ms, ∀ f, fieldOf? fields (key m) = some f → Accepts f.update (V m) := by
  -- on the text, not on the loop: the reader must be found at the start of each member
  induction h with
  | @last m s u v t hs hm hv =>
    intro first z seen x y r hz h
    obtain ⟨hfresh,haccepts,-⟩ := readMembers_inv hfields hV hz hs hm
      (hv.ends (ends_objectClose t)) h
    refine ⟨?_,?_,?_⟩
    · intro m' hm'
      rw [List.mem_singleton.mp hm']
      exact hfresh
    · cases hname : nameOf fields (key m) <;> simp [Once, hname]
    · intro m' hm'
      rw [List.mem_singleton.mp hm']
      exact haccepts
  | @cons m ms s u v w t hs hm hv _ ih =>
    intro first z seen x y r hz h
    obtain ⟨hfresh,haccepts,x',hrest⟩ := readMembers_inv hfields hV hz hs hm
      (hv.ends (ends_comma w)) h
    obtain ⟨hfresh',honce,haccepts'⟩ := ih (.next hv) hrest
    refine ⟨?_,?_,?_⟩
    · intro m' hm' k hk
      rcases List.mem_cons.mp hm' with rfl | hm'
      · exact hfresh k hk
      · exact fun hseen => hfresh' m' hm' k hk (List.mem_append_right _ hseen)
    · refine once_cons.mpr ⟨?_,honce⟩
      intro m' hm' k hk hk'
      exact hfresh' m' hm' k hk' (List.mem_append_left _ (Option.mem_toList.mpr hk))
    · intro m' hm'
      rcases List.mem_cons.mp hm' with rfl | hm'
      · exact haccepts
      · exact haccepts' m' hm'

/-- An object that is read gives no field twice, and each of its fields is read. -/
theorem record_sound {name : String} {start y : σ} {ms : List M} {s u t r : Bytes}
    (h : Bracketed (fun m => Member (V m) (key m)) .object ms u t) (hs : Space s u)
    (hrun : (Reader.record name fields start).run s = .ok (y,r)) :
    Once (fun m => nameOf fields (key m)) ms ∧
      ∀ m ∈ ms, ∀ f, fieldOf? fields (key m) = some f → Accepts f.update (V m) := by
  change readRecord name fields start s = _ at hrun
  obtain ⟨v,rfl,hb,-⟩ := h.head
  have hdrop := hs.dropSpace_cons hb
  have hopening : Bracket.object.opening = objectOpen := rfl
  simp only [readRecord, hdrop, hopening, ↓reduceIte] at hrun
  cases h with
  | empty => exact ⟨List.nodup_nil,fun _ hm => absurd hm List.not_mem_nil⟩
  | some hseq => exact (readMembers_sound hfields hV hseq .first hrun).2

end Members

def Clash (names : List String) (keys : List Bytes) : Prop :=
  ∃ name ∈ names, 2 ≤ keys.count (utf8 name)

theorem count_le_one {M : Type} {key : M → Bytes} {ms : List M} {name : String}
    (h : Once (fun m => nameOf fields (key m)) ms)
    (hname : nameOf fields (utf8 name) = some name) : (ms.map key).count (utf8 name) ≤ 1 := by
  have hcount : (ms.map key).count (utf8 name) ≤
      (ms.filterMap fun m => nameOf fields (key m)).count name := by
    clear h
    induction ms with
    | nil => exact Nat.le_refl _
    | cons m ms ih =>
      rw [List.map_cons, List.filterMap_cons]
      by_cases hkey : key m = utf8 name
      · rw [hkey, hname, List.count_cons_self, List.count_cons_self]
        omega
      · rw [List.count_cons_of_ne hkey]
        cases hn : nameOf fields (key m) with
        | none => exact ih
        | some k => exact Nat.le_trans ih List.count_le_count_cons
  exact Nat.le_trans hcount (List.nodup_iff_count.mp h name)

end Reader
end PinnedPool.Json
