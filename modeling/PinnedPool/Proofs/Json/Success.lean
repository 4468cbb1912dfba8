import PinnedPool.Json.Document

/-! # What a reader has gone through

A reader of a list or of a record that succeeds has found a bracket, and then one item, key or value
after the other. The laws of what has been read are proved from these steps.
-/
namespace PinnedPool.Json.Reader

theorem readList_eq_ok {α : Type} {item : Reader α} {s t : Bytes} {as : List α}
    (h : readList item s = .ok (as,t)) :
    ∃ r, dropSpace s = listOpen :: r ∧ readItems item true r = .ok (as,t) := by
  unfold readList at h
  split at h
  · cases h
  · rename_i b r hs
    split at h
    · rename_i hb
      exact ⟨r,hb ▸ hs,h⟩
    · cases h

theorem readItems_eq_ok {α : Type} {item : Reader α} {first : Bool} {s t : Bytes} {as : List α}
    (h : readItems item first s = .ok (as,t)) :
    nextItem first s = .ok (.stop t) ∧ as = [] ∨
      ∃ u a v as', nextItem first s = .ok (.item u) ∧ item.run u = .ok (a,v) ∧
        readItems item false v = .ok (as',t) ∧ as = a :: as' := by
  rw [readItems] at h
  split at h
  · cases h
  · rename_i hs
    cases h
    exact .inl ⟨hs,rfl⟩
  · rename_i hs
    split at h
    · cases h
    · rename_i hu
      split at h
      · cases h
      · rename_i hv
        cases h
        exact .inr ⟨_,_,_,_,hs,hu,hv,rfl⟩

theorem readFlag_eq_ok {s t : Bytes} {b : Bool} (h : readFlag s = .ok (b,t)) :
    ∃ c r, dropSpace s = c :: r ∧ Literal.ofLetter? c = some (if b then .yes else .no) ∧
      readLetters (if b then Literal.yes else .no).letters r = .ok t := by
  unfold readFlag at h
  split at h
  · cases h
  · rename_i c r hs
    split at h
    · rename_i hc
      split at h
      · cases h
      · rename_i hr
        cases h
        exact ⟨c,r,hs,hc,hr⟩
    · rename_i hc
      split at h
      · cases h
      · rename_i hr
        cases h
        exact ⟨c,r,hs,hc,hr⟩
    · cases h

theorem runAll_eq_ok {α : Type} {r : Reader α} {s : Bytes} {a : α} (h : r.runAll s = .ok a) :
    ∃ t, r.run s = .ok (a,t) ∧ dropSpace t = [] := by
  unfold runAll at h
  split at h
  · cases h
  · rename_i hrun
    split at h
    · rename_i hend
      cases h
      exact ⟨_,hrun,hend⟩
    · cases h

theorem of_eq_ok {σ α : Type} {r : Reader α} {name : String} {set : α → σ → σ} {s t : Bytes}
    {g : σ → σ} (h : (Field.of name r set).update.run s = .ok (g,t)) :
    ∃ a, r.run s = .ok (a,t) ∧ g = set a := by
  simp only [Field.of, map] at h
  split at h
  · cases h
  · rename_i hrun
    cases h
    exact ⟨_,hrun,rfl⟩

section Records
variable {σ : Type} {fields : List (Field σ)} {x y : σ} {s t : Bytes}

/-- A member's value is read for the field of its key, or passed over. -/
theorem readMember_eq_ok {key : Bytes} (h : readMember (fieldOf? fields key) x s = .ok (y,t)) :
    ∃ v, readColon s = .ok v ∧
      ((∃ f g, fieldOf? fields key = some f ∧ f ∈ fields ∧ f.update.run v = .ok (g,t) ∧ y = g x) ∨
        fieldOf? fields key = none ∧ skipValue v = .ok t ∧ y = x) := by
  unfold readMember at h
  split at h
  · cases h
  · rename_i v hv
    refine ⟨v,hv,?_⟩
    split at h
    · rename_i f hf
      split at h
      · cases h
      · rename_i g u hu
        cases h
        exact .inl ⟨f,g,hf,List.mem_of_find?_eq_some hf,hu,rfl⟩
    · rename_i hf
      split at h
      · cases h
      · rename_i hu
        cases h
        exact .inr ⟨hf,hu,rfl⟩

section Members
variable {seen : List String} {first : Bool} {key u v : Bytes}
  (hnext : nextKey first s = .ok (.item u)) (hkey : readText u = .ok (key,v))
include hnext hkey

/-- The loop over the members, once it has come to a key. -/
theorem readMembers_key : readMembers fields seen first x s =
    if ((fieldOf? fields key).map Field.key).any seen.contains then
      .error (duplicate (((fieldOf? fields key).map Field.key).getD "") v)
    else
      match readMember (fieldOf? fields key) x v with
      | .error f => .error f
      | .ok (z,w) =>
        readMembers fields (((fieldOf? fields key).map Field.key).toList ++ seen) false z w := by
  conv => lhs; rw [readMembers]
  split
  · simp_all
  · simp_all
  · rename_i hs
    rw [hnext] at hs
    cases hs
    split
    · simp_all
    · rename_i htext
      rw [hkey] at htext
      cases htext
      simp only
      split
      · rfl
      · split <;> simp_all

/-- What it takes to get past a key. -/
theorem readMembers_key_eq_ok (h : readMembers fields seen first x s = .ok (y,t)) :
    ((fieldOf? fields key).map Field.key).any seen.contains = false ∧
      ∃ z w, readMember (fieldOf? fields key) x v = .ok (z,w) ∧
        readMembers fields (((fieldOf? fields key).map Field.key).toList ++ seen) false z w =
          .ok (y,t) := by
  rw [readMembers_key hnext hkey] at h
  split at h
  · cases h
  · rename_i hfresh
    split at h
    · cases h
    · rename_i z w hmember
      exact ⟨Bool.eq_false_iff.mpr hfresh,z,w,hmember,h⟩

end Members

theorem readPositions_nil_eq_ok {first : Bool}
    (h : readPositions first ([] : List (Field σ)) x s = .ok (y,t)) :
    readListEnd s = .ok t ∧ y = x := by
  unfold readPositions at h
  split at h
  · cases h
  · rename_i hs
    cases h
    exact ⟨hs,rfl⟩

theorem readPositions_cons_eq_ok {first : Bool} {f : Field σ}
    (h : readPositions first (f :: fields) x s = .ok (y,t)) :
    nextItem first s = .ok (.stop t) ∧ y = x ∨
      ∃ u g v, nextItem first s = .ok (.item u) ∧ f.update.run u = .ok (g,v) ∧
        readPositions false fields (g x) v = .ok (y,t) := by
  unfold readPositions at h
  split at h
  · cases h
  · rename_i hs
    cases h
    exact .inl ⟨hs,rfl⟩
  · rename_i u hs
    split at h
    · cases h
    · rename_i g v hu
      exact .inr ⟨u,g,v,hs,hu,h⟩

theorem readRecord_eq_ok {name : String} (h : readRecord name fields x s = .ok (y,t)) :
    (∃ r, dropSpace s = objectOpen :: r ∧ readMembers fields [] true x r = .ok (y,t)) ∨
      ∃ r, dropSpace s = listOpen :: r ∧ readPositions true fields x r = .ok (y,t) := by
  unfold readRecord at h
  split at h
  · cases h
  · rename_i b r hs
    split at h
    · rename_i hb
      exact .inl ⟨r,hb ▸ hs,h⟩
    · split at h
      · rename_i hb
        exact .inr ⟨r,hb ▸ hs,h⟩
      · cases h

end Records

end PinnedPool.Json.Reader
