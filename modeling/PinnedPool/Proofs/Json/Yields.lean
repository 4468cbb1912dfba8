import PinnedPool.Proofs.Json.Agreement

/-! # What has been read

A property of all values that a reader yields. A list has it of its items, and a record keeps one that
it starts with and that no field takes away.
-/
namespace PinnedPool.Json

/-- Whatever is read has the property. -/
def Yields {α : Type} (r : Reader α) (P : α → Prop) : Prop :=
  ∀ ⦃s a t⦄, r.run s = .ok (a,t) → P a

theorem yields_size : Yields .size fun n => n < Number.wordBound := by
  intro s n t h
  obtain ⟨-,-,-,-,⟨hn,-⟩,-⟩ := readSize_eq_ok h
  exact hn

theorem yields_list {α : Type} {item : Reader α} {P : α → Prop} (h : Yields item P) :
    Yields (.list item) fun as => ∀ a ∈ as, P a := by
  intro s as t hs
  obtain ⟨r,-,hr⟩ := Reader.readList_eq_ok hs
  clear hs
  generalize true = first at hr
  fun_induction Reader.readItems item first r generalizing as t with
  | case1 => cases hr
  | case2 =>
    cases hr
    exact fun _ ha => absurd ha List.not_mem_nil
  | case3 => cases hr
  | case4 => cases hr
  | case5 first r u _ a v hu as' w hv ih =>
    cases hr
    exact List.forall_mem_cons.mpr ⟨h hu,ih hv⟩

section Records
variable {σ : Type} {fields : List (Field σ)} {P : σ → Prop}
  (hfields : ∀ f ∈ fields, Yields f.update fun g => ∀ x, P x → P (g x))
include hfields

theorem keeps_member {key c t : Bytes} {x y : σ} (hx : P x)
    (h : Reader.readMember (Reader.fieldOf? fields key) x c = .ok (y,t)) : P y := by
  obtain ⟨v,-,⟨f,g,-,hf,hu,rfl⟩ | ⟨-,-,rfl⟩⟩ := Reader.readMember_eq_ok h
  · exact hfields f hf hu x hx
  · exact hx

theorem keeps_members {seen : List String} {first : Bool} {x y : σ} {s t : Bytes} (hx : P x)
    (h : Reader.readMembers fields seen first x s = .ok (y,t)) : P y := by
  fun_induction Reader.readMembers fields seen first x s with
  | case1 => cases h
  | case2 =>
    cases h
    exact hx
  | case3 => cases h
  | case4 => cases h
  | case5 => cases h
  | case6 =>
    rename_i hm ih
    exact ih (keeps_member hfields hx hm) h

theorem keeps_positions {first : Bool} {x y : σ} {s t : Bytes} (hx : P x)
    (h : Reader.readPositions first fields x s = .ok (y,t)) : P y := by
  induction fields generalizing first x s with
  | nil =>
    obtain ⟨-,rfl⟩ := Reader.readPositions_nil_eq_ok h
    exact hx
  | cons f fields ih =>
    rcases Reader.readPositions_cons_eq_ok h with ⟨-,rfl⟩ | ⟨u,g,v,-,hu,hv⟩
    · exact hx
    · have hput := hfields f (List.mem_cons_self ..) hu x hx
      exact ih (fun g hg => hfields g (List.mem_cons_of_mem _ hg)) hput hv

theorem yields_record (name : String) {start : σ} (hstart : P start) :
    Yields (.record name fields start) P := by
  intro s x t h
  rcases Reader.readRecord_eq_ok h with ⟨r,-,hr⟩ | ⟨r,-,hr⟩
  · exact keeps_members hfields hstart hr
  · exact keeps_positions hfields hstart hr

end Records

theorem yields_field {σ α : Type} {r : Reader α} {Q : α → Prop} {P : σ → Prop} (hr : Yields r Q)
    (name : String) {set : α → σ → σ} (hset : ∀ a x, Q a → P x → P (set a x)) :
    Yields (Field.of name r set).update fun g => ∀ x, P x → P (g x) := by
  intro s g t h x hx
  obtain ⟨a,hrun,rfl⟩ := Reader.of_eq_ok h
  exact hset a x (hr hrun) hx

end PinnedPool.Json
