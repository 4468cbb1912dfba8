import PinnedPool.Pool.Basic

/-! # The calls in progress

Looking up a call after a change, and counting calls and workers of a kind. Counting goes by the
entries of a list, so it needs that no thread has two calls.
-/
namespace PinnedPool.Pool

section Lists
variable {K A : Type} [DecidableEq K]

theorem lookup_cons_ite (x : K × A) (l : List (K × A)) (u : K) :
    (x :: l).lookup u = if u = x.1 then some x.2 else l.lookup u := by
  obtain ⟨k,a⟩ := x
  rw [List.lookup_cons]
  by_cases h : u = k
  · simp [h]
  · simp [h, beq_eq_false_iff_ne.mpr h]

theorem lookup_filter_ne (l : List (K × A)) (t u : K) :
    (l.filter (·.1 ≠ t)).lookup u = if u = t then none else l.lookup u := by
  induction l with
  | nil => simp
  | cons x l ih =>
    by_cases hx : x.1 = t
    · rw [List.filter_cons_of_neg (by simpa using hx), ih, lookup_cons_ite, hx]
      split <;> rfl
    · rw [List.filter_cons_of_pos (by simpa using hx), lookup_cons_ite, lookup_cons_ite, ih]
      by_cases hu : u = x.1
      · rw [if_pos hu, if_pos hu, if_neg (hu ▸ hx)]
      · rw [if_neg hu, if_neg hu]

/-- Dropping the entries of a key drops one entry at most, the one that is looked up. -/
theorem countP_filter_ne (f : A → Bool) {l : List (K × A)} (hl : (l.map Prod.fst).Nodup) (t : K) :
    (l.filter (·.1 ≠ t)).countP (fun x => f x.2) + ((l.lookup t).any f).toNat =
      l.countP fun x => f x.2 := by
  induction l with
  | nil => simp
  | cons x l ih =>
    rw [List.map_cons, List.nodup_cons] at hl
    obtain ⟨hx,hl⟩ := hl
    have ih := ih hl
    rw [lookup_cons_ite, List.countP_cons]
    by_cases ht : x.1 = t
    · have hn : l.filter (·.1 ≠ t) = l := by
        refine List.filter_eq_self.mpr fun y hy => ?_
        have hne : y.1 ≠ t := fun h => hx (List.mem_map.mpr ⟨y,hy,h.trans ht.symm⟩)
        simpa using hne
      rw [List.filter_cons_of_neg (by simpa using ht), hn, if_pos ht.symm]
      cases hf : f x.2 <;> simp [hf]
    · rw [List.filter_cons_of_pos (by simpa using ht), List.countP_cons, if_neg (Ne.symm ht)]
      omega

theorem lookup_of_mem {l : List (K × A)} (hl : (l.map Prod.fst).Nodup) {k : K} {a : A}
    (hm : (k,a) ∈ l) : l.lookup k = some a := by
  induction l with
  | nil => cases hm
  | cons x l ih =>
    obtain ⟨hx,hl⟩ := List.nodup_cons.mp hl
    rw [lookup_cons_ite]
    rcases List.mem_cons.mp hm with rfl | hm
    · exact if_pos rfl
    · rw [if_neg fun heq => hx (List.mem_map.mpr ⟨_,hm,heq⟩)]
      exact ih hl hm

end Lists

theorem countP_set_add {A : Type} (f : A → Bool) {l : List A} {i : Nat} {a b : A}
    (h : l[i]? = some a) : (l.set i b).countP f + (f a).toNat = l.countP f + (f b).toNat := by
  induction l generalizing i with
  | nil => simp at h
  | cons x l ih =>
    cases i with
    | zero =>
      obtain rfl : x = a := by simpa using h
      cases hx : f x <;> cases hb : f b <;> simp [hx, hb]
    | succ i =>
      have := ih (by simpa using h)
      simp only [List.set_cons_succ, List.countP_cons]
      omega

variable {J V : Type} (p : Pool J V) (t u : ThreadId) (c : Call J)

theorem callOf?_setCall :
    (p.setCall t c).callOf? u = if u = t then some c else p.callOf? u := by
  simp only [callOf?, setCall, lookup_cons_ite, lookup_filter_ne]
  split <;> rfl

theorem callOf?_endCall : (p.endCall t).callOf? u = if u = t then none else p.callOf? u :=
  lookup_filter_ne p.calls t u

theorem callOf?_wakeWaiters : p.wakeWaiters.callOf? u = (p.callOf? u).map Call.wakeWaiter := by
  unfold callOf? wakeWaiters
  induction p.calls with
  | nil => rfl
  | cons x l ih =>
    rw [List.map_cons, lookup_cons_ite, lookup_cons_ite, ih]
    by_cases h : u = x.1 <;> simp [h]

theorem callOf?_setCall_self : (p.setCall t c).callOf? t = some c := by
  rw [callOf?_setCall, if_pos rfl]

variable {t u} in
theorem callOf?_setCall_of_ne (h : u ≠ t) : (p.setCall t c).callOf? u = p.callOf? u := by
  rw [callOf?_setCall, if_neg h]

variable {t u} in
theorem callOf?_endCall_of_ne (h : u ≠ t) : (p.endCall t).callOf? u = p.callOf? u := by
  rw [callOf?_endCall, if_neg h]

/-- No thread is in two calls. -/
def Distinct : Prop := (p.calls.map Prod.fst).Nodup

/-- How many threads are in a call of a kind. -/
def callers (f : Call J → Bool) : Nat := p.calls.countP fun x => f x.2

variable {p}

theorem Distinct.setCall (h : p.Distinct) : (p.setCall t c).Distinct := by
  refine List.nodup_cons.mpr ⟨?_,(List.filter_sublist.map _).nodup h⟩
  intro hm
  obtain ⟨x,hx,rfl⟩ := List.mem_map.mp hm
  simpa using (List.mem_filter.mp hx).2

theorem Distinct.callOf?_of_mem (h : p.Distinct) {t : ThreadId} {c : Call J} (hm : (t,c) ∈ p.calls) :
    p.callOf? t = some c :=
  lookup_of_mem h hm

theorem Distinct.endCall (h : p.Distinct) : (p.endCall t).Distinct :=
  (List.filter_sublist.map _).nodup h

theorem Distinct.wakeWaiters (h : p.Distinct) : p.wakeWaiters.Distinct := by
  unfold Distinct Pool.wakeWaiters
  rw [List.map_map]
  exact h

theorem callers_setCall (h : p.Distinct) (f : Call J → Bool) :
    (p.setCall t c).callers f + ((p.callOf? t).any f).toNat = p.callers f + (f c).toNat := by
  have hf := countP_filter_ne f h t
  simp only [callers, Pool.setCall, List.countP_cons, callOf?] at hf ⊢
  cases hc : f c <;> simp only [Bool.false_eq_true, ↓reduceIte, Bool.toNat_false, Bool.toNat_true] <;>
    omega

theorem callers_endCall (h : p.Distinct) (f : Call J → Bool) :
    (p.endCall t).callers f + ((p.callOf? t).any f).toNat = p.callers f :=
  countP_filter_ne f h t

theorem callers_wakeWaiters {f : Call J → Bool} (hf : ∀ c, f c.wakeWaiter = f c) :
    p.wakeWaiters.callers f = p.callers f := by
  unfold callers Pool.wakeWaiters
  rw [List.countP_map]
  exact List.countP_congr fun x _ => by simp [hf]

end PinnedPool.Pool
