import PinnedPool.Proofs.Registry.Estate

/-! # Where the threads of a registry are

One thread at most holds the lock of a registry. While it is building a pool or bringing one down it
is in a call of that pool and of no other, and whoever waits for the lock is in no pool at all.
-/
namespace PinnedPool

variable {J V : Type}

namespace Registry

/-- The slot is empty while a thread is in this state of a call. -/
def Call.vacates : Call → Bool
  | creating _ _ | stopping _ | leaving .done => true
  | _ => false

theorem Call.locks_of_vacates {c : Call} (hc : c.vacates = true) : c.holdsLock = true := by
  cases c with
  | entering => cases hc
  | creating | stopping | leaving => rfl

section Calls
variable (r : Registry) (t u : ThreadId) (c : Call) (reply : Reply)

theorem callOf?_setCall : (r.setCall t c).callOf? u = if u = t then some c else r.callOf? u := by
  simp only [callOf?, setCall, Pool.lookup_cons_ite, Pool.lookup_filter_ne]
  split <;> rfl

theorem callOf?_endCall : (r.endCall t reply).callOf? u = if u = t then none else r.callOf? u :=
  Pool.lookup_filter_ne r.calls t u

theorem callOf?_setCall_self : (r.setCall t c).callOf? t = some c := by
  rw [callOf?_setCall, if_pos rfl]

variable {r t u}

theorem callOf?_setCall_ne (h : u ≠ t) : (r.setCall t c).callOf? u = r.callOf? u := by
  rw [callOf?_setCall, if_neg h]

theorem callOf?_endCall_ne (h : u ≠ t) : (r.endCall t reply).callOf? u = r.callOf? u := by
  rw [callOf?_endCall, if_neg h]

theorem callOf?_of_setCall {c d : Call} {slot : Option Held}
    (hc : ({ r with slot := slot }.setCall u c).callOf? t = some d) (hne : c ≠ d) :
    r.callOf? t = some d := by
  rw [callOf?_setCall] at hc
  split at hc
  · exact absurd (Option.some.inj hc) hne
  · exact hc

theorem callOf?_unlocked (h : r.locked = false) {t : ThreadId} {c : Call}
    (hc : r.callOf? t = some c) : c.holdsLock = false := by
  obtain ⟨l,l',hl,-⟩ := List.lookup_eq_some_iff.mp hc
  have hm : (t,c) ∈ r.calls := by simp [hl]
  simpa using List.any_eq_false.mp h _ hm

end Calls

/-- One thread at most holds the lock, and the slot is as its call has left it. -/
structure Tidy (r : Registry) : Prop where
  single : ∀ t u c d, r.callOf? t = some c → r.callOf? u = some d → c.holdsLock = true →
    d.holdsLock = true → t = u
  vacant : ∀ t c, r.callOf? t = some c → c.vacates = true → r.slot = none

namespace Tidy
variable {r : Registry} {t : ThreadId}

theorem ask (h : r.Tidy) (request : Request) : (r.setCall t (.entering request)).Tidy := by
  have hold : ∀ u c, (r.setCall t (.entering request)).callOf? u = some c → c.holdsLock = true →
      r.callOf? u = some c := by
    intro u c hc hl
    rw [callOf?_setCall] at hc
    split at hc
    · cases hc
      cases hl
    · exact hc
  constructor
  · intro u v c d hc hd hl hl'
    exact h.single u v c d (hold u c hc hl) (hold v d hd hl') hl hl'
  · intro u c hc hv
    exact h.vacant u c (hold u c hc (Call.locks_of_vacates hv)) hv

theorem leave (h : r.Tidy) (reply : Reply) : (r.endCall t reply).Tidy := by
  have hold : ∀ u c, (r.endCall t reply).callOf? u = some c → r.callOf? u = some c := by
    intro u c hc
    rw [callOf?_endCall] at hc
    split at hc
    · cases hc
    · exact hc
  constructor
  · intro u v c d hc hd
    exact h.single u v c d (hold u c hc) (hold v d hd)
  · intro u c hc
    exact h.vacant u c (hold u c hc)

/-- The holder of the lock moves on, and changes the slot as it likes. -/
theorem move (h : ∀ u d, r.callOf? u = some d → d.holdsLock = true → u = t) (slot : Option Held)
    {c : Call} (hc : c.vacates = true → slot = none) :
    ({ r with slot := slot }.setCall t c).Tidy := by
  have honly : ∀ u d, ({ r with slot := slot }.setCall t c).callOf? u = some d →
      d.holdsLock = true → u = t := by
    intro u d hd hl
    rw [callOf?_setCall] at hd
    split at hd
    · assumption
    · exact h u d hd hl
  constructor
  · intro u v d d' hd hd' hl hl'
    rw [honly u d hd hl, honly v d' hd' hl']
  · intro u d hd hv
    rw [honly u d hd (Call.locks_of_vacates hv), callOf?_setCall_self] at hd
    cases hd
    exact hc hv

theorem holder (h : r.Tidy) {c : Call} (hc : r.callOf? t = some c) (hl : c.holdsLock = true)
    (u : ThreadId) (d : Call) (hd : r.callOf? u = some d) (hl' : d.holdsLock = true) : u = t :=
  h.single u t d c hd hc hl' hl

end Tidy
end Registry

namespace Estate

/-! ## Where the threads are -/

/-- Whether the pool `i` of as many as `total`, of the given size, may be called so by a thread in
this state of a call of the registry. -/
def Stationed (total i threads : Nat) (c : Call J) : Option Registry.Call → Prop
  | none => c.builds = false
  | some (.creating config _) => c.builds = true ∧ i + 1 = total ∧ threads = config.threads
  | some (.stopping held) => c.shuts = true ∧ i = held.pool
  | some (.entering _) | some (.leaving _) => False

/-- A pool that was in the slot once, to be called by a thread other than its workers. -/
def Stands (s : Estate J V) (i : Nat) (P : Pool J V → Prop) : Prop :=
  ∃ p, s.pools[i]? = some p ∧ p.Standing ∧ P p

/-- Every thread is where its call of the registry says. -/
structure Posted (s : Estate J V) : Prop where
  tidy : s.registry.Tidy
  reached : ∀ (i : Nat) (p : Pool J V), s.pools[i]? = some p → p.Reached
  slotted : ∀ held, s.registry.slot = some held → s.Stands held.pool fun _ => True
  taken : ∀ t held, s.registry.callOf? t = some (.stopping held) →
    s.Stands held.pool fun _ => True
  stationed : ∀ (i : Nat) (p : Pool J V) t c, s.pools[i]? = some p → p.callOf? t = some c →
    Stationed s.pools.length i p.threads c (s.registry.callOf? t)

theorem idle_of {s : Estate J V} {t : ThreadId} (h : s.idle t = true) {i : Nat} {p : Pool J V}
    (hp : s.pools[i]? = some p) : p.callOf? t = none := by
  have hnone := List.all_eq_true.mp h p (List.mem_of_getElem? hp)
  exact Option.isNone_iff_eq_none.mp hnone

theorem Stationed.mono {total i threads : Nat} {c c' : Call J} {rc : Option Registry.Call}
    (h : Stationed total i threads c rc) (hb : c.builds = c'.builds)
    (hs : c.shuts = true → c'.shuts = true) : Stationed total i threads c' rc := by
  cases rc with
  | none => exact hb.symm.trans h
  | some rc =>
    cases rc with
    | entering | leaving => exact h
    | creating => exact ⟨hb.symm.trans h.1,h.2⟩
    | stopping => exact ⟨hs h.1,h.2⟩

theorem getElem?_set_cases {A : Type} {l : List A} {i j : Nat} {a b : A}
    (h : (l.set i a)[j]? = some b) : j = i ∧ b = a ∨ j ≠ i ∧ l[j]? = some b := by
  rw [List.getElem?_set] at h
  by_cases hij : i = j
  · rw [if_pos hij] at h
    split at h
    · exact .inl ⟨hij.symm,(Option.some.inj h).symm⟩
    · cases h
  · rw [if_neg hij] at h
    exact .inr ⟨Ne.symm hij,h⟩

theorem Stands.set {s : Estate J V} {i k : Nat} {P : Pool J V → Prop} (hst : s.Stands k P)
    {p : Pool J V} {e : Pool.Event J V} {f : Pool.Effect J V} (hp : s.pools[i]? = some p)
    (h : p.step e = some f) (hP : p.Standing → P p → P f.pool) (r : Registry) :
    Stands ⟨r,s.pools.set i f.pool⟩ k P := by
  obtain ⟨q,hq,hstands,hPq⟩ := hst
  by_cases hik : i = k
  · subst hik
    rw [hp] at hq
    cases hq
    have hlt := (List.getElem?_eq_some_iff.mp hp).1
    exact ⟨f.pool,List.getElem?_set_self hlt,Pool.standing_step h hstands,hP hstands hPq⟩
  · exact ⟨q,(List.getElem?_set_ne hik).trans hq,hstands,hPq⟩

section Step
variable {s : Estate J V} (hs : s.Posted)
include hs

/-- A thread that only waits for the lock, or is about to release it, is in no pool. -/
theorem Posted.not_inside {t : ThreadId} {rc : Registry.Call} (hc : s.registry.callOf? t = some rc)
    (hout : ∀ total i threads, (c : Call J) → ¬Stationed total i threads c (some rc)) {i : Nat}
    {p : Pool J V} (hp : s.pools[i]? = some p) : p.callOf? t = none := by
  refine Option.eq_none_iff_forall_ne_some.mpr ?_
  intro c hpc
  have hst := hs.stationed i p t c hp hpc
  rw [hc] at hst
  exact hout _ _ _ _ hst

theorem Posted.creating_of_builds {i : Nat} {p : Pool J V} (hp : s.pools[i]? = some p) {t : ThreadId}
    {c : Call J} (hc : p.callOf? t = some c) (hb : c.builds = true) :
    i + 1 = s.pools.length ∧ ∃ config line, s.registry.callOf? t = some (.creating config line) ∧
      p.threads = config.threads := by
  have hst := hs.stationed i p t c hp hc
  cases hrc : s.registry.callOf? t with
  | none =>
    rw [hrc] at hst
    cases hb.symm.trans hst
  | some rc =>
    rw [hrc] at hst
    cases rc with
    | entering | leaving => exact hst.elim
    | creating config line => exact ⟨hst.2.1,config,line,rfl,hst.2.2⟩
    | stopping => cases hb.symm.trans (Pool.shuts_builds hst.1)

section Pools
variable {i : Nat} {p : Pool J V} {e : Pool.Event J V} {f : Pool.Effect J V}
  (hp : s.pools[i]? = some p) (h : p.step e = some f)
include hp h

theorem Posted.pool_step (hcall : ∀ t r, e = .call t r →
      p.Standing ∧ Stationed s.pools.length i p.threads r.start (s.registry.callOf? t))
    (hharmless : e.harmless = true) :
    Posted ⟨s.registry,s.pools.set i f.pool⟩ where
  tidy := hs.tidy
  reached := by
    intro j q hq
    rcases getElem?_set_cases hq with ⟨rfl,rfl⟩ | ⟨-,hq⟩
    · refine (hs.reached j p hp).step h ?_ hharmless
      intro hcalls
      cases e with
      | call t r => exact (hcall t r rfl).1
      | spawn | notify | proceed | pin | claim | finish | stir | stirWaiter | free => cases hcalls
    · exact hs.reached j q hq
  slotted := by
    intro held hslot
    exact (hs.slotted held hslot).set hp h (fun _ _ => trivial) _
  taken := by
    intro t held hc
    exact (hs.taken t held hc).set hp h (fun _ _ => trivial) _
  stationed := by
    intro j q t c hq hc
    rw [List.length_set]
    rcases getElem?_set_cases hq with ⟨rfl,rfl⟩ | ⟨-,hq⟩
    · rw [(Pool.fixed_step h).2]
      rcases Pool.onset h hc with hold | hon
      · exact hs.stationed j p t c hp hold
      · rcases hon.builds with ⟨hnone,-,r,rfl⟩ | ⟨c₀,hc₀,hb⟩
        · cases hon with
          | call _ hbegun => exact hbegun ▸ (hcall t r rfl).2
          | woken hparked =>
            rw [hnone] at hparked
            cases hparked
        · exact (hs.stationed j p t c₀ hp hc₀).mono hb fun hshuts => hon.shuts hc₀ hshuts
    · exact hs.stationed j q t c hq hc

end Pools

/-- A thread that is in no pool moves on in its call of the registry. -/
theorem Posted.registry_step {r : Registry} (t : ThreadId) (htidy : r.Tidy)
    (hother : ∀ u, u ≠ t → r.callOf? u = s.registry.callOf? u)
    (hidle : ∀ (i : Nat) (p : Pool J V), s.pools[i]? = some p → p.callOf? t = none)
    (hslot : ∀ held, r.slot = some held → s.Stands held.pool fun _ => True)
    (hstop : ∀ held, r.callOf? t = some (.stopping held) → s.Stands held.pool fun _ => True) :
    Posted ⟨r,s.pools⟩ where
  tidy := htidy
  reached := hs.reached
  slotted := hslot
  taken := by
    intro u held hc
    by_cases hu : u = t
    · exact hstop held (hu ▸ hc)
    · exact hs.taken u held ((hother u hu).symm.trans hc)
  stationed := by
    intro i p u c hp hc
    have hu : u ≠ t := by
      rintro rfl
      rw [hidle i p hp] at hc
      cases hc
    have hst := hs.stationed i p u c hp hc
    rw [← hother u hu] at hst
    exact hst

theorem Posted.begin {t : ThreadId} {config : Config} {line : Nat → Log.Line}
    (hc : s.registry.callOf? t = some (.creating config line)) (hidle : s.idle t = true)
    (hfresh : Pool.Fresh config.threads (Pool.blank s.pools.length config.threads t : Pool J V)) :
    Posted ⟨s.registry,s.pools ++ [.blank s.pools.length config.threads t]⟩ := by
  have hcases : ∀ {i : Nat} {q : Pool J V},
      (s.pools ++ [.blank s.pools.length config.threads t])[i]? = some q →
        s.pools[i]? = some q ∨ i = s.pools.length ∧ q = .blank s.pools.length config.threads t := by
    intro i q hq
    rw [List.getElem?_append] at hq
    split at hq
    · exact .inl hq
    · rename_i hi
      rw [List.getElem?_singleton] at hq
      split at hq
      · exact .inr ⟨by omega,(Option.some.inj hq).symm⟩
      · cases hq
  have hstands : ∀ {k P}, s.Stands k P →
      Stands ⟨s.registry,s.pools ++ [.blank s.pools.length config.threads t]⟩ k P := by
    rintro k P ⟨q,hq,hst,hP⟩
    exact ⟨q,(List.getElem?_append_left (List.getElem?_eq_some_iff.mp hq).1).trans hq,hst,hP⟩
  refine ⟨hs.tidy,?_,?_,?_,?_⟩
  · intro i q hq
    rcases hcases hq with hq | ⟨-,rfl⟩
    · exact hs.reached i q hq
    · exact hfresh.reached
  · intro held hslot
    exact hstands (hs.slotted held hslot)
  · intro u held hu
    exact hstands (hs.taken u held hu)
  · intro i q u c hq hqc
    rw [List.length_append, List.length_singleton]
    rcases hcases hq with hold | ⟨rfl,rfl⟩
    · have hst := hs.stationed i q u c hold hqc
      cases hrc : s.registry.callOf? u with
      | none =>
        rw [hrc] at hst
        exact hst
      | some rc =>
        rw [hrc] at hst
        cases rc with
        | entering | leaving | stopping => exact hst
        | creating =>
          -- the lock has one holder, and that one is in no pool yet
          obtain rfl := hs.tidy.holder hc rfl u _ hrc rfl
          rw [idle_of hidle hold] at hqc
          cases hqc
    · obtain ⟨rfl,rfl⟩ := Pool.callOf?_blank hqc
      rw [hc]
      exact ⟨rfl,rfl,rfl⟩

end Step

theorem Stationed.unique {total i j m n : Nat} {c d : Call J} {rc : Registry.Call}
    (hc : Stationed total i m c (some rc)) (hd : Stationed total j n d (some rc)) : i = j := by
  cases rc with
  | entering | leaving => exact hc.elim
  | creating =>
    have hi := hc.2.1
    have hj := hd.2.1
    omega
  | stopping => exact hc.2.trans hd.2.symm

/-- What a pool may be called for, wherever the caller is. -/
theorem stationed_of_admits {s : Estate J V} {i : Nat} {p : Pool J V} {e : Pool.Event J V}
    (ha : s.admits i p e = true) (t : ThreadId) (r : Pool.Request J) (he : e = .call t r) :
    p.Standing ∧ Stationed s.pools.length i p.threads r.start (s.registry.callOf? t) := by
  subst he
  simp only [admits, free, Bool.and_eq_true, decide_eq_true_eq, Option.isNone_iff_eq_none] at ha
  obtain ⟨hstands,hnone,-⟩ := ha
  rw [hnone]
  exact ⟨hstands,r.start_builds⟩

theorem harmless_of_admits {s : Estate J V} {i : Nat} {p : Pool J V} {e : Pool.Event J V}
    (ha : s.admits i p e = true) : e.harmless = true := by
  cases e with
  | pin => exact ha
  | call | spawn | notify | proceed | claim | finish | stir | stirWaiter | free => rfl

theorem Posted.admitted_step {s : Estate J V} (hs : s.Posted) {i : Nat} {p : Pool J V}
    {e : Pool.Event J V} {f : Pool.Effect J V} (hp : s.pools[i]? = some p)
    (ha : s.admits i p e = true) (h : p.step e = some f) :
    Posted ⟨s.registry,s.pools.set i f.pool⟩ :=
  hs.pool_step hp h (stationed_of_admits ha) (harmless_of_admits ha)

section Return
variable {s : Estate J V} (hs : s.Posted) {i : Nat} {p : Pool J V} {e : Pool.Event J V}
  {f : Pool.Effect J V} (hp : s.pools[i]? = some p) (h : p.step e = some f) {t : ThreadId}
  {rc : Registry.Call} (hrc : s.registry.callOf? t = some rc) (he : e.caller? = some t)
  {r : Reply} (hr : f.reply = some r)
include hs hp h hrc he hr

/-- The call of a pool that returns to a call of the registry. -/
theorem Posted.returning : ∃ c, p.callOf? t = some c ∧ f.pool.callOf? t = none ∧
    Stationed s.pools.length i p.threads c (some rc) := by
  obtain ⟨u,c,hu,hc,hnone⟩ := Pool.callOf?_of_reply h hr
  rw [he] at hu
  cases hu
  exact ⟨c,hc,hnone,hrc ▸ hs.stationed i p t c hp hc⟩

theorem Posted.idle_after {j : Nat} {q : Pool J V} (hq : (s.pools.set i f.pool)[j]? = some q) :
    q.callOf? t = none := by
  obtain ⟨c,hc,hnone,hst⟩ := hs.returning hp h hrc he hr
  rcases getElem?_set_cases hq with ⟨-,rfl⟩ | ⟨hne,hq⟩
  · exact hnone
  · -- a call of the registry has its thread in one pool at most
    refine Option.eq_none_iff_forall_ne_some.mpr ?_
    intro d hd
    have hst' := hs.stationed j q t d hq hd
    rw [hrc] at hst'
    exact hne (hst'.unique hst)

/-- Whoever builds a pool is told that it stands, or that a worker was refused and it is over. -/
theorem Posted.told {c : Call J} (hpc : p.callOf? t = some c) (hb : c.builds = true) :
    r = .built ∧ f.pool.Standing ∨ ∃ err, r = .notBuilt err ∧ f.pool.Over := by
  obtain ⟨-,-,hnone,-⟩ := hs.returning hp h hrc he hr
  have hp := hs.reached i p hp
  rcases Pool.builder_step h hp.guarded (hp.joinable hpc hb) hpc hb with
    ⟨c',hc',-⟩ | ⟨-,⟨hbuilt,hstands⟩ | ⟨err,hnot,hover⟩⟩
  · rw [hnone] at hc'
    cases hc'
  · exact .inl ⟨Option.some.inj (hr.symm.trans hbuilt),hstands⟩
  · exact .inr ⟨err,Option.some.inj (hr.symm.trans hnot),hover⟩

/-- A pool stands when the thread that builds it is told that it does. -/
theorem Posted.stands_of_built (hrb : r = .built) {c : Call J} (hpc : p.callOf? t = some c)
    (hb : c.builds = true) : f.pool.Standing := by
  subst hrb
  rcases hs.told hp h hrc he hr hpc hb with ⟨-,hstands⟩ | ⟨err,⟨⟩,-⟩
  exact hstands

/-- No worker can have died so that whoever builds the pool has to panic. -/
theorem Posted.builder_returns {config : Config} {line : Nat → Log.Line}
    (hcreating : rc = .creating config line) (q : Payload) : r ≠ .unwound q := by
  subst hcreating
  rintro rfl
  obtain ⟨c,hpc,-,hb,-⟩ := hs.returning hp h hrc he hr
  rcases hs.told hp h hrc he hr hpc hb with ⟨⟨⟩,-⟩ | ⟨err,⟨⟩,-⟩

end Return

/-! ## The steps -/

section Step
variable {s : Estate J V} (hs : s.Posted)
include hs

/-- The thread that has got the lock looks into the slot. -/
theorem Posted.look {t : ThreadId} {request : Registry.Request} {r : Registry}
    (hc : s.registry.callOf? t = some (.entering request)) (hl : s.registry.locked = false)
    (hlook : Looked s.registry t request r) : Posted ⟨r,s.pools⟩ := by
  have hidle : ∀ (i : Nat) (p : Pool J V), s.pools[i]? = some p → p.callOf? t = none :=
    fun i p hp => hs.not_inside hc (fun _ _ _ _ h => h) hp
  -- nobody has held the lock so far
  have honly : ∀ u d, s.registry.callOf? u = some d → d.holdsLock = true → u = t := by
    intro u d hd hlock
    rw [Registry.callOf?_unlocked hl hd] at hlock
    cases hlock
  have hleave : ∀ {reply}, (reply = .done → s.registry.slot = none) →
      Posted ⟨s.registry.setCall t (.leaving reply),s.pools⟩ := by
    intro reply hdone
    refine hs.registry_step t (.move honly s.registry.slot ?_)
      (fun _ => Registry.callOf?_setCall_ne _) hidle hs.slotted ?_
    · intro hv
      refine hdone ?_
      cases reply with
      | done => rfl
      | pool | failed | none | unwound => cases hv
    · intro held hh
      rw [Registry.callOf?_setCall_self] at hh
      cases hh
  cases hlook with
  | found | nothing => exact hleave nofun
  | vacant hslot => exact hleave fun _ => hslot
  | missed _ hslot =>
    refine hs.registry_step t (.move honly s.registry.slot fun _ => hslot)
      (fun _ => Registry.callOf?_setCall_ne _) hidle hs.slotted ?_
    intro held hh
    rw [Registry.callOf?_setCall_self] at hh
    cases hh
  | @taken held hslot =>
    refine hs.registry_step t (.move honly none fun _ => rfl)
      (fun _ => Registry.callOf?_setCall_ne _) hidle nofun ?_
    intro held' hh
    obtain rfl : held = held' := by
      rw [Registry.callOf?_setCall_self] at hh
      cases hh
      rfl
    exact hs.slotted held hslot

/-- The holder of the lock is about to release it. -/
theorem Posted.answer {t : ThreadId} {rc : Registry.Call} (hc : s.registry.callOf? t = some rc)
    (hl : rc.holdsLock = true)
    (hidle : ∀ (i : Nat) (p : Pool J V), s.pools[i]? = some p → p.callOf? t = none)
    (slot : Option Held) (hslot : ∀ held, slot = some held → s.Stands held.pool fun _ => True)
    {reply : Registry.Reply} (hr : reply = .done → slot = none) :
    Posted ⟨{ s.registry with slot := slot }.setCall t (.leaving reply),s.pools⟩ := by
  refine hs.registry_step t (.move (hs.tidy.holder hc hl) slot ?_)
    (fun _ => Registry.callOf?_setCall_ne _) hidle hslot ?_
  · intro hv
    refine hr ?_
    cases reply with
    | done => rfl
    | pool | failed | none | unwound => cases hv
  · intro held hh
    rw [Registry.callOf?_setCall_self] at hh
    cases hh

end Step

theorem posted_step {s : Estate J V} {e : Event J V} {f : Effect J V} (h : s.step e = some f)
    (hs : s.Posted) : f.estate.Posted := by
  cases transition h with
  | @ask t request hidle hc =>
    refine hs.registry_step t (hs.tidy.ask request) (fun _ => Registry.callOf?_setCall_ne _)
      (fun _ _ hp => idle_of hidle hp) hs.slotted ?_
    intro held hh
    rw [Registry.callOf?_setCall_self] at hh
    cases hh
  | enter hc hl hlook => exact hs.look hc hl hlook
  | begin hc hidle heq hfresh =>
    subst heq
    exact hs.begin hc hidle hfresh
  | fail hc hidle =>
    exact hs.answer hc rfl (fun _ _ hp => idle_of hidle hp) s.registry.slot hs.slotted nofun
  | @shut t held p f hc hidle hp hstep =>
    refine hs.pool_step hp hstep ?_ rfl
    rintro u r ⟨⟩
    obtain ⟨q,hq,hstands,-⟩ := hs.taken t held hc
    rw [hp] at hq
    cases hq
    rw [hc]
    exact ⟨hstands,rfl,rfl⟩
  | @leave t reply hc =>
    refine hs.registry_step t (hs.tidy.leave reply) (fun _ => Registry.callOf?_endCall_ne reply)
      (fun i p hp => hs.not_inside hc (fun _ _ _ _ h => h) hp) hs.slotted ?_
    intro held hh
    rw [Registry.callOf?_endCall, if_pos rfl] at hh
    cases hh
  | pool hp ha hstep => exact hs.admitted_step hp ha hstep
  | @built i p e f t config line hp ha hstep he hr hc =>
    refine (hs.admitted_step hp ha hstep).answer hc rfl (fun _ _ hq => hs.idle_after hp hstep hc he hr hq) _ ?_ nofun
    rintro held ⟨⟩
    obtain ⟨c,hpc,-,hb,-⟩ := hs.returning hp hstep hc he hr
    have hstands := hs.stands_of_built hp hstep hc he hr rfl hpc hb
    exact ⟨f.pool,List.getElem?_set_self (List.getElem?_eq_some_iff.mp hp).1,hstands,trivial⟩
  | notBuilt hp ha hstep he hr hc | buildUnwound hp ha hstep he hr hc
  | stopUnwound hp ha hstep he hr hc =>
    have hs' := hs.admitted_step hp ha hstep
    exact hs'.answer hc rfl (fun _ _ hq => hs.idle_after hp hstep hc he hr hq) s.registry.slot
      hs'.slotted nofun
  | stopped hp ha hstep he hr hc =>
    have hs' := hs.admitted_step hp ha hstep
    exact hs'.answer hc rfl (fun _ _ hq => hs.idle_after hp hstep hc he hr hq) s.registry.slot
      hs'.slotted fun _ => hs.tidy.vacant _ _ hc rfl

theorem posted_empty : (empty : Estate J V).Posted := by
  refine ⟨⟨?_,?_⟩,?_,?_,?_,?_⟩
  · intro t u c d hc
    cases hc
  · intro t c hc
    cases hc
  · intro i p hp
    cases hp
  · intro held hslot
    cases hslot
  · intro t held hc
    cases hc
  · intro i p t c hp
    cases hp

theorem Run.posted {s : Estate J V} {ms : List (Moment J V)} (hr : Run ms s) : s.Posted :=
  hr.invariant_of (I := Posted) (G := fun _ => True) (fun _ _ => trivial) posted_empty
    fun h _ hs => posted_step h hs

/-! ## Shutdowns from outside -/

/-- The thread that takes a pool out of the slot, and the pool. -/
def Moment.taken? (m : Moment J V) : Option (ThreadId × Nat) :=
  match m.event with
  | .enter t =>
    match m.effect.estate.registry.callOf? t with
    | some (.stopping held) => some (t,held.pool)
    | _ => none
  | _ => none

/-- No worker of a pool takes it out of the slot to bring it down. -/
def Moment.Outside (m : Moment J V) : Prop :=
  ∀ x ∈ m.taken?, ∀ p ∈ m.before.pools[x.2]?, p.isWorker x.1 = false

instance (m : Moment J V) : Decidable m.Outside :=
  inferInstanceAs (Decidable (∀ x ∈ _, ∀ p ∈ _, _ = false))

/-- A pool is brought down by a thread other than its workers. -/
structure Sound (s : Estate J V) : Prop extends Posted s where
  stopping : ∀ t held, s.registry.callOf? t = some (.stopping held) →
    s.Stands held.pool fun p => p.isWorker t = false

section Step
variable {s : Estate J V} {e : Event J V} {f : Effect J V} (h : s.step e = some f)
include h

/-- A pool stays as it is, or takes a step of its own. -/
theorem pool_step {i : Nat} {p : Pool J V} (hp : s.pools[i]? = some p) :
    ∃ q, f.estate.pools[i]? = some q ∧ (q = p ∨ ∃ e g, p.step e = some g ∧ g.pool = q) := by
  have hset : ∀ {j : Nat} {q : Pool J V} {e : Pool.Event J V} {g : Pool.Effect J V},
      s.pools[j]? = some q → q.step e = some g →
        ∃ q', (s.pools.set j g.pool)[i]? = some q' ∧
          (q' = p ∨ ∃ e g, p.step e = some g ∧ g.pool = q') := by
    intro j q e g hq hg
    by_cases hj : j = i
    · subst hj
      rw [hp] at hq
      cases hq
      exact ⟨g.pool,List.getElem?_set_self (List.getElem?_eq_some_iff.mp hp).1,.inr ⟨e,g,hg,rfl⟩⟩
    · exact ⟨p,(List.getElem?_set_ne hj).trans hp,.inl rfl⟩
  cases transition h with
  | ask | enter | fail | leave => exact ⟨p,hp,.inl rfl⟩
  | begin =>
    have hlt := (List.getElem?_eq_some_iff.mp hp).1
    exact ⟨p,(List.getElem?_append_left hlt).trans hp,.inl rfl⟩
  | shut _ _ hq hg => exact hset hq hg
  | pool hq _ hg => exact hset hq hg
  | built hq _ hg => exact hset hq hg
  | notBuilt hq _ hg | buildUnwound hq _ hg => exact hset hq hg
  | stopped hq _ hg | stopUnwound hq _ hg => exact hset hq hg

/-- Who brings a pool down has been doing so, or has just found it in the slot. -/
theorem stopping_before {t : ThreadId} {held : Held}
    (hc : f.estate.registry.callOf? t = some (.stopping held)) :
    s.registry.callOf? t = some (.stopping held) ∨
      Moment.taken? ⟨s,e,f⟩ = some (t,held.pool) ∧ s.registry.slot = some held ∧
        f.estate.pools = s.pools := by
  cases transition h with
  | ask | fail | built | notBuilt | buildUnwound | stopped | stopUnwound =>
    exact .inl (Registry.callOf?_of_setCall hc nofun)
  | begin | shut | pool => exact .inl hc
  | leave =>
    rw [Registry.callOf?_endCall] at hc
    split at hc
    · cases hc
    · exact .inl hc
  | @enter u request r hu hl hlook =>
    cases hlook with
    | found | missed | nothing | vacant => exact .inl (Registry.callOf?_of_setCall hc nofun)
    | @taken held' hslot =>
      by_cases ht : t = u
      · subst ht
        have htaken := hc
        rw [Registry.callOf?_setCall_self] at hc
        cases hc
        refine .inr ⟨?_,hslot,rfl⟩
        simp only [Moment.taken?, htaken]
      · left
        rw [Registry.callOf?_setCall_ne _ ht] at hc
        exact hc

end Step

theorem sound_step {s : Estate J V} {e : Event J V} {f : Effect J V} (h : s.step e = some f)
    (hout : Moment.Outside ⟨s,e,f⟩) (hs : s.Sound) : f.estate.Sound where
  toPosted := posted_step h hs.toPosted
  stopping := by
    intro t held hc
    rcases stopping_before h hc with hold | ⟨htaken,hslot,hpools⟩
    · obtain ⟨p,hp,hstands,hw⟩ := hs.stopping t held hold
      obtain ⟨q,hq,rfl | ⟨e,g,hg,rfl⟩⟩ := pool_step h hp
      · exact ⟨q,hq,hstands,hw⟩
      · have hreserved := (hs.reached _ p hp).guarded.reserved
        have hkept := hreserved.isWorker_eq hg hstands t
        exact ⟨g.pool,hq,Pool.standing_step hg hstands,hkept.trans hw⟩
    · obtain ⟨p,hp,hstands,-⟩ := hs.slotted held hslot
      exact ⟨p,hpools ▸ hp,hstands,hout _ htaken p hp⟩

theorem sound_empty : (empty : Estate J V).Sound := ⟨posted_empty,fun _ _ hc => nomatch hc⟩

theorem Run.sound {s : Estate J V} {ms : List (Moment J V)} (hr : Run ms s)
    (hout : ∀ m ∈ ms, m.Outside) : s.Sound :=
  hr.invariant_of (I := Sound) hout sound_empty sound_step

end Estate
end PinnedPool
