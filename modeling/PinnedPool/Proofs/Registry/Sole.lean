import PinnedPool.Proofs.Registry.Whereabouts

/-! # One live pool at a time

A pool that is not over is in the slot, or in the hands of the thread that holds the lock, which is
building it or bringing it down; and whoever builds a pool or brings one down has left the slot
empty. So no two pools are alive at a time, as long as the shutdown of a pool does what it is called
for. It does unless one of the pool's own workers is the caller, or a worker has died of a payload that
makes whoever joins it panic.
-/
namespace PinnedPool.Estate

variable {J V : Type}

/-- Every pool whose workers can be joined is over, or it is in the slot, or it is being built or
brought down. -/
def Placed (s : Estate J V) : Prop :=
  ∀ (i : Nat) (p : Pool J V), s.pools[i]? = some p → p.Joinable → p.Over ∨
    (∃ held, s.registry.slot = some held ∧ held.pool = i) ∨
    (∃ t c, p.callOf? t = some c ∧ c.builds = true) ∨
    ∃ t held, s.registry.callOf? t = some (.stopping held) ∧ held.pool = i

/-- The thread builds the pool `i`, or brings it down. -/
def Handled (s : Estate J V) (t : ThreadId) (i : Nat) : Prop :=
  (∃ config line, s.registry.callOf? t = some (.creating config line)) ∧ i + 1 = s.pools.length ∨
    ∃ held, s.registry.callOf? t = some (.stopping held) ∧ held.pool = i

theorem Placed.others {s : Estate J V} (hpl : s.Placed) (hs : s.Sound) {t : ThreadId} {i : Nat}
    (ht : s.Handled t i) {j : Nat} {q : Pool J V} (hq : s.pools[j]? = some q) (hqj : q.Joinable)
    (hj : j ≠ i) : q.Over := by
  obtain ⟨rc,hc,hv⟩ : ∃ rc, s.registry.callOf? t = some rc ∧ rc.vacates = true := by
    rcases ht with ⟨⟨config,line,hc⟩,-⟩ | ⟨held,hc,-⟩
    · exact ⟨_,hc,rfl⟩
    · exact ⟨_,hc,rfl⟩
  have hholder := hs.tidy.holder hc (Registry.Call.locks_of_vacates hv)
  rcases hpl j q hq hqj with hover | ⟨held,hslot,-⟩ | ⟨u,c,huc,hb⟩ | ⟨u,held,hu,hheld⟩
  · exact hover
  · rw [hs.tidy.vacant t rc hc hv] at hslot
    cases hslot
  · obtain ⟨hlast,config,line,hu,-⟩ := hs.creating_of_builds hq huc hb
    obtain rfl := hholder u _ hu rfl
    rcases ht with ⟨-,hlast'⟩ | ⟨held,hc',-⟩
    · exact absurd (by omega) hj
    · rw [hu] at hc'
      cases hc'
  · obtain rfl := hholder u _ hu rfl
    rcases ht with ⟨⟨config,line,hc'⟩,-⟩ | ⟨held',hc',hheld'⟩
    · rw [hu] at hc'
      cases hc'
    · rw [hu] at hc'
      cases hc'
      exact absurd (hheld.symm.trans hheld') hj

theorem Placed.returned {s : Estate J V} (hpl : s.Placed) (hs : s.Sound) {t : ThreadId} {i : Nat}
    (ht : s.Handled t i) {q : Pool J V} {r : Registry}
    (hq : q.Joinable → q.Over ∨ ∃ held, r.slot = some held ∧ held.pool = i) :
    Placed ⟨r,s.pools.set i q⟩ := by
  intro j p hp hpj
  rcases getElem?_set_cases hp with ⟨rfl,rfl⟩ | ⟨hj,hp⟩
  · rcases hq hpj with hover | hslot
    · exact .inl hover
    · exact .inr (.inl hslot)
  · exact .inl (hpl.others hs ht hp hpj hj)

theorem Placed.pool_step {s : Estate J V} (hpl : s.Placed) {i : Nat} {p : Pool J V}
    {e : Pool.Event J V} {f : Pool.Effect J V} (hp : s.pools[i]? = some p) (h : p.step e = some f)
    (hb : ∀ t c, p.callOf? t = some c → c.builds = true →
      ∃ c, f.pool.callOf? t = some c ∧ c.builds = true) :
    Placed ⟨s.registry,s.pools.set i f.pool⟩ := by
  intro j q hq hqj
  rcases getElem?_set_cases hq with ⟨rfl,rfl⟩ | ⟨-,hq⟩
  · have hpj : p.Joinable := Decidable.byContradiction fun hn => Pool.not_joinable_step h hn hqj
    rcases hpl j p hp hpj with hover | hslot | ⟨t,c,hc,hbuilds⟩ | hstop
    · exact .inl (Pool.over_step h hover)
    · exact .inr (.inl hslot)
    · exact .inr (.inr (.inl ⟨t,hb t c hc hbuilds⟩))
    · exact .inr (.inr (.inr hstop))
  · exact hpl j q hq hqj

/-- A thread that was not bringing a pool down moves on in the registry, and what was in the slot
stays there or is what it is to bring down next. -/
theorem Placed.registry_step {s : Estate J V} (hpl : s.Placed) {r : Registry} {t : ThreadId}
    (hslot : ∀ held, s.registry.slot = some held →
      r.slot = some held ∨ r.callOf? t = some (.stopping held))
    (hself : ∀ held, s.registry.callOf? t ≠ some (.stopping held))
    (hother : ∀ u, u ≠ t → r.callOf? u = s.registry.callOf? u) : Placed ⟨r,s.pools⟩ := by
  intro i p hp hpj
  rcases hpl i p hp hpj with hover | ⟨held,hh,hi⟩ | hbuild | ⟨u,held,hu,hi⟩
  · exact .inl hover
  · rcases hslot held hh with hh | hh
    · exact .inr (.inl ⟨held,hh,hi⟩)
    · exact .inr (.inr (.inr ⟨t,held,hh,hi⟩))
  · exact .inr (.inr (.inl hbuild))
  · have hut : u ≠ t := by
      rintro rfl
      exact hself held hu
    exact .inr (.inr (.inr ⟨u,held,(hother u hut).trans hu,hi⟩))

theorem placed_step {s : Estate J V} {e : Event J V} {f : Effect J V} (h : s.step e = some f)
    (hs : s.Sound) (hpl : s.Placed) : f.estate.Placed := by
  cases transition h with
  | ask _ hc | fail hc =>
    exact hpl.registry_step (fun _ hh => .inl hh) (by simp [hc])
      fun _ => Registry.callOf?_setCall_ne _
  | leave hc =>
    exact hpl.registry_step (fun _ hh => .inl hh) (by simp [hc])
      fun _ => Registry.callOf?_endCall_ne _
  | enter hc _ hlook =>
    cases hlook with
    | found | missed | nothing | vacant =>
      exact hpl.registry_step (fun _ hh => .inl hh) (by simp [hc])
        fun _ => Registry.callOf?_setCall_ne _
    | @taken held hslot =>
      refine hpl.registry_step ?_ (by simp [hc]) fun _ => Registry.callOf?_setCall_ne _
      intro held' hh
      rw [hslot] at hh
      cases hh
      exact .inr (Registry.callOf?_setCall_self ..)
  | @begin t _ config line p hc hidle heq =>
    intro i q hq hqj
    dsimp only at hq
    rw [List.getElem?_append] at hq
    split at hq
    · exact hpl i q hq hqj
    · rw [List.getElem?_singleton] at hq
      split at hq
      · cases hq
        refine .inr (.inr (.inl ⟨t,.build,?_,rfl⟩))
        rw [heq, Pool.callOf?, Pool.blank, Pool.lookup_cons_ite, if_pos rfl]
      · cases hq
  | @shut t held p f hc hidle hp hstep =>
    refine hpl.pool_step hp hstep ?_
    intro u c hu hb
    have hreached := hs.reached _ p hp
    rcases Pool.builder_step hstep hreached.guarded (hreached.joinable hu hb) hu hb with
      hgo | ⟨hcaller,-⟩
    · exact hgo
    · cases hcaller
      rw [idle_of hidle hp] at hu
      cases hu
  | @pool i p e f hp ha hstep hun =>
    refine hpl.pool_step hp hstep ?_
    intro u c hu hb
    have hreached := hs.reached i p hp
    rcases Pool.builder_step hstep hreached.guarded (hreached.joinable hu hb) hu hb with
      hgo | ⟨hcaller,hend⟩
    · exact hgo
    · -- the end of the building would have come back to the registry
      obtain ⟨-,config,line,hrc,-⟩ := hs.creating_of_builds hp hu hb
      obtain ⟨hnb,hnn,-⟩ := hun u config line hcaller hrc
      rcases hend with ⟨hb,-⟩ | ⟨err,hn,-⟩
      · exact absurd hb hnb
      · exact absurd hn (hnn err)
  | @built i p e f t config line hp ha hstep he hr hc =>
    obtain ⟨c,-,-,-,hlast,-⟩ := hs.returning hp hstep hc he hr
    exact hpl.returned hs (.inl ⟨⟨config,line,hc⟩,hlast⟩) fun _ => .inr ⟨_,rfl,rfl⟩
  | @notBuilt i p e f t config line err hp ha hstep he hr hc =>
    obtain ⟨c,hpc,hnone,hb,hlast,-⟩ := hs.returning hp hstep hc he hr
    refine hpl.returned hs (.inl ⟨⟨config,line,hc⟩,hlast⟩) fun _ => .inl ?_
    rcases hs.told hp hstep hc he hr hpc hb with ⟨⟨⟩,-⟩ | ⟨-,-,hover⟩
    exact hover
  | buildUnwound hp _ hstep he hr hc =>
    exact absurd rfl (hs.builder_returns hp hstep hc he hr rfl _)
  | @stopped i p e f t held hp ha hstep he hr hc =>
    obtain ⟨c,hpc,-,hshuts,hi⟩ := hs.returning hp hstep hc he hr
    refine hpl.returned hs (.inr ⟨held,hc,hi.symm⟩) fun hj => .inl ?_
    obtain ⟨q,hq,-,hout⟩ := hs.stopping t held hc
    rw [← hi, hp] at hq
    cases hq
    exact Pool.over_of_shutdown hstep (hs.reached i p hp).guarded hj hpc hshuts hout he hr
  | @stopUnwound i p e f t held _ hp ha hstep he hr hc =>
    obtain ⟨c,-,-,-,hi⟩ := hs.returning hp hstep hc he hr
    have hn := Pool.not_joinable_step hstep (Pool.not_joinable_of_unwound hstep hr)
    exact hpl.returned hs (.inr ⟨held,hc,hi.symm⟩) fun hj => absurd hj hn

theorem Run.placed {s : Estate J V} {ms : List (Moment J V)} (hr : Run ms s)
    (hout : ∀ m ∈ ms, m.Outside) : s.Placed := by
  have hinv : s.Sound ∧ s.Placed := by
    refine hr.invariant_of (I := fun s => s.Sound ∧ s.Placed) hout ⟨sound_empty,?_⟩ ?_
    · intro i p hp
      cases hp
    · rintro s e f h hm ⟨hs,hpl⟩
      exact ⟨sound_step h hm hs,placed_step h hs hpl⟩
  exact hinv.2

theorem Placed.unique {s : Estate J V} (hpl : s.Placed) (hs : s.Sound) {i j : Nat} {p q : Pool J V}
    (hp : s.pools[i]? = some p) (hq : s.pools[j]? = some q) (hpj : p.Joinable) (hqj : q.Joinable)
    (hpo : ¬p.Over) (hqo : ¬q.Over) : i = j := by
  have hhandled : ∀ t {k l : Nat} {r : Pool J V}, s.Handled t k → s.pools[l]? = some r →
      r.Joinable → ¬r.Over → l = k := by
    intro t k l r ht hr hrj hro
    refine Decidable.byContradiction ?_
    intro hne
    exact hro (hpl.others hs ht hr hrj hne)
  rcases hpl i p hp hpj with hover | ⟨held,hslot,hi⟩ | ⟨t,c,hc,hb⟩ | ⟨t,held,hc,hi⟩
  · exact absurd hover hpo
  · rcases hpl j q hq hqj with hover | ⟨held',hslot',hj⟩ | ⟨t,c,hc,hb⟩ | ⟨t,held',hc,hj⟩
    · exact absurd hover hqo
    · rw [hslot] at hslot'
      cases hslot'
      exact hi.symm.trans hj
    · obtain ⟨hlast,config,line,hcr,-⟩ := hs.creating_of_builds hq hc hb
      exact hhandled t (.inl ⟨⟨config,line,hcr⟩,hlast⟩) hp hpj hpo
    · exact hhandled t (.inr ⟨held',hc,hj⟩) hp hpj hpo
  · obtain ⟨hlast,config,line,hcr,-⟩ := hs.creating_of_builds hp hc hb
    exact (hhandled t (.inl ⟨⟨config,line,hcr⟩,hlast⟩) hq hqj hqo).symm
  · exact (hhandled t (.inr ⟨held,hc,hi⟩) hq hqj hqo).symm

theorem Placed.over_of_done {s : Estate J V} (hpl : s.Placed) (hs : s.Sound) {t : ThreadId}
    (hc : s.registry.callOf? t = some (.leaving .done)) {i : Nat} {p : Pool J V}
    (hp : s.pools[i]? = some p) (hj : p.Joinable) : p.Over := by
  have hholder := hs.tidy.holder hc rfl
  rcases hpl i p hp hj with hover | ⟨held,hslot,-⟩ | ⟨u,c,hu,hb⟩ | ⟨u,held,hu,-⟩
  · exact hover
  · rw [hs.tidy.vacant t _ hc rfl] at hslot
    cases hslot
  · obtain ⟨-,config,line,hcr,-⟩ := hs.creating_of_builds hp hu hb
    obtain rfl := hholder u _ hcr rfl
    rw [hc] at hcr
    cases hcr
  · obtain rfl := hholder u _ hu rfl
    rw [hc] at hu
    cases hu

theorem leaving_of_returned {s : Estate J V} {t : ThreadId} {f : Effect J V} {reply : Registry.Reply}
    (h : s.step (.leave t) = some f) (hr : f.reply = some reply) :
    s.registry.callOf? t = some (.leaving reply) ∧ f.estate.pools = s.pools := by
  cases transition h with
  | leave hc =>
    cases hr
    exact ⟨hc,rfl⟩

/-- A call that ends in a panic of the join has met with a worker that died of its payload. -/
theorem Run.unwound {s : Estate J V} {ms : List (Moment J V)} (hr : Run ms s) {t : ThreadId}
    {r : Payload} (hc : s.registry.callOf? t = some (.leaving (.unwound r))) :
    ∃ p ∈ s.pools, ¬p.Joinable := by
  induction hr with
  | start => cases hc
  | @step ms s e f hr h ih =>
    have hbefore : s.registry.callOf? t = some (.leaving (.unwound r)) →
        ∃ p ∈ f.estate.pools, ¬p.Joinable := by
      intro hold
      obtain ⟨p,hp,hn⟩ := ih hold
      obtain ⟨i,hi⟩ := List.getElem?_of_mem hp
      obtain ⟨q,hq,rfl | ⟨e,g,hg,rfl⟩⟩ := pool_step h hi
      · exact ⟨q,List.mem_of_getElem? hq,hn⟩
      · exact ⟨g.pool,List.mem_of_getElem? hq,Pool.not_joinable_step hg hn⟩
    cases transition h with
    | ask | fail | built | notBuilt | buildUnwound | stopped =>
      exact hbefore (Registry.callOf?_of_setCall hc nofun)
    | begin | shut | pool => exact hbefore hc
    | leave =>
      rw [Registry.callOf?_endCall] at hc
      split at hc
      · cases hc
      · exact hbefore hc
    | enter _ _ hlook =>
      cases hlook with
      | found | missed | nothing | taken | vacant =>
        exact hbefore (Registry.callOf?_of_setCall hc nofun)
    | stopUnwound hp _ hg _ hreply =>
      have hlt := (List.getElem?_eq_some_iff.mp hp).1
      exact ⟨_,List.mem_of_getElem? (List.getElem?_set_self hlt),
        Pool.not_joinable_step hg (Pool.not_joinable_of_unwound hg hreply)⟩

/-- As long as a pool is never taken out of the slot by one of its own workers, one of the pools that
were begun through the registry is alive at most, of those that no worker has died in of a payload that
panics when it is dropped; and when a shutdown returns, all workers of all of these are over, and
nothing is left in a queue unless every worker of the pool was killed. A shutdown ends in a panic of
its own only if such a payload is there. -/
theorem one_live_pool {s : Estate J V} {ms : List (Moment J V)} (hr : Run ms s)
    (hout : ∀ m ∈ ms, m.Outside) :
    (∀ (i j : Nat) (p q : Pool J V), s.pools[i]? = some p → s.pools[j]? = some q →
        p.Joinable → q.Joinable → p.deserted = false → q.deserted = false → i = j) ∧
      (∀ t f, s.step (.leave t) = some f → f.reply = some .done → ∀ p ∈ f.estate.pools,
        p.Joinable → p.deserted = true ∧
          ((∃ w ∈ p.workers, ∀ q, w ≠ .killed q) → p.queue.tasks = [])) ∧
      ∀ t f r, s.step (.leave t) = some f → f.reply = some (.unwound r) →
        ∃ p ∈ f.estate.pools, ¬p.Joinable := by
  have hs := hr.sound hout
  have hpl := hr.placed hout
  refine ⟨?_,?_,?_⟩
  · intro i j p q hp hq hpj hqj hpl' hql
    refine hpl.unique hs hp hq hpj hqj ?_ ?_
    · intro hover
      rw [hover.1] at hpl'
      cases hpl'
    · intro hover
      rw [hover.1] at hql
      cases hql
  · intro t f h hdone p hp hj
    obtain ⟨hc,hpools⟩ := leaving_of_returned h hdone
    rw [hpools] at hp
    obtain ⟨i,hi⟩ := List.getElem?_of_mem hp
    have hover := hpl.over_of_done hs hc hi hj
    exact ⟨hover.1,(hs.reached i p hi).empty hover.1⟩
  · intro t f r h hunwound
    obtain ⟨hc,hpools⟩ := leaving_of_returned h hunwound
    rw [hpools]
    exact hr.unwound hc

/-- One thread sets the registry up and another one shuts it down, while a task is queued and a third
thread waits for the lock. That one then gets a new pool. -/
theorem one_live_pool_successor :
    ∃ (ms ns : List (Moment Nat Nat)) (s s' : Estate Nat Nat) (f : Effect Nat Nat),
      Run ms s ∧ (∀ m ∈ ms, m.Outside) ∧ s.step (.leave (.client 2)) = some f ∧
        f.reply = some .done ∧ f.estate.pools.length = 1 ∧
        (∀ p ∈ f.estate.pools, p.deserted = true ∧ p.queue.tasks = []) ∧
        Run ns s' ∧ (∀ m ∈ ns, m.Outside) ∧ s'.pools.length = 2 ∧
        ∀ (i : Nat) (p : Pool Nat Nat), s'.pools[i]? = some p → p.deserted = false → i = 1 := by
  have h : Leads [.ask (.client 0) (.setUp (.withThreads 1)), .enter (.client 0),
      .found (.client 0) "noop", .pool 0 (.spawn (.client 0) none), .leave (.client 0),
      .pool 0 (.call (.client 1) (.submit 7 true)), .pool 0 (.proceed (.client 1)),
      .pool 0 (.notify (.client 1) none), .ask (.client 2) .shutdown, .enter (.client 2),
      .ask (.client 3) .getOrInit, .shut (.client 2), .pool 0 (.proceed (.client 2)),
      .pool 0 (.proceed (.client 2)), .pool 0 (.proceed (.client 2)), .pool 0 (.pin 0),
      .pool 0 (.claim 0), .pool 0 (.finish 0 (.returned 1)), .pool 0 (.claim 0),
      .pool 0 (.proceed (.client 2)), .pool 0 (.proceed (.client 2))]
      fun (ms : List (Moment Nat Nat)) s =>
    (∀ m ∈ ms, m.Outside) ∧ (s.step (.leave (.client 2))).any (fun f =>
        f.reply = some .done && f.estate.pools.length = 1 &&
          f.estate.pools.all fun p => p.Joinable && p.workers.contains .left) = true ∧
      (replay ms s [.leave (.client 2), .enter (.client 3), .found (.client 3) "noop",
        .pool 1 (.spawn (.client 3) none), .pool 1 (.spawn (.client 3) none),
        .pool 1 (.spawn (.client 3) none), .leave (.client 3)]).any (fun r =>
          decide (∀ m ∈ r.1, m.Outside) && decide (∀ p ∈ r.2.pools, p.Joinable) &&
            r.2.pools.length = 2 && (r.2.pools[1]?).any fun p => !p.deserted) = true := by
    decide +kernel
  obtain ⟨ms,s,hr,hout,hf,hlater⟩ := h.run
  obtain ⟨f,hf,hd⟩ := (Option.any_eq_true _ _).mp hf
  obtain ⟨⟨ns,s'⟩,hreplay,hd'⟩ := (Option.any_eq_true _ _).mp hlater
  simp only [Bool.and_eq_true, decide_eq_true_eq, List.all_eq_true, List.contains_iff_mem] at hd hd'
  obtain ⟨⟨hdone,hlen⟩,hall⟩ := hd
  obtain ⟨⟨⟨hout',hj⟩,hlen'⟩,hlive⟩ := hd'
  obtain ⟨q,hq,hlive⟩ := (Option.any_eq_true _ _).mp hlive
  have hr' := hr.replay hreplay
  refine ⟨ms,ns,s,s',f,hr,hout,hf,hdone,hlen,?_,hr',hout',hlen',?_⟩
  · intro p hp
    obtain ⟨hpj,hleft⟩ := hall p hp
    obtain ⟨hdeserted,hempty⟩ := (one_live_pool hr hout).2.1 _ f hf hdone p hp hpj
    exact ⟨hdeserted,hempty ⟨.left,hleft,nofun⟩⟩
  · intro i p hp hpl
    have hpj := hj p (List.mem_of_getElem? hp)
    have hqj := hj q (List.mem_of_getElem? hq)
    exact (one_live_pool hr' hout').1 i 1 p q hp hq hpj hqj hpl (by simpa using hlive)

/-- A task shuts the registry down that its own pool belongs to. The call returns while the task is
still running, and the slot is free for a second pool. -/
theorem two_live_pools :
    ∃ (ms ns : List (Moment Nat Nat)) (s s' : Estate Nat Nat) (f : Effect Nat Nat),
      Run ms s ∧ s.step (.leave (.worker 0 0)) = some f ∧ f.reply = some .done ∧
        (∃ p ∈ f.estate.pools, p.deserted = false) ∧ Run ns s' ∧
        ∃ p q, s'.pools[0]? = some p ∧ s'.pools[1]? = some q ∧ p.deserted = false ∧
          q.deserted = false := by
  have h : Leads [.ask (.client 0) (.setUp (.withThreads 1)), .enter (.client 0),
      .found (.client 0) "noop", .pool 0 (.spawn (.client 0) none), .leave (.client 0),
      .pool 0 (.call (.client 1) (.submit 7 true)), .pool 0 (.proceed (.client 1)),
      .pool 0 (.notify (.client 1) none), .pool 0 (.pin 0), .pool 0 (.claim 0),
      .ask (.worker 0 0) .shutdown, .enter (.worker 0 0), .shut (.worker 0 0),
      .pool 0 (.proceed (.worker 0 0)), .pool 0 (.proceed (.worker 0 0))]
      fun (ms : List (Moment Nat Nat)) s =>
    (s.step (.leave (.worker 0 0))).any (fun f =>
        f.reply = some .done && f.estate.pools.any fun p => !p.deserted) = true ∧
      (replay ms s [.leave (.worker 0 0), .ask (.client 0) (.setUp (.withThreads 1)),
        .enter (.client 0), .found (.client 0) "noop", .pool 1 (.spawn (.client 0) none)]).any
          (fun r => (r.2.pools[0]?).any (fun p => !p.deserted) &&
            (r.2.pools[1]?).any fun p => !p.deserted) = true := by
    decide +kernel
  obtain ⟨ms,s,hr,hf,hlater⟩ := h.run
  obtain ⟨f,hf,hd⟩ := (Option.any_eq_true _ _).mp hf
  obtain ⟨⟨ns,s'⟩,hreplay,hd'⟩ := (Option.any_eq_true _ _).mp hlater
  simp only [Bool.and_eq_true, decide_eq_true_eq, List.any_eq_true, Option.any_eq_true,
    Bool.not_eq_true'] at hd hd'
  obtain ⟨⟨p,hp,hpl⟩,q,hq,hql⟩ := hd'
  exact ⟨ms,ns,s,s',f,hr,hf,hd.1,hd.2,hr.replay hreplay,p,q,hp,hq,hpl,hql⟩

end PinnedPool.Estate
