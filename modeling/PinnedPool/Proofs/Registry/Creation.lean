import PinnedPool.Proofs.Pool.AllOrNothing
import PinnedPool.Proofs.Registry.Parts

/-! # Every request for a pool comes back

Whoever asks for a pool, by itself or through a registry, is told what the number of workers and the
system's answers make of it. The topology and the pinning have no part in it. Only where no list can
hold the join handles, the request unwinds instead.
-/
namespace PinnedPool

variable {J V : Type}

/-- The driver of the controller that a configuration selects on a machine. -/
def Driver.configured (m : Machine) (c : Config) : Driver :=
  ⟨c.topology,fun _ => Controller.select m c⟩

theorem Backend.nativePin_ne_unwound (m : Machine) (cores : CoreClass) (cpus : List Nat)
    (p : Payload) : Backend.nativePin m cores cpus ≠ .unwound p := by
  unfold Backend.nativePin
  split
  · exact nofun
  · split <;> exact nofun

theorem Driver.configured_returns (m : Machine) (c : Config) : (configured m c).Returns := by
  intro asked thread cores cpus mask p
  cases hc : c.pinWorkers with
  | true =>
    simp only [configured, Controller.select, hc, ↓reduceIte]
    exact Backend.nativePin_ne_unwound m cores cpus p
  | false =>
    simp only [configured, Controller.select, hc]
    exact nofun

/-- What a registry answers whose pool of `n` workers, of identity `i`, has come to this. -/
def Registry.Reply.made (i n : Nat) : Except Failure Unit → Registry.Reply
  | .ok _ => .pool ⟨i,n⟩
  | .error failure => .failed failure

def Registry.Call.config? : Registry.Call → Option Config
  | creating config _ => some config
  | _ => none

def Registry.Call.reply? : Registry.Call → Option Registry.Reply
  | leaving r => some r
  | _ => none

namespace Estate

/-- Whatever a pool's step returns, the registry can follow. -/
theorem exists_follow (r : Registry) (t : ThreadId) (held : Held) (reply : Reply) :
    ∃ r', r.follow t held reply = some r' := by
  unfold Registry.follow
  split
  · exact ⟨_,congrArg _ (Registry.step_created ‹_› _)⟩
  · exact ⟨_,congrArg _ (Registry.step_created ‹_› _)⟩
  · exact ⟨_,congrArg _ (Registry.step_created ‹_› _)⟩
  · exact ⟨_,congrArg _ (Registry.step_stopped ‹_› _)⟩
  · exact ⟨_,congrArg _ (Registry.step_stopped ‹_› _)⟩
  · exact ⟨_,rfl⟩

theorem exists_pool {s : Estate J V} {i : Nat} {p : Pool J V} {e : Pool.Event J V}
    {f : Pool.Effect J V} (hp : s.pools[i]? = some p) (ha : s.admits i p e = true)
    (h : p.step e = some f) : ∃ g, s.step (.pool i e) = some g := by
  simp only [step, hp, Option.bind_some, ha, ↓reduceIte, stepPool, h]
  split
  · rename_i t reply _ _
    obtain ⟨r,hr⟩ := exists_follow s.registry t ⟨i,p.threads⟩ reply
    rw [hr]
    exact ⟨_,rfl⟩
  · exact ⟨_,rfl⟩

theorem exists_found {s : Estate J V} {t : ThreadId} {config : Config} {line : Nat → Log.Line}
    (hc : s.registry.callOf? t = some (.creating config line)) (hidle : s.idle t = true)
    (backend : String) : ∃ f, s.step (.found t backend) = some f := by
  simp only [step, hc, hidle, ↓reduceIte]
  split
  · exact ⟨_,rfl⟩
  · rw [Registry.step_created hc]
    exact ⟨_,rfl⟩

/-- A request that fails at once has come to what it is to come to. -/
theorem found_step {s : Estate J V} {t : ThreadId} {config : Config} {line : Nat → Log.Line}
    (hc : s.registry.callOf? t = some (.creating config line)) {backend : String} {f : Effect J V}
    (h : s.step (.found t backend) = some f) : f.estate.registry = s.registry ∨
      ∃ failure, f.estate.registry.callOf? t = some (.leaving (.failed failure)) ∧
        ∀ refusal, Pool.outcome refusal config.threads = .error failure := by
  simp only [step, hc] at h
  split at h
  · split at h
    · cases h
      exact .inl rfl
    · rename_i failure lines hcreate
      rw [Registry.step_created hc] at h
      cases h
      exact .inr ⟨failure,Registry.callOf?_setCall_self ..,Pool.outcome_of_create hcreate⟩
  · cases h

/-- In a pool without tasks, whoever can go on can do so as it may. -/
theorem exists_admitted (s : Estate J V) (i : Nat) {p : Pool J V} (hu : p.Unused)
    {refusal : Nat → Option Os.Error} {e : Pool.Event J V} {f : Pool.Effect J V}
    (he : e.isProgress = true) (ha : e.AnsweredBy refusal p) (h : p.step e = some f) :
    ∃ e f, e.isProgress = true ∧ e.AnsweredBy refusal p ∧ s.admits i p e = true ∧
      p.step e = some f := by
  cases e with
  | finish =>
    cases Pool.transition h with
    | finish hw => cases hu.free _ (List.mem_of_getElem? hw)
  | pin w =>
    have hw : p.workers[w]? = some .starting := by
      cases Pool.transition h with
      | pin hw | pinKilled _ hw => exact hw
    have hstep : p.step (.pin w) = some { pool := p.setWorker w .ready, lines := [.started w] } := by
      simp only [Pool.step, hw]
    exact ⟨.pin w,_,rfl,trivial,rfl,hstep⟩
  | spawn | notify | proceed | claim => exact ⟨_,f,rfl,ha,rfl,h⟩
  | call | stir | stirWaiter | free => cases he

/-- The request of a thread for a pool of the given configuration is on its way: the thread begins to
build the pool, or somebody takes the next of not too many steps, until the thread gets its answer. -/
structure Serves (refusal : Nat → Nat → Option Os.Error) (t : ThreadId) (config : Config)
    (line : Nat → Log.Line) (ms : List (Moment J V)) (s : Estate J V) : Prop where
  goes_on : s.idle t = true ∧ (∀ backend, ∃ f, s.step (.found t backend) = some f) ∨
    ∃ i p, i + 1 = s.pools.length ∧ s.pools[i]? = some p ∧ p.threads = config.threads ∧
      (∃ e f, e.isProgress = true ∧ e.AnsweredBy (refusal i) p ∧ s.step (.pool i e) = some f) ∧
      (poolMoments i ms).length ≤
        6 * config.threads + 4 + 2 * Pool.stirs (poolMoments i ms)
  comes_back : ∀ e f, s.step e = some f → e.AnsweredBy refusal s →
    f.estate.registry.callOf? t = some (.creating config line) ∨
      ∃ i, f.estate.registry.callOf? t = some (.leaving
          (.made i config.threads (Pool.outcome (refusal i) config.threads))) ∧
        (Pool.outcome (refusal i) config.threads = .ok () →
          f.estate.Stands i fun p => p.workers.length = config.threads)

section Creating
variable {s : Estate J V} {ms : List (Moment J V)} (hr : Run ms s) {t : ThreadId}
  {config : Config} {line : Nat → Log.Line}
  (hc : s.registry.callOf? t = some (.creating config line))
include hr hc

theorem Run.begun (hidle : ¬s.idle t = true) : ∃ i p c, i + 1 = s.pools.length ∧
    s.pools[i]? = some p ∧ p.threads = config.threads ∧ p.callOf? t = some c ∧ c.builds = true := by
  simp only [idle, List.all_eq_true, not_forall] at hidle
  obtain ⟨p,hmem,hcall⟩ := hidle
  obtain ⟨i,hp⟩ := List.getElem?_of_mem hmem
  obtain ⟨c,hpc⟩ : ∃ c, p.callOf? t = some c := Option.ne_none_iff_exists'.mp (by simpa using hcall)
  have hstation := hr.posted.stationed i p t c hp hpc
  rw [hc] at hstation
  exact ⟨i,p,c,hstation.2.1,hp,hstation.2.2,hpc,hstation.1⟩

theorem Run.goes_on (refusal : Nat → Nat → Option Os.Error) :
    s.idle t = true ∧ (∀ backend, ∃ f, s.step (.found t backend) = some f) ∨
      ∃ i p, i + 1 = s.pools.length ∧ s.pools[i]? = some p ∧ p.threads = config.threads ∧
        (∃ e f, e.isProgress = true ∧ e.AnsweredBy (refusal i) p ∧ s.step (.pool i e) = some f) ∧
        (poolMoments i ms).length ≤
          6 * config.threads + 4 + 2 * Pool.stirs (poolMoments i ms) := by
  by_cases hidle : s.idle t = true
  · exact .inl ⟨hidle,exists_found hc hidle⟩
  · obtain ⟨i,p,c,hlast,hp,hthreads,hpc,hb⟩ := hr.begun hc hidle
    obtain ⟨n,b,ho⟩ := (hr.own i).2 p hp
    have hn : n = config.threads := (ho.run.threads_eq ho.fresh).symm.trans hthreads
    have huntold := (ho.run.builder ho.fresh ho.timely ho.harmless hpc hb).2
    have hstands := (ho.run.reserved ho.fresh ho.timely).not_standing hpc hb
    have hunused := ho.run.unused ho.fresh ho.timely hstands
    obtain ⟨⟨e,f,he,ha,h⟩,hle⟩ :=
      ho.run.untold ho.fresh ho.timely ho.harmless huntold (refusal i)
    obtain ⟨e,f,he,ha,hadmits,h⟩ := s.exists_admitted i hunused he ha h
    obtain ⟨g,hg⟩ := exists_pool hp hadmits h
    exact .inr ⟨i,p,hlast,hp,hthreads,⟨e,g,he,ha,hg⟩,hn ▸ hle⟩

end Creating

section Return
variable {s : Estate J V} {ms : List (Moment J V)} (hr : Run ms s)
  {refusal : Nat → Nat → Option Os.Error} (ha : ∀ m ∈ ms, m.AnsweredBy refusal) {t : ThreadId}
  {config : Config} {line : Nat → Log.Line}
  (hc : s.registry.callOf? t = some (.creating config line))
include hr ha hc

/-- What the builder of a pool is told is what the pool is to come to. -/
theorem Run.told_outcome {i : Nat} {p : Pool J V} {e : Pool.Event J V} {g : Pool.Effect J V}
    {f : Effect J V} (hp : s.pools[i]? = some p) (hg : p.step e = some g)
    (hcaller : e.caller? = some t) {reply : Reply} (hreply : g.reply = some reply)
    {v : Except Failure Unit} (hv : reply.verdict? = some v) (h : s.step (.pool i e) = some f)
    (he : Event.AnsweredBy refusal s (.pool i e)) :
    p.threads = config.threads ∧ Pool.outcome (refusal i) config.threads = v ∧
      (v = .ok () → f.estate.Stands i fun q => q.workers.length = config.threads) := by
  obtain ⟨-,-,-,-,-,hthreads⟩ := hr.posted.returning hp hg hc hcaller hreply
  obtain ⟨n,b,ho⟩ := (hr.own i).2 p hp
  obtain ⟨q,hq,ho'⟩ := ho.step (hr.posted.part h hp)
  have hn : n = config.threads := (ho.run.threads_eq ho.fresh).symm.trans hthreads
  have hn' : q.threads = config.threads := (ho'.run.threads_eq ho'.fresh).trans hn
  have hmem : v ∈ Pool.verdicts (poolMoments i (ms ++ [⟨s,.pool i e,f⟩])) := by
    rw [poolMoments_snoc, ofPool?_pool hp hg, Option.toList_some, Pool.verdicts_snoc,
      Pool.Moment.verdict?, hreply, Option.bind_some, hv]
    exact List.mem_append_right _ (List.mem_singleton_self _)
  have hanswered := ho'.answered refusal <| by
    intro m hm
    rcases List.mem_append.mp hm with hm | hm
    · exact ha m hm
    · rw [List.mem_singleton.mp hm]
      exact he
  obtain ⟨htold,hfull⟩ := ho'.run.told_outcome ho'.fresh ho'.timely ho'.harmless hanswered
    (List.ne_nil_of_mem hmem)
  rw [htold, hn] at hmem
  rw [hn] at hfull
  obtain rfl := List.mem_singleton.mp hmem
  refine ⟨hthreads,rfl,fun hok => ⟨q,hq,?_,hfull hok⟩⟩
  exact Nat.le_of_eq (hn'.trans (hfull hok).symm)

theorem Run.comes_back {e : Event J V} {f : Effect J V} (h : s.step e = some f)
    (he : e.AnsweredBy refusal s) :
    f.estate.registry.callOf? t = some (.creating config line) ∨
      ∃ i, f.estate.registry.callOf? t = some (.leaving
          (.made i config.threads (Pool.outcome (refusal i) config.threads))) ∧
        (Pool.outcome (refusal i) config.threads = .ok () →
          f.estate.Stands i fun p => p.workers.length = config.threads) := by
  -- the other threads are in other states of their calls
  have hother : ∀ {u : ThreadId} {rc : Registry.Call}, s.registry.callOf? u = some rc →
      (∀ config line, rc ≠ .creating config line) → t ≠ u := by
    rintro u rc hu hrc rfl
    rw [hc] at hu
    cases hu
    exact hrc _ _ rfl
  cases transition h with
  | @ask u request hidle hu =>
    have htu : t ≠ u := by
      rintro rfl
      rw [hc] at hu
      cases hu
    exact .inl ((Registry.callOf?_setCall_ne _ htu).trans hc)
  | @enter u request r hu _ hlook =>
    have htu := hother hu nofun
    cases hlook with
    | found | missed | nothing | taken | vacant =>
      exact .inl ((Registry.callOf?_setCall_ne _ htu).trans hc)
  | begin | shut | pool => exact .inl hc
  | @fail u backend config' line' failure hu hidle =>
    by_cases htu : t = u
    · subst htu
      rcases found_step hc h with hsame | ⟨failure,hleave,hout⟩
      · exact .inl ((congrArg (·.callOf? t) hsame).trans hc)
      · refine .inr ⟨0,?_,?_⟩
        · rw [hout]
          exact hleave
        · rw [hout]
          exact nofun
    · exact .inl ((Registry.callOf?_setCall_ne _ htu).trans hc)
  | leave hu =>
    exact .inl ((Registry.callOf?_endCall_ne _ (hother hu nofun)).trans hc)
  | @built i p e g u config' line' hp hadmits hg hcaller hreply hu =>
    by_cases htu : t = u
    · subst htu
      rw [hc] at hu
      cases hu
      obtain ⟨hthreads,hout,hstands⟩ := hr.told_outcome ha hc hp hg hcaller hreply rfl h he
      refine .inr ⟨i,?_,fun _ => hstands rfl⟩
      rw [hout, hthreads]
      exact Registry.callOf?_setCall_self ..
    · exact .inl ((Registry.callOf?_setCall_ne _ htu).trans hc)
  | @notBuilt i p e g u config' line' err hp hadmits hg hcaller hreply hu =>
    by_cases htu : t = u
    · subst htu
      rw [hc] at hu
      cases hu
      obtain ⟨-,hout,-⟩ := hr.told_outcome ha hc hp hg hcaller hreply rfl h he
      refine .inr ⟨i,?_,?_⟩
      · rw [hout]
        exact Registry.callOf?_setCall_self ..
      · rw [hout]
        exact nofun
    · exact .inl ((Registry.callOf?_setCall_ne _ htu).trans hc)
  | buildUnwound hp _ hg hcaller hreply hu =>
    exact absurd rfl (hr.posted.builder_returns hp hg hu hcaller hreply rfl _)
  | stopped _ _ _ _ _ hu | stopUnwound _ _ _ _ _ hu =>
    exact .inl ((Registry.callOf?_setCall_ne _ (hother hu nofun)).trans hc)

end Return

/-- The thread that has got the lock takes the pool it finds, or is to build one. -/
theorem exists_enter {s : Estate J V} {t : ThreadId} {config : Config}
    (hc : s.registry.callOf? t = some (.entering (.setUp config)))
    (hl : s.registry.locked = false) : ∃ f, s.step (.enter t) = some f ∧
      f.estate.registry.callOf? t = some (match s.registry.slot with
        | some held => .leaving (.pool held)
        | none => .creating config .initialized) := by
  refine ⟨{ estate := ⟨(s.registry.look t (.setUp config)).registry,s.pools⟩ },?_,?_⟩
  · simp [step, Registry.step, hc, hl]
  · simp only [Registry.look, Registry.content_eq]
    cases s.registry.slot <;> exact Registry.callOf?_setCall_self ..

theorem exists_leave {s : Estate J V} {t : ThreadId} {r : Registry.Reply}
    (hc : s.registry.callOf? t = some (.leaving r)) :
    ∃ f, s.step (.leave t) = some f ∧ f.reply = some r := by
  refine ⟨{ estate := ⟨s.registry.endCall t r,s.pools⟩, reply := some r },?_,rfl⟩
  simp [step, Registry.step, hc]

end Estate

/-- The request for a pool of any configuration, one of the default kind among them, comes back with
what the number of workers and the system's answers make of it, and it goes on until then; so does the
request through a registry, which holds its lock meanwhile. It unwinds exactly if there are to be so
many workers that no list could hold their join handles. -/
theorem creation_returns (m : Machine) (c : Config) :
    (∀ refusal, (∃ message, Pool.outcome refusal c.threads = .error (.unwound message)) ↔
      384307168202282326 ≤ c.threads) ∧
    (∀ (conduct : Rig.Conduct J V) id b refusal,
      (∀ failure lines, (Pool.create id c.threads (Driver.configured m c).name b :
          Pool.Opening J V) = .failed failure lines →
        Pool.outcome refusal c.threads = .error failure) ∧
      ∀ p₀ lines, (Pool.create id c.threads (Driver.configured m c).name b :
          Pool.Opening J V) = .begun p₀ lines →
        ∀ masks x, Rig.Run (.configured m c) conduct (.opened p₀ masks) x →
          (∀ μ ∈ x.moments, μ.Timely ∧ μ.AnsweredBy refusal) →
          x.pool.threads = c.threads ∧
          (Pool.verdicts x.moments = [] →
            (∃ e y, e.isProgress = true ∧ e.AnsweredBy refusal x ∧
              x.step (.configured m c) conduct e = some y) ∧
            x.moments.length ≤ 6 * c.threads + 4 + 2 * Pool.stirs x.moments) ∧
          (Pool.verdicts x.moments ≠ [] →
            Pool.verdicts x.moments = [Pool.outcome refusal c.threads] ∧
              (Pool.outcome refusal c.threads = .ok () →
                x.pool.workers.length = c.threads))) ∧
    ∀ refusal (ms : List (Estate.Moment J V)) s, Estate.Run ms s →
      (∀ μ ∈ ms, μ.AnsweredBy refusal) → ∀ t,
        (s.registry.callOf? t = some (.entering (.setUp c)) → s.registry.locked = false →
          ∃ f, s.step (.enter t) = some f ∧
            f.estate.registry.callOf? t = some (match s.registry.slot with
              | some held => .leaving (.pool held)
              | none => .creating c .initialized)) ∧
        (∀ line, s.registry.callOf? t = some (.creating c line) → s.Serves refusal t c line ms) ∧
        ∀ r, s.registry.callOf? t = some (.leaving r) →
          ∃ f, s.step (.leave t) = some f ∧ f.reply = some r := by
  refine ⟨fun refusal => Pool.unwound_iff,?_,?_⟩
  · intro conduct id b refusal
    refine ⟨fun failure lines hfailed => Pool.outcome_of_create hfailed refusal,?_⟩
    intro p₀ lines hbegun masks x hr hms
    obtain ⟨-,rfl⟩ := Pool.eq_blank_of_create hbegun
    have h₀ : Pool.Fresh c.threads (Pool.blank id c.threads b : Pool J V) := ⟨_,_,_,_,hbegun⟩
    have ht := fun μ hμ => (hms μ hμ).1
    have hd : (Driver.configured m c).Harmless := (Driver.configured_returns m c).harmless
    refine ⟨hr.pool.threads_eq h₀,?_,?_⟩
    · intro huntold
      exact hr.untold hd h₀ ht huntold refusal
    · intro htold
      exact hr.pool.told_outcome h₀ ht (hr.harmless hd) (fun μ hμ => (hms μ hμ).2) htold
  · intro refusal ms s hr ha t
    refine ⟨fun hc hl => Estate.exists_enter hc hl,?_,fun r hc => Estate.exists_leave hc⟩
    intro line hc
    exact ⟨hr.goes_on hc refusal,fun e f h he => hr.comes_back ha hc h he⟩

/-- The second of two workers is refused while the first, whom the machine has no cores for, is parked.
A registry, whose first request was refused, hands a pool of two to the thread that waited for the
lock. -/
theorem creation_returns_refused :
    ∃ (x : Rig Nat Nat) (ms : List (Estate.Moment Nat Nat)) (s : Estate Nat Nat)
      (f : Estate.Effect Nat Nat),
      Rig.Run (.configured .single (.withThreads 2)) Rig.restless
          (.opened (Pool.blank 0 2 (.client 0)) fun _ => [0]) x ∧
        Pool.answers x.moments = [none, some (.numbered 11)] ∧
        Pool.verdicts x.moments = [.error (.refused (.os (.numbered 11)))] ∧
        Estate.Run ms s ∧ s.step (.pool 1 (.spawn (.client 1) none)) = some f ∧
        f.estate.registry.callOf? (.client 1) = some (.leaving (.pool ⟨1,2⟩)) ∧
        f.estate.Stands 1 fun p => p.workers.length = 2 := by
  have hrig : (List.foldlM (Rig.step (.configured .single (.withThreads 2)) Rig.restless)
      (.opened (Pool.blank 0 2 (.client 0)) fun _ => [0]) [.pool (.spawn (.client 0) none), .start 0,
        .pool (.claim 0), .pool (.spawn (.client 0) (some (.numbered 11))),
        .pool (.proceed (.client 0)), .pool (.proceed (.client 0)), .pool (.claim 0),
        .pool (.proceed (.client 0)), .pool (.proceed (.client 0))]).any (fun x =>
          decide ((∀ μ ∈ x.moments, μ.Timely ∧
              μ.AnsweredBy fun k => if k = 1 then some (.numbered 11) else none) ∧
            Pool.answers x.moments = [none, some (.numbered 11)] ∧
            (Pool.verdicts x.moments).isEmpty = false)) = true := by
    decide +kernel
  have hestate : Estate.Leads [.ask (.client 0) (.setUp (.withThreads 2)), .enter (.client 0),
      .found (.client 0) "native", .pool 0 (.spawn (.client 0) (some (.numbered 11))),
      .ask (.client 1) (.setUp (.withThreads 2)), .pool 0 (.proceed (.client 0)),
      .pool 0 (.proceed (.client 0)), .pool 0 (.proceed (.client 0)), .leave (.client 0),
      .enter (.client 1), .found (.client 1) "native", .pool 1 (.spawn (.client 1) none)]
      fun (ms : List (Estate.Moment Nat Nat)) s =>
    (∀ μ ∈ ms, μ.AnsweredBy fun i _ => if i = 0 then some (.numbered 11) else none) ∧
      Estate.Event.AnsweredBy (fun i _ => if i = 0 then some (.numbered 11) else none) s
        (.pool 1 (.spawn (.client 1) none)) ∧
      (s.registry.callOf? (.client 1)).bind Registry.Call.config? = some (.withThreads 2) ∧
      (s.step (.pool 1 (.spawn (.client 1) none))).any (fun f => decide
        ((f.estate.registry.callOf? (.client 1)).bind Registry.Call.reply? =
          some (.pool ⟨1,2⟩))) = true := by
    decide +kernel
  obtain ⟨x,hreplay,hx⟩ := (Option.any_eq_true _ _).mp hrig
  obtain ⟨hmoments,hanswers,htold⟩ := of_decide_eq_true hx
  obtain ⟨ms,s,hr,ha,he,hbuilding,hleaving⟩ := hestate.run
  obtain ⟨f,hf,hleft⟩ := (Option.any_eq_true _ _).mp hleaving
  obtain ⟨rc,hrc,hcreating⟩ := Option.bind_eq_some_iff.mp hbuilding
  obtain ⟨rc',hrc',hpool⟩ := Option.bind_eq_some_iff.mp (of_decide_eq_true hleft)
  obtain ⟨-,hdirect,hregistry⟩ := creation_returns (J := Nat) (V := Nat) .single (.withThreads 2)
  have hrun := Rig.run_of_foldlM hreplay
  obtain ⟨hverdicts,-⟩ := ((hdirect _ 0 (.client 0) _).2 _ _ rfl _ x hrun hmoments).2.2
    (List.isEmpty_eq_false_iff.mp htold)
  cases rc with
  | creating config line =>
    cases hcreating
    cases rc' with
    | leaving r =>
      cases hpool
      have hstands : f.estate.Stands 1 fun p => p.workers.length = 2 := by
        rcases ((hregistry _ ms s hr ha (.client 1)).2.1 line hrc).comes_back _ f hf he with
          hsame | ⟨i,hmade,hfull⟩
        · rw [hrc'] at hsame
          cases hsame
        · rw [hrc'] at hmade
          generalize Pool.outcome _ _ = o at hmade hfull
          cases o with
          | ok =>
            cases hmade
            exact hfull rfl
          | error => cases hmade
      exact ⟨x,ms,s,f,hrun,hanswers,hverdicts,hr,hf,hrc',hstands⟩
    | entering | creating | stopping => cases hpool
  | entering | stopping | leaving => cases hcreating

/-- A text that can be read asks for more workers than any list could hold the handles of. The request
for the pool unwinds then, by itself as well as through a registry. -/
theorem creation_overflows :
    Config.ofString "\x7b\"threads\":384307168202282326\x7d" =
        .ok (.withThreads 384307168202282326) ∧
      (∀ backend, (Pool.create 0 384307168202282326 backend (.client 0) : Pool.Opening Nat Nat) =
        .failed (.unwound "capacity overflow") [.creating 384307168202282326 backend]) ∧
      ∃ (r : List (Estate.Moment Nat Nat) × Estate Nat Nat) (f : Estate.Effect Nat Nat),
        Estate.replay [] .empty [.ask (.client 0) (.setUp (.withThreads 384307168202282326)),
            .enter (.client 0), .found (.client 0) "native"] = some r ∧
          r.2.step (.leave (.client 0)) = some f ∧
          f.reply = some (.failed (.unwound "capacity overflow")) := by
  have hread : (Config.ofString "\x7b\"threads\":384307168202282326\x7d").toOption =
      some (.withThreads 384307168202282326) := by
    decide +kernel
  have hestate : Estate.Leads [.ask (.client 0) (.setUp (.withThreads 384307168202282326)),
      .enter (.client 0), .found (.client 0) "native"]
      fun (_ : List (Estate.Moment Nat Nat)) s => (s.step (.leave (.client 0))).any (fun f =>
        decide (f.reply = some (.failed (.unwound "capacity overflow")))) = true := by
    decide +kernel
  obtain ⟨r,hreplay,hleave⟩ := hestate
  obtain ⟨f,hf,hreply⟩ := (Option.any_eq_true _ _).mp hleave
  refine ⟨?_,fun backend => ?_,r,f,hreplay,hf,of_decide_eq_true hreply⟩
  · generalize Config.ofString _ = read at hread
    cases read with
    | ok c =>
      cases hread
      rfl
    | error => cases hread
  · unfold Pool.create
    rw [if_neg (by decide), if_pos (Pool.overflow_iff.mpr (Nat.le_refl _))]

end PinnedPool
