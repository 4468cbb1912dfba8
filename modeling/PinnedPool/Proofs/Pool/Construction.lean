import PinnedPool.Proofs.Pool.Barrier
import PinnedPool.Proofs.Pool.Building
import PinnedPool.Proofs.Pool.Standstill

/-! # How a pool is built

The builder asks the system for one worker after the other. When all have been started the pool
stands; at the first refusal the builder stops those that run already and joins them all, and asks for
no more, if what a worker may have died of can be dropped. Meanwhile the workers go about their business, but nobody else can call the pool. Each step
uses something up, but for a wakeup without a signal, and there is always a step to take.
-/
namespace PinnedPool

variable {J V : Type}

/-- What the end of a construction means for whoever asked for the pool. -/
def Reply.verdict? : Reply → Option (Except Failure Unit)
  | built => some (.ok ())
  | notBuilt e => some (.error (.refused (.os e)))
  | accepted _ | stopped | done | unwound _ => none

def Worker.isStarting : Worker J → Bool
  | starting => true
  | _ => false

/-- The steps that a worker without a task can take before it is over. -/
def Worker.legs (s : Worker J) : Nat := s.isStarting.toNat + s.isAwake.toNat + (!s.ended).toNat

/-- The steps that are left to the builder of a pool of `n` workers, besides the requests. -/
def Call.effort (n : Nat) : Call J → Nat
  | build => 2 * n + 4
  | raise _ => 2 * n + 3
  | wake _ => 2 * n + 2
  | join _ next => n + 1 - next
  | append _ _ | notify _ | await | parked | enter => 0

namespace Pool

def Moment.answer? (m : Moment J V) : Option (Option Os.Error) :=
  match m.event with
  | .spawn _ refusal => some refusal
  | _ => none

def Moment.verdict? (m : Moment J V) : Option (Except Failure Unit) :=
  m.effect.reply.bind Reply.verdict?

def answers (ms : List (Moment J V)) : List (Option Os.Error) := ms.filterMap Moment.answer?

def verdicts (ms : List (Moment J V)) : List (Except Failure Unit) := ms.filterMap Moment.verdict?

theorem answers_snoc (ms : List (Moment J V)) (m : Moment J V) :
    answers (ms ++ [m]) = answers ms ++ m.answer?.toList := by
  rw [answers, List.filterMap_append]
  exact congrArg _ (filterMap_singleton _ m)

theorem verdicts_snoc (ms : List (Moment J V)) (m : Moment J V) :
    verdicts (ms ++ [m]) = verdicts ms ++ m.verdict?.toList := by
  rw [verdicts, List.filterMap_append]
  exact congrArg _ (filterMap_singleton _ m)

/-- How far the builder has come in bringing down what it has begun, and whom it has joined. -/
inductive Retreat (e : Os.Error) (started : Nat) : Call J → List Nat → Prop
  | raise : Retreat e started (.raise (.refused e)) []
  | wake : Retreat e started (.wake (.refused e)) []
  | join {next} (le : next ≤ started) :
    Retreat e started (.join (.refused e) next) (List.range next)

/-- How far the construction of a pool of `n` workers by `b` has come. -/
inductive Construction (n : Nat) (b : ThreadId) (ms : List (Moment J V)) (p : Pool J V) : Prop
  | building (call : p.callOf? b = some .build) (short : p.workers.length < n)
      (answered : answers ms = List.replicate p.workers.length none) (untold : verdicts ms = [])
      (joined : joins ms = [])
  | stands (full : p.workers.length = n) (answered : answers ms = List.replicate n none)
      (told : verdicts ms = [.ok ()])
  | failing {e c} (call : p.callOf? b = some c) (retreat : Retreat e p.workers.length c (joins ms))
      (short : p.workers.length < n)
      (answered : answers ms = List.replicate p.workers.length none ++ [some e])
      (untold : verdicts ms = [])
  | failed {e} (gone : p.Over) (short : p.workers.length < n)
      (answered : answers ms = List.replicate p.workers.length none ++ [some e])
      (told : verdicts ms = [.error (.refused (.os e))])
      (joined : joins ms = List.range p.workers.length)

/-- What the builder of a pool can do next in its call. -/
inductive Move (p : Pool J V) (b : ThreadId) : Call J → Event J V → Effect J V → Prop
  | start (more : p.workers.length + 1 < p.threads) :
    Move p b .build (.spawn b none) { pool := { p with workers := p.workers ++ [.starting] } }
  | startLast (last : p.threads ≤ p.workers.length + 1) :
    Move p b .build (.spawn b none)
      (endWith { p with workers := p.workers ++ [.starting] } b [] .built)
  | startRefused (e : Os.Error) :
    Move p b .build (.spawn b (some e))
      { pool := p.setCall b (.raise (.refused e)), lines := [.spawnFailed p.workers.length e] }
  | raise {e} :
    Move p b (.raise (.refused e)) (.proceed b)
      { pool := { p with stopping := true }.setCall b (.wake (.refused e)) }
  | wake {e} :
    Move p b (.wake (.refused e)) (.proceed b)
      { pool := p.wakeWorkers.setCall b (.join (.refused e) 0) }
  | join {e next lines} (started : next < p.workers.length) :
    Move p b (.join (.refused e) next) (.proceed b)
      { pool := p.setCall b (.join (.refused e) (next + 1)), lines := lines }
  | giveUp {e next} (last : p.workers.length ≤ next) :
    Move p b (.join (.refused e) next) (.proceed b) (endWith p b [] (.notBuilt e))
  | burst {e next q r} (killed : p.workers[next]? = some (.killed q)) (burst : q.burst? = some r) :
    Move p b (.join (.refused e) next) (.proceed b) (endWith p b [] (.unwound r))

theorem Retreat.builds {e : Os.Error} {k : Nat} {c : Call J} {done : List Nat}
    (h : Retreat e k c done) : c.builds = true := by
  cases h <;> rfl

section Step
variable {p : Pool J V} {e : Event J V} {f : Effect J V} (h : p.step e = some f)
include h

/-- Where nobody builds, no worker is asked for and no construction ends. -/
theorem inert_step (hno : ∀ t c, p.callOf? t = some c → c.builds = false) :
    Moment.answer? ⟨p,e,f⟩ = none ∧ Moment.verdict? ⟨p,e,f⟩ = none ∧
      f.pool.workers.length = p.workers.length := by
  have hlen : f.pool.workers.length = p.workers.length := by
    rcases growth h with hlen | ⟨t,-,hc,-⟩
    · exact hlen
    · cases hno t _ hc
  cases transition h with
  | start hc | startLast hc | startRefused _ hc | giveUp hc | giveUpBurst hc => cases hno _ _ hc
  | finish =>
    refine ⟨rfl,?_,hlen⟩
    rw [Moment.verdict?, finish_reply]
    rfl
  | call | signal | signalNobody | refuse | append | observe | wait | raise | wakeRefused
  | wakeOwn | wakeOutside | enter | enterGone | joinLeft | joinKilled | destroy | joinBurst
  | pin | pinKilled | take | leave | park | stir | stirWaiter | free => exact ⟨rfl,rfl,hlen⟩

theorem uncalled_step (he : e.caller? = none) :
    Moment.answer? ⟨p,e,f⟩ = none ∧ Moment.verdict? ⟨p,e,f⟩ = none ∧
      Moment.joined? ⟨p,e,f⟩ = none ∧ f.pool.workers.length = p.workers.length ∧
      ∀ t c, p.callOf? t = some c → c.builds = true → f.pool.callOf? t = some c := by
  have hcall : ∀ t c, p.callOf? t = some c → c.builds = true → f.pool.callOf? t = some c := by
    intro t c hc hb
    rcases callOf?_step h (u := t) (by simp [he]) with hs | hs
    · rw [hs, hc]
    · rw [hs, hc]
      cases c <;> first | rfl | cases hb
  have hlen : f.pool.workers.length = p.workers.length := by
    rcases growth h with hlen | ⟨t,ht,-⟩
    · exact hlen
    · rw [he] at ht
      cases ht
  cases transition h with
  | finish =>
    refine ⟨rfl,?_,rfl,hlen,hcall⟩
    rw [Moment.verdict?, finish_reply]
    rfl
  | pin | pinKilled | take | leave | park | stir | free => exact ⟨rfl,rfl,rfl,hlen,hcall⟩
  | call | start | startLast | startRefused | signal | signalNobody | refuse | append | observe
  | wait | raise | wakeRefused | wakeOwn | wakeOutside | enter | enterGone | joinLeft
  | joinKilled | destroy | joinBurst | giveUp | giveUpBurst | stirWaiter => cases he

/-- Whoever steps in a pool that does not stand yet is in a call. -/
theorem exists_call (ht : Moment.Timely ⟨p,e,f⟩) (hn : ¬p.Standing) {t : ThreadId}
    (he : e.caller? = some t) : ∃ c, p.callOf? t = some c := by
  cases transition h with
  | call => exact absurd (ht rfl) hn
  | start hc | startLast hc | startRefused _ hc | signal hc | signalNobody hc | refuse hc
  | append hc | observe hc | wait hc | raise hc | wakeRefused hc | wakeOwn hc | wakeOutside hc
  | enter hc | enterGone hc | joinLeft hc | joinKilled hc | destroy hc | joinBurst hc
  | giveUp hc | giveUpBurst hc | stirWaiter hc =>
    cases he
    exact ⟨_,hc⟩
  | pin | pinKilled | take | leave | park | finish | stir | free => cases he

theorem caller_of_builder (ht : Moment.Timely ⟨p,e,f⟩) (hr : p.Reserved) {b : ThreadId} {c : Call J}
    (hc : p.callOf? b = some c) (hb : c.builds = true) :
    e.caller? = none ∨ e.caller? = some b := by
  cases he : e.caller? with
  | none => exact .inl rfl
  | some t =>
    obtain ⟨d,hd⟩ := exists_call h ht (hr.not_standing hc hb) he
    exact .inr (congrArg some (hr.alone hc hb hd))

theorem move_of_builder {b : ThreadId} {c : Call J} (he : e.caller? = some b)
    (hc : p.callOf? b = some c) (hb : c.builds = true) : Move p b c e f := by
  have hself : ∀ {d}, p.callOf? b = some d → d = c := fun hd => Option.some.inj (hd.symm.trans hc)
  -- every other call is one that a builder is not in
  cases transition h with
  | start hd more =>
    cases he
    obtain rfl := hself hd
    exact .start more
  | startLast hd last =>
    cases he
    obtain rfl := hself hd
    exact .startLast last
  | startRefused e hd =>
    cases he
    obtain rfl := hself hd
    exact .startRefused e
  | @raise _ why hd =>
    cases he
    obtain rfl := hself hd
    cases why with
    | refused => exact .raise
    | shutdown => cases hb
  | @joinLeft _ why _ hd hw | @joinKilled _ why _ _ hd hw =>
    cases he
    obtain rfl := hself hd
    cases why with
    | refused => exact .join (List.getElem?_eq_some_iff.mp hw).1
    | shutdown => cases hb
  | wakeRefused hd =>
    cases he
    obtain rfl := hself hd
    exact .wake
  | giveUp hd last =>
    cases he
    obtain rfl := hself hd
    exact .giveUp (List.getElem?_eq_none_iff.mp last)
  | giveUpBurst hd hw hq =>
    cases he
    obtain rfl := hself hd
    exact .burst hw hq
  | call idle =>
    cases he
    rw [hc] at idle
    cases idle
  | signal hd | signalNobody hd | refuse hd | append hd | observe hd | wait hd | wakeOwn hd
  | wakeOutside hd | enter hd | enterGone hd | destroy hd | joinBurst hd | stirWaiter hd =>
    cases he
    obtain rfl := hself hd
    cases hb
  | pin | pinKilled | take | leave | park | finish | stir | free => cases he

end Step

section Step
variable {n : Nat} {b : ThreadId} {ms : List (Moment J V)} {p : Pool J V} {e : Event J V}
  {f : Effect J V} (h : p.step e = some f) (ht : Moment.Timely ⟨p,e,f⟩) (hg : p.Guarded)
include h ht hg

theorem building_step (hn : p.threads = n) (hc : p.callOf? b = some .build)
    (hshort : p.workers.length < n) (hanswers : answers ms = List.replicate p.workers.length none)
    (hverdicts : verdicts ms = []) (hjoins : joins ms = []) :
    Construction n b (ms ++ [⟨p,e,f⟩]) f.pool := by
  rcases caller_of_builder h ht hg.reserved hc rfl with he | he
  · obtain ⟨ha,hv,hj,hlen,hcall⟩ := uncalled_step h he
    refine .building (hcall b _ hc rfl) (hlen ▸ hshort) ?_ ?_ ?_
    · rw [answers_snoc, hanswers, ha, hlen, Option.toList_none, List.append_nil]
    · rw [verdicts_snoc, hverdicts, hv]
      rfl
    · rw [joins_snoc, hjoins, hj]
      rfl
  · cases move_of_builder h he hc rfl with
    | start hmore =>
      refine .building hc (by simpa using hn ▸ hmore) ?_ ?_ ?_
      · rw [answers_snoc, hanswers, List.length_append, List.length_singleton,
          List.replicate_succ']
        rfl
      · rw [verdicts_snoc, hverdicts]
        rfl
      · rw [joins_snoc, hjoins]
        rfl
    | startLast hlast =>
      have hfull : p.workers.length + 1 = n := by omega
      refine .stands (by simpa [endWith, endCall] using hfull) ?_ ?_
      · rw [answers_snoc, hanswers, ← hfull, List.replicate_succ']
        rfl
      · rw [verdicts_snoc, hverdicts]
        rfl
    | startRefused e =>
      refine .failing (e := e) (callOf?_setCall_self ..) ?_ hshort ?_ ?_
      · rw [joins_snoc, hjoins]
        exact .raise
      · rw [answers_snoc, hanswers]
        rfl
      · rw [verdicts_snoc, hverdicts]
        rfl

/-- The builder raises the flag, wakes the workers, joins one after the other, and gives up. -/
theorem failing_step (hj : p.Joinable) {err : Os.Error} {c : Call J} (hc : p.callOf? b = some c)
    (hretreat : Retreat err p.workers.length c (joins ms)) (hshort : p.workers.length < n)
    (hanswers : answers ms = List.replicate p.workers.length none ++ [some err])
    (hverdicts : verdicts ms = []) : Construction n b (ms ++ [⟨p,e,f⟩]) f.pool := by
  have hanswers' : Moment.answer? ⟨p,e,f⟩ = none →
      answers (ms ++ [⟨p,e,f⟩]) = List.replicate p.workers.length none ++ [some err] := by
    intro ha
    rw [answers_snoc, hanswers, ha, Option.toList_none, List.append_nil]
  have hverdicts' : Moment.verdict? ⟨p,e,f⟩ = none → verdicts (ms ++ [⟨p,e,f⟩]) = [] := by
    intro hv
    rw [verdicts_snoc, hverdicts, hv]
    rfl
  rcases caller_of_builder h ht hg.reserved hc hretreat.builds with he | he
  · obtain ⟨ha,hv,hj,hlen,hcall⟩ := uncalled_step h he
    refine .failing (hcall b _ hc hretreat.builds) ?_ (hlen ▸ hshort) (hlen ▸ hanswers' ha)
      (hverdicts' hv)
    rw [joins_snoc, hj, hlen, Option.toList_none, List.append_nil]
    exact hretreat
  · have hover := builder_step h hg hj hc hretreat.builds
    have hmove := move_of_builder h he hc hretreat.builds
    generalize hdone : joins ms = done at hretreat
    cases hretreat with
    | raise =>
      cases hmove
      refine .failing (callOf?_setCall_self ..) ?_ hshort (hanswers' rfl) (hverdicts' rfl)
      rw [joins_snoc, hdone]
      simp only [Moment.joined?, hc]
      exact .wake
    | wake =>
      cases hmove
      have hlen : p.wakeWorkers.workers.length = p.workers.length := by simp [wakeWorkers]
      refine .failing (e := err) (callOf?_setCall_self ..) ?_ (hlen ▸ hshort) ?_ (hverdicts' rfl)
      · rw [joins_snoc, hdone]
        simp only [Moment.joined?, hc]
        exact .join (Nat.zero_le _)
      · exact hlen ▸ hanswers' rfl
    | @join next hle =>
      cases hmove with
      | join hlt =>
        refine .failing (callOf?_setCall_self ..) ?_ hshort (hanswers' rfl) (hverdicts' rfl)
        rw [joins_snoc, hdone]
        simp only [Moment.joined?, hc, if_pos hlt]
        have hrange : List.range next ++ (some next).toList = List.range (next + 1) :=
          List.range_succ.symm
        rw [hrange]
        exact .join hlt
      | giveUp hge =>
        have hnext : next = p.workers.length := Nat.le_antisymm hle hge
        have hend : Over (p.endCall b) := by
          rcases hover with ⟨c',hc',-⟩ | ⟨-,⟨hr,-⟩ | ⟨_,-,ho⟩⟩
          · dsimp only [endWith] at hc'
            rw [callOf?_endCall, if_pos rfl] at hc'
            cases hc'
          · cases hr
          · exact ho
        refine .failed hend hshort (hanswers' rfl) ?_ ?_
        · rw [verdicts_snoc, hverdicts]
          rfl
        · rw [joins_snoc, hdone]
          simp only [Moment.joined?, hc, if_neg (Nat.not_lt.mpr hge)]
          rw [hnext]
          exact List.append_nil _
      | burst hw hq =>
        rw [hj.burst?_eq_none hw] at hq
        cases hq

theorem construction_step (hj : ¬p.Standing → p.Joinable) (hn : p.threads = n)
    (hcon : Construction n b ms p) : Construction n b (ms ++ [⟨p,e,f⟩]) f.pool := by
  cases hcon with
  | building hc hshort ha hv hj => exact building_step h ht hg hn hc hshort ha hv hj
  | failing hc hretreat hshort ha hv =>
    have hjoinable := hj (hg.reserved.not_standing hc hretreat.builds)
    exact failing_step h ht hg hjoinable hc hretreat hshort ha hv
  | stands hfull ha hv =>
    have hs : p.Standing := by
      unfold Standing
      omega
    obtain ⟨ha',hv',hlen⟩ := inert_step h fun t c hc => hg.reserved.builds hc hs
    refine .stands (hlen.trans hfull) ?_ ?_
    · rw [answers_snoc, ha, ha']
      exact List.append_nil _
    · rw [verdicts_snoc, hv, hv']
      rfl
  | @failed err hover hshort ha hv hj =>
    obtain ⟨ha',hv',hlen⟩ := inert_step h hover.2
    have hj' : Moment.joined? ⟨p,e,f⟩ = none := by
      refine Option.eq_none_iff_forall_ne_some.mpr ?_
      intro i hi
      -- whoever joins a worker builds the pool, since it does not stand
      obtain ⟨t,why,hc,-⟩ := joined?_eq_some h hi
      have hs := hg.reserved.standing hc (hover.2 t _ hc)
      unfold Standing at hs
      omega
    refine .failed (e := err) (over_step h hover) (hlen ▸ hshort) ?_ ?_ ?_
    · rw [answers_snoc, ha, ha', hlen]
      exact List.append_nil _
    · rw [verdicts_snoc, hv, hv']
      rfl
    · rw [joins_snoc, hj, hj', hlen]
      exact List.append_nil _

end Step

theorem Run.construction {id n : Nat} {b : ThreadId} {p : Pool J V} {ms : List (Moment J V)}
    (hn : 0 < n) (h₀ : Fresh n (blank id n b : Pool J V)) (hr : Run (blank id n b) ms p)
    (ht : ∀ m ∈ ms, m.Timely) (hh : ∀ m ∈ ms, m.Harmless) : Construction n b ms p := by
  induction hr with
  | start =>
    refine .building ?_ hn rfl rfl rfl
    simp [blank, callOf?]
  | step hr h ih =>
    have ht' := fun m hm => ht m (List.mem_append_left _ hm)
    have hh' := fun m hm => hh m (List.mem_append_left _ hm)
    have hlast := ht _ (List.mem_append_right _ (List.mem_singleton_self _))
    exact construction_step h hlast (hr.guarded h₀ ht') (hr.joinable h₀ ht' hh')
      (hr.threads_eq h₀) (ih ht' hh')

/-! ## No construction goes on for ever -/

def Event.isStir : Event J V → Bool
  | .stir _ => true
  | _ => false

def stirs (ms : List (Moment J V)) : Nat := ms.countP fun m => m.event.isStir

/-- The steps that workers without a task can take: three from the start, two to look for a task, and
one to be over once they are woken. -/
def legs (p : Pool J V) : Nat :=
  p.workers.countP Worker.isStarting + p.workers.countP Worker.isAwake +
    p.workers.countP fun s => !s.ended

/-- The steps that are left in the construction of a pool of `n` workers by `b`, at most. Whoever
wakes the workers makes up for the step that each of them gets. -/
def effort (n : Nat) (b : ThreadId) (p : Pool J V) : Nat :=
  4 * (n - p.workers.length) + p.legs + ((p.callOf? b).map (Call.effort n)).getD 0

theorem effort_eq (n : Nat) {b : ThreadId} {p : Pool J V} {c : Call J} (hc : p.callOf? b = some c) :
    p.effort n b = 4 * (n - p.workers.length) + p.legs + c.effort n := by
  unfold effort
  rw [hc]
  rfl

theorem legs_setWorker {p : Pool J V} {w : Nat} {a : Worker J} (hw : p.workers[w]? = some a)
    (s : Worker J) : (p.setWorker w s).legs + a.legs = p.legs + s.legs := by
  have hstarting := countP_set_add Worker.isStarting (b := s) hw
  have hawake := countP_set_add Worker.isAwake (b := s) hw
  have hended := countP_set_add (fun s : Worker J => !s.ended) (b := s) hw
  unfold legs Worker.legs setWorker
  dsimp only
  omega

theorem legs_start (p : Pool J V) :
    legs { p with workers := p.workers ++ [.starting] } = p.legs + 3 := by
  simp only [legs, List.countP_append, countP_singleton_toNat, Worker.isStarting, Worker.isAwake,
    Worker.ended, Bool.not_false, Bool.toNat_true]
  omega

theorem legs_wakeWorkers_le (p : Pool J V) : p.wakeWorkers.legs ≤ p.legs + p.workers.length := by
  have hstarting : p.wakeWorkers.workers.countP Worker.isStarting =
      p.workers.countP Worker.isStarting := by
    rw [wakeWorkers, List.countP_map]
    exact List.countP_congr fun s _ => by cases s <;> simp [Worker.wake, Worker.isStarting]
  have hended : (p.wakeWorkers.workers.countP fun s => !s.ended) =
      p.workers.countP fun s => !s.ended := by
    rw [wakeWorkers, List.countP_map]
    exact List.countP_congr fun s _ => by cases s <;> simp [Worker.wake, Worker.ended]
  have hawake : p.wakeWorkers.workers.countP Worker.isAwake ≤ p.workers.length := by
    have hle := List.countP_le_length (p := Worker.isAwake) (l := p.wakeWorkers.workers)
    simpa [wakeWorkers] using hle
  unfold legs
  omega

/-- A pool that nobody could call yet has no work. -/
structure Unused (p : Pool J V) : Prop where
  empty : p.queue.tasks = []
  free : ∀ s ∈ p.workers, s.task? = none

section Step
variable {p : Pool J V} {e : Event J V} {f : Effect J V} (h : p.step e = some f)
include h

theorem legs_step (he : e.caller? = none) (hu : p.Unused) {b : ThreadId} {c : Call J}
    (hc : p.callOf? b = some c) : f.pool.legs + 1 ≤ p.legs + 2 * e.isStir.toNat := by
  have hdrop : ∀ {w a s}, p.workers[w]? = some a → s.legs < a.legs →
      (p.setWorker w s).legs + 1 ≤ p.legs := by
    intro w a s hw hlt
    have hset := legs_setWorker hw s
    omega
  cases transition h with
  | pin hw | pinKilled _ hw | leave hw | park hw =>
    exact hdrop hw (by simp [Worker.legs, Worker.isStarting, Worker.isAwake, Worker.ended])
  | stir hw =>
    have hset := legs_setWorker hw .ready
    simp only [Worker.legs, Worker.isStarting, Worker.isAwake, Worker.ended, Bool.toNat_true,
      Bool.toNat_false, Bool.not_false] at hset
    simp only [Event.isStir, Bool.toNat_true]
    omega
  | take _ hp =>
    rw [Queue.pop?_eq_none_iff.mpr hu.empty] at hp
    cases hp
  | finish hw => cases hu.free _ (List.mem_of_getElem? hw)
  | free hquiet => simp [callOf?, hquiet] at hc
  | call | start | startLast | startRefused | signal | signalNobody | refuse | append | observe
  | wait | raise | wakeRefused | wakeOwn | wakeOutside | enter | enterGone | joinLeft
  | joinKilled | destroy | joinBurst | giveUp | giveUpBurst | stirWaiter => cases he

theorem builder_effort {n : Nat} (hn : p.threads = n) {b : ThreadId} {c c' : Call J}
    (he : e.caller? = some b) (hc : p.callOf? b = some c) (hb : c.builds = true)
    (hc' : f.pool.callOf? b = some c') (hshort : p.workers.length < n) :
    f.pool.effort n b < p.effort n b := by
  have hnext : ∀ {q : Pool J V} {d}, (q.setCall b d).effort n b =
      4 * (n - q.workers.length) + q.legs + d.effort n := fun {q d} =>
    effort_eq n (callOf?_setCall_self q b d)
  have hgone : ∀ {q : Pool J V}, (q.endCall b).callOf? b ≠ some c' := by
    intro q hq
    rw [callOf?_endCall, if_pos rfl] at hq
    cases hq
  rw [effort_eq n hc]
  cases move_of_builder h he hc hb with
  | start hmore =>
    have hmove : callOf? { p with workers := p.workers ++ [.starting] } b = some .build := hc
    rw [effort_eq n hmove, legs_start]
    simp only [List.length_append, List.length_singleton]
    omega
  | startRefused =>
    rw [hnext]
    simp only [Call.effort]
    omega
  | raise =>
    have hlegs : legs { p with stopping := true } = p.legs := rfl
    rw [hnext]
    simp only [Call.effort, hlegs]
    omega
  | wake =>
    have hlegs := p.legs_wakeWorkers_le
    have hlen : p.wakeWorkers.workers.length = p.workers.length := by simp [wakeWorkers]
    rw [hnext, hlen]
    simp only [Call.effort]
    omega
  | join hlt =>
    rw [hnext]
    simp only [Call.effort]
    omega
  | startLast | giveUp | burst => exact absurd hc' hgone

/-- Every step of a construction uses one up, but a wakeup without a signal gives one back. -/
theorem effort_step (ht : Moment.Timely ⟨p,e,f⟩) (hg : p.Guarded) {n : Nat} (hn : p.threads = n)
    (hu : p.Unused) {b : ThreadId} {c c' : Call J} (hc : p.callOf? b = some c)
    (hb : c.builds = true) (hc' : f.pool.callOf? b = some c') :
    f.pool.effort n b + 1 ≤ p.effort n b + 2 * e.isStir.toNat := by
  rcases caller_of_builder h ht hg.reserved hc hb with he | he
  · obtain ⟨-,-,-,hlen,hcall⟩ := uncalled_step h he
    have hlegs := legs_step h he hu hc
    rw [effort_eq n hc, effort_eq n (hcall b c hc hb), hlen]
    omega
  · have hshort : p.workers.length < n := by
      have hs := hg.reserved.not_standing hc hb
      unfold Standing at hs
      omega
    have hlt := builder_effort h hn he hc hb hc' hshort
    omega

end Step

section Runs
variable {n : Nat} {p₀ p : Pool J V} {ms : List (Moment J V)} (h₀ : Fresh n p₀) (hr : Run p₀ ms p)
  (ht : ∀ m ∈ ms, m.Timely)
include h₀ hr ht

theorem Run.unused (hn : ¬p.Standing) : p.Unused := by
  have hnone : ∀ task, task ∉ accepted ms := fun task ha => hn (hr.standing_of_accepted h₀ ht ha)
  constructor
  · refine List.eq_nil_iff_forall_not_mem.mpr ?_
    intro task hq
    exact hnone task (hr.mem_accepted_of_queued h₀ hq)
  · intro s hs
    obtain ⟨w,hw⟩ := List.getElem?_of_mem hs
    cases s with
    | running task ticket =>
      exact absurd (hr.mem_accepted_of_claim h₀ (hr.claim_of_running h₀ hw)) (hnone task)
    | starting | ready | parked | left | killed => rfl

omit h₀ in
theorem Run.uncalled (hn : ¬p.Standing) : ∀ m ∈ ms, m.event.isCall = false := by
  induction hr with
  | start => exact fun _ hm => nomatch hm
  | @step ms p e f hr h ih =>
    have hbefore : ¬p.Standing := fun hs => hn (standing_step h hs)
    intro m hm
    rcases List.mem_append.mp hm with hm' | hm'
    · exact ih (fun m hm => ht m (List.mem_append_left _ hm)) hbefore m hm'
    · rw [List.mem_singleton.mp hm']
      refine Bool.eq_false_iff.mpr fun hcall => hbefore ?_
      exact ht ⟨p,e,f⟩ (List.mem_append_right _ (List.mem_singleton_self _)) hcall

/-- As long as a pool is being built, somebody can go on with it. -/
theorem Run.not_stuck {b : ThreadId} {c : Call J} (hc : p.callOf? b = some c)
    (hb : c.builds = true) : ∃ e f, e.isProgress = true ∧ p.step e = some f := by
  have hn := (hr.reserved h₀ ht).not_standing hc hb
  have hquiet : ∀ m ∈ ms, m.Unblocking := by
    intro m hm t hwait
    have hcall := hr.uncalled ht hn m hm
    cases he : m.event with
    | call u r =>
      rw [he] at hcall
      cases hcall
    | spawn | notify | proceed | pin | claim | finish | stir | stirWaiter | free =>
      rw [he] at hwait
      cases hwait
  -- if nobody could, everybody would be out of the pool, and the builder with them
  refine Classical.byContradiction fun hno => ?_
  have hstuck : p.Stuck := by
    intro e he
    refine Option.eq_none_iff_forall_ne_some.mpr fun f h => hno ⟨e,f,he,h⟩
  have hcalls := hr.calls_of_stuck h₀ ht hstuck hquiet (hr.unused h₀ ht hn).empty
  simp [callOf?, hcalls] at hc

end Runs

theorem Run.effort_le {id n : Nat} {b : ThreadId} {p : Pool J V} {ms : List (Moment J V)}
    (h₀ : Fresh n (blank id n b : Pool J V)) (hr : Run (blank id n b) ms p)
    (ht : ∀ m ∈ ms, m.Timely) {c : Call J} (hc : p.callOf? b = some c) (hb : c.builds = true) :
    ms.length + p.effort n b ≤ 6 * n + 4 + 2 * stirs ms := by
  -- whoever builds now has been building all the time, so each step has its price
  induction hr generalizing c with
  | start =>
    rw [(callOf?_blank hc).2] at hc
    rw [effort_eq n hc]
    simp only [blank, legs, Call.effort, List.countP_nil, List.length_nil]
    omega
  | @step ms p e f hr h ih =>
    have ht' := fun m hm => ht m (List.mem_append_left _ hm)
    have hlast := ht _ (List.mem_append_right _ (List.mem_singleton_self _))
    have hg := hr.guarded h₀ ht'
    obtain ⟨c₀,hc₀,hb₀⟩ : ∃ c₀, p.callOf? b = some c₀ ∧ c₀.builds = true := by
      rcases onset h hc with hold | ho
      · exact ⟨c,hold,hb⟩
      · rcases ho.builds with ⟨-,hn,-⟩ | ⟨c₀,hc₀,heq⟩
        · rw [hn] at hb
          cases hb
        · exact ⟨c₀,hc₀,heq.trans hb⟩
    have hunused := hr.unused h₀ ht' (hg.reserved.not_standing hc₀ hb₀)
    have hstep := effort_step h hlast hg (hr.threads_eq h₀) hunused hc₀ hb₀ hc
    have hih := ih ht' hc₀ hb₀
    have hstirs : stirs (ms ++ [⟨p,e,f⟩]) = stirs ms + e.isStir.toNat := by
      simp only [stirs, List.countP_append, countP_singleton_toNat]
    rw [hstirs, List.length_append, List.length_singleton]
    omega

end Pool
end PinnedPool
