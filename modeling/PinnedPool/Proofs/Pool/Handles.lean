import Mathlib.Data.List.Induction
import PinnedPool.Proofs.Pool.Outcome

/-! # Three ways to ask a handle

A handle can wait for its result, try to get it, or ask whether it would have to wait. The three go
through different operations of the channel library, but what they find hangs on the same two things:
whether a message is there and whether its sender is. Neither of them ever goes back.
-/
namespace PinnedPool

variable {V M : Type}

/-- What the documentation of the library promises, where `shows` tells what a channel holds and
whether its sender is still there. -/
structure ChannelLibrary.Documented (lib : ChannelLibrary M) (shows : lib.State → Channel M) :
    Prop where
  bounded : shows lib.bounded = .fresh
  /-- To send into an empty channel takes no waiting. -/
  send (c : lib.State) (m : M) : shows c = .fresh → shows (lib.send c m) = ⟨some m,true⟩
  dropSender (c : lib.State) : shows (lib.dropSender c) = ⟨(shows c).stored,false⟩
  recv (c : lib.State) : lib.recv c = (shows c).receipt
  tryRecv (c : lib.State) : (lib.tryRecv c).1 = (shows c).receipt
  /-- A receiver that finds no message leaves the channel as it is. -/
  untouched (c : lib.State) : (shows c).stored = none → shows (lib.tryRecv c).2 = shows c
  tryReady (c : lib.State) : (lib.tryReady c).1 = (shows c).ready
  /-- A selection that only asks takes nothing out. -/
  asked (c : lib.State) : shows (lib.tryReady c).2 = shows c

theorem ChannelLibrary.plain_documented : (ChannelLibrary.plain M).Documented id where
  bounded := rfl
  send _ _ h := by
    obtain rfl := h
    rfl
  dropSender _ := rfl
  recv _ := rfl
  tryRecv _ := rfl
  untouched c h := by
    obtain ⟨stored,connected⟩ := c
    obtain rfl : stored = none := h
    rfl
  tryReady _ := rfl
  asked _ := rfl

/-- What a handle makes of its channel. -/
def Channel.outcome? (c : Channel (Except PoolError V)) : Option (Except PoolError V) :=
  match c.receipt with
  | .message r => some r
  | .disconnected => some (.error .taskAbandoned)
  | .empty => none

theorem Channel.ready_eq (c : Channel (Except PoolError V)) : c.ready = c.outcome?.isSome := by
  obtain ⟨_ | r,_ | _⟩ := c <;> rfl

theorem Slot.outcome?_channel (s : Option (Slot V)) :
    (Slot.channel s).outcome? = s.map Slot.result := by
  obtain _ | _ | _ := s <;> rfl

namespace TaskHandle
variable {lib : ChannelLibrary (Except PoolError V)}
  {shows : lib.State → Channel (Except PoolError V)} (hlib : lib.Documented shows) (c : lib.State)
include hlib

theorem join_eq : join lib c = (shows c).outcome? := by
  rw [join, hlib.recv]
  unfold Channel.outcome?
  cases (shows c).receipt <;> rfl

theorem isFinished_eq : (isFinished lib c).1 = (shows c).outcome?.isSome := by
  rw [isFinished, hlib.tryReady, Channel.ready_eq]

theorem tryJoin_cases :
    (∃ r, tryJoin lib c = .ok r ∧ (shows c).outcome? = some r) ∨
      ∃ d, tryJoin lib c = .error d ∧ (shows c).outcome? = none ∧ shows d = shows c := by
  have hreceipt := hlib.tryRecv c
  have huntouched := hlib.untouched c
  rw [tryJoin, Channel.outcome?, ← hreceipt]
  generalize lib.tryRecv c = found at hreceipt huntouched
  obtain ⟨receipt,d⟩ := found
  cases receipt with
  | message r => exact .inl ⟨r,rfl,rfl⟩
  | disconnected => exact .inl ⟨_,rfl,rfl⟩
  | empty =>
    refine .inr ⟨d,rfl,rfl,huntouched ?_⟩
    -- a stored message would have been received
    cases hstored : (shows c).stored with
    | none => rfl
    | some r => simp [Channel.receipt, hstored] at hreceipt

theorem tryJoin_eq_ok_iff {r : Except PoolError V} :
    tryJoin lib c = .ok r ↔ (shows c).outcome? = some r := by
  obtain ⟨s,htry,hs⟩ | ⟨d,htry,hnone,-⟩ := tryJoin_cases hlib c
  · simp [htry, hs]
  · simp [htry, hnone]

end TaskHandle

/-- The message that the end of a watched job sends, unless it bursts first. -/
def Ending.message? (e : Ending V) : Option (Except PoolError V) :=
  match e.slot with
  | .delivered r => some r
  | .vanished => none

theorem Ending.bursts_of_message? {e : Ending V} : e.message?.isNone = e.bursts := by
  rcases e with v | _ | _ | _ | _ <;> rfl

theorem Ending.message?_of_bursts {e : Ending V} (h : e.bursts = true) : e.message? = none :=
  Option.isNone_iff_eq_none.mp (e.bursts_of_message?.trans h)

theorem Ending.message?_of_not_bursts {e : Ending V} (h : e.bursts = false) :
    e.message? = some e.result := by
  rcases e with v | _ | _ | _ | _
  · rfl
  · rfl
  · rfl
  · cases h
  · cases h

/-- How far a watched task has come. -/
inductive Life (V : Type) where
  | queued
  | running
  /-- The message is sent, and the job has not let go of its sender yet. -/
  | sent (e : Ending V)
  | ran (e : Ending V)
  /-- The task was dropped unrun. -/
  | dropped

namespace Life

/-- What the channel of the task then shows. -/
def channel : Life V → Channel (Except PoolError V)
  | queued | running => .fresh
  | sent e => ⟨e.message?, true⟩
  | ran e => ⟨e.message?, false⟩
  | dropped => ⟨none, false⟩

def outcome? : Life V → Option (Except PoolError V)
  | queued | running => none
  | sent e | ran e => some e.yielded
  | dropped => some (.error .taskAbandoned)

theorem outcome?_channel {l : Life V} (h : ∀ e, l = .sent e → e.bursts = false) :
    l.channel.outcome? = l.outcome? := by
  cases l with
  | queued | running | dropped => rfl
  | sent e =>
    have hb := h e rfl
    simp [channel, outcome?, Channel.outcome?, Channel.receipt, Ending.yielded,
      Ending.message?_of_not_bursts hb, hb]
  | ran e =>
    cases hb : e.bursts with
    | false =>
      simp [channel, outcome?, Channel.outcome?, Channel.receipt, Ending.yielded,
        Ending.message?_of_not_bursts hb, hb]
    | true =>
      simp [channel, outcome?, Channel.outcome?, Channel.receipt, Ending.yielded,
        Ending.message?_of_bursts hb, hb]

end Life

/-- A task takes a step of its life, or its handle is asked. -/
inductive Happening (V : Type) where
  | start
  | finish (e : Ending V)
  /-- The job lets go of its sender. -/
  | release
  /-- The task is dropped unrun. -/
  | discard
  | isFinished
  | tryJoin

/-- The handle is asked. -/
def Happening.polls : Happening V → Bool
  | isFinished | tryJoin => true
  | _ => false

/-- A task and its handle. -/
structure Watch (lib : ChannelLibrary (Except PoolError V)) where
  life : Life V
  channel : lib.State
  /-- The result for which the handle was given up. -/
  taken : Option (Except PoolError V)

namespace Watch

def new (lib : ChannelLibrary (Except PoolError V)) : Watch lib := ⟨.queued, lib.bounded, none⟩

variable {lib : ChannelLibrary (Except PoolError V)}

def step (x : Watch lib) : Happening V → Option (Watch lib)
  | .start =>
    match x.life with
    | .queued => some { x with life := .running }
    | _ => none
  | .finish e =>
    match x.life, e.message? with
    | .running, some r => some { x with life := .sent e, channel := lib.send x.channel r }
    | .running, none => some { x with life := .ran e, channel := lib.dropSender x.channel }
    | _, _ => none
  | .release =>
    match x.life with
    | .sent e => some { x with life := .ran e, channel := lib.dropSender x.channel }
    | _ => none
  | .discard =>
    match x.life with
    | .queued => some { x with life := .dropped, channel := lib.dropSender x.channel }
    | _ => none
  | .isFinished =>
    match x.taken with
    | none => some { x with channel := (TaskHandle.isFinished lib x.channel).2 }
    | some _ => none
  | .tryJoin =>
    match x.taken, TaskHandle.tryJoin lib x.channel with
    | none, .ok r => some { x with taken := some r }
    | none, .error c => some { x with channel := c }
    | some _, _ => none

/-- What the handle was given up for, or what it would yield now. -/
def yield? (x : Watch lib) : Option (Except PoolError V) :=
  x.taken <|> TaskHandle.join lib x.channel

/-- The steps, one constructor for each. -/
inductive Transition (x : Watch lib) : Happening V → Watch lib → Prop
  | start (hlife : x.life = .queued) : Transition x .start { x with life := .running }
  | finish {e r} (hlife : x.life = .running) (hmessage : e.message? = some r) :
      Transition x (.finish e) { x with life := .sent e, channel := lib.send x.channel r }
  | burst {e} (hlife : x.life = .running) (hmessage : e.message? = none) :
      Transition x (.finish e) { x with life := .ran e, channel := lib.dropSender x.channel }
  | release {e} (hlife : x.life = .sent e) :
      Transition x .release { x with life := .ran e, channel := lib.dropSender x.channel }
  | discard (hlife : x.life = .queued) :
      Transition x .discard { x with life := .dropped, channel := lib.dropSender x.channel }
  | isFinished (hheld : x.taken = none) :
      Transition x .isFinished { x with channel := (TaskHandle.isFinished lib x.channel).2 }
  | take {r} (hheld : x.taken = none) (htry : TaskHandle.tryJoin lib x.channel = .ok r) :
      Transition x .tryJoin { x with taken := some r }
  | retry {c} (hheld : x.taken = none) (htry : TaskHandle.tryJoin lib x.channel = .error c) :
      Transition x .tryJoin { x with channel := c }

variable {x y : Watch lib} {h : Happening V}

theorem transition (hs : x.step h = some y) : x.Transition h y := by
  cases h with
  | start =>
    simp only [step] at hs
    split at hs <;> cases hs
    exact .start ‹_›
  | finish e =>
    simp only [step] at hs
    split at hs <;> cases hs
    · exact .finish ‹_› ‹_›
    · exact .burst ‹_› ‹_›
  | release =>
    simp only [step] at hs
    split at hs <;> cases hs
    exact .release ‹_›
  | discard =>
    simp only [step] at hs
    split at hs <;> cases hs
    exact .discard ‹_›
  | isFinished =>
    simp only [step] at hs
    split at hs <;> cases hs
    exact .isFinished ‹_›
  | tryJoin =>
    simp only [step] at hs
    split at hs <;> cases hs
    · exact .take ‹_› ‹_›
    · exact .retry ‹_› ‹_›

/-- What a task and its handle go through, in order. -/
inductive Run (x₀ : Watch lib) : List (Happening V) → Watch lib → Prop
  | start : Run x₀ [] x₀
  | step {hs x h y} (hr : Run x₀ hs x) (hxy : x.step h = some y) : Run x₀ (hs ++ [h]) y

/-- The channel shows how far the task has come, and what a handle was given up for is what a task
that has come so far yields. -/
structure Sound (shows : lib.State → Channel (Except PoolError V)) (x : Watch lib) : Prop where
  shown : shows x.channel = x.life.channel
  sends : ∀ e, x.life = .sent e → e.bursts = false
  yields : ∀ r, x.taken = some r → x.life.outcome? = some r

/-- Once a task has an outcome it keeps it. -/
theorem outcome?_step (hxy : x.step h = some y) {r : Except PoolError V}
    (hr : x.life.outcome? = some r) : y.life.outcome? = some r := by
  cases transition hxy with
  | start hlife | finish hlife | burst hlife | discard hlife =>
    rw [hlife] at hr
    cases hr
  | release hlife =>
    rw [hlife] at hr
    exact hr
  | isFinished | take | retry => exact hr

section Documented
variable {shows : lib.State → Channel (Except PoolError V)} (hlib : lib.Documented shows)
include hlib

theorem sound_new : (new lib).Sound shows where
  shown := hlib.bounded
  sends := fun _ h => by cases h
  yields := fun _ h => by cases h

omit hlib in
theorem Sound.outcome? (hx : x.Sound shows) : (shows x.channel).outcome? = x.life.outcome? := by
  rw [hx.shown, Life.outcome?_channel hx.sends]

theorem sound_step (hx : x.Sound shows) (hxy : x.step h = some y) : y.Sound shows := by
  have hyields : ∀ r, x.taken = some r → y.life.outcome? = some r :=
    fun r hr => outcome?_step hxy (hx.yields r hr)
  cases transition hxy with
  | start hlife =>
    refine ⟨?_,nofun,hyields⟩
    rw [hx.shown, hlife]
    rfl
  | @finish e r hlife hmessage =>
    have hfresh : shows x.channel = .fresh := by
      rw [hx.shown, hlife]
      rfl
    refine ⟨?_,?_,hyields⟩
    · rw [hlib.send _ _ hfresh, Life.channel, hmessage]
    · rintro _ ⟨⟩
      rw [← Ending.bursts_of_message?, hmessage]
      rfl
  | burst hlife hmessage =>
    refine ⟨?_,nofun,hyields⟩
    rw [hlib.dropSender, hx.shown, hlife, Life.channel, Life.channel, hmessage]
    rfl
  | release hlife | discard hlife =>
    refine ⟨?_,nofun,hyields⟩
    rw [hlib.dropSender, hx.shown, hlife]
    rfl
  | isFinished =>
    refine ⟨?_,hx.sends,hyields⟩
    rw [← hx.shown]
    exact hlib.asked x.channel
  | take hheld htry =>
    refine ⟨hx.shown,hx.sends,?_⟩
    rintro _ ⟨⟩
    rw [← hx.outcome?]
    exact (TaskHandle.tryJoin_eq_ok_iff hlib _).mp htry
  | retry hheld htry =>
    refine ⟨?_,hx.sends,hyields⟩
    obtain ⟨r,hr,-⟩ | ⟨d,hd,-,hshows⟩ := TaskHandle.tryJoin_cases hlib x.channel
    · rw [hr] at htry
      cases htry
    · rw [hd] at htry
      cases htry
      rw [hshows, hx.shown]

theorem Sound.yield? (hx : x.Sound shows) : x.yield? = x.life.outcome? := by
  rw [Watch.yield?, TaskHandle.join_eq hlib, hx.outcome?]
  cases htaken : x.taken with
  | none => rfl
  | some r => exact (hx.yields r htaken).symm

theorem Sound.run {hs : List (Happening V)} (hx : x.Sound shows) (hr : x.Run hs y) :
    y.Sound shows := by
  induction hr with
  | start => exact hx
  | step _ hxy ih => exact sound_step hlib ih hxy

end Documented

theorem Run.outcome? {hs : List (Happening V)} (hr : x.Run hs y) {r : Except PoolError V}
    (hx : x.life.outcome? = some r) : y.life.outcome? = some r := by
  induction hr with
  | start => exact hx
  | step _ hxy ih => exact outcome?_step hxy ih

/-- A task takes its next step whatever its handle was asked. -/
theorem step_of_life {x' : Watch lib} (hxy : x.step h = some y) (hpolls : h.polls = false)
    (hlife : x'.life = x.life) :
    ∃ y', x'.step h = some y' ∧ y'.life = y.life ∧ y'.taken = x'.taken := by
  cases transition hxy with
  | start hx | release hx | discard hx =>
    rw [hx] at hlife
    simp only [step, hlife]
    exact ⟨_,rfl,rfl,rfl⟩
  | finish hx hmessage | burst hx hmessage =>
    rw [hx] at hlife
    simp only [step, hlife, hmessage]
    exact ⟨_,rfl,rfl,rfl⟩
  | isFinished | take | retry => cases hpolls

/-- Without the polls the task comes just as far. -/
theorem Run.unpolled {hs : List (Happening V)} (hr : (new lib).Run hs x) :
    ∃ y, (new lib).Run (hs.filter (!·.polls)) y ∧ y.life = x.life ∧ y.taken = none := by
  induction hr with
  | start => exact ⟨_,.start,rfl,rfl⟩
  | @step hs x h x' _ hxy ih =>
    obtain ⟨y,hy,hlife,htaken⟩ := ih
    rw [List.filter_append]
    cases hpolls : h.polls with
    | false =>
      obtain ⟨y',hyy',hlife',htaken'⟩ := step_of_life hxy hpolls hlife
      refine ⟨y',?_,hlife',htaken'.trans htaken⟩
      rw [List.filter_cons_of_pos (by simp [hpolls])]
      exact hy.step hyy'
    | true =>
      refine ⟨y,?_,hlife.trans ?_,htaken⟩
      · rwa [List.filter_cons_of_neg (by simp [hpolls]), List.filter_nil, List.append_nil]
      · cases transition hxy with
        | isFinished | take | retry => rfl
        | start | finish | burst | release | discard => cases hpolls

/-- How far the task has come is what the history says of it. -/
theorem Run.told {hs : List (Happening V)} (hr : (new lib).Run hs x) :
    match x.life with
    | .queued | .running => (∀ e, .finish e ∉ hs) ∧ .discard ∉ hs
    | .sent e | .ran e => (∀ d, .finish d ∈ hs ↔ d = e) ∧ .discard ∉ hs
    | .dropped => (∀ e, .finish e ∉ hs) ∧ .discard ∈ hs := by
  induction hr with
  | start => exact ⟨nofun,nofun⟩
  | step _ hxy ih =>
    cases transition hxy with
    | start hlife | finish hlife | burst hlife | release hlife | discard hlife =>
      rw [hlife] at ih
      obtain ⟨hfinish,hdiscard⟩ := ih
      simp [hfinish, hdiscard]
    | isFinished | take | retry => simpa using ih

/-- The outcome is there once the body has ended or the task was dropped. -/
theorem Run.outcome?_told {hs : List (Happening V)} (hr : (new lib).Run hs x) :
    (x.life.outcome? = none ↔ (∀ e, .finish e ∉ hs) ∧ .discard ∉ hs) ∧
      (∀ e, .finish e ∈ hs → x.life.outcome? = some e.yielded) ∧
      (.discard ∈ hs → x.life.outcome? = some (.error .taskAbandoned)) := by
  have htold := hr.told
  cases hlife : x.life with
  | queued | running =>
    rw [hlife] at htold
    exact ⟨⟨fun _ => htold,fun _ => rfl⟩,fun e he => absurd he (htold.1 e),
      fun hd => absurd hd htold.2⟩
  | sent e | ran e =>
    rw [hlife] at htold
    refine ⟨⟨nofun,fun h => absurd ((htold.1 e).mpr rfl) (h.1 e)⟩,?_,fun hd => absurd hd htold.2⟩
    intro d hd
    rw [(htold.1 d).mp hd]
    rfl
  | dropped =>
    rw [hlife] at htold
    exact ⟨⟨nofun,fun h => absurd htold.2 h.2⟩,fun e he => absurd he (htold.1 e),fun _ => rfl⟩

/-- The three ways to ask a handle agree whenever they are taken: it is finished exactly if trying to
join it yields, or if joining it does not wait, and then both yield the same. What it yields it goes on
yielding, and it yields what a join would that comes first after a history without any polls. That is
nothing until the body has ended or the task was dropped; then the outcome of the body, unless its
payload bursts, or that the task was abandoned. -/
theorem handle_observations_agree {shows : lib.State → Channel (Except PoolError V)}
    (hlib : lib.Documented shows) {hs : List (Happening V)} (hr : (new lib).Run hs x) :
    (x.taken = none →
      ((TaskHandle.isFinished lib x.channel).1 = true ↔
        ∃ r, TaskHandle.tryJoin lib x.channel = .ok r) ∧
      ((TaskHandle.isFinished lib x.channel).1 = true ↔
        ∃ r, TaskHandle.join lib x.channel = some r) ∧
      (∀ r, TaskHandle.tryJoin lib x.channel = .ok r ↔ TaskHandle.join lib x.channel = some r) ∧
      ∀ more y, x.Run more y → (TaskHandle.isFinished lib x.channel).1 = true →
        (TaskHandle.isFinished lib y.channel).1 = true) ∧
    (∀ more y r, x.Run more y → x.yield? = some r → y.yield? = some r) ∧
    (∃ y, (new lib).Run (hs.filter (!·.polls)) y ∧ y.taken = none ∧
      TaskHandle.join lib y.channel = x.yield?) ∧
    (x.yield? = none ↔ (∀ e, .finish e ∉ hs) ∧ .discard ∉ hs) ∧
    (∀ e, .finish e ∈ hs → x.yield? = some e.yielded ∧
      (e.bursts = false → x.yield? = some e.result)) ∧
    (.discard ∈ hs → x.yield? = some (.error .taskAbandoned)) := by
  have hx := (sound_new hlib).run hlib hr
  obtain ⟨hnone,hfinish,hdiscard⟩ := hr.outcome?_told
  rw [hx.yield? hlib]
  refine ⟨fun _ => ⟨?_,?_,?_,?_⟩,?_,?_,hnone,?_,hdiscard⟩
  · simp only [TaskHandle.isFinished_eq hlib, TaskHandle.tryJoin_eq_ok_iff hlib,
      Option.isSome_iff_exists]
  · simp only [TaskHandle.isFinished_eq hlib, TaskHandle.join_eq hlib, Option.isSome_iff_exists]
  · intro r
    rw [TaskHandle.tryJoin_eq_ok_iff hlib, TaskHandle.join_eq hlib]
  · intro more y hy hfinished
    rw [TaskHandle.isFinished_eq hlib, hx.outcome?] at hfinished
    obtain ⟨r,hout⟩ := Option.isSome_iff_exists.mp hfinished
    rw [TaskHandle.isFinished_eq hlib, (hx.run hlib hy).outcome?, hy.outcome? hout]
    rfl
  · intro more y r hy hout
    rw [(hx.run hlib hy).yield? hlib]
    exact hy.outcome? hout
  · obtain ⟨y,hy,hlife,htaken⟩ := hr.unpolled
    refine ⟨y,hy,htaken,?_⟩
    rw [TaskHandle.join_eq hlib, ((sound_new hlib).run hlib hy).outcome?, hlife]
  · intro e he
    refine ⟨hfinish e he,fun hb => ?_⟩
    rw [hfinish e he, Ending.yielded, hb]
    rfl

theorem run_of_foldlM {hs : List (Happening V)} (h : hs.foldlM step x = some y) : x.Run hs y := by
  induction hs using List.reverseRecOn generalizing y with
  | nil =>
    cases h
    exact .start
  | append_singleton hs e ih =>
    rw [List.foldlM_append] at h
    obtain ⟨z,hz,hzy⟩ := Option.bind_eq_some_iff.mp h
    obtain ⟨_,hstep,⟨⟩⟩ := Option.bind_eq_some_iff.mp hzy
    exact (ih hz).step hstep

/-- The handle is tried too early and once more, and is given up for the result between the sending of
the message and the end of the job. -/
theorem handle_observations_agree_retried :
    ∃ x : Watch (.plain (Except PoolError Nat)),
      (new _).Run [.isFinished, .start, .tryJoin, .finish (.returned 7), .isFinished, .tryJoin,
        .release] x ∧
      x.taken = some (.ok 7) ∧ x.yield? = some (.ok 7) ∧
      ∃ y : Watch (.plain (Except PoolError Nat)),
        (new _).Run [.start, .finish (.returned 7), .release] y ∧ y.taken = none ∧
          TaskHandle.join _ y.channel = some (.ok 7) := by
  have hr : (new (.plain (Except PoolError Nat))).Run [.isFinished, .start, .tryJoin,
      .finish (.returned 7), .isFinished, .tryJoin, .release]
      ⟨.ran (.returned 7),⟨some (.ok 7),false⟩,some (.ok 7)⟩ := run_of_foldlM rfl
  obtain ⟨-,-,⟨y,hy,htaken,hjoin⟩,-,hfinish,-⟩ :=
    handle_observations_agree ChannelLibrary.plain_documented hr
  obtain ⟨hyield,-⟩ := hfinish (.returned 7) (by simp)
  exact ⟨_,hr,rfl,hyield,y,hy,htaken,hjoin.trans hyield⟩

/-- The payload of a body bursts after the polls, and the handle then says that the task was dropped
unrun. -/
theorem handle_disowns_panic :
    ∃ (x : Watch (.plain (Except PoolError Nat))) (e : Ending Nat),
      (new _).Run [.isFinished, .start, .tryJoin, .finish e, .isFinished] x ∧
        x.life = .ran e ∧ e.result = .error (.taskPanicked "unknown panic payload") ∧
        TaskHandle.join _ x.channel = some (.error .taskAbandoned) := by
  have hr : (new (.plain (Except PoolError Nat))).Run [.isFinished, .start, .tryJoin,
      .finish (.unwound (.fuse "late")), .isFinished]
      ⟨.ran (.unwound (.fuse "late")),⟨none,false⟩,none⟩ := run_of_foldlM rfl
  exact ⟨_,_,hr,rfl,rfl,rfl⟩

end Watch

/-- A body that ends so leaves the channel of the slot that it settles. -/
theorem Watch.exists_run (e : Ending V) :
    ∃ hs x, (new (.plain _)).Run hs x ∧ x.channel = Slot.channel (some e.slot) ∧
      (∀ d, .finish d ∈ hs → d = e) ∧ .discard ∉ hs := by
  -- a burst leaves no message to send, and the sender goes with the job
  rcases e with ⟨v,burst?⟩ | text | _ | inside | _
  · exact ⟨[.start, .finish (.returned v burst?), .release],_,run_of_foldlM rfl,rfl,by simp,by simp⟩
  · exact ⟨[.start, .finish (.unwound (.text text)), .release],_,run_of_foldlM rfl,rfl,by simp,
      by simp⟩
  · exact ⟨[.start, .finish (.unwound .foreign), .release],_,run_of_foldlM rfl,rfl,by simp,
      by simp⟩
  · exact ⟨[.start, .finish (.unwound (.charge inside))],_,run_of_foldlM rfl,rfl,by simp,by simp⟩
  · exact ⟨[.start, .finish (.unwound .endless)],_,run_of_foldlM rfl,rfl,by simp,by simp⟩

/-- In every run of a pool the channel of an accepted task is one that the life of a task leads to. -/
theorem Pool.Run.exists_watch {J : Type} {n : Nat} {p₀ p : Pool J V} {ms : List (Moment J V)}
    (h₀ : Fresh n p₀) (hr : Run p₀ ms p) (ht : ∀ m ∈ ms, m.Timely) {task : Task J}
    (ha : task ∈ accepted ms) (hw : task.watched = true) :
    ∃ hs x, (Watch.new (.plain (Except PoolError V))).Run hs x ∧ x.channel = p.channel task.seq ∧
      (∀ e, .finish e ∈ hs → ∃ c ∈ completions ms, c.task = task ∧ c.ending = e) ∧
      (.discard ∈ hs → task ∈ p.queue.tasks ∧ p.freed = true ∧ ∀ w < n, Struck ms w) := by
  cases hslot : p.slot? task.seq with
  | none =>
    refine ⟨[],_,.start,?_,nofun,nofun⟩
    rw [channel, hslot]
    rfl
  | some s =>
    rw [channel, hslot]
    unfold slot? at hslot
    split at hslot
    · rename_i hsettled
      cases hslot
      obtain ⟨c,hc,hseq,hcs⟩ := (hr.slot_iff h₀ _ _).mp hsettled
      obtain rfl := hr.accepted_unique h₀ (hr.mem_accepted_of_completion h₀ hc) ha hseq
      rw [Completion.slot?, hw] at hcs
      obtain rfl : c.ending.slot = s := Option.some.inj hcs
      obtain ⟨hs,x,hx,hchannel,hfinish,hdiscard⟩ := Watch.exists_run c.ending
      exact ⟨hs,x,hx,hchannel,fun e he => ⟨c,hc,rfl,(hfinish e he).symm⟩,
        fun hd => absurd hd hdiscard⟩
    · split at hslot
      · rename_i hgone
        cases hslot
        simp only [Bool.and_eq_true, List.any_eq_true, decide_eq_true_eq] at hgone
        obtain ⟨⟨hfreed,hd⟩,task',hq,hseq⟩ := hgone
        obtain rfl := hr.accepted_unique h₀ (hr.mem_accepted_of_queued h₀ hq) ha hseq
        refine ⟨[.discard],_,Watch.run_of_foldlM rfl,rfl,by simp,fun _ => ⟨hq,hfreed,?_⟩⟩
        exact hr.struck_of_stranded h₀ ht hd hq
      · cases hslot

end PinnedPool
