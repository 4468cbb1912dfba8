import PinnedPool.Task

/-! # Task handles

A handle keeps the receiving end of a channel for one message; the job keeps the sending end. The
channels come from a library, of which only the operations are known here, and its documentation says
what they do to the message and to the sender.
-/
namespace PinnedPool

inductive Receipt (M : Type) where
  | message (m : M)
  /-- There is no message, and nobody is left to send one. -/
  | disconnected
  | empty
deriving DecidableEq, Repr

/-- A library of channels that hold at most one message. A receiver that looks into a channel may
leave a trace there, so each way of looking gives the channel back. -/
structure ChannelLibrary (M : Type) where
  State : Type
  bounded : State
  send : State → M → State
  dropSender : State → State
  /-- What a receiver finds that waits; on an empty channel it is still waiting. -/
  recv : State → Receipt M
  tryRecv : State → Receipt M × State
  /-- Whether a receive is ready, as a selection over this channel alone finds it. -/
  tryReady : State → Bool × State

namespace TaskHandle

variable {V : Type} (lib : ChannelLibrary (Except PoolError V)) (c : lib.State)

/-- The result of the task, once the receiver has stopped waiting. -/
def join : Option (Except PoolError V) :=
  match lib.recv c with
  | .message r => some r
  | .disconnected => some (.error .taskAbandoned)
  | .empty => none

/-- The result of the task, or the handle back. -/
def tryJoin : Except lib.State (Except PoolError V) :=
  match lib.tryRecv c with
  | (.message r, _) => .ok r
  | (.disconnected, _) => .ok (.error .taskAbandoned)
  | (.empty, c) => .error c

def isFinished : Bool × lib.State := lib.tryReady c

end TaskHandle

structure Channel (M : Type) where
  stored : Option M
  connected : Bool
deriving DecidableEq, Repr

namespace Channel

variable {M : Type}

def fresh : Channel M := ⟨none, true⟩

def ready (c : Channel M) : Bool := c.stored.isSome || !c.connected

def receipt (c : Channel M) : Receipt M :=
  match c.stored with
  | some m => .message m
  | none => if c.connected then .empty else .disconnected

end Channel

/-- Channels that do what the documentation says, and nothing else. -/
def ChannelLibrary.plain (M : Type) : ChannelLibrary M where
  State := Channel M
  bounded := .fresh
  send c m := { c with stored := some (c.stored.getD m) }
  dropSender c := { c with connected := false }
  recv c := c.receipt
  tryRecv c := (c.receipt, ⟨none, c.connected⟩)
  tryReady c := (c.ready, c)

/-- The channel of a slot: fresh until it is settled, and then without its sender. -/
def Slot.channel {V : Type} : Option (Slot V) → Channel (Except PoolError V)
  | none => .fresh
  | some (.delivered r) => ⟨some r, false⟩
  | some .vanished => ⟨none, false⟩

end PinnedPool
