/-! # Panic payloads

A panic carries a payload, and whoever catches the panic drops it. To drop a payload may panic again,
with a payload of its own that somebody else has to catch and drop.
-/
namespace PinnedPool

inductive Payload where
  | text (s : String)
  | foreign
  /-- Panics when it is dropped, with the payload inside. -/
  | charge (inside : Payload)
  /-- Panics when it is dropped, with another of its kind. -/
  | endless
deriving DecidableEq, Repr

namespace Payload

def fuse (s : String) : Payload := charge (text s)

def message : Payload → String
  | text s => s
  | foreign | charge _ | endless => "unknown panic payload"

/-- The payload of the panic in which dropping this one ends, if it does. -/
def burst? : Payload → Option Payload
  | text _ | foreign => none
  | charge inside => some inside
  | endless => some endless

end Payload
end PinnedPool
