import PinnedPool.Affinity.Backend

/-! # Affinity controllers

A controller pins the calling thread to a class of cores. Pinning is best effort: a backend that
fails leaves a warning in the log and the thread as it was.
-/
namespace PinnedPool

/-- A request that reached a journaled backend. -/
structure PinRequest where
  thread : String
  cores : CoreClass
  cpus : List Nat
deriving DecidableEq, Repr

structure Controller where
  topology : Topology
  backend : Backend

/-- What one application of a class does to the calling thread. -/
structure Applied where
  mask : Mask
  lines : List Log.Line
  requests : List PinRequest
  /-- What a backend panicked with. -/
  unwound : Option Payload

namespace Controller

/-- The native backend if the configuration asks for pinning, else the idle one. -/
def select (m : Machine) (c : Config) : Backend :=
  if c.pinWorkers then .native m else .idle m

/-- Selects a backend and says which. -/
def detect (m : Machine) (c : Config) : Controller × List Log.Line :=
  let b := select m c
  (⟨c.topology, b⟩, [.selected b.name])

def idle (m : Machine) (t : Topology) : Controller := ⟨t, .idle m⟩

/-- The CPUs of a class. -/
def cpus (c : Controller) : CoreClass → List Nat
  | .performance => c.topology.performance
  | .efficiency => c.topology.efficiency
  | .unconstrained => c.backend.available

/-- How log lines call a thread. -/
def threadName (thread : Option String) : String := thread.getD "<unnamed>"

/-- Restricts a thread with the given mask to a class of cores. -/
def apply (c : Controller) (cores : CoreClass) (thread : Option String) (mask : Mask) : Applied :=
  let cpus := c.cpus cores
  let name := threadName thread
  if cpus.isEmpty then ⟨mask, [.noCpus cores name], [], none⟩
  else
    let requests := if c.backend.journaled then [⟨thread.getD "", cores, cpus⟩] else []
    match c.backend.pin thread cores cpus mask with
    | .done mask =>
      let line := if cores = .performance then Log.Line.pinned name cpus
        else Log.Line.restricted name cores cpus
      ⟨mask, [line], requests, none⟩
    | .failed e => ⟨mask, [.notRestricted name e], requests, none⟩
    | .unwound p => ⟨mask, [], requests, some p⟩

end Controller
end PinnedPool
