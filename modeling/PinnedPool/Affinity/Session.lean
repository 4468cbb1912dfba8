import PinnedPool.Affinity.Controller

/-! # Working with one controller

A session makes a controller and uses it, or the backends themselves, from one thread.
-/
namespace PinnedPool.AffinitySession

inductive Maker where
  | given (backend : Backend)
  | detected (config : Config)

def Maker.make (m : Machine) (t : Topology) : Maker → Controller × List Log.Line
  | .given b => (⟨t, b⟩, [])
  | .detected c => Controller.detect m c

inductive Action where
  | apply (cores : CoreClass)
  | clone
  | name
  | topology
  | current
  | pin (backend : Backend) (cores : CoreClass) (cpus : List Nat)
  | available (backend : Backend)

inductive Answer where
  | nothing
  | done
  | name (s : String)
  | topology (t : Topology)
  | cpus (cs : List Nat)
  | failed (e : PoolError)
  | unwound (message : String)

structure Step where
  answer : Answer
  requests : List PinRequest := []
  lines : List Log.Line := []

/-- One action of the thread: its mask afterwards and what is seen of it. -/
def act (c : Controller) (thread : Option String) (mask : Mask) : Action → Mask × Step
  | .apply cores =>
    let a := c.apply cores thread mask
    (a.mask, ⟨match a.unwound with | some p => .unwound p.message | none => .nothing, a.requests, a.lines⟩)
  | .clone => (mask, { answer := .nothing })
  | .name => (mask, { answer := .name c.backend.name })
  | .topology => (mask, { answer := .topology c.topology })
  | .current => (mask, { answer := match c.backend.current mask with
      | some cs => .cpus cs
      | none => .nothing })
  | .pin b cores cpus =>
    match b.pin thread cores cpus mask with
    | .done mask => (mask, { answer := .done })
    | .failed e => (mask, { answer := .failed e })
    | .unwound p => (mask, { answer := .unwound p.message })
  | .available b => (mask, { answer := .cpus b.available })

def run (c : Controller) (thread : Option String) : Mask → List Action → List Step
  | _, [] => []
  | mask, a :: as =>
    let (mask, step) := act c thread mask a
    step :: run c thread mask as

end PinnedPool.AffinitySession
