import PinnedPool.Json.Reader
import PinnedPool.Text.Quoted

/-! # Core topology

Which logical CPUs belong to which class of cores. The topology is configured, not discovered, so
it may name CPUs that the machine does not have.
-/
namespace PinnedPool

structure Topology where
  performance : List Nat
  efficiency : List Nat
deriving DecidableEq, Repr

namespace Topology

/-- Four efficiency cores followed by four performance cores. -/
def standard : Topology := ⟨[4, 5, 6, 7], [0, 1, 2, 3]⟩

def fields : List (Json.Field Topology) := [
  .of "performance" (.list .size) fun cpus t => { t with performance := cpus },
  .of "efficiency" (.list .size) fun cpus t => { t with efficiency := cpus }]

/-- A topology by key or by position; a list that is not written is the standard one. -/
def reader : Json.Reader Topology := .record "CoreTopology" fields standard

/-- Something suspicious about a topology. -/
inductive Warning where
  | exceeds (cpu available : Nat)
  | noPerformance
  | overlap (cpu : Nat)
deriving DecidableEq, Repr

/-- The warnings of a topology on a machine with the given number of logical CPUs. -/
def warnings (available : Nat) (t : Topology) : List Warning :=
  ((t.performance ++ t.efficiency).filter (available ≤ ·)).map (.exceeds · available)
    ++ (if t.performance.isEmpty then [.noPerformance] else [])
    ++ (t.performance.filter (t.efficiency.contains ·)).map .overlap

def term (t : Topology) : String :=
  "CoreTopology \x7b performance: " ++ Text.numbers t.performance ++ ", efficiency: "
    ++ Text.numbers t.efficiency ++ " \x7d"

/-- Numbers without blanks between square brackets. -/
def writeCpus (cpus : List Nat) : String := "[" ++ ",".intercalate (cpus.map toString) ++ "]"

/-- The compact text of a topology, which reads back. -/
def write (t : Topology) : String :=
  "\x7b\"performance\":" ++ writeCpus t.performance ++ ",\"efficiency\":" ++ writeCpus t.efficiency
    ++ "\x7d"

end Topology
end PinnedPool
