import PinnedPool.Log
import PinnedPool.Payload

/-! # Affinity backends

A backend restricts the calling thread to some CPUs. The native one goes through the kernel, which
keeps a mask for each thread; the idle one does nothing. Anything else can be a backend too.
-/
namespace PinnedPool

/-- The CPUs a thread may run on, in increasing order. -/
abbrev Mask := List Nat

/-- What the kernel and its machine look like. -/
structure Machine where
  /-- The count of logical CPUs that a thread gets whose mask nobody has restricted. -/
  logical : Nat
  /-- CPUs that the system is configured for. -/
  configured : Nat
  online : Nat → Bool

def Machine.maskBits : Nat := 1024

/-- A mask as it is handed to the kernel and back, with one bit for each CPU. -/
structure CpuSet where
  bits : BitVec Machine.maskBits
deriving DecidableEq

namespace CpuSet

def empty : CpuSet := ⟨BitVec.ofNat Machine.maskBits 0⟩

def add (s : CpuSet) (cpu : Nat) : CpuSet := ⟨s.bits ||| BitVec.twoPow Machine.maskBits cpu⟩

def has (s : CpuSet) (cpu : Nat) : Bool := s.bits.getLsbD cpu

/-- Adds one CPU after the other, up to the first for which there is no bit. -/
def addAll (s : CpuSet) : List Nat → Except Nat CpuSet
  | [] => .ok s
  | cpu :: cpus => if Machine.maskBits ≤ cpu then .error cpu else (s.add cpu).addAll cpus

/-- The CPUs whose bits are set, from the lowest. -/
def cpus (s : CpuSet) : List Nat := (List.range Machine.maskBits).filter s.has

def ofMask (mask : Mask) : CpuSet := mask.foldl add empty

end CpuSet

namespace Machine

/-- The requested CPUs that exist. -/
def mask (m : Machine) (cpus : List Nat) : Mask :=
  (List.range maskBits).filter fun c => cpus.contains c && m.online c

/-- The kernel drops CPUs that do not exist and refuses a mask with none left. -/
def setAffinity (m : Machine) (set : CpuSet) : Except Os.Error Mask :=
  let mask := set.cpus.filter m.online
  if mask.isEmpty then .error .invalidArgument else .ok mask

/-- Every thread starts with the CPUs the process may use. -/
def initialMask (m : Machine) : Mask := m.mask (List.range m.logical)

def single : Machine := ⟨1, 1, fun c => c = 0⟩

end Machine

inductive Pinning where
  | done (mask : Mask)
  | failed (error : PoolError)
  | unwound (p : Payload)
deriving Repr

structure Backend where
  name : String
  /-- Restricts the thread of the given name, which has the given mask. -/
  pin : Option String → CoreClass → List Nat → Mask → Pinning
  available : List Nat
  /-- Reads a thread's mask back. -/
  current : Mask → Option Mask
  journaled : Bool

namespace Backend

/-- The kernel is asked only once every CPU has its bit. -/
def nativePin (m : Machine) (cores : CoreClass) (cpus : List Nat) : Pinning :=
  match CpuSet.empty.addAll cpus with
  | .error cpu => .failed (.cpuOutOfRange cpu)
  | .ok set =>
    match m.setAffinity set with
    | .ok mask => .done mask
    | .error e => .failed (.affinityRejected cores e)

def native (m : Machine) : Backend where
  name := "native"
  pin _ cores cpus _ := nativePin m cores cpus
  available :=
    List.range (if m.configured = 0 then m.logical else min m.configured Machine.maskBits)
  current mask := some (CpuSet.ofMask mask).cpus
  journaled := false

def idle (m : Machine) : Backend where
  name := "no-op"
  pin _ _ _ mask := .done mask
  available := List.range m.logical
  current _ := none
  journaled := false

def minimal : Backend where
  name := "minimal"
  pin _ _ _ mask := .done mask
  available := []
  current _ := none
  journaled := false

structure Plan where
  name : String
  available : List Nat
  current : Option Mask
  failures : List (CoreClass × PoolError)
  /-- The names of the threads on which it panics; a thread without a name has the empty one. -/
  unwinding : List String

/-- Panics on some threads, fails for some classes and changes no mask. -/
def planned (p : Plan) : Backend where
  name := p.name
  pin thread cores _ mask :=
    if p.unwinding.contains (thread.getD "") then .unwound (.text "backend panic")
    else
      match p.failures.lookup cores with
      | some e => .failed e
      | none => .done mask
  available := p.available
  current _ := p.current
  journaled := true

end Backend
end PinnedPool
