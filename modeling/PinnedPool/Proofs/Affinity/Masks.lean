import Mathlib.Data.List.Induction
import PinnedPool.Affinity.Session
import PinnedPool.Pool.Basic
import PinnedPool.Proofs.Affinity.Native

/-! # Masks follow the latest request

Threads call controllers in any order. A call sets the mask of its own thread if its CPUs are granted
and changes nothing otherwise, so each thread keeps the mask of its own latest call that was granted.
To release a thread is always granted.
-/
namespace PinnedPool

/-- CPU 0 exists and comes first among those that are available. Where the system does not say for
how many CPUs it is configured, those of the process are counted, and a mask can hold them. -/
structure Machine.Usual (m : Machine) : Prop where
  online : m.online 0 = true
  first : (Backend.native m).available.head? = some 0
  counted : m.configured = 0 → m.logical ≤ maskBits

theorem Machine.Usual.grants {m : Machine} (h : m.Usual) : m.Grants (Backend.native m).available := by
  refine ⟨?_,0,List.mem_of_mem_head? h.first,h.online⟩
  intro c hc
  have hlt := List.mem_range.mp hc
  split at hlt
  · rename_i hzero
    exact Nat.lt_of_lt_of_le hlt (h.counted hzero)
  · exact Nat.lt_of_lt_of_le hlt (Nat.min_le_right ..)

/-- A thread applies a class of cores to itself, by a controller with the native backend. -/
structure AffinityCall where
  thread : ThreadId
  name : Option String
  topology : Topology
  cores : CoreClass
deriving DecidableEq

namespace AffinityCall
variable (m : Machine)

def controller (call : AffinityCall) : Controller := .native m call.topology

def cpus (call : AffinityCall) : List Nat := (call.controller m).cpus call.cores

def applied (call : AffinityCall) (mask : Mask) : Applied :=
  (call.controller m).apply call.cores call.name mask

/-- A call acts on the thread that makes it. -/
def step (masks : ThreadId → Mask) (call : AffinityCall) : ThreadId → Mask := fun t =>
  if t = call.thread then (call.applied m (masks call.thread)).mask else masks t

def run (masks : ThreadId → Mask) (calls : List AffinityCall) : ThreadId → Mask :=
  calls.foldl (step m) masks

def Granted (call : AffinityCall) : Prop := m.Grants (call.cpus m)

instance (call : AffinityCall) : Decidable (call.Granted m) :=
  inferInstanceAs (Decidable (m.Grants (call.cpus m)))

/-- The latest call of a thread that was granted. -/
def latest? (t : ThreadId) (calls : List AffinityCall) : Option AffinityCall :=
  (calls.filter fun call => call.thread = t ∧ call.Granted m).getLast?

variable {m} {call : AffinityCall}

theorem applied_of_granted (h : call.Granted m) (mask : Mask) :
    ∃ line : Log.Line, line.level ≠ .warn ∧
      call.applied m mask = ⟨m.mask (call.cpus m),[line],[],none⟩ :=
  Controller.apply_of_grants call.name mask h

theorem applied_of_not_granted (h : ¬call.Granted m) (mask : Mask) :
    ∃ line : Log.Line, line.level = .warn ∧ call.applied m mask = ⟨mask,[line],[],none⟩ :=
  Controller.apply_of_not_grants call.name mask h

/-- A call returns whatever comes of it. -/
theorem unwound_eq_none (call : AffinityCall) (mask : Mask) :
    (call.applied m mask).unwound = none := by
  by_cases h : call.Granted m
  · obtain ⟨line,-,happlied⟩ := applied_of_granted h mask
    rw [happlied]
  · obtain ⟨line,-,happlied⟩ := applied_of_not_granted h mask
    rw [happlied]

/-- The log has a warning for each call that was not granted, and for no other. -/
theorem warns_iff (call : AffinityCall) (mask : Mask) :
    (∃ line ∈ (call.applied m mask).lines, line.level = .warn) ↔ ¬call.Granted m := by
  by_cases h : call.Granted m
  · obtain ⟨line,hlevel,happlied⟩ := applied_of_granted h mask
    simp [happlied, hlevel, h]
  · obtain ⟨line,hlevel,happlied⟩ := applied_of_not_granted h mask
    simp [happlied, hlevel, h]

theorem step_eq (masks : ThreadId → Mask) (call : AffinityCall) (t : ThreadId) :
    step m masks call t =
      if call.thread = t ∧ call.Granted m then m.mask (call.cpus m) else masks t := by
  unfold step
  by_cases ht : t = call.thread
  · obtain rfl := ht
    by_cases h : call.Granted m
    · obtain ⟨line,-,happlied⟩ := applied_of_granted h (masks call.thread)
      rw [if_pos rfl, if_pos ⟨rfl,h⟩, happlied]
    · obtain ⟨line,-,happlied⟩ := applied_of_not_granted h (masks call.thread)
      rw [if_pos rfl, if_neg fun hcall => h hcall.2, happlied]
  · rw [if_neg ht, if_neg fun hcall => ht hcall.1.symm]

theorem step_step (masks : ThreadId → Mask) (call : AffinityCall) :
    step m (step m masks call) call = step m masks call := by
  funext t
  simp only [step_eq]
  split <;> rfl

theorem run_snoc (masks : ThreadId → Mask) (calls : List AffinityCall) (call : AffinityCall) :
    run m masks (calls ++ [call]) = step m (run m masks calls) call := by
  rw [run, List.foldl_append]
  rfl

theorem latest?_snoc (t : ThreadId) (calls : List AffinityCall) (call : AffinityCall) :
    latest? m t (calls ++ [call]) =
      if call.thread = t ∧ call.Granted m then some call else latest? m t calls := by
  rw [latest?, List.filter_append]
  split
  · rename_i h
    rw [List.filter_cons_of_pos (by simpa using h), List.filter_nil, List.getLast?_concat]
  · rename_i h
    rw [List.filter_cons_of_neg (by simpa using h), List.filter_nil, List.append_nil, latest?]

/-- Each thread has the mask of its own latest call that was granted. -/
theorem run_eq (masks : ThreadId → Mask) (calls : List AffinityCall) (t : ThreadId) :
    run m masks calls t =
      ((latest? m t calls).map fun call => m.mask (call.cpus m)).getD (masks t) := by
  -- from the last call backwards: it is the latest one, or it does not count
  induction calls using List.reverseRecOn with
  | nil => rfl
  | append_singleton calls call ih =>
    rw [run_snoc, step_eq, latest?_snoc, ih]
    split
    · rw [Option.map_some, Option.getD_some]
    · rfl

theorem latest?_granted {t : ThreadId} {calls : List AffinityCall} (h : latest? m t calls = some call) :
    call.thread = t ∧ call.Granted m := by
  have hmem := List.mem_of_getLast? h
  simpa using (List.mem_filter.mp hmem).2

/-- After any calls at all, each thread has as its mask those CPUs of its own latest granted call that
exist, or what it had at the start. No call fails for its caller: one that is not granted leaves a
warning in the log and every mask as it was. The same call again changes nothing. To release a thread
is always granted and gives it every available CPU that exists. -/
theorem masks_follow_latest (m : Machine) (hm : m.Usual) (masks : ThreadId → Mask)
    (calls : List AffinityCall) :
    (∀ (call : AffinityCall) (mask : Mask),
      (AffinitySession.act (call.controller m) call.name mask (.apply call.cores)).2.answer =
          .nothing ∧
        ((∃ line ∈ (call.applied m mask).lines, line.level = .warn) ↔ ¬call.Granted m)) ∧
    (∀ t, match latest? m t calls with
      | none => run m masks calls t = masks t
      | some call => m.Selects (call.cpus m) (run m masks calls t)) ∧
    (∀ call t, ¬(call.thread = t ∧ call.Granted m) →
      run m masks (calls ++ [call]) t = run m masks calls t) ∧
    (∀ call, run m masks (calls ++ [call, call]) = run m masks (calls ++ [call])) ∧
    ∀ call, call.cores = .unconstrained →
      call.Granted m ∧
        m.Selects (Backend.native m).available (run m masks (calls ++ [call]) call.thread) := by
  refine ⟨?_,?_,?_,?_,?_⟩
  · intro call mask
    refine ⟨?_,warns_iff call mask⟩
    have hunwound : ((call.controller m).apply call.cores call.name mask).unwound = none :=
      unwound_eq_none call mask
    simp only [AffinitySession.act, hunwound]
  · intro t
    rw [run_eq]
    cases hlatest : latest? m t calls with
    | none => rfl
    | some call =>
      simp only [Option.map_some, Option.getD_some]
      exact Machine.selects_mask (latest?_granted hlatest).2.1
  · intro call t h
    rw [run_snoc, step_eq, if_neg h]
  · intro call
    rw [List.append_cons calls call [call], run_snoc, run_snoc, step_step]
  · intro call hcores
    have hcpus : call.cpus m = (Backend.native m).available := by
      rw [cpus, hcores]
      rfl
    have hgranted : call.Granted m := by
      rw [Granted, hcpus]
      exact hm.grants
    refine ⟨hgranted,?_⟩
    rw [run_snoc, step_eq, if_pos ⟨rfl,hgranted⟩, hcpus]
    exact Machine.selects_mask hm.grants.1

/-- Configured for eight CPUs, of which four exist. -/
def halfBuilt : Machine := ⟨2,8,(· < 4)⟩

/-- One thread is pinned and then asks for an empty class, the other asks for a CPU that no mask can
hold. -/
def misguided : List AffinityCall := [
  ⟨.client 0,none,⟨[9, 2],[]⟩,.performance⟩,
  ⟨.client 1,none,⟨[3, 1024],[]⟩,.performance⟩,
  ⟨.client 0,none,⟨[9, 2],[]⟩,.efficiency⟩]

theorem masks_follow_latest_misguided :
    halfBuilt.Usual ∧
      halfBuilt.Selects [9, 2] (run halfBuilt (fun _ => [0]) misguided (.client 0)) ∧
      run halfBuilt (fun _ => [0]) misguided (.client 1) = [0] ∧
      halfBuilt.Selects [0, 1, 2, 3, 4, 5, 6, 7] (run halfBuilt (fun _ => [0])
        (misguided ++ [⟨.client 1,none,⟨[3, 1024],[]⟩,.unconstrained⟩]) (.client 1)) := by
  have husual : halfBuilt.Usual := ⟨by decide,by decide,nofun⟩
  obtain ⟨-,hlatest,-,-,hrelease⟩ := masks_follow_latest halfBuilt husual (fun _ => [0]) misguided
  have hzero := hlatest (.client 0)
  have hone := hlatest (.client 1)
  have hpinned : latest? halfBuilt (.client 0) misguided =
      some ⟨.client 0,none,⟨[9, 2],[]⟩,.performance⟩ := by decide
  have hnever : latest? halfBuilt (.client 1) misguided = none := by decide
  rw [hpinned] at hzero
  rw [hnever] at hone
  exact ⟨husual,hzero,hone,(hrelease ⟨.client 1,none,⟨[3, 1024],[]⟩,.unconstrained⟩ rfl).2⟩

end AffinityCall
end PinnedPool
