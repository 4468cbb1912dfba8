import Mathlib.Data.List.Sort
import PinnedPool.Affinity.Session
import PinnedPool.Proofs.Affinity.Native

/-! # Pinning and reading back

A request is refused for the first CPU without a bit, or for want of any CPU that exists, and then the
mask stays. Otherwise the mask is the set of those CPUs in the list that exist, and reading it back
gives that set. So a mask depends on the list as a set, and a mask that was read can be set again.
-/
namespace PinnedPool

namespace Machine
variable {m : Machine} {cpus others : List Nat} {mask seen : Mask}

/-- The masks that the kernel gives to a thread. -/
structure Keeps (m : Machine) (mask : Mask) : Prop where
  sorted : mask.Pairwise (· < ·)
  inside : ∀ c ∈ mask, c < maskBits
  online : ∀ c ∈ mask, m.online c = true

theorem keeps_mask (m : Machine) (cpus : List Nat) : m.Keeps (m.mask cpus) where
  sorted := List.pairwise_lt_range.filter _
  inside _ hc := (mem_mask.mp hc).1
  online _ hc := (mem_mask.mp hc).2.2

/-- A set of CPUs is one mask and no other. -/
theorem Selects.unique (h : m.Selects cpus mask) (h' : m.Selects cpus seen) : mask = seen :=
  h.sorted.eq_of_mem_iff h'.sorted fun c => (h.mem c).trans (h'.mem c).symm

theorem Keeps.mask_eq (h : m.Keeps mask) : m.mask mask = mask := by
  refine (selects_mask h.inside).unique ⟨h.sorted,?_⟩
  intro c
  exact ⟨fun hc => ⟨hc,h.online c hc⟩,And.left⟩

theorem Keeps.grants (h : m.Keeps mask) (hne : mask ≠ []) : m.Grants mask := by
  obtain ⟨c,hc⟩ := List.exists_mem_of_ne_nil mask hne
  exact ⟨h.inside,c,hc,h.online c hc⟩

theorem mask_congr (h : ∀ c, c ∈ cpus ↔ c ∈ others) : m.mask cpus = m.mask others := by
  refine List.filter_congr fun c _ => ?_
  have hcontains : cpus.contains c = others.contains c := by
    rw [Bool.eq_iff_iff, List.contains_iff_mem, List.contains_iff_mem, h c]
  rw [hcontains]

/-- The bits of a mask, read from the lowest, are the mask. -/
theorem Keeps.cpus_ofMask (h : m.Keeps mask) : (CpuSet.ofMask mask).cpus = mask := by
  refine (List.pairwise_lt_range.filter _).eq_of_mem_iff h.sorted fun c => ?_
  change c ∈ (CpuSet.ofMask mask).cpus ↔ c ∈ mask
  rw [CpuSet.mem_cpus, CpuSet.has_ofMask]
  exact ⟨fun hc => hc.2.2,fun hc => ⟨h.inside c hc,h.inside c hc,hc⟩⟩

end Machine

/-- The first CPU in the list that has no bit in a mask. -/
def FirstOutside (cpus : List Nat) (cpu : Nat) : Prop :=
  ∃ before after, cpus = before ++ cpu :: after ∧ (∀ c ∈ before, c < Machine.maskBits) ∧
    Machine.maskBits ≤ cpu

namespace AffinitySession
open Machine
variable (m : Machine) (t : Topology) (name : Option String) (cores : CoreClass) (mask : Mask)

/-- A thread asks the native backend for a mask, in place of the one it has. -/
def pinned (cpus : List Nat) : Mask × Step :=
  act (.native m t) name mask (.pin (.native m) cores cpus)

/-- A thread reads its mask. -/
def looked : Mask × Step := act (.native m t) name mask .current

variable {m t name cores mask} {cpus others : List Nat}

/-- A list has a CPU without a bit, or only CPUs that do not exist, or it is granted. -/
theorem outside_or_missing_or_grants (m : Machine) (cpus : List Nat) :
    (∃ cpu, FirstOutside cpus cpu) ∨
      ((∀ c ∈ cpus, c < maskBits) ∧ ∀ c ∈ cpus, m.online c = false) ∨ m.Grants cpus := by
  cases hset : CpuSet.empty.addAll cpus with
  | error cpu => exact .inl ⟨cpu,CpuSet.addAll_eq_error_iff.mp hset⟩
  | ok set =>
    have hinside := CpuSet.inside_of_addAll hset
    by_cases honline : ∃ c ∈ cpus, m.online c = true
    · exact .inr (.inr ⟨hinside,honline⟩)
    · refine .inr (.inl ⟨hinside,fun c hc => ?_⟩)
      rw [← Bool.not_eq_true]
      exact fun hc' => honline ⟨c,hc,hc'⟩

theorem pinned_of_outside {cpu : Nat} (h : FirstOutside cpus cpu) :
    pinned m t name cores mask cpus = (mask,⟨.failed (.cpuOutOfRange cpu),[],[]⟩) := by
  have hset : CpuSet.empty.addAll cpus = .error cpu := CpuSet.addAll_eq_error_iff.mpr h
  simp only [pinned, act, Backend.native_pin, Backend.nativePin_of_outside cores hset]

theorem pinned_of_missing (hinside : ∀ c ∈ cpus, c < maskBits)
    (hmissing : ∀ c ∈ cpus, m.online c = false) :
    pinned m t name cores mask cpus =
      (mask,⟨.failed (.affinityRejected cores .invalidArgument),[],[]⟩) := by
  have hnil : m.mask cpus = [] := mask_eq_nil_iff.mpr fun c hc _ => hmissing c hc
  simp only [pinned, act, Backend.native_pin, Backend.nativePin_of_inside cores hinside, hnil,
    List.isEmpty_nil, ↓reduceIte]

theorem pinned_of_grants (h : m.Grants cpus) :
    pinned m t name cores mask cpus = (m.mask cpus,⟨.done,[],[]⟩) := by
  simp only [pinned, act, Backend.native_pin, Backend.nativePin_of_grants cores h]

theorem looked_of_keeps (h : m.Keeps mask) :
    looked m t name mask = (mask,⟨.cpus mask,[],[]⟩) := by
  simp only [looked, act, Backend.native, h.cpus_ofMask]

theorem answer_outside_iff {cpu : Nat} :
    (pinned m t name cores mask cpus).2.answer = .failed (.cpuOutOfRange cpu) ↔
      FirstOutside cpus cpu := by
  refine ⟨fun h => ?_,fun h => by rw [pinned_of_outside h]⟩
  obtain ⟨c,hc⟩ | ⟨hinside,hmissing⟩ | hgrants := outside_or_missing_or_grants m cpus
  · rw [pinned_of_outside hc] at h
    cases h
    exact hc
  · rw [pinned_of_missing hinside hmissing] at h
    cases h
  · rw [pinned_of_grants hgrants] at h
    cases h

theorem answer_missing_iff :
    (pinned m t name cores mask cpus).2.answer =
        .failed (.affinityRejected cores .invalidArgument) ↔
      (∀ c ∈ cpus, c < maskBits) ∧ ∀ c ∈ cpus, m.online c = false := by
  refine ⟨fun h => ?_,fun h => by rw [pinned_of_missing h.1 h.2]⟩
  obtain ⟨c,hc⟩ | hmissing | hgrants := outside_or_missing_or_grants m cpus
  · rw [pinned_of_outside hc] at h
    cases h
  · exact hmissing
  · rw [pinned_of_grants hgrants] at h
    cases h

theorem answer_done_iff :
    (pinned m t name cores mask cpus).2.answer = .done ↔ m.Grants cpus := by
  refine ⟨fun h => ?_,fun h => by rw [pinned_of_grants h]⟩
  obtain ⟨c,hc⟩ | ⟨hinside,hmissing⟩ | hgrants := outside_or_missing_or_grants m cpus
  · rw [pinned_of_outside hc] at h
    cases h
  · rw [pinned_of_missing hinside hmissing] at h
    cases h
  · exact hgrants

theorem mask_of_granted (h : m.Grants cpus) :
    (pinned m t name cores mask cpus).1 = m.mask cpus := by
  rw [pinned_of_grants h]

theorem mask_of_refused (h : ¬m.Grants cpus) : (pinned m t name cores mask cpus).1 = mask := by
  obtain ⟨c,hc⟩ | ⟨hinside,hmissing⟩ | hgrants := outside_or_missing_or_grants m cpus
  · rw [pinned_of_outside hc]
  · rw [pinned_of_missing hinside hmissing]
  · exact absurd hgrants h

theorem pinned_congr (hsame : ∀ c, c ∈ cpus ↔ c ∈ others) (hinside : ∀ c ∈ cpus, c < maskBits) :
    pinned m t name cores mask cpus = pinned m t name cores mask others := by
  have hothers : ∀ c ∈ others, c < maskBits := fun c hc => hinside c ((hsame c).mpr hc)
  simp only [pinned, act, Backend.native_pin, Backend.nativePin_of_inside cores hinside,
    Backend.nativePin_of_inside cores hothers, mask_congr hsame]

/-- One request after the other, each for a class and a list of CPUs. -/
def repinned (m : Machine) (t : Topology) (name : Option String) (mask : Mask)
    (requests : List (CoreClass × List Nat)) : Mask :=
  requests.foldl (fun mask r => (pinned m t name r.1 mask r.2).1) mask

theorem keeps_pinned (h : m.Keeps mask) : m.Keeps (pinned m t name cores mask cpus).1 := by
  by_cases hgrants : m.Grants cpus
  · rw [mask_of_granted hgrants]
    exact keeps_mask m cpus
  · rwa [mask_of_refused hgrants]

theorem keeps_repinned (h : m.Keeps mask) (requests : List (CoreClass × List Nat)) :
    m.Keeps (repinned m t name mask requests) := by
  induction requests generalizing mask with
  | nil => exact h
  | cons r requests ih => exact ih (keeps_pinned h)

/-- A request fails for the first CPU that a mask cannot hold, with error 22 if no CPU in the list
exists, and in no other case. One that fails leaves the mask as it was. One that does not makes it the
set of those CPUs in the list that exist, which is what the thread then reads. Lists of the same CPUs
make the same request. What a thread reads, after any requests at all, it can ask for again, and its
mask does not change. -/
theorem pin_and_read_back (m : Machine) (t : Topology) (name : Option String) (cores : CoreClass)
    (mask : Mask) :
    (∀ cpus cpu, (pinned m t name cores mask cpus).2.answer = .failed (.cpuOutOfRange cpu) ↔
      FirstOutside cpus cpu) ∧
    (∀ cpus, (pinned m t name cores mask cpus).2.answer =
        .failed (.affinityRejected cores (.numbered 22)) ↔
      (∀ c ∈ cpus, c < maskBits) ∧ ∀ c ∈ cpus, m.online c = false) ∧
    (∀ cpus, (pinned m t name cores mask cpus).2.answer = .done ↔ m.Grants cpus) ∧
    (∀ cpus, ¬m.Grants cpus → (pinned m t name cores mask cpus).1 = mask) ∧
    (∀ cpus, m.Grants cpus → ∃ granted,
      pinned m t name cores mask cpus = (granted,⟨.done,[],[]⟩) ∧ m.Selects cpus granted ∧
        looked m t name granted = (granted,⟨.cpus granted,[],[]⟩)) ∧
    (∀ cpus others, (∀ c, c ∈ cpus ↔ c ∈ others) → (∀ c ∈ cpus, c < maskBits) →
      pinned m t name cores mask cpus = pinned m t name cores mask others) ∧
    m.Keeps m.initialMask ∧
    ∀ requests now, m.Keeps mask → repinned m t name mask requests = now → now ≠ [] →
      ∃ seen, looked m t name now = (now,⟨.cpus seen,[],[]⟩) ∧
        pinned m t name cores now seen = (now,⟨.done,[],[]⟩) := by
  refine ⟨fun _ _ => answer_outside_iff,fun _ => answer_missing_iff,fun _ => answer_done_iff,
    fun _ => mask_of_refused,?_,fun _ _ => pinned_congr,keeps_mask m _,?_⟩
  · intro cpus hgrants
    refine ⟨m.mask cpus,pinned_of_grants hgrants,selects_mask hgrants.1,?_⟩
    exact looked_of_keeps (keeps_mask m cpus)
  · rintro requests now hmask rfl hne
    have hkeeps : m.Keeps (repinned m t name mask requests) := keeps_repinned hmask requests
    refine ⟨_,looked_of_keeps hkeeps,?_⟩
    rw [pinned_of_grants (hkeeps.grants hne), hkeeps.mask_eq]

/-- Configured for eight CPUs, of which four exist. -/
def fourOfEight : Machine := ⟨2,8,(· < 4)⟩

theorem pin_and_read_back_four :
    (pinned fourOfEight ⟨[],[]⟩ none .performance [0, 1] [3, 1023, 1024, 4096]).2.answer =
        .failed (.cpuOutOfRange 1024) ∧
      (pinned fourOfEight ⟨[],[]⟩ none .performance [0, 1] [9, 1023]).2.answer =
        .failed (.affinityRejected .performance (.numbered 22)) ∧
      (pinned fourOfEight ⟨[],[]⟩ none .performance [0, 1] [9, 1023]).1 = [0, 1] ∧
      pinned fourOfEight ⟨[],[]⟩ none .performance [0, 1] [3, 9, 1, 3] =
        pinned fourOfEight ⟨[],[]⟩ none .performance [0, 1] [1, 3, 9] ∧
      ∃ seen, looked fourOfEight ⟨[],[]⟩ none [0, 1] = ([0, 1],⟨.cpus seen,[],[]⟩) ∧
        pinned fourOfEight ⟨[],[]⟩ none .performance [0, 1] seen = ([0, 1],⟨.done,[],[]⟩) := by
  obtain ⟨houtside,hmissing,-,hrefused,-,hsame,-,hback⟩ :=
    pin_and_read_back fourOfEight ⟨[],[]⟩ none .performance [0, 1]
  have hkeeps : fourOfEight.Keeps [0, 1] := ⟨by decide,by decide,by decide⟩
  refine ⟨(houtside _ 1024).mpr ⟨[3, 1023],[4096],rfl,by decide,by decide⟩,
    (hmissing [9, 1023]).mpr ⟨by decide,by decide⟩,hrefused _ (by decide),?_,?_⟩
  · exact hsame _ _ (by simp; grind) (by decide)
  · exact hback [] [0, 1] hkeeps rfl (by decide)

end AffinitySession
end PinnedPool
