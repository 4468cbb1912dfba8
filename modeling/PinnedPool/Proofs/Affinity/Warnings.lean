import Mathlib.Data.List.Basic
import PinnedPool.Proofs.Affinity.Native

/-! # What the warnings of a topology are worth

The warnings name the CPUs that the machine lacks, in the order in which they are configured, and the
CPUs of both classes. A topology without warnings is one that the native backend can follow: each of its
classes is pinned to its own CPUs and to no others.
-/
namespace PinnedPool

/-- The logical CPUs are those below `n`. -/
structure Machine.Numbered (m : Machine) (n : Nat) : Prop where
  logical : m.logical = n
  online : ∀ c, m.online c = true ↔ c < n

namespace Topology

/-- The CPU that a warning says is not there. -/
def Warning.exceeding? : Warning → Option Nat
  | exceeds cpu _ => some cpu
  | noPerformance | overlap _ => none

/-- The CPU that a warning says is in both classes. -/
def Warning.overlapping? : Warning → Option Nat
  | overlap cpu => some cpu
  | exceeds _ _ | noPerformance => none

variable (n : Nat) (t : Topology)

def exceeding : List Nat := (t.warnings n).filterMap Warning.exceeding?

def overlapping : List Nat := (t.warnings n).filterMap Warning.overlapping?

/-- The two classes change places. -/
def swapped : Topology := ⟨t.efficiency,t.performance⟩

/-- What is gathered from the warnings comes from the missing CPUs and then from those of both
classes. -/
theorem filterMap_warnings {f : Warning → Option Nat} (hf : f .noPerformance = none) :
    (t.warnings n).filterMap f =
      ((t.performance ++ t.efficiency).filter (n ≤ ·)).filterMap (fun cpu => f (.exceeds cpu n)) ++
        (t.performance.filter (t.efficiency.contains ·)).filterMap (fun cpu => f (.overlap cpu)) := by
  have hnone : (if t.performance.isEmpty then [Warning.noPerformance] else []).filterMap f = [] := by
    split <;> simp [hf]
  rw [warnings, List.filterMap_append, List.filterMap_append, hnone, List.append_nil,
    List.filterMap_map, List.filterMap_map]
  rfl

theorem exceeding_eq : t.exceeding n = (t.performance ++ t.efficiency).filter (n ≤ ·) := by
  rw [exceeding, filterMap_warnings n t rfl]
  simp only [Warning.exceeding?, List.filterMap_some, List.filterMap_none, List.append_nil]

theorem overlapping_eq : t.overlapping n = t.performance.filter (t.efficiency.contains ·) := by
  rw [overlapping, filterMap_warnings n t rfl]
  simp only [Warning.overlapping?, List.filterMap_some, List.filterMap_none, List.nil_append]

variable {n t}

theorem mem_overlapping {cpu : Nat} :
    cpu ∈ t.overlapping n ↔ cpu ∈ t.performance ∧ cpu ∈ t.efficiency := by
  rw [overlapping_eq, List.mem_filter, List.contains_iff_mem]

theorem mem_warnings {w : Warning} :
    w ∈ t.warnings n ↔
      (∃ cpu, (cpu ∈ t.performance ∨ cpu ∈ t.efficiency) ∧ n ≤ cpu ∧ .exceeds cpu n = w) ∨
        (t.performance = [] ∧ w = .noPerformance) ∨
        ∃ cpu, cpu ∈ t.performance ∧ cpu ∈ t.efficiency ∧ .overlap cpu = w := by
  have hnone : w ∈ (if t.performance.isEmpty then [Warning.noPerformance] else []) ↔
      t.performance = [] ∧ w = .noPerformance := by
    cases t.performance <;> simp
  rw [warnings, List.mem_append, List.mem_append, hnone, or_assoc]
  simp only [List.mem_map, List.mem_filter, List.mem_append, decide_eq_true_eq, List.contains_iff_mem,
    and_assoc]

theorem noPerformance_mem_warnings : .noPerformance ∈ t.warnings n ↔ t.performance = [] := by
  simp [mem_warnings]

theorem available_of_exceeds {cpu available : Nat} (h : .exceeds cpu available ∈ t.warnings n) :
    available = n := by
  rcases mem_warnings.mp h with ⟨_,-,-,heq⟩ | ⟨-,heq⟩ | ⟨_,-,-,heq⟩
  · cases heq
    rfl
  · cases heq
  · cases heq

theorem warnings_eq_nil_iff :
    t.warnings n = [] ↔ t.performance ≠ [] ∧ (∀ cpu ∈ t.performance, cpu < n) ∧
      (∀ cpu ∈ t.efficiency, cpu < n) ∧ t.performance.Disjoint t.efficiency := by
  constructor
  · intro h
    have hno : ∀ w, w ∉ t.warnings n := fun w => h ▸ List.not_mem_nil
    refine ⟨?_,?_,?_,?_⟩
    · exact fun hnil => hno _ (noPerformance_mem_warnings.mpr hnil)
    · refine fun cpu hcpu => Nat.not_le.mp fun hle => hno (.exceeds cpu n) ?_
      exact mem_warnings.mpr (.inl ⟨cpu,.inl hcpu,hle,rfl⟩)
    · refine fun cpu hcpu => Nat.not_le.mp fun hle => hno (.exceeds cpu n) ?_
      exact mem_warnings.mpr (.inl ⟨cpu,.inr hcpu,hle,rfl⟩)
    · refine fun cpu hperformance hefficiency => hno (.overlap cpu) ?_
      exact mem_warnings.mpr (.inr (.inr ⟨cpu,hperformance,hefficiency,rfl⟩))
  · rintro ⟨hne,hperformance,hefficiency,hdisjoint⟩
    refine List.eq_nil_iff_forall_not_mem.mpr fun w hw => ?_
    rcases mem_warnings.mp hw with ⟨cpu,hcpu,hle,-⟩ | ⟨hnil,-⟩ | ⟨cpu,hp,he,-⟩
    · rcases hcpu with hcpu | hcpu
      · exact Nat.not_lt.mpr hle (hperformance cpu hcpu)
      · exact Nat.not_lt.mpr hle (hefficiency cpu hcpu)
    · exact hne hnil
    · exact hdisjoint hp he

/-- A class of CPUs that the machine has is granted as it is. -/
theorem pins_class {m : Machine} (hm : m.Numbered n) (hn : n ≤ Machine.maskBits) (cores : CoreClass)
    (hne : (Controller.native m t).cpus cores ≠ [])
    (hcpus : ∀ cpu ∈ (Controller.native m t).cpus cores, cpu < n) (thread : Option String)
    (mask : Mask) :
    ∃ (granted : Mask) (line : Log.Line),
      (Controller.native m t).apply cores thread mask = ⟨granted,[line],[],none⟩ ∧
        line.level ≠ .warn ∧ granted.Pairwise (· < ·) ∧
        ∀ cpu, cpu ∈ granted ↔ cpu ∈ (Controller.native m t).cpus cores := by
  have hinside : ∀ cpu ∈ (Controller.native m t).cpus cores, cpu < Machine.maskBits :=
    fun cpu hcpu => Nat.lt_of_lt_of_le (hcpus cpu hcpu) hn
  obtain ⟨first,hfirst⟩ := List.exists_mem_of_ne_nil _ hne
  have hgrants : m.Grants ((Controller.native m t).cpus cores) :=
    ⟨hinside,first,hfirst,(hm.online first).mpr (hcpus first hfirst)⟩
  obtain ⟨line,hlevel,happlied⟩ := Controller.apply_of_grants thread mask hgrants
  have hselects := Machine.selects_mask (m := m) hinside
  refine ⟨_,line,happlied,hlevel,hselects.sorted,fun cpu => ?_⟩
  rw [hselects.mem cpu]
  exact and_iff_left_of_imp fun hcpu => (hm.online cpu).mpr (hcpus cpu hcpu)

/-- On a machine with the CPUs below `n`, the warnings name as missing the configured CPUs from `n` on,
in their order and as often as they are configured, and as overlapping those of both classes, which are
the same when the classes change places; and they tell if there are no performance cores. If there are
no warnings, the native backend pins any thread to the performance cores, to all of them and to no
other CPU, and so to none that the efficiency class would give it. -/
theorem warnings_exact {m : Machine} {n : Nat} (hm : m.Numbered n) (hn : n ≤ Machine.maskBits)
    (t : Topology) :
    t.exceeding m.logical = (t.performance ++ t.efficiency).filter (n ≤ ·) ∧
      (∀ cpu available, .exceeds cpu available ∈ t.warnings m.logical → available = n) ∧
      (∀ cpu, cpu ∈ t.overlapping m.logical ↔ cpu ∈ t.performance ∧ cpu ∈ t.efficiency) ∧
      (∀ cpu, cpu ∈ t.swapped.overlapping m.logical ↔ cpu ∈ t.overlapping m.logical) ∧
      (.noPerformance ∈ t.warnings m.logical ↔ t.performance = []) ∧
      (t.warnings m.logical = [] → ∀ thread mask, ∃ (granted : Mask) (line : Log.Line),
        (Controller.native m t).apply .performance thread mask = ⟨granted,[line],[],none⟩ ∧
          line.level ≠ .warn ∧ granted.Pairwise (· < ·) ∧
          (∀ cpu, cpu ∈ granted ↔ cpu ∈ t.performance) ∧
          (t.efficiency ≠ [] → ∃ (other : Mask) (line : Log.Line),
            (Controller.native m t).apply .efficiency thread mask = ⟨other,[line],[],none⟩ ∧
              line.level ≠ .warn ∧ (∀ cpu, cpu ∈ other ↔ cpu ∈ t.efficiency) ∧
              granted.Disjoint other)) := by
  rw [hm.logical]
  refine ⟨exceeding_eq n t,fun _ _ => available_of_exceeds,fun _ => mem_overlapping,?_,
    noPerformance_mem_warnings,?_⟩
  · intro cpu
    rw [mem_overlapping, mem_overlapping]
    exact and_comm
  · intro hquiet thread mask
    obtain ⟨hne,hperformance,hefficiency,hdisjoint⟩ := warnings_eq_nil_iff.mp hquiet
    obtain ⟨granted,line,happlied,hlevel,hsorted,hgranted⟩ :=
      pins_class (t := t) hm hn .performance hne hperformance thread mask
    refine ⟨granted,line,happlied,hlevel,hsorted,hgranted,fun hne' => ?_⟩
    obtain ⟨other,line,happlied,hlevel,-,hother⟩ :=
      pins_class (t := t) hm hn .efficiency hne' hefficiency thread mask
    refine ⟨other,line,happlied,hlevel,hother,fun cpu hcpu hcpu' => ?_⟩
    exact hdisjoint ((hgranted cpu).mp hcpu) ((hother cpu).mp hcpu')

/-- Eight CPUs, all of which exist. -/
def eightCores : Machine := ⟨8,8,(· < 8)⟩

/-- One topology repeats CPUs that are missing and one that is in both classes; the other repeats a CPU
too, but there is nothing to warn of. -/
theorem warnings_exact_eight :
    eightCores.Numbered 8 ∧ 8 ≤ Machine.maskBits ∧
      exceeding eightCores.logical ⟨[9, 2, 9],[2, 12, 2]⟩ = [9, 9, 12] ∧
      (∀ cpu, cpu ∈ overlapping eightCores.logical ⟨[9, 2, 9],[2, 12, 2]⟩ ↔ cpu = 2) ∧
      warnings eightCores.logical ⟨[6, 4, 6],[1, 0]⟩ = [] ∧
      ∃ (granted : Mask) (line : Log.Line),
        (Controller.native eightCores ⟨[6, 4, 6],[1, 0]⟩).apply .performance none [0] =
            ⟨granted,[line],[],none⟩ ∧
          (∀ cpu, cpu ∈ granted ↔ cpu ∈ [6, 4, 6]) ∧
          ∃ (other : Mask) (line : Log.Line),
            (Controller.native eightCores ⟨[6, 4, 6],[1, 0]⟩).apply .efficiency none [0] =
                ⟨other,[line],[],none⟩ ∧
              granted.Disjoint other := by
  have hm : eightCores.Numbered 8 := ⟨rfl,fun _ => decide_eq_true_iff⟩
  have hn : 8 ≤ Machine.maskBits := by decide
  have hquiet : warnings eightCores.logical ⟨[6, 4, 6],[1, 0]⟩ = [] := by decide
  obtain ⟨hexceeding,-,hoverlapping,-⟩ := warnings_exact hm hn ⟨[9, 2, 9],[2, 12, 2]⟩
  obtain ⟨-,-,-,-,-,hpins⟩ := warnings_exact hm hn ⟨[6, 4, 6],[1, 0]⟩
  obtain ⟨granted,line,happlied,-,-,hgranted,hclass⟩ := hpins hquiet none [0]
  obtain ⟨other,line',happlied',-,-,hdisjoint⟩ := hclass (by decide)
  refine ⟨hm,hn,hexceeding,?_,hquiet,granted,line,happlied,hgranted,other,line',happlied',hdisjoint⟩
  intro cpu
  rw [hoverlapping]
  simp
  omega

end Topology
end PinnedPool
