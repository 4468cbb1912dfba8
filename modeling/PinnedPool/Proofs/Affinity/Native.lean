import PinnedPool.Affinity.Controller

/-! # What the native backend grants

A list of CPUs is granted exactly if a mask can hold all of them and one of them exists. The mask then
has those of them that exist, in increasing order. To set a bit changes no other bit, so neither the
order of a list nor what it repeats matters to the set built from it.
-/
namespace PinnedPool

namespace CpuSet
variable {s : CpuSet} {cpus : List Nat}

@[simp] theorem not_has_empty (c : Nat) : empty.has c = false := BitVec.getLsbD_zero

theorem has_add (c d : Nat) :
    (s.add c).has d = true ↔ s.has d = true ∨ d < Machine.maskBits ∧ d = c := by
  simp only [add, has, BitVec.getLsbD_or, BitVec.getLsbD_twoPow, Bool.or_eq_true, Bool.and_eq_true,
    decide_eq_true_eq]
  grind

theorem has_addMany (cpus : List Nat) (d : Nat) :
    (cpus.foldl add s).has d = true ↔ s.has d = true ∨ d < Machine.maskBits ∧ d ∈ cpus := by
  induction cpus generalizing s with
  | nil => simp
  | cons c cpus ih =>
    rw [List.foldl_cons, ih, has_add, List.mem_cons]
    grind

theorem has_ofMask {cpus : List Nat} {d : Nat} :
    (ofMask cpus).has d = true ↔ d < Machine.maskBits ∧ d ∈ cpus := by
  simp [ofMask, has_addMany]

theorem mem_cpus {c : Nat} : c ∈ s.cpus ↔ c < Machine.maskBits ∧ s.has c = true := by
  simp [cpus]

theorem addAll_of_inside (h : ∀ c ∈ cpus, c < Machine.maskBits) :
    s.addAll cpus = .ok (cpus.foldl add s) := by
  induction cpus generalizing s with
  | nil => rfl
  | cons c cpus ih =>
    have hc : ¬Machine.maskBits ≤ c := Nat.not_le.mpr (h c List.mem_cons_self)
    rw [addAll, if_neg hc, List.foldl_cons]
    exact ih fun d hd => h d (List.mem_cons_of_mem c hd)

theorem inside_of_addAll {set : CpuSet} (h : s.addAll cpus = .ok set) :
    ∀ c ∈ cpus, c < Machine.maskBits := by
  induction cpus generalizing s with
  | nil => nofun
  | cons c cpus ih =>
    rw [addAll] at h
    split at h
    · cases h
    · rename_i hc
      rintro d (_ | ⟨_,hd⟩)
      · exact Nat.not_le.mp hc
      · exact ih h d hd

/-- What was added before the first CPU without a bit is given up with it. -/
theorem addAll_eq_error_iff {cpu : Nat} :
    s.addAll cpus = .error cpu ↔
      ∃ before after, cpus = before ++ cpu :: after ∧ (∀ c ∈ before, c < Machine.maskBits) ∧
        Machine.maskBits ≤ cpu := by
  induction cpus generalizing s with
  | nil => simp [addAll]
  | cons c cpus ih =>
    rw [addAll]
    split
    · rename_i hc
      constructor
      · rintro ⟨⟩
        exact ⟨[],cpus,rfl,nofun,hc⟩
      · rintro ⟨before,after,hcpus,hbefore,-⟩
        cases before with
        | nil => rw [(List.cons.inj hcpus).1]
        | cons d before =>
          have hd := hbefore d List.mem_cons_self
          rw [(List.cons.inj hcpus).1] at hc
          exact absurd hd (Nat.not_lt.mpr hc)
    · rename_i hc
      rw [ih]
      constructor
      · rintro ⟨before,after,rfl,hbefore,hcpu⟩
        refine ⟨c :: before,after,rfl,?_,hcpu⟩
        rintro d (_ | ⟨_,hd⟩)
        · exact Nat.not_le.mp hc
        · exact hbefore d hd
      · rintro ⟨before,after,hcpus,hbefore,hcpu⟩
        cases before with
        | nil =>
          rw [(List.cons.inj hcpus).1] at hc
          exact absurd hcpu hc
        | cons d before =>
          obtain ⟨-,rfl⟩ := List.cons.inj hcpus
          exact ⟨before,after,rfl,fun e he => hbefore e (List.mem_cons_of_mem d he),hcpu⟩

end CpuSet

namespace Machine
variable (m : Machine) (cpus : List Nat)

/-- The list is not empty, a mask can hold each CPU in it, and at least one of them exists. -/
def Grants : Prop := (∀ c ∈ cpus, c < maskBits) ∧ ∃ c ∈ cpus, m.online c = true

instance : Decidable (m.Grants cpus) := inferInstanceAs (Decidable (_ ∧ _))

/-- The mask is the set of those CPUs in the list that exist. -/
structure Selects (mask : Mask) : Prop where
  sorted : mask.Pairwise (· < ·)
  mem : ∀ c, c ∈ mask ↔ c ∈ cpus ∧ m.online c = true

variable {m cpus}

theorem mem_mask {c : Nat} : c ∈ m.mask cpus ↔ c < maskBits ∧ c ∈ cpus ∧ m.online c = true := by
  simp [mask]

theorem selects_mask (h : ∀ c ∈ cpus, c < maskBits) : m.Selects cpus (m.mask cpus) where
  sorted := List.pairwise_lt_range.filter _
  mem c := by
    rw [mem_mask]
    exact ⟨And.right,fun hc => ⟨h c hc.1,hc⟩⟩

theorem mask_eq_nil_iff : m.mask cpus = [] ↔ ∀ c ∈ cpus, c < maskBits → m.online c = false := by
  rw [List.eq_nil_iff_forall_not_mem]
  simp only [mem_mask]
  grind

/-- The kernel reads the bits from the lowest and leaves out those of CPUs that do not exist. -/
theorem cpus_ofMask_filter (m : Machine) (cpus : List Nat) :
    (CpuSet.ofMask cpus).cpus.filter m.online = m.mask cpus := by
  rw [CpuSet.cpus, List.filter_filter, mask]
  refine List.filter_congr fun c hc => ?_
  have hhas : (CpuSet.ofMask cpus).has c = cpus.contains c := by
    rw [Bool.eq_iff_iff, CpuSet.has_ofMask, List.contains_iff_mem]
    exact and_iff_right (List.mem_range.mp hc)
  rw [hhas, Bool.and_comm]

end Machine

namespace Backend
variable {m : Machine} {cpus : List Nat} (cores : CoreClass)

@[simp] theorem native_pin (thread : Option String) (mask : Mask) :
    (native m).pin thread cores cpus mask = nativePin m cores cpus := rfl

@[simp] theorem native_journaled : (native m).journaled = false := rfl

theorem nativePin_of_inside (h : ∀ c ∈ cpus, c < Machine.maskBits) :
    nativePin m cores cpus =
      if (m.mask cpus).isEmpty then .failed (.affinityRejected cores .invalidArgument)
      else .done (m.mask cpus) := by
  have hset : CpuSet.empty.addAll cpus = .ok (.ofMask cpus) := CpuSet.addAll_of_inside h
  rw [nativePin, hset]
  simp only [Machine.setAffinity, Machine.cpus_ofMask_filter]
  by_cases hempty : (m.mask cpus).isEmpty = true
  · simp only [if_pos hempty]
  · simp only [if_neg hempty]

theorem nativePin_of_outside {cpu : Nat} (h : CpuSet.empty.addAll cpus = .error cpu) :
    nativePin m cores cpus = .failed (.cpuOutOfRange cpu) := by
  rw [nativePin, h]

theorem nativePin_of_grants (h : m.Grants cpus) : nativePin m cores cpus = .done (m.mask cpus) := by
  obtain ⟨hinside,c,hc,honline⟩ := h
  have hmem : c ∈ m.mask cpus := Machine.mem_mask.mpr ⟨hinside c hc,hc,honline⟩
  rw [nativePin_of_inside cores hinside, if_neg]
  simpa using List.ne_nil_of_mem hmem

theorem nativePin_of_not_grants (h : ¬m.Grants cpus) : ∃ e, nativePin m cores cpus = .failed e := by
  cases hset : CpuSet.empty.addAll cpus with
  | error cpu => exact ⟨_,nativePin_of_outside cores hset⟩
  | ok set =>
    have hinside := CpuSet.inside_of_addAll hset
    have hnil : m.mask cpus = [] := by
      rw [Machine.mask_eq_nil_iff]
      intro c hc _
      rw [← Bool.not_eq_true]
      exact fun honline => h ⟨hinside,c,hc,honline⟩
    exact ⟨_,by rw [nativePin_of_inside cores hinside, hnil, List.isEmpty_nil, if_pos rfl]⟩

end Backend

namespace Controller
variable (m : Machine) (t : Topology) (cores : CoreClass) (thread : Option String) (mask : Mask)

/-- The controller with the native backend. -/
abbrev native : Controller := ⟨t,.native m⟩

variable {m t cores}

theorem apply_of_grants (h : m.Grants ((native m t).cpus cores)) :
    ∃ line : Log.Line, line.level ≠ .warn ∧
      (native m t).apply cores thread mask =
        ⟨m.mask ((native m t).cpus cores),[line],[],none⟩ := by
  have hne : ¬((native m t).cpus cores).isEmpty = true := by
    obtain ⟨-,c,hc,-⟩ := h
    simpa using List.ne_nil_of_mem hc
  refine ⟨if cores = .performance then .pinned (threadName thread) ((native m t).cpus cores)
    else .restricted (threadName thread) cores ((native m t).cpus cores),?_,?_⟩
  · split <;> exact Log.Level.noConfusion
  · simp only [apply, if_neg hne, Backend.native_pin, Backend.nativePin_of_grants cores h,
      Backend.native_journaled, Bool.false_eq_true, ↓reduceIte]

theorem apply_of_not_grants (h : ¬m.Grants ((native m t).cpus cores)) :
    ∃ line : Log.Line, line.level = .warn ∧
      (native m t).apply cores thread mask = ⟨mask,[line],[],none⟩ := by
  by_cases hempty : ((native m t).cpus cores).isEmpty = true
  · exact ⟨.noCpus cores (threadName thread),rfl,by simp only [apply, if_pos hempty]⟩
  · obtain ⟨e,he⟩ := Backend.nativePin_of_not_grants cores h
    refine ⟨.notRestricted (threadName thread) e,rfl,?_⟩
    simp only [apply, if_neg hempty, Backend.native_pin, he, Backend.native_journaled,
      Bool.false_eq_true, ↓reduceIte]

end Controller
end PinnedPool
