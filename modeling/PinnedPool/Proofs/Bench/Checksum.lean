import Mathlib.Algebra.BigOperators.Intervals
import PinnedPool.Bench.Run
import PinnedPool.Proofs.Batch.Progress
import PinnedPool.Proofs.Bench.CommandLine

/-! # The benchmark's checksum

The batch of the benchmark ends the same way after every schedule, since its jobs do not look at their
tickets and no pinning stops a worker. So the checksum is told by the command line alone, and whether
there is one by the configuration and by the system's answers.
-/
namespace PinnedPool.Bench
open scoped BigOperators

/-- What the checksum is to be. -/
def total (tasks work : Nat) : Nat :=
  (∑ seed ∈ Finset.range tasks, (Xorshift.spin (.ofNat seed) work).toNat) % 2 ^ 64

/-- The number of workers: the command line's if it tells, else the configuration's. -/
def Arguments.workers (a : Arguments) (c : Config) : Nat := a.threads.getD c.threads

/-- How a batch of so many workers is to end. -/
def expected (refusal : Nat → Option Os.Error) (a : Arguments) (n : Nat) : Exit :=
  match (List.range n).findSome? refusal with
  | some e => .failed (.os e)
  | none => .summary ⟨a.taskCount, n, .ofNat (total a.taskCount a.workCount)⟩

/-! ## Adding up -/

theorem foldlM_checksum (xs : List UInt64) (sum : UInt64) :
    (xs.map .ok : List (Except PoolError UInt64)).foldlM (fun sum r => r.map (sum + ·)) sum =
      .ok (xs.foldl (· + ·) sum) := by
  induction xs generalizing sum with
  | nil => rfl
  | cons x xs ih => exact ih (sum + x)

theorem toNat_foldl_add (xs : List UInt64) (sum : UInt64) :
    (xs.foldl (· + ·) sum).toNat = (sum.toNat + (xs.map UInt64.toNat).sum) % 2 ^ 64 := by
  induction xs generalizing sum with
  | nil => simp [Nat.mod_eq_of_lt sum.toNat_lt]
  | cons x xs ih =>
    rw [List.foldl_cons, ih, UInt64.toNat_add, List.map_cons, List.sum_cons, Nat.mod_add_mod,
      Nat.add_assoc]

theorem checksum_seeds (a : Arguments) :
    checksum ((seeds a).map fun seed => .ok (Xorshift.spin seed a.workCount)) =
      .ok (.ofNat (total a.taskCount a.workCount)) := by
  have hfold := foldlM_checksum ((seeds a).map (Xorshift.spin · a.workCount)) 0
  rw [List.map_map] at hfold
  refine hfold.trans (congrArg Except.ok (UInt64.toNat_inj.mp ?_))
  have hsum : ((seeds a).map (Xorshift.spin · a.workCount)).map UInt64.toNat =
      (List.range a.taskCount).map fun seed => (Xorshift.spin (.ofNat seed) a.workCount).toNat := by
    simp only [seeds, List.map_map]
    rfl
  rw [toNat_foldl_add, hsum, UInt64.toNat_ofNat', total, Nat.mod_mod]
  exact congrArg (· % 2 ^ 64) (Nat.zero_add _)

/-! ## The batch -/

section Batch
variable (m : Machine) (refusal : Nat → Option Os.Error) (a : Arguments) (c : Config)

/-- Neither of the two backends stops a worker, and no task does. -/
theorem calm_batch (work : Nat) : (batch m refusal c work).Calm := by
  refine ⟨fun w => ?_,fun job ticket q h => by cases h⟩
  have hpin : ∀ thread cores cpus mask message,
      (Controller.select m c).pin thread cores cpus mask ≠ .unwound message := by
    intro thread cores cpus mask message
    unfold Controller.select
    split
    · dsimp only [Backend.native, Backend.nativePin]
      split
      · simp
      · split <;> simp
    · simp [Backend.idle]
  simp only [batch, Controller.detect, Controller.apply]
  split
  · rfl
  · split
    · rfl
    · rfl
    · exact absurd ‹_› (hpin _ _ _ _ _)

variable {m refusal a c}

theorem results_eq {seeds : List UInt64} {work : Nat} {rs : List (Except PoolError UInt64)}
    (h : List.Forall₂ (Batch.Yielded (batch m refusal c work)) seeds rs) :
    rs = seeds.map fun seed => .ok (Xorshift.spin seed work) := by
  induction h with
  | nil => rfl
  | cons hr _ ih =>
    obtain ⟨seq,rfl⟩ := hr
    rw [List.map_cons, ← ih]
    rfl

/-- A batch that nobody can continue has ended as it is to, whatever schedule has led there. -/
theorem exit_of_rests {ms : List (Pool.Moment UInt64 UInt64)} {s : Batch.State UInt64 UInt64}
    (hc : Batch.Course (batch m refusal c a.workCount) c.threads [seeds a] ms s)
    (hr : Batch.Rests (batch m refusal c a.workCount) s) (lines : List Log.Line) :
    (conclude a c.threads lines s.result).exit = expected refusal a c.threads := by
  have hover := hc.over_of_rests hr
  cases hstage : s.stage with
  | building | serving | closing =>
    rw [hstage] at hover
    cases hover
  | failed e =>
    obtain ⟨k,hk,he,hfirst⟩ := hc.refused hstage
    have hresult : s.result = .error (.refused (.os e)) := by
      unfold Batch.State.result
      rw [hstage]
    have hrefused : (List.range c.threads).findSome? refusal = some e :=
      Pool.findSome?_range_of_first hk he hfirst
    rw [hresult, expected, hrefused]
    rfl
  | unwound => cases hc.staged_at hstage
  | closed =>
    have hresult : s.result = .ok s := by
      unfold Batch.State.result
      rw [hstage]
    obtain ⟨u,hu⟩ := List.length_eq_one_iff.mp hc.length
    have hresults := results_eq (hc.results hstage (i := 0) rfl (congrArg (·[0]?) hu))
    have hgranted : (List.range c.threads).findSome? refusal = none :=
      Pool.findSome?_range_of_granted (hc.granted hstage)
    rw [hresult, expected, hgranted]
    simp only [conclude, hu, List.flatMap_cons, List.flatMap_nil, List.append_nil, hresults,
      checksum_seeds]

end Batch

/-! ## The program -/

section Program
variable (m : Machine) (refusal : Nat → Option Os.Error) (a : Arguments)

theorem exit_runWith (c : Config) (feasible : Pool.Feasible c.threads) :
    (runWith m refusal a c).exit = expected refusal a c.threads := by
  obtain ⟨ms,s,hc,hr,hresult⟩ :=
    (batch m refusal c a.workCount).run_rests (calm_batch m refusal c a.workCount) feasible [seeds a]
  unfold runWith
  dsimp only
  rw [hresult]
  exact exit_of_rests hc hr _

theorem exit_runWith_zero (c : Config) (hn : c.threads = 0) :
    (runWith m refusal a c).exit = .failed .invalidThreadCount := by
  simp [runWith, Batch.run, Pool.create, hn, conclude, fail]

variable {m refusal a} {n : Nat}

theorem expected_of_granted (h : ∀ k < n, refusal k = none) :
    expected refusal a n = .summary ⟨a.taskCount,n,.ofNat (total a.taskCount a.workCount)⟩ := by
  rw [expected, Pool.findSome?_range_of_granted h]

theorem expected_of_refused (h : ∃ k < n, refusal k ≠ none) :
    ∃ e, expected refusal a n = .failed (.os e) := by
  obtain ⟨k,hk,hne⟩ := h
  cases hsome : (List.range n).findSome? refusal with
  | none => exact absurd (List.findSome?_eq_none_iff.mp hsome k (List.mem_range.mpr hk)) hne
  | some e =>
    refine ⟨e,?_⟩
    rw [expected, hsome]

theorem output_summary (tasks n work : Nat) (elapsed : String) :
    (Exit.summary ⟨tasks,n,.ofNat (total tasks work)⟩).output elapsed =
      "tasks=" ++ toString tasks ++ " threads=" ++ toString n ++ " elapsed_ms=" ++ elapsed ++
        " checksum=" ++ toString (total tasks work) ++ "\n" := by
  have hword : (UInt64.ofNat (total tasks work)).toNat = total tasks work := by
    rw [UInt64.toNat_ofNat', total, Nat.mod_mod]
  have htext : (Exit.summary ⟨tasks,n,.ofNat (total tasks work)⟩).output elapsed =
      "tasks=" ++ toString tasks ++ " threads=" ++ toString n ++ " elapsed_ms=" ++ elapsed ++
        " checksum=" ++ toString (UInt64.ofNat (total tasks work)).toNat ++ "\n" := rfl
  rw [htext, hword]

/-- There is no result exactly then. -/
def Hindered (refusal : Nat → Option Os.Error) (a : Arguments)
    (file : String → Except Os.Error ByteArray) : Prop :=
  (∃ e, configured a file = .error e) ∨
    ∃ c, configured a file = .ok c ∧ (a.workers c = 0 ∨ ∃ k < a.workers c, refusal k ≠ none)

section Read
variable {arguments : List String} (hread : Arguments.read arguments = .ok a)
  {file : String → Except Os.Error ByteArray} {c : Config}
include hread

theorem exit_of_unreadable {e : PoolError} (h : configured a file = .error e) :
    (run m refusal file arguments).exit = .failed e := by
  simp [run, hread, runArguments, h, fail]

theorem exit_of_configured (h : configured a file = .ok c) :
    (run m refusal file arguments).exit = (runWith m refusal a (effective a c)).exit := by
  simp [run, hread, runArguments, h]

theorem exit_of_feasible (h : configured a file = .ok c)
    (feasible : Pool.Feasible (a.workers c)) :
    (run m refusal file arguments).exit = expected refusal a (a.workers c) := by
  rw [exit_of_configured hread h]
  exact exit_runWith m refusal a (effective a c) feasible

/-- Whatever hinders a run, the program says so and fails. -/
theorem failed_of_hindered (hroom : ∀ c, configured a file = .ok c →
      Pool.handleSize * a.workers c ≤ Pool.handlesLimit) (h : Hindered refusal a file) :
    ∃ e, (run m refusal file arguments).exit = .failed e := by
  rcases h with ⟨e,h⟩ | ⟨c,h,hn⟩
  · exact ⟨e,exit_of_unreadable hread h⟩
  · rcases Nat.eq_zero_or_pos (a.workers c) with hzero | hpos
    · refine ⟨.invalidThreadCount,?_⟩
      rw [exit_of_configured hread h]
      exact exit_runWith_zero m refusal a (effective a c) hzero
    · obtain ⟨e,he⟩ := expected_of_refused (a := a) (hn.resolve_left hpos.ne')
      refine ⟨.os e,?_⟩
      rw [exit_of_feasible hread h ⟨hpos,hroom c h⟩, he]

theorem exit_of_granted (h : configured a file = .ok c) (feasible : Pool.Feasible (a.workers c))
    (hall : ∀ k < a.workers c, refusal k = none) : (run m refusal file arguments).exit =
      .summary ⟨a.taskCount,a.workers c,.ofNat (total a.taskCount a.workCount)⟩ :=
  (exit_of_feasible hread h feasible).trans (expected_of_granted hall)

theorem no_summary_iff (hroom : ∀ c, configured a file = .ok c →
      Pool.handleSize * a.workers c ≤ Pool.handlesLimit) :
    (∀ s, (run m refusal file arguments).exit ≠ .summary s) ↔ Hindered refusal a file := by
  constructor
  · intro hno
    cases h : configured a file with
    | error e => exact .inl ⟨e,h⟩
    | ok c =>
      refine .inr ⟨c,h,Classical.or_iff_not_imp_left.mpr fun hn => ?_⟩
      refine Classical.byContradiction fun hall => ?_
      refine hno _ (exit_of_granted hread h ⟨Nat.pos_of_ne_zero hn,hroom c h⟩ ?_)
      simpa using hall
  · intro h s hs
    obtain ⟨e,he⟩ := failed_of_hindered hread hroom h
    rw [he] at hs
    cases hs

end Read

/-- Every schedule of the batch comes to an end, and leads to the same exit. -/
theorem exit_of_schedule {c : Config} (feasible : Pool.Feasible c.threads) {lines : List Log.Line}
    {vs : List Batch.Move} {s : Batch.State UInt64 UInt64}
    (hr : Batch.Run (batch m refusal c a.workCount)
      (Batch.start (Pool.blank 0 c.threads Batch.mainThread) lines [seeds a]) vs s) :
    vs.length ≤ Batch.bound c.threads [seeds a] + 2 * Batch.stirs vs ∧
      (Batch.Rests (batch m refusal c a.workCount) s → ∀ lines,
        (conclude a c.threads lines s.result).exit = expected refusal a c.threads) := by
  have h₀ : Pool.Fresh c.threads
      (Pool.blank 0 c.threads Batch.mainThread : Pool UInt64 UInt64) :=
    ⟨0,"",Batch.mainThread,_,Pool.create_of_feasible feasible _ _⟩
  have calm := calm_batch m refusal c a.workCount
  have hstart := Batch.course_start (batch m refusal c a.workCount) calm h₀ lines [seeds a]
  have hlen := hr.length_le hstart
  have hdue := Batch.due_start_le (V := UInt64) c.threads lines [seeds a]
  refine ⟨by omega,fun hrests lines => ?_⟩
  obtain ⟨ms,hc⟩ := hr.course hstart
  exact exit_of_rests hc hrests lines

end Program

/-- The configuration is the one in the file that the command line names, or the standard one. The
checksum is the sum over all seeds, whatever the machine, the number of workers, the pinning and the
schedule. Every schedule comes to an end and leads to the exit of the program. There is no
result exactly if the configuration cannot be read, there are to be no workers, or the system refuses
one; then the program exits with code 1. -/
theorem checksum_of_every_schedule {arguments : List String} {a : Arguments}
    (hread : Arguments.read arguments = .ok a) (m : Machine) (refusal : Nat → Option Os.Error)
    (file : String → Except Os.Error ByteArray)
    (hroom : ∀ c, configured a file = .ok c →
      Pool.handleSize * a.workers c ≤ Pool.handlesLimit) :
    (a.taskCount < 2 ^ 64 ∧ a.workCount < 2 ^ 64) ∧
      (a.config = none → configured a file = .ok .standard) ∧
      (∀ path, a.config = some path → configured a file = Config.ofFile (file path)) ∧
      Config.standard.threads = 3 ∧
      (∀ c, configured a file = .ok c → 0 < a.workers c →
        (∀ k < a.workers c, refusal k = none) →
          (run m refusal file arguments).exit =
              .summary ⟨a.taskCount,a.workers c,.ofNat (total a.taskCount a.workCount)⟩ ∧
            ∀ elapsed, (run m refusal file arguments).exit.output elapsed =
              "tasks=" ++ toString a.taskCount ++ " threads=" ++ toString (a.workers c) ++
                " elapsed_ms=" ++ elapsed ++ " checksum=" ++
                toString (total a.taskCount a.workCount) ++ "\n") ∧
      (∀ c, configured a file = .ok c → 0 < a.workers c → ∀ lines vs s,
        Batch.Run (batch m refusal (effective a c) a.workCount)
            (Batch.start (Pool.blank 0 (a.workers c) Batch.mainThread) lines [seeds a]) vs s →
          vs.length ≤ Batch.bound (a.workers c) [seeds a] + 2 * Batch.stirs vs ∧
            (Batch.Rests (batch m refusal (effective a c) a.workCount) s → ∀ lines,
              (conclude a (a.workers c) lines s.result).exit =
                (run m refusal file arguments).exit)) ∧
      ((∀ s, (run m refusal file arguments).exit ≠ .summary s) ↔
        (∃ e, configured a file = .error e) ∨ ∃ c, configured a file = .ok c ∧
          (a.workers c = 0 ∨ ∃ k < a.workers c, refusal k ≠ none)) ∧
      ((∀ s, (run m refusal file arguments).exit ≠ .summary s) →
        (run m refusal file arguments).exit.code = 1 ∧
          ∀ elapsed, (run m refusal file arguments).exit.output elapsed = "") := by
  have hiff : (∀ s, (run m refusal file arguments).exit ≠ .summary s) ↔
      Hindered refusal a file := no_summary_iff hread hroom
  refine ⟨Arguments.words_read hread,?_,?_,rfl,?_,?_,hiff,?_⟩
  · intro hnone
    rw [configured, hnone]
  · intro path hsome
    rw [configured, hsome]
  · intro c h hn hall
    have hexit := exit_of_granted (m := m) hread h ⟨hn,hroom c h⟩ hall
    refine ⟨hexit,fun elapsed => ?_⟩
    rw [hexit]
    exact output_summary ..
  · intro c h hn lines vs s hr
    have feasible : Pool.Feasible (a.workers c) := ⟨hn,hroom c h⟩
    have hschedule := exit_of_schedule (c := effective a c) feasible hr
    rw [exit_of_feasible hread h feasible]
    exact hschedule
  · intro hno
    obtain ⟨e,he⟩ := failed_of_hindered (m := m) hread hroom (hiff.mp hno)
    rw [he]
    exact ⟨rfl,fun _ => rfl⟩

/-- A file that asks for two workers, and no other. -/
def onlyFile (path : String) : Except Os.Error ByteArray :=
  if path = "pool.json" then .ok "\x7b\"threads\":2\x7d".toUTF8 else .error (.numbered 2)

/-- Two tasks come to the same on as many workers as a file says and on one that is not pinned. Without
the file there is no result. -/
theorem checksum_of_two_tasks :
    (run .single (fun _ => none) onlyFile
          ["--config", "pool.json", "--tasks", "2", "--work", "1"]).exit.output "7" =
        "tasks=2 threads=2 elapsed_ms=7 checksum=2164539522\n" ∧
      (run .single (fun _ => none) onlyFile
          ["--config", "pool.json", "--no-pin", "--tasks", "2", "--work", "1",
            "--threads", "1"]).exit =
        .summary ⟨2,1,2164539522⟩ ∧
      (run .single (fun _ => none) onlyFile
          ["--config", "lost.json", "--tasks", "2", "--work", "1"]).exit.code = 1 := by
  have h₂ : Arguments.read ["--config", "pool.json", "--tasks", "2", "--work", "1"] =
      .ok ⟨some "pool.json",none,some 2,some 1,false⟩ := by decide +kernel
  have h₁ : Arguments.read ["--config", "pool.json", "--no-pin", "--tasks", "2", "--work", "1",
      "--threads", "1"] = .ok ⟨some "pool.json",some 1,some 2,some 1,true⟩ := by decide +kernel
  have h₀ : Arguments.read ["--config", "lost.json", "--tasks", "2", "--work", "1"] =
      .ok ⟨some "lost.json",none,some 2,some 1,false⟩ := by decide +kernel
  have hfile : Config.ofFile (onlyFile "pool.json") = .ok (.withThreads 2) := by decide +kernel
  have hlost : Config.ofFile (onlyFile "lost.json") = .error (.os (.numbered 2)) := rfl
  have hroom : ∀ a : Arguments, a.config = some "pool.json" → a.workers (.withThreads 2) ≤ 2 →
      ∀ c, configured a onlyFile = .ok c → Pool.handleSize * a.workers c ≤ Pool.handlesLimit := by
    intro a ha hle c hc
    rw [configured, ha] at hc
    obtain rfl := Except.ok.inj (hfile.symm.trans hc)
    exact (Nat.mul_le_mul_left _ hle).trans (by decide)
  obtain ⟨-,-,hread₂,-,htwo,-⟩ := checksum_of_every_schedule h₂ .single (fun _ => none) onlyFile
    (hroom _ rfl (by decide))
  obtain ⟨-,-,hread₁,-,hone,-⟩ := checksum_of_every_schedule h₁ .single (fun _ => none) onlyFile
    (hroom _ rfl (by decide))
  obtain ⟨-,-,hread₀,-,-,-,hnone,hcode⟩ := checksum_of_every_schedule h₀ .single (fun _ => none)
    onlyFile fun c hc => nomatch hc
  have hpool₂ := (hread₂ _ rfl).trans hfile
  have hpool₁ := (hread₁ _ rfl).trans hfile
  refine ⟨?_,?_,?_⟩
  · exact ((htwo _ hpool₂ (by decide) fun _ _ => rfl).2 "7").trans (by decide +kernel)
  · exact (hone _ hpool₁ (by decide) fun _ _ => rfl).1.trans (by decide +kernel)
  · exact (hcode (hnone.mpr (.inl ⟨_,(hread₀ _ rfl).trans hlost⟩))).1

end PinnedPool.Bench
