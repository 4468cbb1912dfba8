import PinnedPool.Bench.Arguments
import PinnedPool.Bench.Xorshift
import PinnedPool.Pool.Batch

/-! # Running the benchmark

The command line overrides the configuration file, which overrides the standard configuration. Each
task spins from its own seed, and the checksum adds up what the tasks yield, so it tells nothing of
the schedule.
-/
namespace PinnedPool.Bench

def version : String := "bigcore-bench 0.1.0"

def helpText : String :=
  "Runs a synthetic workload on a performance-core worker pool\n\n" ++
  "Usage: bigcore-bench [OPTIONS]\n\n" ++
  "Options:\n" ++
  "      --config <PATH>  JSON pool configuration; flags below override it\n" ++
  "      --threads <N>    Number of worker threads\n" ++
  "      --tasks <N>      Number of tasks to submit [default: 1000]\n" ++
  "      --work <N>       Spin iterations per task [default: 10000]\n" ++
  "      --no-pin         Do not pin workers to performance cores\n" ++
  "  -h, --help           Print help\n" ++
  "  -V, --version        Print version\n"

/-- The configuration that the command line leaves of the file's. -/
def effective (a : Arguments) (c : Config) : Config :=
  { c with
    threads := a.threads.getD c.threads
    pinWorkers := c.pinWorkers && !a.noPin }

/-- The configuration that is read before the command line has its say. -/
def configured (a : Arguments) (file : String → Except Os.Error ByteArray) :
    Except PoolError Config :=
  match a.config with
  | none => .ok .standard
  | some path => Config.ofFile (file path)

structure Summary where
  tasks : Nat
  threads : Nat
  checksum : UInt64
deriving DecidableEq, Repr

/-- The line that is printed of a run that took the given number of milliseconds. -/
def Summary.text (s : Summary) (elapsed : String) : String :=
  "tasks=" ++ toString s.tasks ++ " threads=" ++ toString s.threads ++ " elapsed_ms=" ++ elapsed
    ++ " checksum=" ++ toString s.checksum.toNat ++ "\n"

/-- The sum of all results, or the first error among them. -/
def checksum : List (Except PoolError UInt64) → Except PoolError UInt64 :=
  List.foldlM (fun sum r => r.map (sum + ·)) 0

/-- One task for each seed. -/
def seeds (a : Arguments) : List UInt64 := (List.range a.taskCount).map UInt64.ofNat

def batch (m : Machine) (refusal : Nat → Option Os.Error) (c : Config) (work : Nat) :
    Batch UInt64 UInt64 where
  controller := (Controller.detect m c).1
  mask := m.initialMask
  refusal := refusal
  work seed _ := .returned (Xorshift.spin seed work)

/-- How a run of the program ends. -/
inductive Exit where
  | summary (s : Summary)
  | help
  | version
  | refused (e : UsageError)
  | failed (e : PoolError)
  | unwound (message : String)
deriving DecidableEq, Repr

def Exit.code : Exit → Nat
  | summary _ | help | version => 0
  | failed _ => 1
  | refused _ => 2
  | unwound _ => 101

/-- What goes to the standard output. -/
def Exit.output (elapsed : String) : Exit → String
  | summary s => s.text elapsed
  | help => helpText
  | version => Bench.version ++ "\n"
  | refused _ | failed _ | unwound _ => ""

structure Report where
  lines : List Log.Line
  exit : Exit

/-- The report of an error that ends the run. -/
def fail (lines : List Log.Line) (e : PoolError) : Report := ⟨lines ++ [.failure e], .failed e⟩

/-- What a finished batch leads to. -/
def conclude (a : Arguments) (threads : Nat) (lines : List Log.Line) :
    Except Failure (Batch.State UInt64 UInt64) → Report
  | .error (.refused e) => fail lines e
  | .error (.unwound m) => ⟨lines, .unwound m⟩
  | .ok s =>
    match checksum (s.submitters.flatMap (·.results)) with
    | .error e => fail lines e
    | .ok sum => ⟨lines, .summary ⟨a.taskCount, threads, sum⟩⟩

/-- Runs the benchmark with a configuration. -/
def runWith (m : Machine) (refusal : Nat → Option Os.Error) (a : Arguments) (c : Config) :
    Report :=
  let before := [.benchmark version, .machine m.logical c.topology]
    ++ (c.topology.warnings m.logical).map Log.Line.suspicious ++ (Controller.detect m c).2
  let o := (batch m refusal c a.workCount).run c.threads [seeds a]
  conclude a c.threads (before ++ o.log.map (·.2)) o.result

/-- Runs the benchmark with the arguments of a command line that could be read. -/
def runArguments (m : Machine) (refusal : Nat → Option Os.Error)
    (file : String → Except Os.Error ByteArray) (a : Arguments) : Report :=
  match configured a file with
  | .error e => fail [] e
  | .ok c => runWith m refusal a (effective a c)

/-- Runs a command line. -/
def run (m : Machine) (refusal : Nat → Option Os.Error)
    (file : String → Except Os.Error ByteArray) (arguments : List String) : Report :=
  match Arguments.read arguments with
  | .error .help => ⟨[], .help⟩
  | .error .version => ⟨[], .version⟩
  | .error (.refused e) => ⟨[], .refused e⟩
  | .ok a => runArguments m refusal file a

/-- The lines that are logged: what is only of use for debugging is left out. -/
def Report.logged (r : Report) : List Log.Line := r.lines.filter (·.level ≠ .debug)

end PinnedPool.Bench
