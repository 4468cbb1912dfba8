import PinnedPool.Config

/-! # Log lines

A line is what happened; its level, its target and its text follow from that alone.
-/
namespace PinnedPool.Log

inductive Level where
  | debug
  | info
  | warn
  | error
deriving DecidableEq, Repr

def Level.name : Level → String
  | debug => "DEBUG"
  | info => "INFO"
  | warn => "WARN"
  | error => "ERROR"

/-- The part of the program that a line comes from. -/
inductive Topic where
  | topology
  | affinity
  | pool
  | registry
  | benchmark
deriving DecidableEq, Repr

/-- The name by which a topic is filtered. -/
def Topic.target : Topic → String
  | topology => "bigcore::config"
  | affinity => "bigcore::affinity"
  | pool => "bigcore::thread_pool::worker_pool"
  | registry => "bigcore::thread_pool::registry"
  | benchmark => "bigcore_bench"

/-- The name of a worker's thread. -/
def workerName (worker : Nat) : String := "pool-worker-" ++ toString worker

inductive Line where
  | suspicious (warning : Topology.Warning)
  | selected (backend : String)
  | noCpus (cores : CoreClass) (thread : String)
  | pinned (thread : String) (cpus : List Nat)
  | restricted (thread : String) (cores : CoreClass) (cpus : List Nat)
  | notRestricted (thread : String) (error : PoolError)
  | creating (threads : Nat) (backend : String)
  | spawnFailed (worker : Nat) (error : Os.Error)
  | started (worker : Nat)
  | executing (worker seq : Nat)
  | jobPanicked (worker : Nat) (message : String)
  | leaving (worker : Nat)
  | notJoining
  | terminated (worker : Nat)
  | destroyed
  | alreadyInitialized (threads asked : Nat)
  | initialized (threads : Nat)
  | autoInitialized (threads : Nat)
  | registryShutdown
  | benchmark (version : String)
  | machine (cpus : Nat) (topology : Topology)
  | failure (error : PoolError)
deriving DecidableEq, Repr

namespace Line

def level : Line → Level
  | suspicious _ | noCpus _ _ | notRestricted _ _ | autoInitialized _ => .warn
  | selected _ | restricted _ _ _ | started _ | executing _ _ | leaving _ | notJoining
  | alreadyInitialized _ _ => .debug
  | pinned _ _ | creating _ _ | destroyed | initialized _ | registryShutdown | benchmark _
  | machine _ _ => .info
  | spawnFailed _ _ | jobPanicked _ _ | terminated _ | failure _ => .error

def topic : Line → Topic
  | suspicious _ => .topology
  | selected _ | noCpus _ _ | pinned _ _ | restricted _ _ _ | notRestricted _ _ => .affinity
  | creating _ _ | spawnFailed _ _ | started _ | executing _ _ | jobPanicked _ _ | leaving _
  | notJoining | terminated _ | destroyed => .pool
  | alreadyInitialized _ _ | initialized _ | autoInitialized _ | registryShutdown => .registry
  | benchmark _ | machine _ _ | failure _ => .benchmark

def text : Line → String
  | suspicious (.exceeds cpu n) =>
    "Configured CPU " ++ toString cpu ++ " exceeds the " ++ toString n ++ " logical CPUs available"
  | suspicious .noPerformance => "No performance cores configured, workers will not be pinned"
  | suspicious (.overlap cpu) =>
    "CPU " ++ toString cpu ++ " is configured as both performance and efficiency core"
  | selected backend => "Selected " ++ backend ++ " affinity backend"
  | noCpus cores thread =>
    "No CPUs configured for " ++ cores.name ++ " cores, thread " ++ thread ++ " left as is"
  | pinned thread cpus =>
    "Thread " ++ thread ++ " pinned to performance cores " ++ Text.numbers cpus
  | restricted thread cores cpus =>
    "Thread " ++ thread ++ " set to " ++ cores.name ++ " cores " ++ Text.numbers cpus
  | notRestricted thread e => "Thread " ++ thread ++ " continues unconstrained: " ++ e.message
  | creating n backend =>
    "Creating worker pool with " ++ toString n ++ " workers (" ++ backend ++ " affinity)"
  | spawnFailed w e => "Failed to spawn worker " ++ toString w ++ ": " ++ e.message
  | started w => "Worker " ++ toString w ++ " started"
  | executing w seq => "Worker " ++ toString w ++ " executing task " ++ toString seq
  | jobPanicked w m => "Worker " ++ toString w ++ " job panicked, continuing: " ++ m
  | leaving w => "Worker " ++ toString w ++ ": pool stopped, shutting down"
  | notJoining => "Worker pool stopped from one of its own workers, not joining"
  | terminated w => "Worker " ++ workerName w ++ " terminated abnormally"
  | destroyed => "Worker pool destroyed"
  | alreadyInitialized n asked =>
    "Worker pool already initialized with " ++ toString n ++ " threads, ignoring request for "
      ++ toString asked
  | initialized n => "Worker pool initialized with " ++ toString n ++ " threads"
  | autoInitialized n =>
    "Worker pool auto-initialized with " ++ toString n ++ " threads, initialize it explicitly"
  | registryShutdown => "Worker pool shutdown"
  | benchmark version => version
  | machine n t => toString n ++ " logical CPUs, topology " ++ t.term
  | failure e => e.message

/-- A line with its level in front. -/
def leveled (l : Line) : String := l.level.name ++ " " ++ l.text

/-- A line with its level and target in front. -/
def targeted (l : Line) : String := l.level.name ++ " " ++ l.topic.target ++ ": " ++ l.text

end Line
end PinnedPool.Log
