import PinnedPool.Bench.Run

/-! # The benchmark program -/
namespace PinnedPool.Bench

/-- The system's number for a failed file access. -/
def systemError : IO.Error → Os.Error
  | .noFileOrDirectory _ code _ => .numbered code.toInt32
  | .permissionDenied _ code _ => .numbered code.toInt32
  | .inappropriateType _ code _ => .numbered code.toInt32
  | .invalidArgument _ code _ => .numbered code.toInt32
  | .resourceExhausted _ code _ => .numbered code.toInt32
  | .otherError code _ => .numbered code.toInt32
  | e => .custom (toString e)

def contents (path : String) : IO (Except Os.Error ByteArray) := do
  try
    return .ok (← IO.FS.readBinFile path)
  catch e =>
    return .error (systemError e)

/-- The configuration file that a command line names. -/
def namedFile (arguments : List String) : IO (Except Os.Error ByteArray) :=
  match Arguments.read arguments with
  | .ok { config := some path, .. } => contents path
  | _ => return .error .missing

def Report.print (r : Report) (elapsed : Nat) : IO Unit := do
  for line in r.logged do
    IO.eprintln line.targeted
  match r.exit with
  | .refused e => IO.eprintln e.message
  | _ => IO.print (r.exit.output (toString elapsed))

end PinnedPool.Bench

def main (arguments : List String) : IO UInt32 := do
  let file ← PinnedPool.Bench.namedFile arguments
  let began ← IO.monoMsNow
  let r := PinnedPool.Bench.run .single (fun _ => none) (fun _ => file) arguments
  r.print ((← IO.monoMsNow) - began)
  return r.exit.code.toUInt32
