import PinnedPool.Error
import PinnedPool.Topology

/-! # Pool configuration

Every field has a default, so a configuration text needs to name only what differs. A text is read
from a string or from the bytes of a file.
-/
namespace PinnedPool

structure Config where
  threads : Nat
  pinWorkers : Bool
  topology : Topology
deriving DecidableEq, Repr

namespace Config

/-- The worker count of a pool that is not given one. -/
def defaultThreads : Nat := 3

def standard : Config := ⟨defaultThreads, true, Topology.standard⟩

def withThreads (n : Nat) : Config := { standard with threads := n }

def fields : List (Json.Field Config) := [
  .of "threads" .size fun n c => { c with threads := n },
  .of "pin_workers" .flag fun b c => { c with pinWorkers := b },
  .of "topology" Topology.reader fun t c => { c with topology := t }]

/-- A configuration by key or by position; a field that is not written is the standard one. -/
def reader : Json.Reader Config := .record "PoolConfig" fields standard

/-- Reads one value of a configuration type from a whole text. -/
def parseBytes {α : Type} (r : Json.Reader α) (text : Json.Bytes) : Except PoolError α :=
  (r.parse text).mapError .config

def parse {α : Type} (r : Json.Reader α) (text : String) : Except PoolError α :=
  parseBytes r text.toUTF8.toList

def ofString (text : String) : Except PoolError Config := parse reader text

/-- Reads the contents of a file, which must be well-formed text. -/
def ofFile (contents : Except Os.Error ByteArray) : Except PoolError Config :=
  match contents with
  | .error e => .error (.os e)
  | .ok bytes =>
    match String.fromUTF8? bytes with
    | some text => ofString text
    | none => .error (.os .notText)

/-- The configuration as a term. -/
def term (c : Config) : String :=
  "PoolConfig \x7b threads: " ++ toString c.threads ++ ", pin_workers: " ++ toString c.pinWorkers
    ++ ", topology: " ++ c.topology.term ++ " \x7d"

/-- The compact text of a configuration, which reads back. -/
def write (c : Config) : String :=
  "\x7b\"threads\":" ++ toString c.threads ++ ",\"pin_workers\":" ++ toString c.pinWorkers
    ++ ",\"topology\":" ++ c.topology.write ++ "\x7d"

end Config
end PinnedPool
