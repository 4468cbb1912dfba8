import PinnedPool.Scenario.Run

/-! # A race for one registry

Many threads set up the same registry at once, each with a pool size of its own. The first to get
the lock decides, and all of them receive its pool.
-/
namespace PinnedPool.Scenario

def race (m : Machine) (asked : List Nat) : List (Option (Value Unit)) :=
  let actions : List (Action Unit) :=
    asked.map fun n => .registry "contested" (.setUp (.threads n)) none
  let n := budget actions
  let w := actions.zipIdx.foldl
    (fun w (a, i) => w.perform (World.helperThread i) [] 0 a) (World.start m)
  let w := w.settle n n
  (List.range asked.length).map fun i => w.answer? (World.helperThread i)

def received : Option (Value Unit) → Option Nat
  | some (.pool v) => some v.threads
  | _ => none

/-- Whether all threads received the same size, and one that was asked for. -/
structure RaceReport where
  same : Bool
  inRange : Bool
deriving DecidableEq, Repr

/-- The race of as many threads, each with a size that is at most the given one. -/
def raceUpTo (m : Machine) (threads most : Nat) : RaceReport :=
  let sizes := (race m ((List.range threads).map fun i => (i + 1) % most + 1)).map received
  { same := sizes.all (· = sizes.headD none)
    inRange := sizes.all fun n => n.any fun n => 1 ≤ n && n ≤ most }

end PinnedPool.Scenario
