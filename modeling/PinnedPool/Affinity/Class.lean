/-! # Classes of cores -/
namespace PinnedPool

/-- The cores a thread can be restricted to. -/
inductive CoreClass where
  | performance
  | efficiency
  | unconstrained
deriving DecidableEq, Repr

def CoreClass.name : CoreClass → String
  | performance => "Performance"
  | efficiency => "Efficiency"
  | unconstrained => "Unconstrained"

end PinnedPool
