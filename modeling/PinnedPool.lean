import PinnedPool.Affinity.Session
import PinnedPool.Memory.Session
import PinnedPool.Scenario.View
import PinnedPool.Scenario.Race
import PinnedPool.Stress
import PinnedPool.Main
import PinnedPool.Proofs.Pool.Stop
import PinnedPool.Proofs.Pool.Wakeup
import PinnedPool.Proofs.Pool.Work
import PinnedPool.Proofs.Pool.Conservation
import PinnedPool.Proofs.Pool.Barrier
import PinnedPool.Proofs.Pool.Standstill
import PinnedPool.Proofs.Pool.Wait
import PinnedPool.Proofs.Registry.Sole
import PinnedPool.Proofs.Pool.Serial
import PinnedPool.Proofs.Pool.Pinning
import PinnedPool.Proofs.Registry.Atomic
import PinnedPool.Proofs.Pool.Survival
import PinnedPool.Proofs.Pool.AllOrNothing
import PinnedPool.Proofs.Json.Spelling
import PinnedPool.Proofs.Json.Wellformed
import PinnedPool.Proofs.Json.Numerals
import PinnedPool.Proofs.Json.Success
import PinnedPool.Proofs.Json.Soundness
import PinnedPool.Proofs.Json.Typed
import PinnedPool.Proofs.Json.Agreement
import PinnedPool.Proofs.Json.Repeated
import PinnedPool.Proofs.Json.Positions
import PinnedPool.Proofs.Json.Tokens
import PinnedPool.Proofs.Json.Taken
import PinnedPool.Proofs.Json.Yields
import PinnedPool.Proofs.Config.Keyed
import PinnedPool.Proofs.Config.RoundTrip
import PinnedPool.Proofs.Config.Accepted
import PinnedPool.Proofs.Config.Numbers
import PinnedPool.Proofs.Config.Positional
import PinnedPool.Proofs.Affinity.Native
import PinnedPool.Proofs.Affinity.Masks
import PinnedPool.Proofs.Memory.Allocation
import PinnedPool.Proofs.Affinity.ReadBack
import PinnedPool.Proofs.Pool.Handles
import PinnedPool.Proofs.Bench.Checksum
import PinnedPool.Proofs.Bench.Rounds
import PinnedPool.Proofs.Affinity.Warnings
import PinnedPool.Proofs.Memory.Hints
import PinnedPool.Proofs.Registry.Creation
