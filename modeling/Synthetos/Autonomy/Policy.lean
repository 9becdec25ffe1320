import Synthetos.Core.Types
import Mathlib.Algebra.Order.Ring.Unbundled.Rat

/-!
# Autonomy policy

The cycle-level configuration of the autonomous loop, as validated from
`ResearchCycle.config["autonomy"]`.
-/

namespace Synthetos.Autonomy

open Synthetos.Core

structure CheckpointGateConfig where
  afterEveryRun : Bool := false
  afterEveryNRuns : Option Int := none
  beforeHardwareEscalation : Bool := false
  beforeResultPromotion : Bool := false
  beforeNetworkExecution : Bool := false

/-- Defaults to supervised mode with no budget limits and all gates off. -/
structure AutonomyPolicy where
  mode : AutonomyMode := .supervised
  maxTotalRuns : Option Int := none
  maxWallClockHours : Option Rat := none
  maxRunsPerHypothesis : Option Int := none
  summaryInterval : Int := 5
  checkpointGates : CheckpointGateConfig := {}

end Synthetos.Autonomy
