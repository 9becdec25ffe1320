import Synthetos.Storage.Models

/-!
# Checkpoint gates

All gates are off by default.  `evaluateGates` checks the configured gates in priority order and
returns the first that fires.
-/

namespace Synthetos.Autonomy

open Synthetos.Core Storage Lib

structure GateContext where
  runsSinceLastGate : Int
  nextHardwareProfile : Option Dict := none
  currentHardwareProfile : Option Dict := none
  isResultPromotion : Bool := false
  hasNetworkAccess : Bool := false

structure GateResult where
  gateName : GateName
  reason : String

structure NextSpecPreview where
  hardwareProfile : Option Dict := none
  hasNetworkAccess : Bool := false

def isHardwareEscalation (current next : Option Dict) : Except String Bool :=
  match next, current with
  | none, _ => .ok false
  | some _, none => .ok false
  | some next, some current => do
    if ← (next.getD "gpu_count" (.int 0)).gt (current.getD "gpu_count" (.int 0)) then
      return true
    (next.getD "memory_gb" (.int 0)).gt (current.getD "memory_gb" (.int 0))

def evaluateGates (policy : AutonomyPolicy) (context : GateContext) :
    Except String (Option GateResult) := do
  let gates := policy.checkpointGates
  if gates.afterEveryRun then
    return some ⟨.afterEveryRun, "Gate: pause after every run."⟩
  if gates.afterEveryNRuns.any fun n => n ≤ context.runsSinceLastGate then
    return some ⟨.afterEveryNRuns,
      s!"Gate: pause after every {gates.afterEveryNRuns.getD 0} runs ({context.runsSinceLastGate} since last gate)."⟩
  if gates.beforeHardwareEscalation then
    if ← isHardwareEscalation context.currentHardwareProfile context.nextHardwareProfile then
      return some ⟨.beforeHardwareEscalation,
        "Gate: hardware escalation detected (e.g., GPU count increase)."⟩
  if gates.beforeResultPromotion && context.isResultPromotion then
    return some ⟨.beforeResultPromotion,
      "Gate: hypothesis reached validated status, pausing before promotion."⟩
  if gates.beforeNetworkExecution && context.hasNetworkAccess then
    return some ⟨.beforeNetworkExecution, "Gate: next run requires network access."⟩
  return none

/-- The gates a launch site pauses for. -/
def stopsLaunch : GateName → Bool
  | .beforeHardwareEscalation | .beforeNetworkExecution => true
  | _ => false

def networkMarkers : List String :=
  ["requests.", "httpx.", "urllib.request", "https://", "http://", "wget ", "curl "]

def detectNetworkAccess (spec : ExperimentSpec) : Bool :=
  let codePlan := spec.codePlan.getD []
  let buildRecipe := spec.buildRecipe.getD []
  let explicitFlags := [codePlan.get? "requires_network", codePlan.get? "network_access",
    buildRecipe.get? "requires_network", buildRecipe.get? "network_access"]
  if explicitFlags.any fun flag => flag.any Json.truthy then true
  else
    let files := match codePlan.get? "files" with
      | some (.obj fields) => fields.map fun field => field.2.strChars
      | _ => []
    let texts := [codePlan.get? "entry_point", codePlan.get? "dependencies",
      codePlan.get? "instructions", buildRecipe.get? "dockerfile_content"].filterMap fun value =>
        match value with
        | none | some .null => none
        | some v => some v.strChars
    (files ++ texts).any fun blob =>
      networkMarkers.any fun marker => containsText marker.toList blob

def previewNextSpec (spec : ExperimentSpec) : NextSpecPreview :=
  { hardwareProfile := spec.hardwareProfile, hasNetworkAccess := detectNetworkAccess spec }

end Synthetos.Autonomy
