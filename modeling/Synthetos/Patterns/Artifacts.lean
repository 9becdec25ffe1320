import Synthetos.Lib.Json
import Synthetos.Lib.Text
import Mathlib.Data.List.Nodup

/-!
# Pattern candidates

The rows that consolidation mines, with the columns it reads, and the candidate each of them gives
rise to.  A content key is a hash of the normalized texts that name the pattern.
-/

namespace Synthetos.Patterns

open Lib

abbrev Id := Nat
abbrev Timestamp := Nat

inductive PatternType where
  | failure
  | remediation
  | signalTrajectory
  | successfulLine
  | retrievalHeuristic
deriving DecidableEq, Repr

def PatternType.value : PatternType → String
  | .failure => "failure"
  | .remediation => "remediation"
  | .signalTrajectory => "signal_trajectory"
  | .successfulLine => "successful_line"
  | .retrievalHeuristic => "retrieval_heuristic"

def defaultTypes : List PatternType :=
  [.failure, .remediation, .signalTrajectory, .successfulLine, .retrievalHeuristic]

inductive ArtifactType where
  | postmortem
  | remediationAction
  | directionalSignal
  | metricFrontier
  | loopDecision
deriving DecidableEq, Repr

structure ResearchCharter where
  id : Id
  sourceScope : Dict

structure ResearchCycle where
  id : Id
  charterId : Id
  config : Dict

structure HypothesisCard where
  id : Id
  charterId : Id
  cycleId : Id
  title : List Char
  statement : List Char

structure ExperimentSpec where
  id : Id
  charterId : Id
  hypothesisCardId : Id

structure FailurePostmortem where
  id : Id
  charterId : Id
  cycleId : Id
  failureClass : List Char
  rootCause : List Char
  contributingFactors : List Json
  lessons : List Json
  nextStepRecommendation : Json
  createdAt : Timestamp

structure RemediationAction where
  id : Id
  charterId : Id
  cycleId : Id
  failureClass : List Char
  strategy : List Char
  strategyTier : List Char
  outcome : List Char
  reasoning : List Char
  attemptNumber : Int
  actionDetail : Json
  createdAt : Timestamp

structure DirectionalSignal where
  id : Id
  charterId : Id
  cycleId : Id
  experimentSpecId : Id
  signal : List Char
  primaryMetricName : List Char
  primaryMetricDirection : List Char
  primaryMetricValue : Rat
  primaryMetricDelta : Json
  reasoning : List Char
  createdAt : Timestamp

structure MetricFrontier where
  id : Id
  charterId : Id
  hypothesisCardId : Id
  primaryMetricName : List Char
  primaryMetricDirection : List Char
  bestMetricValue : Rat
  bestAchievedAt : Timestamp
  totalRuns : Int
  successfulRuns : Int

structure LoopDecision where
  id : Id
  charterId : Id
  cycleId : Id
  decision : String
  gateTriggered : Json
  nextAction : Json
  reasoning : List Char
  createdAt : Timestamp

/-- The tables consolidation reads.  Primary keys are unique, and what a row refers to exists
and is in the same charter: every writer copies the charter of the row it refers to. -/
structure Artifacts where
  charters : List ResearchCharter
  cycles : List ResearchCycle
  cards : List HypothesisCard
  specs : List ExperimentSpec
  postmortems : List FailurePostmortem
  actions : List RemediationAction
  signals : List DirectionalSignal
  frontiers : List MetricFrontier
  decisions : List LoopDecision
  uniqueCharters : (charters.map ResearchCharter.id).Nodup
  uniqueCycles : (cycles.map ResearchCycle.id).Nodup
  uniqueCards : (cards.map HypothesisCard.id).Nodup
  uniqueSpecs : (specs.map ExperimentSpec.id).Nodup
  uniquePostmortems : (postmortems.map FailurePostmortem.id).Nodup
  uniqueActions : (actions.map RemediationAction.id).Nodup
  uniqueSignals : (signals.map DirectionalSignal.id).Nodup
  uniqueFrontiers : (frontiers.map MetricFrontier.id).Nodup
  uniqueDecisions : (decisions.map LoopDecision.id).Nodup
  cardCycle : ∀ card ∈ cards, ∃ cycle ∈ cycles,
    cycle.id = card.cycleId ∧ cycle.charterId = card.charterId
  specCard : ∀ spec ∈ specs, ∃ card ∈ cards,
    card.id = spec.hypothesisCardId ∧ card.charterId = spec.charterId
  signalSpec : ∀ signal ∈ signals, ∃ spec ∈ specs,
    spec.id = signal.experimentSpecId ∧ spec.charterId = signal.charterId
  frontierCard : ∀ frontier ∈ frontiers, ∃ card ∈ cards,
    card.id = frontier.hypothesisCardId ∧ card.charterId = frontier.charterId

/-- What the host provides: SHA-256 in hexadecimal, `json.dumps` with sorted keys, `str.lower`,
whether the mapped class `ResearchCharter` has an attribute `charter_id`, and which artifacts are
read with times that have a zone.  The classes are not part of the sources; the table of charters
has no such column, and of the tables of artifacts only that of postmortems has times without. -/
structure Host where
  sha256 : List Char → List Char
  dumps : Dict → List Char
  charterHasCharterId : Bool
  zoned : PatternType → Bool
  lower : List Char → List Char := Text.lower

structure PatternCandidate where
  patternType : PatternType
  contentKey : List Char
  title : List Char
  summary : List Char
  structuredBody : Dict
  charterId : Id
  cycleId : Option Id
  sourceArtifactType : ArtifactType
  sourceArtifactId : Id
  observedAt : Timestamp
  contribution : Option Dict := none

def text (s : List Char) : Json := .str (String.ofList s)

/-- `_normalize_text`: lower case keeps white space, and a stripped text has none at its ends, so
joining its words by one blank is what the substitution of runs of white space does. -/
def normalizeText (host : Host) (s : List Char) : List Char :=
  Text.join " " (Text.words (host.lower s))

def Host.hash (host : Host) (parts : List (List Char)) : List Char :=
  host.sha256 (Text.join "|" parts)

def failureKey (host : Host) (failureClass rootCause : List Char) : List Char :=
  host.hash [normalizeText host failureClass, normalizeText host rootCause]

def remediationKey (host : Host) (failureClass strategy outcome : List Char) : List Char :=
  host.hash [normalizeText host failureClass, normalizeText host strategy, normalizeText host outcome]

def signalTrajectoryKey (host : Host) (methodFamily primaryMetricName directionBucket : List Char) :
    List Char :=
  host.hash [normalizeText host methodFamily, normalizeText host primaryMetricName,
    normalizeText host directionBucket]

def successfulLineKey (host : Host) (methodFamily primaryMetricName problemDomain : List Char) :
    List Char :=
  host.hash [normalizeText host methodFamily, normalizeText host primaryMetricName,
    normalizeText host problemDomain]

def retrievalHeuristicKey (host : Host) (heuristicKind : List Char) (parameters : Dict) :
    List Char :=
  host.hash [normalizeText host heuristicKind, host.dumps parameters]

def unspecified : List Char := "unspecified".toList

def normalizeRootCause (host : Host) (s : List Char) : List Char :=
  if s.isEmpty then unspecified else (host.lower (Text.join " " (Text.words s))).take 200

def extractFailure (host : Host) (pm : FailurePostmortem) : PatternCandidate :=
  let rootCause := normalizeRootCause host pm.rootCause
  { patternType := .failure
    contentKey := failureKey host pm.failureClass rootCause
    title := pm.failureClass ++ ": ".toList ++ rootCause.take 80
    summary := if pm.rootCause.isEmpty then "No root cause recorded.".toList else pm.rootCause
    structuredBody :=
      [("failure_class", text pm.failureClass), ("root_cause_normalized", text rootCause),
        ("contributing_factors", .arr pm.contributingFactors),
        ("lesson_count", .int pm.lessons.length)]
    charterId := pm.charterId
    cycleId := some pm.cycleId
    sourceArtifactType := .postmortem
    sourceArtifactId := pm.id
    observedAt := pm.createdAt
    contribution := some [("next_step_recommendation", pm.nextStepRecommendation)] }

def extractRemediation (host : Host) (ra : RemediationAction) : PatternCandidate where
  patternType := .remediation
  contentKey := remediationKey host ra.failureClass ra.strategy ra.outcome
  title := ra.failureClass ++ " → ".toList ++ ra.strategy ++ " (".toList ++ ra.outcome ++ ")".toList
  summary :=
    if ra.reasoning.isEmpty then
      ra.strategy ++ " attempted on ".toList ++ ra.failureClass ++ ".".toList
    else ra.reasoning
  structuredBody :=
    [("failure_class", text ra.failureClass), ("strategy", text ra.strategy),
      ("strategy_tier", text ra.strategyTier), ("outcome", text ra.outcome)]
  charterId := ra.charterId
  cycleId := some ra.cycleId
  sourceArtifactType := .remediationAction
  sourceArtifactId := ra.id
  observedAt := ra.createdAt
  contribution := some [("attempt_number", .int ra.attemptNumber), ("action_detail", ra.actionDetail)]

/-- `_method_family_from_hypothesis`: the first word of the title, else of the statement. -/
def methodFamily (host : Host) : Option HypothesisCard → List Char
  | none => unspecified
  | some card =>
    match ([card.title, card.statement].map Text.words).find? (!·.isEmpty) with
    | some (token :: _) => host.lower token
    | _ => unspecified

def directionBucket (signal : DirectionalSignal) : List Char :=
  signal.primaryMetricDirection ++ "_".toList ++ signal.signal

def extractSignalTrajectory (host : Host) (signal : DirectionalSignal)
    (hypothesis : Option HypothesisCard) : PatternCandidate where
  patternType := .signalTrajectory
  contentKey :=
    signalTrajectoryKey host (methodFamily host hypothesis) signal.primaryMetricName
      (directionBucket signal)
  title :=
    methodFamily host hypothesis ++ " / ".toList ++ signal.primaryMetricName ++ " (".toList ++
      directionBucket signal ++ ")".toList
  summary := signal.reasoning
  structuredBody :=
    [("method_family", text (methodFamily host hypothesis)),
      ("primary_metric_name", text signal.primaryMetricName),
      ("primary_metric_direction", text signal.primaryMetricDirection),
      ("signal", text signal.signal), ("direction_bucket", text (directionBucket signal)),
      ("primary_metric_delta", signal.primaryMetricDelta)]
  charterId := signal.charterId
  cycleId := some signal.cycleId
  sourceArtifactType := .directionalSignal
  sourceArtifactId := signal.id
  observedAt := signal.createdAt
  contribution := some [("primary_metric_value", .float signal.primaryMetricValue)]

def extractSuccessfulLine (host : Host) (frontier : MetricFrontier)
    (hypothesis : Option HypothesisCard) (cycleId : Option Id) (problemDomain : List Char) :
    PatternCandidate where
  patternType := .successfulLine
  contentKey :=
    successfulLineKey host (methodFamily host hypothesis) frontier.primaryMetricName problemDomain
  title :=
    "Successful line: ".toList ++ methodFamily host hypothesis ++ " / ".toList ++
      frontier.primaryMetricName ++ " [".toList ++ problemDomain ++ "]".toList
  summary :=
    "best=".toList ++ (Json.float frontier.bestMetricValue).strChars ++ " runs=".toList ++
      (Json.int frontier.totalRuns).strChars ++ " successful=".toList ++
      (Json.int frontier.successfulRuns).strChars
  structuredBody :=
    [("method_family", text (methodFamily host hypothesis)),
      ("primary_metric_name", text frontier.primaryMetricName),
      ("primary_metric_direction", text frontier.primaryMetricDirection),
      ("best_metric_value", .float frontier.bestMetricValue),
      ("problem_domain", text problemDomain), ("total_runs", .int frontier.totalRuns),
      ("successful_runs", .int frontier.successfulRuns)]
  charterId := frontier.charterId
  cycleId := cycleId
  sourceArtifactType := .metricFrontier
  sourceArtifactId := frontier.id
  observedAt := frontier.bestAchievedAt

def extractRetrievalHeuristic (host : Host) (decision : LoopDecision) : Option PatternCandidate :=
  if decision.decision ∈ ["parameter_variation", "hypothesis_pivot"] then
    let kind := "loop_".toList ++ decision.decision.toList
    let parameters : Dict :=
      [("gate_triggered", decision.gateTriggered), ("next_action", decision.nextAction)]
    some
      { patternType := .retrievalHeuristic
        contentKey := retrievalHeuristicKey host kind parameters
        title := "Loop heuristic: ".toList ++ decision.decision.toList
        summary := decision.reasoning
        structuredBody := [("heuristic_kind", text kind), ("parameters", .obj parameters)]
        charterId := decision.charterId
        cycleId := some decision.cycleId
        sourceArtifactType := .loopDecision
        sourceArtifactId := decision.id
        observedAt := decision.createdAt }
  else none

end Synthetos.Patterns
