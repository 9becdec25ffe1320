import Synthetos.Patterns.Artifacts
import Mathlib.Data.List.Sort
import Mathlib.Algebra.Order.Floor.Semiring
import Mathlib.Data.Rat.Floor

/-!
# Consolidating patterns

`consolidate_patterns` mines the artifacts of one charter or of all of them, groups the candidates
by type and content key and merges each group into the row of `canonical_patterns` with that key.
The optional embedding of a pattern is left out.
-/

namespace Synthetos.Patterns

open Lib

abbrev Key := PatternType × List Char

def PatternCandidate.key (c : PatternCandidate) : Key := (c.patternType, c.contentKey)

structure AggregatedPattern where
  patternType : PatternType
  contentKey : List Char
  title : List Char
  summary : List Char
  structuredBody : Dict
  evidenceCount : Nat
  charterIds : List Id
  firstObservedAt : Timestamp
  lastObservedAt : Timestamp
  candidates : List PatternCandidate

namespace AggregatedPattern

def key (agg : AggregatedPattern) : Key := (agg.patternType, agg.contentKey)

def crossCharter (agg : AggregatedPattern) : Bool := 1 < agg.charterIds.length

end AggregatedPattern

/-- The group of one key: the candidate observed last names it, the sort keeps the order of
candidates observed at the same time. -/
def summarize (key : Key) (items : List PatternCandidate) : Option AggregatedPattern :=
  let sorted := items.insertionSort fun a b => a.observedAt ≤ b.observedAt
  match sorted.head?, sorted.getLast? with
  | some first, some last =>
    let charterIds := (items.map PatternCandidate.charterId).eraseDups
    some
      { patternType := key.1
        contentKey := key.2
        title := last.title
        summary := last.summary
        structuredBody := last.structuredBody.set "charter_count" (.int charterIds.length)
        evidenceCount := items.length
        charterIds := charterIds
        firstObservedAt := first.observedAt
        lastObservedAt := last.observedAt
        candidates := items }
  | _, _ => none

def evidence (candidates : List PatternCandidate) (key : Key) : List PatternCandidate :=
  candidates.filter (·.key == key)

/-- `aggregate`: one group for each key, in the order of their first candidates. -/
def aggregate (candidates : List PatternCandidate) : List AggregatedPattern :=
  (candidates.map PatternCandidate.key).eraseDups.filterMap fun key =>
    summarize key (evidence candidates key)

/-- `round(x, 3)` -/
def round3 (x : Rat) : Rat := ⌊x * 1000 + 1 / 2⌋ / 1000

def computeConfidence (agg : AggregatedPattern) : Rat :=
  let base := min (35 / 100 + 10 / 100 * ((agg.evidenceCount : Rat) - 1)) (80 / 100)
  round3 (if agg.crossCharter then min (base + 10 / 100) (95 / 100) else base)

inductive TrustTier where
  | auto
  | curated
  | deprecated
deriving DecidableEq, Repr

structure CanonicalPattern where
  patternType : PatternType
  contentKey : List Char
  title : List Char
  summary : List Char
  structuredBody : Dict
  evidenceCount : Nat
  confidence : Rat
  trustTier : TrustTier
  firstObservedAt : Timestamp
  lastObservedAt : Timestamp
  lastReinforcedAt : Timestamp
  stalenessScore : Rat
  sourceCharterIds : List Id
  consolidationVersion : Nat

def CanonicalPattern.key (pattern : CanonicalPattern) : Key :=
  (pattern.patternType, pattern.contentKey)

/-- A row of `pattern_observations`; `patternId` is the position of the pattern. -/
structure PatternObservation where
  patternId : Nat
  charterId : Id
  cycleId : Option Id
  sourceArtifactType : ArtifactType
  sourceArtifactId : Id
  contribution : Option Dict
  observedAt : Timestamp

structure Store where
  patterns : List CanonicalPattern := []
  observations : List PatternObservation := []

def Store.position? (store : Store) (key : Key) : Option Nat :=
  store.patterns.findIdx? (·.key == key)

def Store.pattern? (store : Store) (key : Key) : Option CanonicalPattern :=
  store.patterns.find? (·.key == key)

def AggregatedPattern.create (agg : AggregatedPattern) (now : Timestamp) : CanonicalPattern where
  patternType := agg.patternType
  contentKey := agg.contentKey
  title := agg.title
  summary := agg.summary
  structuredBody := agg.structuredBody
  evidenceCount := agg.evidenceCount
  confidence := computeConfidence agg
  trustTier := .auto
  firstObservedAt := agg.firstObservedAt
  lastObservedAt := agg.lastObservedAt
  lastReinforcedAt := now
  stalenessScore := 0
  sourceCharterIds := agg.charterIds
  consolidationVersion := 1

/-- What `upsert_pattern` does to a row that exists. -/
def AggregatedPattern.reinforce (agg : AggregatedPattern) (now : Timestamp)
    (existing : CanonicalPattern) : CanonicalPattern :=
  { existing with
    sourceCharterIds := (existing.sourceCharterIds ++ agg.charterIds).eraseDups
    evidenceCount := max existing.evidenceCount agg.evidenceCount
    confidence :=
      if existing.confidence < computeConfidence agg then computeConfidence agg
      else existing.confidence
    lastObservedAt := max existing.lastObservedAt agg.lastObservedAt
    lastReinforcedAt := now
    stalenessScore := 0
    consolidationVersion := 1
    title := agg.title
    summary := agg.summary
    structuredBody := existing.structuredBody.update agg.structuredBody
    trustTier :=
      if existing.trustTier = .deprecated ∧ agg.crossCharter then .curated
      else existing.trustTier }

/-- `upsert_pattern`: the store and the position of the pattern. -/
def upsertPattern (store : Store) (agg : AggregatedPattern) (now : Timestamp) : Store × Nat :=
  match store.position? agg.key with
  | none =>
    ({ store with patterns := store.patterns ++ [agg.create now] }, store.patterns.length)
  | some k => ({ store with patterns := store.patterns.modify k (agg.reinforce now) }, k)

def observation (patternId : Nat) (c : PatternCandidate) : PatternObservation where
  patternId := patternId
  charterId := c.charterId
  cycleId := c.cycleId
  sourceArtifactType := c.sourceArtifactType
  sourceArtifactId := c.sourceArtifactId
  contribution := c.contribution
  observedAt := c.observedAt

/-- The pattern already has an observation of the candidate's artifact. -/
def Store.linked (store : Store) (patternId : Nat) (c : PatternCandidate) : Bool :=
  store.observations.any fun o =>
    o.patternId == patternId && o.sourceArtifactType == c.sourceArtifactType &&
      o.sourceArtifactId == c.sourceArtifactId

def upsertObservations (store : Store) (patternId : Nat) (agg : AggregatedPattern) : Store :=
  { store with
    observations := store.observations ++
      (agg.candidates.filter fun c => !store.linked patternId c).map (observation patternId) }

def upsert (now : Timestamp) (store : Store) (agg : AggregatedPattern) : Store :=
  let (store, patternId) := upsertPattern store agg now
  upsertObservations store patternId agg

/-- `max(existing.last_observed_at, agg.last_observed_at)` of a time with a zone, as rows of
`canonical_patterns` have it, and one without: a `TypeError`. -/
def AggregatedPattern.raises (host : Host) (store : Store) (agg : AggregatedPattern) : Bool :=
  !host.zoned agg.patternType && (store.position? agg.key).isSome

def upsert? (host : Host) (now : Timestamp) (store : Store) (agg : AggregatedPattern) :
    Option Store :=
  if agg.raises host store then none else some (upsert now store agg)

/-- The payload of the job, its cycle and the time it runs. -/
structure Request where
  charterId : Option Id := none
  patternTypes : List String := []
  cycleId : Option Id := none
  now : Timestamp

def filterCharter {Row : Type} (charterOf : Row → Id) (scope : Option Id) (rows : List Row) :
    List Row :=
  match scope with
  | none => rows
  | some charter => rows.filter (charterOf · == charter)

/-- `str(domain)` of a domain that is present and not empty. -/
def domainText (domain : Option Json) : Option (List Char) :=
  (domain.filter Json.truthy).map Json.strChars

/-- `(cycle.config or {}).get("pilot") or {}`, at `domain`. -/
def pilotDomain (cycle : ResearchCycle) : Option Json :=
  match cycle.config.get? "pilot" with
  | some (.obj pilot) => Dict.get? pilot "domain"
  | _ => none

/-- `_problem_domain_for_charter` -/
def problemDomain (charters : List ResearchCharter) (cycles : List ResearchCycle) (charterId : Id)
    (cycleId : Option Id) : List Char :=
  let cycle := cycleId.bind fun k => cycles.find? (·.id == k)
  let charter := charters.find? (·.id == charterId)
  match domainText (cycle.bind pilotDomain) with
  | some domain => domain
  | none =>
    (domainText (charter.bind fun charter => charter.sourceScope.get? "domain")).getD unspecified

section Candidates

variable (host : Host) (artifacts : Artifacts) (scope : Option Id)

def failureCandidates : List PatternCandidate :=
  (filterCharter FailurePostmortem.charterId scope artifacts.postmortems).map (extractFailure host)

def remediationCandidates : List PatternCandidate :=
  (filterCharter RemediationAction.charterId scope artifacts.actions).map (extractRemediation host)

def hypothesis? (card : Id) : Option HypothesisCard :=
  (filterCharter HypothesisCard.charterId scope artifacts.cards).find? (·.id == card)

/-- `spec_to_hypothesis.get(..)` -/
def specHypothesis? (spec : Id) : Option HypothesisCard :=
  ((filterCharter ExperimentSpec.charterId scope artifacts.specs).find? (·.id == spec)).bind
    fun row => hypothesis? artifacts scope row.hypothesisCardId

def signalCandidates : List PatternCandidate :=
  (filterCharter DirectionalSignal.charterId scope artifacts.signals).map fun signal =>
    extractSignalTrajectory host signal (specHypothesis? artifacts scope signal.experimentSpecId)

def lineCandidate (cycleId : Option Id) (frontier : MetricFrontier) : PatternCandidate :=
  let hypothesis := hypothesis? artifacts scope frontier.hypothesisCardId
  let cycleId := (hypothesis.map HypothesisCard.cycleId).or cycleId
  extractSuccessfulLine host frontier hypothesis cycleId
    (problemDomain (filterCharter ResearchCharter.id scope artifacts.charters)
      (filterCharter ResearchCycle.charterId scope artifacts.cycles) frontier.charterId cycleId)

def lineCandidates (cycleId : Option Id) : List PatternCandidate :=
  ((filterCharter MetricFrontier.charterId scope artifacts.frontiers).filter
    (0 < ·.successfulRuns)).map (lineCandidate host artifacts scope cycleId)

def heuristicCandidates : List PatternCandidate :=
  (filterCharter LoopDecision.charterId scope artifacts.decisions).filterMap
    (extractRetrievalHeuristic host)

def candidatesOf (cycleId : Option Id) : PatternType → List PatternCandidate
  | .failure => failureCandidates host artifacts scope
  | .remediation => remediationCandidates host artifacts scope
  | .signalTrajectory => signalCandidates host artifacts scope
  | .successfulLine => lineCandidates host artifacts scope cycleId
  | .retrievalHeuristic => heuristicCandidates host artifacts scope

end Candidates

namespace Request

/-- `set(payload.get("pattern_types") or DEFAULT_TYPES)`, unless a type is unknown. -/
def types (req : Request) : Option (List PatternType) :=
  if req.patternTypes.isEmpty then some defaultTypes
  else if req.patternTypes.all fun name => defaultTypes.any (·.value == name) then
    some (defaultTypes.filter fun type => type.value ∈ req.patternTypes)
  else none

def candidates (host : Host) (artifacts : Artifacts) (req : Request) (types : List PatternType) :
    List PatternCandidate :=
  types.flatMap (candidatesOf host artifacts req.charterId req.cycleId)

end Request

/-- The patterns and observations `consolidate_patterns_operator` commits; `none` when it fails or
raises and commits none. -/
def consolidate (host : Host) (artifacts : Artifacts) (req : Request) (store : Store) :
    Option Store := do
  let types ← req.types
  guard (req.charterId.isNone || host.charterHasCharterId)
  (aggregate (req.candidates host artifacts types)).foldlM (upsert? host req.now) store

end Synthetos.Patterns
