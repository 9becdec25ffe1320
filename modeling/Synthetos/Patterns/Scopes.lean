import Synthetos.Patterns.Consolidation

/-!
# What a charter-scoped run mines

References stay inside a charter, so a run scoped to a charter extracts from an artifact of that
charter exactly what a global run does: its candidates are the global ones of that charter.
-/

namespace Synthetos.Patterns

open Lib

variable {host : Host} {artifacts : Artifacts} {scope cycleId : Option Id} {charter : Id}
  {Row : Type}

theorem find?_unique {ident : Row → Id} {rows : List Row} {row : Row}
    (unique : (rows.map ident).Nodup) (inside : row ∈ rows) :
    rows.find? (ident · == ident row) = some row := by
  induction rows with
  | nil => exact absurd inside List.not_mem_nil
  | cons first rest ih =>
    rw [List.map_cons, List.nodup_cons] at unique
    rcases List.mem_cons.mp inside with rfl | later
    · simp
    · have apart : ident first ≠ ident row := fun same =>
        unique.1 (same ▸ List.mem_map_of_mem later)
      rw [List.find?_cons_of_neg (by simpa using apart)]
      exact ih unique.2 later

/-- A lookup by id in the rows of a charter finds what it finds in the whole table, when that is in
the charter. -/
theorem find?_filterCharter {ident charterOf : Row → Id} {rows : List Row} {row : Row}
    (unique : (rows.map ident).Nodup) (inside : row ∈ rows) (same : charterOf row = charter) :
    (filterCharter charterOf (some charter) rows).find? (ident · == ident row) = some row := by
  apply find?_unique
  · exact unique.sublist (List.filter_sublist.map _)
  · exact List.mem_filter.mpr ⟨inside, by simp [same]⟩

theorem hypothesis?_scoped {card : HypothesisCard} (inside : card ∈ artifacts.cards)
    (same : card.charterId = charter) :
    hypothesis? artifacts (some charter) card.id = some card :=
  find?_filterCharter artifacts.uniqueCards inside same

theorem hypothesis?_global {card : HypothesisCard} (inside : card ∈ artifacts.cards) :
    hypothesis? artifacts none card.id = some card :=
  find?_unique artifacts.uniqueCards inside

theorem specHypothesis?_scoped {signal : DirectionalSignal} (inside : signal ∈ artifacts.signals)
    (same : signal.charterId = charter) :
    specHypothesis? artifacts (some charter) signal.experimentSpecId =
      specHypothesis? artifacts none signal.experimentSpecId := by
  obtain ⟨spec, known, ident, here⟩ := artifacts.signalSpec signal inside
  obtain ⟨card, there, target, home⟩ := artifacts.specCard spec known
  have within : (filterCharter ExperimentSpec.charterId (some charter) artifacts.specs).find?
      (·.id == spec.id) = some spec :=
    find?_filterCharter artifacts.uniqueSpecs known (here.trans same)
  have whole : (filterCharter ExperimentSpec.charterId none artifacts.specs).find?
      (·.id == spec.id) = some spec := find?_unique artifacts.uniqueSpecs known
  rw [specHypothesis?, specHypothesis?, ← ident, within, whole, Option.bind_some,
    Option.bind_some, ← target, hypothesis?_scoped there (home.trans (here.trans same)),
    hypothesis?_global there]

theorem find?_charter :
    (filterCharter ResearchCharter.id (some charter) artifacts.charters).find? (·.id == charter) =
      artifacts.charters.find? (·.id == charter) := by
  rw [filterCharter, List.find?_filter]
  congr 1
  funext row
  simp only [and_self, Bool.decide_eq_true]

theorem lineCandidate_scoped {frontier : MetricFrontier}
    (inside : frontier ∈ artifacts.frontiers) (same : frontier.charterId = charter) :
    lineCandidate host artifacts (some charter) cycleId frontier =
      lineCandidate host artifacts none none frontier := by
  obtain ⟨card, known, ident, here⟩ := artifacts.frontierCard frontier inside
  obtain ⟨cycle, there, target, home⟩ := artifacts.cardCycle card known
  have within : (filterCharter ResearchCycle.charterId (some charter) artifacts.cycles).find?
      (·.id == cycle.id) = some cycle :=
    find?_filterCharter artifacts.uniqueCycles there (home.trans (here.trans same))
  have whole : (filterCharter ResearchCycle.charterId none artifacts.cycles).find?
      (·.id == cycle.id) = some cycle := find?_unique artifacts.uniqueCycles there
  rw [lineCandidate, lineCandidate, ← ident, hypothesis?_scoped known (here.trans same),
    hypothesis?_global known]
  simp only [Option.map_some, Option.some_or, problemDomain, Option.bind_some, ← target, within,
    whole, same, find?_charter]
  rfl

theorem lineCandidate_global {frontier : MetricFrontier}
    (inside : frontier ∈ artifacts.frontiers) :
    lineCandidate host artifacts none cycleId frontier =
      lineCandidate host artifacts none none frontier := by
  obtain ⟨card, known, ident, _⟩ := artifacts.frontierCard frontier inside
  rw [lineCandidate, lineCandidate, ← ident, hypothesis?_global known]
  simp

/-- The candidates of a scope among those of a global run. -/
def inScope (scope : Option Id) (candidates : List PatternCandidate) : List PatternCandidate :=
  filterCharter PatternCandidate.charterId scope candidates

theorem map_filterCharter (scope : Option Id) (charterOf : Row → Id) (rows : List Row)
    (extract : Row → PatternCandidate) (same : ∀ row, (extract row).charterId = charterOf row) :
    (filterCharter charterOf scope rows).map extract = inScope scope (rows.map extract) := by
  cases scope with
  | none => rfl
  | some charter =>
    rw [inScope, filterCharter, filterCharter, List.filter_map]
    simp only [Function.comp_def, same]

theorem filterMap_filterCharter {charterOf : Row → Id} {rows : List Row}
    {extract : Row → Option PatternCandidate}
    (same : ∀ row c, extract row = some c → c.charterId = charterOf row) :
    (filterCharter charterOf scope rows).filterMap extract =
      inScope scope (rows.filterMap extract) := by
  cases scope with
  | none => rfl
  | some charter =>
    rw [inScope, filterCharter, filterCharter, List.filterMap_filter, List.filter_filterMap]
    congr 1
    funext row
    cases found : extract row with
    | none => simp
    | some c => simp [Option.filter, same row c found]

theorem charterId_heuristic {decision : LoopDecision} {c : PatternCandidate}
    (found : extractRetrievalHeuristic host decision = some c) :
    c.charterId = decision.charterId := by
  rw [extractRetrievalHeuristic] at found
  split at found
  · obtain rfl := Option.some.inj found
    rfl
  · cases found

theorem candidatesOf_scope (type : PatternType) :
    candidatesOf host artifacts scope cycleId type =
      inScope scope (candidatesOf host artifacts none none type) := by
  cases type with
  | failure => exact map_filterCharter _ _ _ _ fun _ => rfl
  | remediation => exact map_filterCharter _ _ _ _ fun _ => rfl
  | signalTrajectory =>
    cases scope with
    | none => rfl
    | some charter =>
      simp only [candidatesOf, signalCandidates]
      have whole := map_filterCharter (some charter) DirectionalSignal.charterId artifacts.signals
        (fun signal => extractSignalTrajectory host signal
          (specHypothesis? artifacts none signal.experimentSpecId)) fun _ => rfl
      refine Eq.trans (List.map_congr_left fun signal inside => ?_) whole
      obtain ⟨known, same⟩ := List.mem_filter.mp inside
      rw [specHypothesis?_scoped known (by simpa using same)]
  | successfulLine =>
    simp only [candidatesOf, lineCandidates]
    have whole := map_filterCharter scope MetricFrontier.charterId
      (artifacts.frontiers.filter (0 < ·.successfulRuns)) (lineCandidate host artifacts none none)
      fun _ => rfl
    refine Eq.trans ?_ whole
    cases scope with
    | none =>
      exact List.map_congr_left fun frontier inside =>
        lineCandidate_global (List.mem_of_mem_filter inside)
    | some charter =>
      rw [filterCharter, filterCharter, List.filter_comm]
      refine List.map_congr_left fun frontier inside => ?_
      obtain ⟨rest, _⟩ := List.mem_filter.mp inside
      obtain ⟨known, same⟩ := List.mem_filter.mp inside
      exact lineCandidate_scoped (List.mem_of_mem_filter known) (by simpa using same)
  | retrievalHeuristic => exact filterMap_filterCharter fun _ _ => charterId_heuristic

def PatternCandidate.artifact (c : PatternCandidate) : ArtifactType × Id :=
  (c.sourceArtifactType, c.sourceArtifactId)

/-- The candidates of a global run over all pattern types. -/
def allCandidates (host : Host) (artifacts : Artifacts) : List PatternCandidate :=
  defaultTypes.flatMap (candidatesOf host artifacts none none)

/-- The table a pattern type is mined from. -/
def PatternType.artifactType : PatternType → ArtifactType
  | .failure => .postmortem
  | .remediation => .remediationAction
  | .signalTrajectory => .directionalSignal
  | .successfulLine => .metricFrontier
  | .retrievalHeuristic => .loopDecision

theorem heuristic_source {decision : LoopDecision} {c : PatternCandidate}
    (found : extractRetrievalHeuristic host decision = some c) :
    c.artifact = (.loopDecision, decision.id) := by
  rw [extractRetrievalHeuristic] at found
  split at found
  · obtain rfl := Option.some.inj found
    rfl
  · cases found

theorem artifactType_candidatesOf (type : PatternType) :
    ∀ c ∈ candidatesOf host artifacts none none type, c.artifact.1 = type.artifactType := by
  intro c inside
  cases type with
  | failure =>
    obtain ⟨_, _, rfl⟩ := List.mem_map.mp inside
    rfl
  | remediation =>
    obtain ⟨_, _, rfl⟩ := List.mem_map.mp inside
    rfl
  | signalTrajectory =>
    obtain ⟨_, _, rfl⟩ := List.mem_map.mp inside
    rfl
  | successfulLine =>
    obtain ⟨_, _, rfl⟩ := List.mem_map.mp inside
    rfl
  | retrievalHeuristic =>
    obtain ⟨decision, _, found⟩ := List.mem_filterMap.mp inside
    rw [heuristic_source found]
    rfl

theorem artifactIds_nodup (type : PatternType) :
    ((candidatesOf host artifacts none none type).map fun c => c.artifact.2).Nodup := by
  cases type with
  | failure =>
    rw [candidatesOf, failureCandidates, List.map_map]
    exact artifacts.uniquePostmortems
  | remediation =>
    rw [candidatesOf, remediationCandidates, List.map_map]
    exact artifacts.uniqueActions
  | signalTrajectory =>
    rw [candidatesOf, signalCandidates, List.map_map]
    exact artifacts.uniqueSignals
  | successfulLine =>
    rw [candidatesOf, lineCandidates, List.map_map]
    exact artifacts.uniqueFrontiers.sublist (List.filter_sublist.map _)
  | retrievalHeuristic =>
    refine List.pairwise_map.mpr ((List.pairwise_map.mp artifacts.uniqueDecisions).filterMap _ ?_)
    intro a b apart c left d right
    rw [heuristic_source left, heuristic_source right]
    exact apart

theorem artifacts_nodup : ((allCandidates host artifacts).map PatternCandidate.artifact).Nodup := by
  rw [allCandidates, List.map_flatMap, List.nodup_flatMap]
  constructor
  · intro type _
    refine List.Nodup.of_map Prod.snd ?_
    rw [List.map_map]
    exact artifactIds_nodup type
  · have apart : defaultTypes.Pairwise fun a b => a.artifactType ≠ b.artifactType := by decide
    refine apart.imp fun differ artifact left right => ?_
    obtain ⟨c, inside, rfl⟩ := List.mem_map.mp left
    obtain ⟨d, there, same⟩ := List.mem_map.mp right
    rw [← artifactType_candidatesOf _ c inside, ← artifactType_candidatesOf _ d there, same] at differ
    exact differ rfl

end Synthetos.Patterns
