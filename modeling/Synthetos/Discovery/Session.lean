import Synthetos.Core.JobService
import Synthetos.Core.Types
import Synthetos.Discovery.Rerank
import Synthetos.Discovery.Search

/-!
# Discovery sessions

The five operators of a discovery session and the cards they store.  An operator takes no lock: it
reads the session, then the profile and the cards, and what it commits are the columns whose values
it has changed.  An operator that raises commits nothing.
-/

namespace Synthetos.Discovery

open Synthetos.Core Lib Storage Ranking

inductive SessionStatus where
  | created
  | intakeComplete
  | searchComplete
  | rerankComplete
  | analyzeComplete
  | completed
  | failed
  deriving DecidableEq, Repr

/-- The operators, in the order in which they follow each other. -/
inductive Stage where
  | intake
  | search
  | rerank
  | analyze
  | finalize
  deriving DecidableEq, Repr

namespace Stage

def jobType : Stage → JobType
  | intake => .discoveryIntake
  | search => .discoverySearch
  | rerank => .discoveryRerank
  | analyze => .discoveryAnalyze
  | finalize => .discoveryFinalize

def ofJobType? : JobType → Option Stage
  | .discoveryIntake => some intake
  | .discoverySearch => some search
  | .discoveryRerank => some rerank
  | .discoveryAnalyze => some analyze
  | .discoveryFinalize => some finalize
  | _ => none

/-- The status an operator that succeeds leaves. -/
def done : Stage → SessionStatus
  | intake => .intakeComplete
  | search => .searchComplete
  | rerank => .rerankComplete
  | analyze => .analyzeComplete
  | finalize => .completed

end Stage

/-- The operator that has to follow. -/
def SessionStatus.due : SessionStatus → Option Stage
  | created => some .intake
  | intakeComplete => some .search
  | searchComplete => some .rerank
  | rerankComplete => some .analyze
  | analyzeComplete => some .finalize
  | completed | failed => none

inductive ViewPreference where
  | stable
  | discovery
  | both
  deriving DecidableEq, Repr

inductive View where
  | stable
  | discovery
  deriving DecidableEq, Repr

inductive TriageStatus where
  | discovered
  | shortlisted
  | dropped
  | escalated
  deriving DecidableEq, Repr

structure ProblemProfile where
  queryText : List Char
  sourceScope : Option Dict
  viewPreference : ViewPreference
  rerankPolicy : RerankPolicy
  budget : DiscoveryBudget

structure DiscoverySession where
  cycleId : CycleId
  charterId : CharterId
  status : SessionStatus := .created
  error : Option String := none
  reportArtifactPath : Option String := none
  deriving DecidableEq

def DiscoverySession.markFailed (discovery : DiscoverySession) (error : String) :
    DiscoverySession :=
  if discovery.status = .failed ∧ discovery.error = some error then discovery
  else { discovery with status := .failed, error := some error }

structure MetadataAnalysisPacket where
  likelyMethodFamily : String
  likelyContributionType : String
  shortlistFit : Rat
  relevanceToProblem : Rat
  oneLineSummary : String
  escalationRationale : String
  risksOrCaveats : List String
  deriving DecidableEq

/-- The values of `metadata_analysis`: a packet, or the error that took its place. -/
inductive MetadataAnalysis where
  | packet (packet : MetadataAnalysisPacket)
  | failed (error : String)
  deriving DecidableEq

/-- A row of `paper_cards`.  `hit` has the columns that no operator changes. -/
structure CardRow where
  paper : PaperCard
  hit : SourceHit
  metadataAnalysis : Option MetadataAnalysis := none
  viewMembership : List View := []
  triageStatus : TriageStatus := .discovered
  triageReason : Option String := none
  deriving DecidableEq

def CardRow.id (row : CardRow) : Nat := row.paper.id

def hitToCard (host : Host) (id : Nat) (hit : SourceHit) : CardRow where
  paper :=
    { id, externalId := hit.externalId, dedupeKey := host.dedupeKey hit, title := hit.title
      abstract := hit.abstract, firstStageScore := hit.firstStageScore
      finalScore := hit.firstStageScore }
  hit := hit

structure SessionRows where
  discovery : DiscoverySession
  profile : ProblemProfile
  cards : List CardRow := []

structure DiscoveryDb where
  sessions : List SessionRows := []

/-! ### What the operators meet outside -/

structure ProblemScopingPacket where
  denseQuery : String
  synonyms : List String
  categories : List String
  exclusions : List String

/-- A reranker whose model cannot be loaded. -/
def noEncoder : CrossEncoder := ⟨fun _ _ _ => .error (.unavailable "no model"), fun _ => "30.0"⟩

/-- `raised` is an error outside the handlers of an operator; `scoping` is what the scoping skill
answers, `bodies` are the patterns retrieved and `ids` the ids of new cards. -/
structure DiscoveryWorld where
  raised : Option String := none
  scoping : Option ProblemScopingPacket := none
  bodies : List Dict := []
  sources : Sources := noSources
  ids : Nat → Nat := id
  encoder : CrossEncoder := noEncoder
  router : Except String Unit := .ok ()
  analyze : List Char → CardRow → Except String MetadataAnalysisPacket := fun _ _ => .error "no model"
  report : Except String String := .ok "report.md"

/-- The functions of the host that all operators use: those on texts, the cosine of two embeddings,
and the truth value of an embedding that was read, where it has one. -/
structure Platform where
  host : Host
  cosine : List Rat → List Rat → Rat
  truth : List Rat → Option Bool

/-- What an operator is about to commit: the session, the scope of the profile where it sets one,
new cards and the cards it loaded with their new values. -/
structure Draft where
  discovery : DiscoverySession
  scope : Option Dict := none
  added : List CardRow := []
  changes : List (CardRow × CardRow) := []
  error : Option String := none

/-! ### The operators -/

/-- The artifact that the scoping skill leaves in the scope. -/
def scopedArtifact (packet : ProblemScopingPacket) : Dict :=
  let items (texts : List String) : Json := .arr (texts.map Json.str)
  [("derived_query", .str packet.denseQuery), ("synonyms", items packet.synonyms),
    ("categories", items packet.categories), ("exclusions", items packet.exclusions),
    ("skill_id", .str "literature.problem_scoping")]

def intakeOperator (discovery : DiscoverySession) (profile : ProblemProfile)
    (world : DiscoveryWorld) : Draft where
  discovery := { discovery with status := .intakeComplete, error := none }
  scope := world.scoping.map fun packet =>
    (profile.sourceScope.getD []).set "search_hints" (.obj (scopedArtifact packet))

def newCards (host : Host) (ids : Nat → Nat) (hits : List SourceHit) : List CardRow :=
  hits.zipIdx.map fun entry => hitToCard host (ids entry.2) entry.1

def searchOperator (host : Host) (discovery : DiscoverySession) (profile : ProblemProfile)
    (world : DiscoveryWorld) : Except String Draft := do
  let hits ← searchProfile host world.sources profile.queryText profile.sourceScope profile.budget
    world.bodies
  return {
    discovery := { discovery with status := .searchComplete }
    added := newCards host world.ids hits }

/-- A loaded card and its scores after the rerank. -/
def rescored (papers : List PaperCard) (row : CardRow) : CardRow :=
  { row with paper := (papers.find? fun paper => paper.id == row.id).getD row.paper }

def rerankOperator (discovery : DiscoverySession) (profile : ProblemProfile)
    (cards : List CardRow) (world : DiscoveryWorld) : Except String Draft := do
  let done ← discoveryRerank world.encoder profile.rerankPolicy profile.queryText
    (cards.map CardRow.paper)
  return {
    discovery := { discovery with status := .rerankComplete }
    changes := cards.map fun row => (row, rescored (done.pool ++ done.outside) row) }

/-- `.order_by(PaperCard.final_score.desc().nullslast())` -/
def byFinalScore (cards : List CardRow) : List CardRow :=
  ranked (κ := WithBot Rat) (fun row => row.paper.finalScore) cards

def analyzed (analyze : List Char → CardRow → Except String MetadataAnalysisPacket)
    (problemStatement : List Char) (row : CardRow) : CardRow :=
  { row with metadataAnalysis := some (match analyze problemStatement row with
      | .ok packet => .packet packet
      | .error e => .failed e) }

def analyzeOperator (discovery : DiscoverySession) (profile : ProblemProfile)
    (cards : List CardRow) (world : DiscoveryWorld) : Except String Draft := do
  let top := (byFinalScore cards).take profile.budget.analyzeTopN
  let _ ← (if top.isEmpty then .ok () else world.router.mapError ("discovery_analyze failed: " ++ ·))
  return {
    discovery := { discovery with status := .analyzeComplete, error := none }
    changes := top.map fun row => (row, analyzed world.analyze profile.queryText row) }

def categoryOverlap (a b : List (List Char)) : Rat :=
  let shared := a.dedup.filter b.dedup.contains
  let all := a.dedup ++ b.dedup.filter (!a.dedup.contains ·)
  if a.isEmpty ∨ b.isEmpty then 0 else shared.length / all.length

/-- `bool(embedding)`: an array of several items has no truth value. -/
def Platform.truthOf (platform : Platform) : Option (List Rat) → Except String Bool
  | none => .ok false
  | some v => match platform.truth v with
    | some b => .ok b
    | none => .error "ValueError: The truth value of an array with more than one element is ambiguous"

/-- `_similarity` -/
def similarityOf (platform : Platform) (a b : SourceHit) : Except String Rat := do
  if ← platform.truthOf a.embedding then
    if ← platform.truthOf b.embedding then
      return platform.cosine (a.embedding.getD []) (b.embedding.getD [])
  return categoryOverlap a.categories b.categories

/-- The similarity of two of the cards. -/
def cardSimilarity (platform : Platform) (cards : List CardRow) (a b : PaperCard) :
    Except String Rat :=
  match cards.find? (·.id == a.id), cards.find? (·.id == b.id) with
  | some x, some y => similarityOf platform x.hit y.hit
  | _, _ => .ok 0

def defaultStableTopK : Nat := 25
def defaultDiscoveryTopK : Nat := 25
def defaultMmrLambda : Rat := 7 / 10

/-- The views that the profile asks for, each with the ids of its cards. -/
def builtViews (platform : Platform) (preference : ViewPreference) (cards : List CardRow) :
    Except String (List (View × List Nat)) := do
  let papers := cards.map CardRow.paper
  let stable := (.stable, (buildStableView papers defaultStableTopK).map PaperCard.id)
  let discovery := (comparedDiscoveryView (cardSimilarity platform cards) papers
    defaultDiscoveryTopK defaultMmrLambda).map fun view => (.discovery, view.map PaperCard.id)
  match preference with
  | .stable => return [stable]
  | .discovery => return [← discovery]
  | .both => return [stable, ← discovery]

/-- The views that have a card. -/
def membership (views : List (View × List Nat)) (id : Nat) : List View :=
  (views.filter fun view => view.2.contains id).map Prod.fst

/-- Only a card that was not triaged is shortlisted. -/
def screened (views : List (View × List Nat)) (row : CardRow) : CardRow :=
  let views := membership views row.id
  { row with
    viewMembership := views
    triageStatus := if views ≠ [] ∧ row.triageStatus = .discovered then .shortlisted
      else row.triageStatus }

/-- A report that is not written fails the session, with the views stored all the same. -/
def finalizeOperator (platform : Platform) (discovery : DiscoverySession)
    (profile : ProblemProfile) (cards : List CardRow) (world : DiscoveryWorld) :
    Except String Draft := do
  let views ← builtViews platform profile.viewPreference (byFinalScore cards)
  let changes := (byFinalScore cards).map fun row => (row, screened views row)
  match world.report with
  | .ok path =>
    return {
      discovery := { discovery with
        status := .completed, reportArtifactPath := some path, error := none }
      changes }
  | .error e =>
    let error := "discovery_finalize report write failed: " ++ e
    return { discovery := discovery.markFailed error, changes, error := some error }

def runOperator (platform : Platform) (stage : Stage) (discovery : DiscoverySession)
    (profile : ProblemProfile) (cards : List CardRow) (world : DiscoveryWorld) :
    Except String Draft :=
  match stage with
  | .intake => .ok (intakeOperator discovery profile world)
  | .search => searchOperator platform.host discovery profile world
  | .rerank => rerankOperator discovery profile cards world
  | .analyze => analyzeOperator discovery profile cards world
  | .finalize => finalizeOperator platform discovery profile cards world

/-! ### The commit -/

/-- The session row after a commit; `seen` is the row the operator loaded. -/
def DiscoverySession.write (seen new current : DiscoverySession) : DiscoverySession :=
  { current with
    status := ormSet seen.status new.status current.status
    error := ormSet seen.error new.error current.error
    reportArtifactPath :=
      ormSet seen.reportArtifactPath new.reportArtifactPath current.reportArtifactPath }

def CardRow.write (seen new current : CardRow) : CardRow :=
  { current with
    paper := { current.paper with
      rerankScore := ormSet seen.paper.rerankScore new.paper.rerankScore current.paper.rerankScore
      finalScore := ormSet seen.paper.finalScore new.paper.finalScore current.paper.finalScore }
    metadataAnalysis := ormSet seen.metadataAnalysis new.metadataAnalysis current.metadataAnalysis
    viewMembership := ormSet seen.viewMembership new.viewMembership current.viewMembership
    triageStatus := ormSet seen.triageStatus new.triageStatus current.triageStatus
    triageReason := ormSet seen.triageReason new.triageReason current.triageReason }

/-- The change of a card, if there is one. -/
def writeCard (changes : List (CardRow × CardRow)) (current : CardRow) : CardRow :=
  match changes.find? fun change => change.1.id == current.id with
  | some (seen, new) => CardRow.write seen new current
  | none => current

/-- A new scope equal to the one loaded is not written. -/
def writeScope (seen new current : Option Dict) : Option Dict :=
  match seen, new with
  | _, none => current
  | none, some scope => some scope
  | some loaded, some scope =>
    if (Json.obj loaded).canonical.same (Json.obj scope).canonical then current else some scope

namespace DiscoveryDb

def ids (db : DiscoveryDb) : List Nat := db.sessions.flatMap fun rows => rows.cards.map CardRow.id

/-- The new cards break no unique constraint: card ids, and the keys of a session. -/
def Accepts (db : DiscoveryDb) (rows : SessionRows) (added : List CardRow) : Prop :=
  (db.ids ++ added.map CardRow.id).Nodup ∧
    ((rows.cards ++ added).map fun row => row.paper.dedupeKey).Nodup

instance (db : DiscoveryDb) (rows : SessionRows) (added : List CardRow) :
    Decidable (db.Accepts rows added) := inferInstanceAs (Decidable (_ ∧ _))

def commitRows (rows : SessionRows) (seen : DiscoverySession) (scope : Option Dict)
    (draft : Draft) : SessionRows where
  discovery := DiscoverySession.write seen draft.discovery rows.discovery
  profile := { rows.profile with
    sourceScope := writeScope scope draft.scope rows.profile.sourceScope }
  cards := rows.cards.map (writeCard draft.changes) ++ draft.added

/-- Run an operator on a session with the rows it loaded, and commit. -/
def operate (platform : Platform) (db : DiscoveryDb) (s : SessionId) (stage : Stage)
    (seen : DiscoverySession) (profile : ProblemProfile) (cards : List CardRow)
    (world : DiscoveryWorld) : Except String (DiscoveryDb × Option String) :=
  match world.raised, db.sessions[s]? with
  | some e, _ => .error e
  | none, none => .error s!"discovery session {s} not found"
  | none, some rows => do
    let draft ← runOperator platform stage seen profile cards world
    if db.Accepts rows draft.added then
      let committed := commitRows rows seen profile.sourceScope draft
      return ({ db with sessions := Table.update db.sessions s fun _ => committed }, draft.error)
    else .error "duplicate key value violates unique constraint"

/-- The session that `start_discovery_session` adds. -/
def create (db : DiscoveryDb) (discovery : DiscoverySession) (profile : ProblemProfile) :
    DiscoveryDb :=
  { db with sessions := db.sessions ++ [{ discovery, profile }] }

/-- The worker marks a session failed; `seen` is the row it read. -/
def writeFailure (db : DiscoveryDb) (s : SessionId) (seen : DiscoverySession) (error : String) :
    DiscoveryDb :=
  { db with sessions := Table.update db.sessions s fun rows =>
      { rows with discovery :=
          DiscoverySession.write seen (seen.markFailed error) rows.discovery } }

/-- The triage of a card is set; the request read `seen`. -/
def writeTriage (db : DiscoveryDb) (s : SessionId) (seen : CardRow) (status : TriageStatus)
    (reason : Option String) : DiscoveryDb :=
  let new := { seen with triageStatus := status, triageReason := reason }
  { db with sessions := Table.update db.sessions s fun rows =>
      { rows with cards := rows.cards.map (writeCard [(seen, new)]) } }

end DiscoveryDb

end Synthetos.Discovery
