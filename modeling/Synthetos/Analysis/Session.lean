import Synthetos.Analysis.Coverage
import Synthetos.Analysis.Evidence
import Synthetos.Core.JobService
import Synthetos.Lib.Column
import Synthetos.Lib.Except

/-!
# Analysis sessions

The six operators of an analysis session and the rows they store.  Each operator flushes a passing
status first, which locks the row of its session until it commits, so an operator is one step on
the rows of its session.  An operator that raises commits nothing.
-/

namespace Synthetos.Analysis

open Synthetos.Core Lib Storage

/-- The values of `AnalysisSession.status` that are committed. -/
inductive SessionStatus where
  | created
  | ingested
  | chunked
  | graphExtracted
  | coverageVerified
  | reviewed
  | completed
  | failed
  deriving DecidableEq, Repr

/-- The operators, in the order in which they follow each other. -/
inductive Stage where
  | ingest
  | chunk
  | graphExtract
  | coverage
  | review
  | evidence
  deriving DecidableEq, Repr

namespace Stage

def jobType : Stage → JobType
  | ingest => .analysisIngest
  | chunk => .analysisChunk
  | graphExtract => .analysisGraphExtract
  | coverage => .analysisCoverage
  | review => .analysisReview
  | evidence => .analysisEvidence

def ofJobType? : JobType → Option Stage
  | .analysisIngest => some ingest
  | .analysisChunk => some chunk
  | .analysisGraphExtract => some graphExtract
  | .analysisCoverage => some coverage
  | .analysisReview => some review
  | .analysisEvidence => some evidence
  | _ => none

/-- The status an operator that succeeds leaves. -/
def done : Stage → SessionStatus
  | ingest => .ingested
  | chunk => .chunked
  | graphExtract => .graphExtracted
  | coverage => .coverageVerified
  | review => .reviewed
  | evidence => .completed

end Stage

/-- The operator that has to follow. -/
def SessionStatus.due : SessionStatus → Option Stage
  | created => some .ingest
  | ingested => some .chunk
  | chunked => some .graphExtract
  | graphExtracted => some .coverage
  | coverageVerified => some .review
  | reviewed => some .evidence
  | completed | failed => none

structure AnalysisBudget where
  maxChunks : Nat := 500
  htmlQualityThreshold : Rat := 1 / 2
  maxChunks_bounds : 1 ≤ maxChunks ∧ maxChunks ≤ 5000 := by decide

/-- The budget of a request that names none. -/
def AnalysisBudget.usual : AnalysisBudget := {}

structure AnalysisSession where
  cycleId : CycleId
  charterId : CharterId
  paperCardId : Nat
  status : SessionStatus := .created
  budget : AnalysisBudget := .usual
  error : Option String := none
  reportArtifactPath : Option String := none

def AnalysisSession.markFailed (analysis : AnalysisSession) (error : String) : AnalysisSession :=
  if analysis.status = .failed ∧ analysis.error = some error then analysis
  else { analysis with status := .failed, error := some error }

/-! ### The rows of a session -/

/-- A full text as a fetcher returns it. -/
structure IngestionResult where
  fetchMethod : String
  sourceUrl : String
  document : IngestedDocument
  qualityScore : Rat

/-- A method or a dataset in a packet. -/
structure NamedItem where
  name : List Char
  description : Option (List Char)

structure PaperAnalysisPacket where
  summary : List Char
  keyContributions : List (List Char)
  methodsUsed : List NamedItem
  datasetsReferenced : List NamedItem
  nodeCounts : List (List Char × Nat)
  edgeCounts : List (List Char × Nat)
  coverageSnapshot : Option CoverageDiagnostic
  chunkCount : Nat
  nodeCount : Nat
  edgeCount : Nat

structure ReviewOutput where
  strengths : List (List Char) := []
  weaknesses : List (List Char) := []
  openQuestions : List (List Char) := []
  critique : List Char := []
  scores : List (List Char × Rat) := []
  readingPriority : List Char := "medium".toList

/-- What the operators have stored for a session.  The nodes and edges of one extraction form one
graph. -/
structure Content where
  documents : List IngestionResult := []
  chunks : List PaperChunk := []
  graphs : List Graph := []
  diagnostics : List CoverageDiagnostic := []
  packets : List PaperAnalysisPacket := []
  reviews : List ReviewOutput := []

/-- All nodes and all edges of a session. -/
def Content.graph (content : Content) : Graph where
  nodes := content.graphs.flatMap Graph.nodes
  edges := content.graphs.flatMap Graph.edges

structure SessionRows where
  analysis : AnalysisSession
  content : Content := {}

structure EvidenceRow where
  sessionId : SessionId
  cycleId : CycleId
  card : EvidenceCard

structure AnalysisDb where
  sessions : List SessionRows := []
  evidence : List EvidenceRow := []

/-! ### What the operators meet outside -/

/-- The extractions that came back, each for the chunk at a place in the list. -/
structure Answers where
  results : List (Nat × ChunkExtractionResult)
  distinct : (results.map Prod.fst).Nodup

def Answers.silent : Answers := ⟨[], .nil⟩

def Answers.completions (answers : Answers) (chunks : List PaperChunk) : Completions :=
  answers.results.filterMap fun result => chunks[result.1]?.map fun chunk => (chunk, result.2)

structure PaperUrls where
  sourceUrl : Option String
  pdfUrl : Option String

/-- `str(id)` -/
def idTexts : EvidenceHost where
  idText id := Nat.toDigits 10 id
  idText_ne _ := Nat.toDigits_ne_nil

/-- The order in which the database finds the rows of a query that asks for none. -/
structure RowOrder where
  chunks : List PaperChunk → List PaperChunk
  nodes : List GraphNode → List GraphNode
  edges : List GraphEdge → List GraphEdge
  chunks_perm : ∀ rows, (chunks rows).Perm rows
  nodes_perm : ∀ rows, (nodes rows).Perm rows
  edges_perm : ∀ rows, (edges rows).Perm rows

def RowOrder.asStored : RowOrder := ⟨id, id, id, .refl, .refl, .refl⟩

def RowOrder.graph (order : RowOrder) (stored : Graph) : Graph where
  nodes := order.nodes stored.nodes
  edges := order.edges stored.edges

/-- `raised` is an error outside the handlers of an operator, `visible` the number of evidence rows
committed before its last query. -/
structure AnalysisWorld where
  raised : Option String := none
  paper : Option PaperUrls := some ⟨some "https://example.org/paper", none⟩
  html : Except String IngestionResult := .error "no full text"
  pdf : String → Except String IngestionResult := fun _ => .error "no full text"
  host : ChunkHost := ⟨id, id⟩
  embedded : Except String Unit := .ok ()
  router : Except String Unit := .ok ()
  answers : Answers := .silent
  projected : Except String Unit := .ok ()
  round3 : Rat → Rat := id
  summary : Except String (List Char) := .ok []
  review : Except String ReviewOutput := .ok {}
  report : Except String String := .ok "report.md"
  order : RowOrder := .asStored
  claims : Except String (List Candidate) := .ok []
  visible : Nat := 0

/-- What an operator that returns has committed, and the error of its result if it has one. -/
structure Outcome where
  rows : SessionRows
  cards : List EvidenceCard := []
  error : Option String := none

namespace SessionRows

variable (rows : SessionRows)

def succeed (stage : Stage) : Outcome where
  rows := { rows with analysis := { rows.analysis with status := stage.done } }

/-- The session is marked failed with all that was stored before. -/
def fail (error : String) : Outcome where
  rows := { rows with analysis := { rows.analysis with status := .failed, error := some error } }
  error := some error

def store (content : Content) : SessionRows := { rows with content := content }

end SessionRows

def scalarOneOrNone {Row : Type} : List Row → Except String (Option Row)
  | [] => .ok none
  | [row] => .ok (some row)
  | _ => .error "Multiple rows were found when one or none was required"

/-- The error of a handler that follows a flush the database refused. -/
def rolledBack : String :=
  "This Session's transaction has been rolled back due to a previous exception"

/-- A second row under a unique session id breaks the flush. -/
def addUnique {Row : Type} (table : List Row) (row : Row) : Except String (List Row) :=
  match table with
  | [] => .ok [row]
  | _ :: _ => .error rolledBack

/-! ### `analysis_ingest` -/

/-- The fetches of `fetch_and_persist`: HTML, then the PDF, then the page of the paper as a PDF. -/
def fetchFulltext (world : AnalysisWorld) (paperUrl : String) (pdfUrl : Option String)
    (qualityThreshold : Rat) : Except String IngestionResult :=
  let lastResort := world.pdf paperUrl
  let fallback :=
    match pdfUrl.filter (· ≠ "") with
    | some url =>
      match world.pdf url with
      | .ok result => .ok result
      | .error _ => lastResort
    | none => lastResort
  match world.html with
  | .ok result => if qualityThreshold ≤ result.qualityScore then .ok result else fallback
  | .error _ => fallback

def ingestOperator (rows : SessionRows) (world : AnalysisWorld) : Except String Outcome := do
  match world.paper with
  | none => return rows.fail "paper card not found"
  | some paper =>
    let paperUrl := paper.sourceUrl.getD ""
    if paperUrl = "" ∧ (paper.pdfUrl.filter (· ≠ "")).isNone then
      return rows.fail "no URL available for paper"
    else
      match fetchFulltext world paperUrl paper.pdfUrl
          rows.analysis.budget.htmlQualityThreshold with
      | .error e => return rows.fail e
      | .ok fetched =>
        let documents ← addUnique rows.content.documents fetched
        return (rows.store { rows.content with documents := documents }).succeed .ingest

/-! ### `analysis_chunk` -/

def chunkOperator (rows : SessionRows) (world : AnalysisWorld) : Except String Outcome := do
  match ← scalarOneOrNone rows.content.documents with
  | none => return rows.fail "ingested document not found"
  | some doc =>
    let chunks := chunkDocument world.host doc.document rows.analysis.budget.maxChunks
    let stored := rows.store { rows.content with chunks := rows.content.chunks ++ chunks }
    match world.embedded with
    | .error e => return stored.fail e
    | .ok () => return stored.succeed .chunk

/-! ### `analysis_graph_extract` -/

/-- The texts of a graph fit their columns. -/
def Graph.fits (graph : Graph) : Bool :=
  (graph.nodes.all fun node => Column.fits 50 node.nodeType && Column.isText node.label &&
    node.description.all Column.isText) &&
  graph.edges.all fun edge => Column.fits 50 edge.edgeType

/-- The rows of a graph whose texts fit. -/
def Graph.stored (graph : Graph) : Graph where
  nodes := graph.nodes.map fun node => { node with nodeType := Column.cut 50 node.nodeType }
  edges := graph.edges.map fun edge => { edge with edgeType := Column.cut 50 edge.edgeType }

def graphExtractOperator (rows : SessionRows) (world : AnalysisWorld) : Except String Outcome :=
  if rows.content.chunks.isEmpty then .ok (rows.fail "no chunks found")
  else
    match world.router with
    | .error e => .ok (rows.fail e)
    | .ok () =>
      let graph := extractGraph (world.answers.completions rows.content.chunks)
      if !graph.fits then .error rolledBack
      else
        let stored := rows.store
          { rows.content with graphs := rows.content.graphs ++ [graph.stored] }
        match world.projected with
        | .error e => .ok (stored.fail e)
        | .ok () => .ok (stored.succeed .graphExtract)

/-! ### `analysis_coverage` -/

def coverageOperator (rows : SessionRows) (world : AnalysisWorld) : Except String Outcome := do
  match ← scalarOneOrNone rows.content.documents with
  | none => return rows.fail "ingested document not found"
  | some doc =>
    let diagnostic :=
      computeCoverage world.round3 doc.document (world.order.chunks rows.content.chunks)
        (world.order.graph rows.content.graph)
    let diagnostics ← addUnique rows.content.diagnostics diagnostic
    return (rows.store { rows.content with diagnostics := diagnostics }).succeed .coverage

/-! ### `analysis_review` -/

/-- `dict(Counter(...))` -/
def typeCounts (types : List (List Char)) : List (List Char × Nat) :=
  types.eraseDups.map fun type => (type, types.count type)

def nodesOfType (nodes : List GraphNode) (nodeType : String) : List NamedItem :=
  ((nodes.filter fun node => node.nodeType == nodeType.toList).map fun node =>
    ⟨node.label, node.description⟩).take 10

def analysisPacket (summary : List Char) (chunks : List PaperChunk) (graph : Graph)
    (coverage : Option CoverageDiagnostic) : PaperAnalysisPacket where
  summary := summary
  keyContributions := ((graph.nodes.filter fun node =>
    node.nodeType == "method".toList || node.nodeType == "concept".toList).map
      GraphNode.label).take 10
  methodsUsed := nodesOfType graph.nodes "method"
  datasetsReferenced := nodesOfType graph.nodes "dataset"
  nodeCounts := typeCounts (graph.nodes.map GraphNode.nodeType)
  edgeCounts := typeCounts (graph.edges.map GraphEdge.edgeType)
  coverageSnapshot := coverage
  chunkCount := chunks.length
  nodeCount := graph.nodes.length
  edgeCount := graph.edges.length

def reviewOperator (rows : SessionRows) (world : AnalysisWorld) : Except String Outcome := do
  let coverage ← scalarOneOrNone rows.content.diagnostics
  match world.router, world.summary with
  | .error e, _ | .ok (), .error e => return rows.fail e
  | .ok (), .ok summary =>
    let packet :=
      analysisPacket summary rows.content.chunks (world.order.graph rows.content.graph) coverage
    let packets ← addUnique rows.content.packets packet
    let packed := rows.store { rows.content with packets := packets }
    match world.review with
    | .error e => return packed.fail e
    | .ok review =>
      let stored := packed.store
        { packed.content with reviews := rows.content.reviews ++ [review] }
      match world.report with
      | .error e => return stored.fail e
      | .ok path =>
        return { stored with
          analysis := { stored.analysis with reportArtifactPath := some path } }.succeed .review

/-! ### `analysis_evidence` -/

def evidenceOperator (rows : SessionRows) (existing : List EvidenceCard) (world : AnalysisWorld) :
    Except String Outcome := do
  match ← scalarOneOrNone rows.content.packets with
  | none => return rows.fail "analysis packet not found"
  | some _ =>
    match world.claims with
    | .error e => return rows.fail e
    | .ok candidates =>
      return { rows.succeed .evidence with
        cards := candidates.map (detect idTexts existing) }

/-! ### Sessions in the database -/

def runOperator (stage : Stage) (rows : SessionRows) (existing : List EvidenceCard)
    (world : AnalysisWorld) : Except String Outcome :=
  match stage with
  | .ingest => ingestOperator rows world
  | .chunk => chunkOperator rows world
  | .graphExtract => graphExtractOperator rows world
  | .coverage => coverageOperator rows world
  | .review => reviewOperator rows world
  | .evidence => evidenceOperator rows existing world

namespace AnalysisDb

/-- The evidence of a cycle among the first rows. -/
def existing (db : AnalysisDb) (cycle : CycleId) (visible : Nat) : List EvidenceCard :=
  ((db.evidence.take visible).filter fun row => row.cycleId == cycle).map EvidenceRow.card

/-- Run an operator on a session: its outcome and the tables it leaves. -/
def operate (db : AnalysisDb) (s : SessionId) (stage : Stage) (world : AnalysisWorld) :
    Except String (AnalysisDb × Option String) :=
  match world.raised, db.sessions[s]? with
  | some e, _ => .error e
  | none, none => .error s!"analysis session {s} not found"
  | none, some rows => do
    let cycle := rows.analysis.cycleId
    let out ← runOperator stage rows (db.existing cycle world.visible) world
    return ({ sessions := Table.update db.sessions s fun _ => out.rows
              evidence := db.evidence ++ out.cards.map fun card => ⟨s, cycle, card⟩ }, out.error)

/-- The session `start_analysis` adds. -/
def create (db : AnalysisDb) (analysis : AnalysisSession) : AnalysisDb :=
  { db with sessions := db.sessions ++ [{ analysis }] }

/-- The worker marks a session failed; `seen` is the row it read. -/
def writeFailure (db : AnalysisDb) (s : SessionId) (seen : AnalysisSession) (error : String) :
    AnalysisDb :=
  let marked := seen.markFailed error
  { db with sessions := Table.update db.sessions s fun rows =>
      { rows with analysis := { rows.analysis with
          status := ormSet seen.status marked.status rows.analysis.status
          error := ormSet seen.error marked.error rows.analysis.error } } }

/-- The evidence stored for a session. -/
def cardsOf (db : AnalysisDb) (s : SessionId) : List EvidenceCard :=
  (db.evidence.filter fun row => row.sessionId == s).map EvidenceRow.card

end AnalysisDb

/-! ### What an operator leaves -/

/-- The session after an operator: the next status, or the error that ended it. -/
def Settles (stage : Stage) (out : Outcome) : Prop :=
  (out.error = none ∧ out.rows.analysis.status = stage.done) ∨
    ∃ e, out.error = some e ∧ out.rows.analysis.status = .failed

theorem fail_settles (rows : SessionRows) (stage : Stage) (e : String) :
    Settles stage (rows.fail e) := .inr ⟨e, rfl, rfl⟩

theorem succeed_settles (rows : SessionRows) (stage : Stage) :
    Settles stage (rows.succeed stage) := .inl ⟨rfl, rfl⟩

section Operators

variable {stage : Stage} {rows : SessionRows} {world : AnalysisWorld}
  {existing : List EvidenceCard} {out : Outcome}

theorem ingest_settles (h : ingestOperator rows world = .ok out) : Settles .ingest out := by
  unfold ingestOperator at h
  split at h
  · obtain rfl := Except.ok.inj h
    exact fail_settles ..
  · dsimp only at h
    split at h
    · obtain rfl := Except.ok.inj h
      exact fail_settles ..
    · split at h
      · obtain rfl := Except.ok.inj h
        exact fail_settles ..
      · obtain ⟨documents, -, h⟩ := bind_eq_ok.mp h
        obtain rfl := Except.ok.inj h
        exact succeed_settles ..

theorem chunk_settles (h : chunkOperator rows world = .ok out) : Settles .chunk out := by
  obtain ⟨doc, -, h⟩ := bind_eq_ok.mp h
  split at h
  · obtain rfl := Except.ok.inj h
    exact fail_settles ..
  · dsimp only at h
    split at h
    · obtain rfl := Except.ok.inj h
      exact fail_settles ..
    · obtain rfl := Except.ok.inj h
      exact succeed_settles ..

theorem graphExtract_settles (h : graphExtractOperator rows world = .ok out) :
    Settles .graphExtract out := by
  unfold graphExtractOperator at h
  split at h
  · obtain rfl := Except.ok.inj h
    exact fail_settles ..
  · split at h
    · obtain rfl := Except.ok.inj h
      exact fail_settles ..
    · dsimp only at h
      split at h
      · exact absurd h nofun
      · split at h
        · obtain rfl := Except.ok.inj h
          exact fail_settles ..
        · obtain rfl := Except.ok.inj h
          exact succeed_settles ..

theorem coverage_settles (h : coverageOperator rows world = .ok out) : Settles .coverage out := by
  obtain ⟨doc, -, h⟩ := bind_eq_ok.mp h
  split at h
  · obtain rfl := Except.ok.inj h
    exact fail_settles ..
  · obtain ⟨diagnostics, -, h⟩ := bind_eq_ok.mp h
    obtain rfl := Except.ok.inj h
    exact succeed_settles ..

theorem review_settles (h : reviewOperator rows world = .ok out) : Settles .review out := by
  obtain ⟨coverage, -, h⟩ := bind_eq_ok.mp h
  split at h
  · obtain rfl := Except.ok.inj h
    exact fail_settles ..
  · obtain rfl := Except.ok.inj h
    exact fail_settles ..
  · obtain ⟨packets, -, h⟩ := bind_eq_ok.mp h
    dsimp only at h
    split at h
    · obtain rfl := Except.ok.inj h
      exact fail_settles ..
    · split at h
      · obtain rfl := Except.ok.inj h
        exact fail_settles ..
      · obtain rfl := Except.ok.inj h
        exact succeed_settles ..

theorem evidence_settles (h : evidenceOperator rows existing world = .ok out) :
    Settles .evidence out := by
  obtain ⟨packet, -, h⟩ := bind_eq_ok.mp h
  split at h
  · obtain rfl := Except.ok.inj h
    exact fail_settles ..
  · split at h
    · obtain rfl := Except.ok.inj h
      exact fail_settles ..
    · obtain rfl := Except.ok.inj h
      exact .inl ⟨rfl, rfl⟩

theorem runOperator_settles (h : runOperator stage rows existing world = .ok out) :
    Settles stage out := by
  cases stage with
  | ingest => exact ingest_settles h
  | chunk => exact chunk_settles h
  | graphExtract => exact graphExtract_settles h
  | coverage => exact coverage_settles h
  | review => exact review_settles h
  | evidence => exact evidence_settles h

end Operators

/-- The commit of an operator, taken apart. -/
structure Operated (db : AnalysisDb) (s : SessionId) (stage : Stage) (world : AnalysisWorld)
    (db' : AnalysisDb) (rows : SessionRows) (out : Outcome) : Prop where
  found : db.sessions[s]? = some rows
  ran : runOperator stage rows (db.existing rows.analysis.cycleId world.visible) world = .ok out
  sessions : db'.sessions = Table.update db.sessions s fun _ => out.rows
  evidence : db'.evidence =
    db.evidence ++ out.cards.map fun card => ⟨s, rows.analysis.cycleId, card⟩

theorem operate_cases {db db' : AnalysisDb} {s : SessionId} {stage : Stage}
    {world : AnalysisWorld} {error : Option String}
    (h : db.operate s stage world = .ok (db', error)) :
    ∃ rows out, Operated db s stage world db' rows out ∧ out.error = error := by
  unfold AnalysisDb.operate at h
  split at h
  · exact absurd h nofun
  · exact absurd h nofun
  · rename_i rows _ hfound
    obtain ⟨out, hran, h⟩ := bind_eq_ok.mp h
    obtain ⟨rfl, rfl⟩ := Prod.mk.inj (Except.ok.inj h)
    exact ⟨rows, out, ⟨hfound, hran, rfl, rfl⟩, rfl⟩

section Operated

variable {db db' : AnalysisDb} {s t : SessionId} {stage : Stage} {world : AnalysisWorld}
  {rows : SessionRows} {out : Outcome}

theorem Operated.self (h : Operated db s stage world db' rows out) :
    db'.sessions[s]? = some out.rows := by
  rw [h.sessions, Table.getElem?_update_self, h.found]
  rfl

theorem Operated.other (h : Operated db s stage world db' rows out) (hne : s ≠ t) :
    db'.sessions[t]? = db.sessions[t]? := by
  rw [h.sessions, Table.getElem?_update_ne hne]

theorem Operated.length (h : Operated db s stage world db' rows out) :
    db'.sessions.length = db.sessions.length := by
  rw [h.sessions, Table.length_update]

end Operated

end Synthetos.Analysis
