import Synthetos.Core.Operators
import Synthetos.Discovery.Evaluation
import Synthetos.Lib.Batches
import Synthetos.Lib.Ranking
import Synthetos.Remediation.Strategies
import Synthetos.Skills.Operators
import Mathlib.Data.Rat.Floor

/-!
# The ideation operators

`hypothesis_generate` drafts hypothesis cards from the evidence of a cycle, `hypothesis_critique`
scores them and `hypothesis_rank` ranks them.  An operator that raises commits nothing.
-/

namespace Synthetos.Ideation

open Synthetos.Core Lib
open Storage (Timestamp CharterId CycleId SessionId CardId JobId Job)
open Skills (SkillStore CyclePolicy PatternHint)

inductive SessionStatus where
  | created
  | generating
  | critiquing
  | ranking
  | completed
  | failed
  deriving DecidableEq, Repr

structure ResearchCharter where
  title : List Char
  problemStatement : List Char

structure StepEntry where
  step : String
  status : String
  time : Timestamp
  detail : Dict

structure HypothesisSession where
  charterId : CharterId
  cycleId : CycleId
  status : SessionStatus := .created
  budget : Option Dict := none
  stats : Dict := []
  stepLog : List StepEntry := []
  error : Option String := none
  startedAt : Option Timestamp := none
  completedAt : Option Timestamp := none

structure Critique where
  strengths : List (List Char)
  weaknesses : List (List Char)
  failureModes : List (List Char)

structure HypothesisCard where
  hypothesisSessionId : SessionId
  charterId : CharterId
  cycleId : CycleId
  title : List Char
  statement : List Char
  rationale : List Char
  mechanism : Option (List Char) := none
  supportingEvidenceIds : List (List Char) := []
  critique : Option Critique := none
  noveltyScore : Option Rat := none
  feasibilityScore : Option Rat := none
  impactScore : Option Rat := none
  rank : Option Nat := none
  status : CardStatus := .candidate
  createdAt : Timestamp
  updatedAt : Timestamp

structure EvidenceRow where
  cycleId : CycleId
  card : Skills.EvidenceCard

structure IdeationDb where
  now : Timestamp := 0
  charters : List ResearchCharter := []
  sessions : List HypothesisSession := []
  evidence : List EvidenceRow := []
  cards : List HypothesisCard := []
  jobs : List Job := []

structure GeneratedHypothesis where
  title : List Char
  statement : List Char
  rationale : List Char
  mechanism : Option (List Char) := none
  supportingEvidenceIds : List (List Char) := []
  title_le : title.length ≤ 500

/-- `float = Field(ge=0.0, le=1.0)` -/
abbrev Score := { q : Rat // 0 ≤ q ∧ q ≤ 1 }

structure CritiqueResult where
  strengths : List (List Char) := []
  weaknesses : List (List Char) := []
  failureModes : List (List Char) := []
  noveltyScore : Score
  feasibilityScore : Score
  impactScore : Score

/-- A row as a query returns it, with its id. -/
abbrev CardRow := HypothesisCard × CardId

/-- What an operator meets outside its tables: the skills and the policy of the cycle, the patterns
retrieved for a text, the answers of the language model, the order in which the database finds rows
and the rounding of floats. -/
structure IdeationWorld where
  skills : SkillStore
  cycle : CyclePolicy
  patternHints : List Char → List PatternHint
  hypotheses : Except String (List GeneratedHypothesis)
  critiques : Except String (List CritiqueResult)
  arrange : List CardRow → List CardRow
  round : Rat → Rat
  arrange_perm : ∀ rows, (arrange rows).Perm rows

inductive IdeationEvent where
  | hypothesesGenerated (session : SessionId) (generatedCount : Nat) (nextJob : JobId)
  | hypothesesCritiqued (session : SessionId) (critiquedCount : Nat) (nextJob : JobId)
  | hypothesesRanked (session : SessionId) (rankedCount : Nat)
  | sessionCompleted (session : SessionId)

/-- What an operator that returns has committed and answered. -/
structure Committed where
  db : IdeationDb
  result : OperatorResult
  events : List IdeationEvent := []
  usage : Skills.Session := {}

/-! ### Helpers -/

namespace HypothesisSession

variable (hs : HypothesisSession) (now : Timestamp)

def appendStepLog (step status : String) (detail : Dict) : HypothesisSession :=
  { hs with stepLog := hs.stepLog ++ [⟨step, status, now, detail⟩] }

def mergeStats (more : Dict) : HypothesisSession := { hs with stats := hs.stats.update more }

def markStartedIfNeeded : HypothesisSession :=
  { hs with startedAt := hs.startedAt.or (some now) }

def markFailed (step error : String) : HypothesisSession :=
  if hs.status = .failed ∧ hs.error = some error then hs else
    { hs with status := .failed, error := some error, completedAt := some now }.appendStepLog now
      step "failed" [("error", .str error)]

end HypothesisSession

namespace IdeationDb

variable (db : IdeationDb)

def setSession (s : SessionId) (hs : HypothesisSession) : IdeationDb :=
  { db with sessions := Table.update db.sessions s fun _ => hs }

def enqueueNext (cycle : CycleId) (nextJobType : JobType) (s : SessionId) : Job :=
  { cycleId := some cycle, jobType := nextJobType, payload := { hypothesisSessionId := some s }
    priority := 10, createdAt := db.now }

/-- The candidate cards of a session, in the order the database finds them. -/
def candidates (s : SessionId) (world : IdeationWorld) : List CardRow :=
  world.arrange (db.cards.zipIdx.filter fun row =>
    row.1.hypothesisSessionId == s && row.1.status == .candidate)

def candidatesByAge (s : SessionId) (world : IdeationWorld) : List CardRow :=
  (db.candidates s world).insertionSort fun a b => a.1.createdAt ≤ b.1.createdAt

/-- The session is marked failed, and the operator answers with the error. -/
def fail (s : SessionId) (hs : HypothesisSession) (step error : String) : Committed :=
  { db := db.setSession s (hs.markFailed db.now step error), result := .failure error }

end IdeationDb

def missingSession (db : IdeationDb) (input : OperatorInput) : Committed :=
  { db, result := .failure
      s!"job {input.jobId} payload is missing required 'hypothesis_session_id'" }

def unknownSession (db : IdeationDb) (s : SessionId) : Committed :=
  { db, result := .failure s!"hypothesis session {s} not found" }

/-! ### `hypothesis_generate` -/

def newCard (db : IdeationDb) (s : SessionId) (hs : HypothesisSession) (h : GeneratedHypothesis) :
    HypothesisCard :=
  { hypothesisSessionId := s, charterId := hs.charterId, cycleId := hs.cycleId
    title := h.title, statement := h.statement, rationale := h.rationale
    mechanism := h.mechanism, supportingEvidenceIds := h.supportingEvidenceIds
    status := .candidate, createdAt := db.now, updatedAt := db.now }

/-- The cards of the drafted hypotheses and the job that critiques them. -/
def persistHypotheses (db : IdeationDb) (s : SessionId) (hs : HypothesisSession)
    (hypotheses : List GeneratedHypothesis) (maxHypotheses : Int) (evidenceCount : Nat)
    (usage : Skills.Session) : Committed :=
  let created := (Discovery.sliceTo hypotheses maxHypotheses).map (newCard db s hs)
  let hs := (hs.mergeStats [("generated_count", .int created.length)]).appendStepLog db.now
    "generate" "ok"
    [("evidence_count", .int evidenceCount), ("generated_count", .int created.length)]
  { db := { db.setSession s hs with
      cards := db.cards ++ created
      jobs := db.jobs ++ [db.enqueueNext hs.cycleId .hypothesisCritique s] }
    result := { success := true }
    events := [.hypothesesGenerated s created.length db.jobs.length]
    usage }

/-- `int(budget.get("max_hypotheses", 10))` -/
def HypothesisSession.maxHypotheses (hs : HypothesisSession) : Except String Int :=
  Remediation.jsonInt ((hs.budget.getD []).getD "max_hypotheses" (.int 10))

/-- The session as the operator takes it up. -/
def HypothesisSession.startGenerating (hs : HypothesisSession) (now : Timestamp) :
    HypothesisSession :=
  { hs.markStartedIfNeeded now with status := .generating, error := none }

@[simp] theorem HypothesisSession.startGenerating_charterId (hs : HypothesisSession)
    (now : Timestamp) : (hs.startGenerating now).charterId = hs.charterId := rfl

@[simp] theorem HypothesisSession.startGenerating_cycleId (hs : HypothesisSession)
    (now : Timestamp) : (hs.startGenerating now).cycleId = hs.cycleId := rfl

def IdeationDb.evidenceOf (db : IdeationDb) (cycle : CycleId) : List Skills.EvidenceCard :=
  (db.evidence.filter fun row => row.cycleId == cycle).map EvidenceRow.card

/-- The part behind the reads of the session and the charter. -/
def generateFrom (db : IdeationDb) (input : OperatorInput) (world : IdeationWorld) (s : SessionId)
    (hs : HypothesisSession) (charter : ResearchCharter) (evidence : List Skills.EvidenceCard) :
    Except String Committed := do
  if evidence.isEmpty then return db.fail s hs "generate" "no evidence cards found for cycle"
  let maxHypotheses ← hs.maxHypotheses
  let (usage, _) ← Skills.hypothesisGenerate
    { charterTitle := charter.title, problemStatement := charter.problemStatement, evidence
      maxHypotheses, patternHints := world.patternHints }
    world.skills world.cycle input.jobId
  match world.hypotheses with
  | .error e => return db.fail s hs "generate" e
  | .ok hypotheses => return persistHypotheses db s hs hypotheses maxHypotheses evidence.length usage

def hypothesisGenerateOperator (db : IdeationDb) (input : OperatorInput) (world : IdeationWorld) :
    Except String Committed :=
  match input.payload.hypothesisSessionId with
  | none => .ok (missingSession db input)
  | some s =>
    match db.sessions[s]? with
    | none => .ok (unknownSession db s)
    | some hs =>
      let hs := hs.startGenerating db.now
      match db.charters[hs.charterId]? with
      | none => .ok (db.fail s hs "generate" "charter not found")
      | some charter => generateFrom db input world s hs charter (db.evidenceOf hs.cycleId)

/-! ### `hypothesis_critique` -/

/-- A card as the prompt texts read it. -/
def HypothesisCard.forPrompt (card : HypothesisCard) : Skills.HypothesisCard :=
  let score (q : Option Rat) : Json := (q.map Json.float).getD .null
  { title := card.title, statement := card.statement, rationale := card.rationale
    noveltyScore := score card.noveltyScore, feasibilityScore := score card.feasibilityScore
    impactScore := score card.impactScore }

def applyCritique (now : Timestamp) (critique : CritiqueResult) (card : HypothesisCard) :
    HypothesisCard :=
  { card with
    critique := some ⟨critique.strengths, critique.weaknesses, critique.failureModes⟩
    noveltyScore := some critique.noveltyScore
    feasibilityScore := some critique.feasibilityScore
    impactScore := some critique.impactScore
    updatedAt := now }

/-- Each shown card with the critique in its place. -/
def critiqued (now : Timestamp) (shown : List CardRow) (critiques : List CritiqueResult) :
    List (CardId × (HypothesisCard → HypothesisCard)) :=
  (shown.zip critiques).map fun pair => (pair.1.2, applyCritique now pair.2)

def persistCritiques (db : IdeationDb) (s : SessionId) (hs : HypothesisSession)
    (shown : List CardRow) (critiques : List CritiqueResult) (usage : Skills.Session) :
    Committed :=
  let changes := critiqued db.now shown critiques
  let hs := (hs.mergeStats [("critiqued_count", .int changes.length)]).appendStepLog db.now
    "critique" "ok" [("critiqued_count", .int changes.length)]
  { db := { db.setSession s hs with
      cards := Table.updateEach db.cards changes
      jobs := db.jobs ++ [db.enqueueNext hs.cycleId .hypothesisRank s] }
    result := { success := true }
    events := [.hypothesesCritiqued s changes.length db.jobs.length]
    usage }

def hypothesisCritiqueOperator (db : IdeationDb) (input : OperatorInput) (world : IdeationWorld) :
    Except String Committed :=
  match input.payload.hypothesisSessionId with
  | none => .ok (missingSession db input)
  | some s =>
    match db.sessions[s]? with
    | none => .ok (unknownSession db s)
    | some hs =>
      let hs := { hs with status := .critiquing }
      let problemStatement :=
        (db.charters[hs.charterId]?.map ResearchCharter.problemStatement).getD []
      let shown := db.candidatesByAge s world
      if shown.isEmpty then
        .ok (db.fail s hs "critique" "no candidate hypotheses to critique")
      else do
        let (usage, _) ← Skills.hypothesisCritique
          { cards := shown.map fun row => row.1.forPrompt, problemStatement }
          world.skills world.cycle input.jobId
        match world.critiques with
        | .error e => return db.fail s hs "critique" e
        | .ok critiques => return persistCritiques db s hs shown critiques usage

/-! ### `hypothesis_rank` -/

/-- `_composite_score`, with every constant and operation rounded. -/
def compositeScore (round : Rat → Rat) (card : HypothesisCard) : Rat :=
  let weighted (weight : Rat) (score : Option Rat) : Rat := round (round weight * score.getD 0)
  round (round (weighted (3 / 10) card.noveltyScore + weighted (4 / 10) card.feasibilityScore) +
    weighted (3 / 10) card.impactScore)

/-- `round(x, 3)`: to the nearest, ties to even. -/
def round3 (x : Rat) : Rat :=
  let low := ⌊x * 1000⌋
  let rest := x * 1000 - low
  (if rest < 1 / 2 then low else if 1 / 2 < rest then low + 1
    else if low % 2 = 0 then low else low + 1 : Int) / 1000

def assignRank (now : Timestamp) (rank : Nat) (card : HypothesisCard) : HypothesisCard :=
  { card with rank := some rank, updatedAt := now }

/-- Each ranked card with its position, from 1. -/
def rankedChanges (now : Timestamp) (ranked : List CardRow) :
    List (CardId × (HypothesisCard → HypothesisCard)) :=
  (ranked.zipIdx 1).map fun entry => (entry.1.2, assignRank now entry.2)

def hypothesisRankOperator (db : IdeationDb) (input : OperatorInput) (world : IdeationWorld) :
    Committed :=
  match input.payload.hypothesisSessionId with
  | none => missingSession db input
  | some s =>
    match db.sessions[s]? with
    | none => unknownSession db s
    | some hs =>
      let hs := { hs with status := .ranking }
      match Ranking.ranked (fun row => compositeScore world.round row.1) (db.candidates s world) with
      | [] => db.fail s hs "rank" "no candidate hypotheses to rank"
      | top :: rest =>
        let ranked := top :: rest
        let hs := { hs with status := .completed, completedAt := some db.now }
        let hs := (hs.mergeStats [("ranked_count", .int ranked.length)]).appendStepLog db.now
          "rank" "ok"
          [("ranked_count", .int ranked.length), ("top_title", .str (String.ofList top.1.title)),
            ("top_score", .float (round3 (compositeScore world.round top.1)))]
        { db := { db.setSession s hs with
            cards := Table.updateEach db.cards (rankedChanges db.now ranked) }
          result := { success := true, statePatch := some .portfolioReady }
          events := [.hypothesesRanked s ranked.length, .sessionCompleted s] }

end Synthetos.Ideation
