import Synthetos.Analysis.Session

/-!
# One pass over a paper

`Inputs` is what one undisturbed pass takes from outside, and `Inputs.content` what such a pass has
stored when a given operator is due: every row is computed from the rows before it.  The operators
lead from each of these contents to the next, or end the session on the way.
-/

namespace Synthetos.Analysis

open Synthetos.Core Lib Storage

structure Inputs where
  fetched : IngestionResult
  host : ChunkHost
  answers : Answers
  round3 : Rat → Rat
  coverageOrder : RowOrder
  summary : List Char
  reviewOrder : RowOrder
  review : ReviewOutput

namespace Inputs

variable (inputs : Inputs) (maxChunks : Nat)

def chunks : List PaperChunk := chunkDocument inputs.host inputs.fetched.document maxChunks

def graph : Graph :=
  (extractGraph (inputs.answers.completions (inputs.chunks maxChunks))).stored

def diagnostic : CoverageDiagnostic :=
  computeCoverage inputs.round3 inputs.fetched.document
    (inputs.coverageOrder.chunks (inputs.chunks maxChunks))
    (inputs.coverageOrder.graph (inputs.graph maxChunks))

def packet : PaperAnalysisPacket :=
  analysisPacket inputs.summary (inputs.chunks maxChunks)
    (inputs.reviewOrder.graph (inputs.graph maxChunks)) (some (inputs.diagnostic maxChunks))

/-- What is stored before an operator runs, or at the end. -/
def content : Option Stage → Content
  | some .ingest => {}
  | some .chunk => { documents := [inputs.fetched] }
  | some .graphExtract => { documents := [inputs.fetched], chunks := inputs.chunks maxChunks }
  | some .coverage =>
    { documents := [inputs.fetched], chunks := inputs.chunks maxChunks
      graphs := [inputs.graph maxChunks] }
  | some .review =>
    { documents := [inputs.fetched], chunks := inputs.chunks maxChunks
      graphs := [inputs.graph maxChunks], diagnostics := [inputs.diagnostic maxChunks] }
  | some .evidence | none =>
    { documents := [inputs.fetched], chunks := inputs.chunks maxChunks
      graphs := [inputs.graph maxChunks], diagnostics := [inputs.diagnostic maxChunks]
      packets := [inputs.packet maxChunks], reviews := [inputs.review] }

/-- The packet is stored and its review is not. -/
def packed : Content :=
  { inputs.content maxChunks (some .review) with packets := [inputs.packet maxChunks] }

/-- What a session that failed has stored. -/
def Stops (stored : Content) : Prop :=
  (∃ next, stored = inputs.content maxChunks next) ∨ stored = inputs.packed maxChunks

end Inputs

/-- The rows an operator starts from in an undisturbed pass; a failure of another attempt may have
been recorded meanwhile. -/
def Ready (rows : SessionRows) (stage : Stage) : Prop :=
  (rows.analysis.status.due = some stage ∨ rows.analysis.status = .failed) ∧
    ∃ inputs : Inputs, rows.content = inputs.content rows.analysis.budget.maxChunks (some stage)

/-- The rows of a session that has run through. -/
def RanThrough (rows : SessionRows) : Prop :=
  (rows.analysis.status = .completed ∨ rows.analysis.status = .failed) ∧
    ∃ inputs : Inputs, rows.content = inputs.content rows.analysis.budget.maxChunks none

/-- The rows of a session that an operator has ended. -/
def Ended (rows : SessionRows) : Prop :=
  rows.analysis.status = .failed ∧
    ∃ inputs : Inputs, inputs.Stops rows.analysis.budget.maxChunks rows.content

/-- What an operator leaves of a session it found ready. -/
structure Advances (existing : List EvidenceCard) (rows : SessionRows) (stage : Stage)
    (out : Outcome) : Prop where
  cycle : out.rows.analysis.cycleId = rows.analysis.cycleId
  ended : out.error ≠ none → Ended out.rows ∧ out.cards = []
  moved : out.error = none → ∀ next, stage.done.due = some next →
    out.rows.analysis.status = stage.done ∧ Ready out.rows next ∧ out.cards = []
  finished : out.error = none → stage.done.due = none →
    out.rows.analysis.status = .completed ∧ RanThrough out.rows ∧
      ∃ candidates : List Candidate, out.cards = candidates.map (detect idTexts existing)

@[simp] theorem scalarOneOrNone_nil {Row : Type} :
    scalarOneOrNone ([] : List Row) = .ok none := rfl

@[simp] theorem scalarOneOrNone_singleton {Row : Type} (row : Row) :
    scalarOneOrNone [row] = .ok (some row) := rfl

@[simp] theorem addUnique_nil {Row : Type} (row : Row) : addUnique [] row = .ok [row] := rfl

variable {rows : SessionRows} {stage next : Stage} {error : String} {world : AnalysisWorld}
  {existing : List EvidenceCard} {out : Outcome}

theorem fail_advances {stored : Content}
    (h : ∃ inputs : Inputs, inputs.Stops rows.analysis.budget.maxChunks stored) :
    Advances existing rows stage ((rows.store stored).fail error) where
  cycle := rfl
  ended _ := ⟨⟨rfl, h⟩, rfl⟩
  moved ok := absurd ok nofun
  finished ok := absurd ok nofun

theorem succeed_advances {stored : Content} {path : Option String}
    (hdue : stage.done.due = some next)
    (h : ∃ inputs : Inputs,
      stored = inputs.content rows.analysis.budget.maxChunks (some next)) :
    Advances existing rows stage
      (SessionRows.succeed ⟨{ rows.analysis with reportArtifactPath := path }, stored⟩ stage) where
  cycle := rfl
  ended no := absurd rfl no
  moved _ next' hnext := by
    obtain rfl := Option.some.inj (hdue.symm.trans hnext)
    exact ⟨rfl, ⟨.inl hdue, h⟩, rfl⟩
  finished _ hend := absurd (hdue.symm.trans hend) nofun

/-- Nothing was stored by an operator that fails at once. -/
theorem Ready.fail (h : Ready rows stage) : Advances existing rows stage (rows.fail error) := by
  obtain ⟨-, inputs, hcontent⟩ := h
  exact fail_advances ⟨inputs, .inl ⟨_, hcontent⟩⟩

/-! ### The operators -/

theorem ingest_advances (h : Ready rows .ingest) (hout : ingestOperator rows world = .ok out) :
    Advances existing rows .ingest out := by
  obtain ⟨-, inputs, hcontent⟩ := h
  have failed (error : String) : Advances existing rows .ingest (rows.fail error) :=
    fail_advances ⟨inputs, .inl ⟨_, hcontent⟩⟩
  unfold ingestOperator at hout
  split at hout
  · obtain rfl := Except.ok.inj hout
    exact failed _
  · dsimp only at hout
    split at hout
    · obtain rfl := Except.ok.inj hout
      exact failed _
    · split at hout
      · obtain rfl := Except.ok.inj hout
        exact failed _
      · rename_i fetched _
        rw [hcontent] at hout
        obtain rfl := Except.ok.inj hout
        exact succeed_advances rfl ⟨{ inputs with fetched := fetched }, rfl⟩

theorem chunk_advances (h : Ready rows .chunk) (hout : chunkOperator rows world = .ok out) :
    Advances existing rows .chunk out := by
  obtain ⟨-, inputs, hcontent⟩ := h
  have stored : ∃ after : Inputs,
      { rows.content with
        chunks := rows.content.chunks ++
          chunkDocument world.host inputs.fetched.document rows.analysis.budget.maxChunks } =
        after.content rows.analysis.budget.maxChunks (some .graphExtract) := by
    rw [hcontent]
    exact ⟨{ inputs with host := world.host }, rfl⟩
  have hdocuments : rows.content.documents = [inputs.fetched] := by rw [hcontent]; rfl
  unfold chunkOperator at hout
  obtain ⟨found, hfound, hout⟩ := bind_eq_ok.mp hout
  rw [hdocuments] at hfound
  obtain rfl := Except.ok.inj hfound
  dsimp only at hout
  split at hout
  · obtain rfl := Except.ok.inj hout
    exact fail_advances (stored.imp fun after hafter => .inl ⟨_, hafter⟩)
  · obtain rfl := Except.ok.inj hout
    exact succeed_advances rfl stored

theorem graphExtract_advances (h : Ready rows .graphExtract)
    (hout : graphExtractOperator rows world = .ok out) :
    Advances existing rows .graphExtract out := by
  obtain ⟨-, inputs, hcontent⟩ := id h
  have stored : ∃ after : Inputs,
      { rows.content with graphs := rows.content.graphs ++
          [(extractGraph (world.answers.completions rows.content.chunks)).stored] } =
        after.content rows.analysis.budget.maxChunks (some .coverage) := by
    rw [hcontent]
    exact ⟨{ inputs with answers := world.answers }, rfl⟩
  unfold graphExtractOperator at hout
  split at hout
  · obtain rfl := Except.ok.inj hout
    exact h.fail
  · split at hout
    · obtain rfl := Except.ok.inj hout
      exact h.fail
    · dsimp only at hout
      split at hout
      · exact absurd hout nofun
      · split at hout
        · obtain rfl := Except.ok.inj hout
          exact fail_advances (stored.imp fun after hafter => .inl ⟨_, hafter⟩)
        · obtain rfl := Except.ok.inj hout
          exact succeed_advances rfl stored

theorem graph_singleton {content : Content} {graph : Graph} (h : content.graphs = [graph]) :
    content.graph = graph := by
  simp [Content.graph, h]

theorem coverage_advances (h : Ready rows .coverage) (hout : coverageOperator rows world = .ok out) :
    Advances existing rows .coverage out := by
  obtain ⟨-, inputs, hcontent⟩ := h
  have hgraph : rows.content.graph = inputs.graph rows.analysis.budget.maxChunks :=
    graph_singleton (by rw [hcontent]; rfl)
  unfold coverageOperator at hout
  rw [hgraph, hcontent] at hout
  obtain rfl := Except.ok.inj hout
  exact succeed_advances rfl
    ⟨{ inputs with round3 := world.round3, coverageOrder := world.order }, rfl⟩

theorem review_advances (h : Ready rows .review) (hout : reviewOperator rows world = .ok out) :
    Advances existing rows .review out := by
  obtain ⟨-, inputs, hcontent⟩ := id h
  have hgraph : rows.content.graph = inputs.graph rows.analysis.budget.maxChunks :=
    graph_singleton (by rw [hcontent]; rfl)
  unfold reviewOperator at hout
  rw [hgraph, hcontent] at hout
  obtain ⟨coverage, hcoverage, hout⟩ := bind_eq_ok.mp hout
  obtain rfl := Except.ok.inj hcoverage
  split at hout
  · obtain rfl := Except.ok.inj hout
    exact h.fail
  · obtain rfl := Except.ok.inj hout
    exact h.fail
  · rename_i summary _ _
    obtain ⟨packets, hpackets, hout⟩ := bind_eq_ok.mp hout
    obtain rfl := Except.ok.inj hpackets
    split at hout
    · obtain rfl := Except.ok.inj hout
      exact fail_advances
        ⟨{ inputs with summary := summary, reviewOrder := world.order }, .inr rfl⟩
    · rename_i review _
      let after : Inputs :=
        { inputs with summary := summary, reviewOrder := world.order, review := review }
      dsimp only at hout
      split at hout
      · obtain rfl := Except.ok.inj hout
        exact fail_advances ⟨after, .inl ⟨some .evidence, rfl⟩⟩
      · obtain rfl := Except.ok.inj hout
        exact succeed_advances rfl ⟨after, rfl⟩

theorem evidence_advances (h : Ready rows .evidence)
    (hout : evidenceOperator rows existing world = .ok out) :
    Advances existing rows .evidence out := by
  obtain ⟨-, inputs, hcontent⟩ := id h
  have hpackets : rows.content.packets = [inputs.packet rows.analysis.budget.maxChunks] := by
    rw [hcontent]; rfl
  unfold evidenceOperator at hout
  obtain ⟨found, hfound, hout⟩ := bind_eq_ok.mp hout
  rw [hpackets] at hfound
  obtain rfl := Except.ok.inj hfound
  dsimp only at hout
  split at hout
  · obtain rfl := Except.ok.inj hout
    exact h.fail
  · rename_i candidates _
    obtain rfl := Except.ok.inj hout
    refine ⟨rfl, fun no => absurd rfl no, fun _ next hnext => absurd hnext nofun, fun _ _ => ?_⟩
    exact ⟨rfl, ⟨.inl rfl, inputs, hcontent⟩, candidates, rfl⟩

theorem runOperator_advances (h : Ready rows stage)
    (hout : runOperator stage rows existing world = .ok out) :
    Advances existing rows stage out := by
  cases stage with
  | ingest => exact ingest_advances h hout
  | chunk => exact chunk_advances h hout
  | graphExtract => exact graphExtract_advances h hout
  | coverage => exact coverage_advances h hout
  | review => exact review_advances h hout
  | evidence => exact evidence_advances h hout

end Synthetos.Analysis
