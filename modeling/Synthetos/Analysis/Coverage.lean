import Synthetos.Analysis.GraphExtraction
import Synthetos.Analysis.Sections
import Mathlib.Data.List.Infix
import Mathlib.Data.List.Lex
import Mathlib.Data.List.Sort
import Mathlib.Data.Char
import Mathlib.Algebra.Order.Ring.Rat

/-!
# Coverage

What the document mentions is compared with the nodes of the graph.  An item is covered where its id
is part of a label, and a chunk is unlinked where its id is not among the ids of the chunks.
-/

namespace Synthetos.Analysis

structure CoverageCount where
  total : Nat
  covered : Nat
  missing : List (List Char)

inductive ItemKind where
  | figure
  | table
  | equation
  deriving DecidableEq

namespace ItemKind

def nodeType : ItemKind → List Char
  | figure => "figure".toList
  | table => "table".toList
  | equation => "equation".toList

/-- The set of ids that are not empty. -/
def ids (doc : IngestedDocument) (kind : ItemKind) : List (List Char) :=
  let all := match kind with
    | figure => doc.normalizedFigures.map NormalizedFigure.id
    | table => doc.normalizedTables.map NormalizedFigure.id
    | equation => doc.normalizedEquations.map NormalizedEquation.id
  (all.filter (!·.isEmpty)).eraseDups

end ItemKind

/-- `fid in n.label` for a node of the kind. -/
def Contains (kind : ItemKind) (id : List Char) (node : GraphNode) : Prop :=
  node.nodeType = kind.nodeType ∧ id <:+: node.label

instance (kind : ItemKind) (id : List Char) : DecidablePred (Contains kind id) := fun node => by
  unfold Contains
  infer_instance

def coveredIds (kind : ItemKind) (doc : IngestedDocument) (nodes : List GraphNode) :
    List (List Char) :=
  (kind.ids doc).filter fun id => nodes.any fun node => decide (Contains kind id node)

def itemCoverage (kind : ItemKind) (doc : IngestedDocument) (nodes : List GraphNode) :
    CoverageCount where
  total := (kind.ids doc).length
  covered := (coveredIds kind doc nodes).length
  missing := ((kind.ids doc).filter fun id => !(coveredIds kind doc nodes).contains id).insertionSort
    (· ≤ ·)

def figureCoverage := itemCoverage .figure

def tableCoverage := itemCoverage .table

def equationCoverage := itemCoverage .equation

/-- The headings that are the label of a section node. -/
def sectionCoverage (doc : IngestedDocument) (nodes : List GraphNode) : CoverageCount :=
  let headings :=
    ((doc.normalizedSections.map NormalizedSection.heading).filter (!·.isEmpty)).eraseDups
  let labels := (nodes.filter fun node => node.nodeType == "section".toList).map GraphNode.label
  { total := headings.length
    covered := (headings.filter fun heading => labels.contains heading).length
    missing := (headings.filter fun heading => !labels.contains heading).insertionSort (· ≤ ·) }

def PaperChunk.isContent (chunk : PaperChunk) : Bool :=
  chunk.chunkType == .section || chunk.chunkType == .paragraph

/-- `_find_unlinked_chunks`: the ids that the edges name are collected, and not read. -/
def findUnlinkedChunks (chunks : List PaperChunk) (_edges : List GraphEdge) : List Nat :=
  let contentChunkIds := (chunks.filter PaperChunk.isContent).map PaperChunk.id
  let unlinked := chunks.filter fun chunk =>
    chunk.isContent && !contentChunkIds.contains chunk.id
  (unlinked.map PaperChunk.id).take 50

def generateWarnings (sections figures tables : CoverageCount) (unlinked : List Nat) :
    List String :=
  (if 0 < sections.total ∧ 2 * sections.covered < sections.total then
    ["Low section coverage: " ++ toString sections.covered ++ "/" ++ toString sections.total ++
      " sections linked"] else []) ++
  (if 0 < figures.total ∧ figures.covered = 0 then
    ["No figures were linked to graph nodes"] else []) ++
  (if 0 < tables.total ∧ tables.covered = 0 then
    ["No tables were linked to graph nodes"] else []) ++
  if 10 < unlinked.length then
    [toString unlinked.length ++ " content chunks have no graph connections"] else []

structure CoverageDiagnostic where
  sections : CoverageCount
  figures : CoverageCount
  tables : CoverageCount
  equations : CoverageCount
  unlinkedArtifacts : List Nat
  warnings : List String
  overallScore : Rat

/-- Compute coverage diagnostics; `round3` rounds to three digits. -/
def computeCoverage (round3 : Rat → Rat) (doc : IngestedDocument) (chunks : List PaperChunk)
    (graph : Graph) : CoverageDiagnostic :=
  let sections := sectionCoverage doc graph.nodes
  let figures := figureCoverage doc graph.nodes
  let tables := tableCoverage doc graph.nodes
  let equations := equationCoverage doc graph.nodes
  let unlinked := findUnlinkedChunks chunks graph.edges
  let scores := ([sections, figures, tables, equations].filter fun cov => 0 < cov.total).map
    fun cov => (cov.covered : Rat) / cov.total
  { sections := sections
    figures := figures
    tables := tables
    equations := equations
    unlinkedArtifacts := unlinked
    warnings := generateWarnings sections figures tables unlinked
    overallScore := round3 (if scores.isEmpty then 0 else scores.sum / scores.length) }

/-! ### Items mentioned -/

/-- The id stands in the label with no part of a token right before or after it. -/
def whole (part : Char → Bool) (id label : List Char) : Bool :=
  (List.range (label.length + 1)).any fun start =>
    (label.drop start).take id.length == id &&
      (label.take start).getLast?.all (!part ·) &&
      (label.drop (start + id.length)).head?.all (!part ·)

/-- The label of a node of the kind mentions the id as a whole token. -/
def Mentions (part : Char → Bool) (kind : ItemKind) (id : List Char) (node : GraphNode) : Prop :=
  node.nodeType = kind.nodeType ∧ whole part id node.label = true

instance (part : Char → Bool) (kind : ItemKind) (id : List Char) :
    DecidablePred (Mentions part kind id) := fun node => by
  unfold Mentions
  infer_instance

/-- Items are counted as they are mentioned, and one more node covers only what it mentions. -/
structure CountedExactly (part : Char → Bool) (kind : ItemKind) (doc : IngestedDocument)
    (nodes : List GraphNode) (added : GraphNode) : Prop where
  covered : ∀ id ∈ kind.ids doc,
    id ∈ coveredIds kind doc nodes ↔ ∃ node ∈ nodes, Mentions part kind id node
  added : ∀ id ∈ kind.ids doc, ¬ Mentions part kind id added →
    id ∈ coveredIds kind doc (nodes ++ [added]) → id ∈ coveredIds kind doc nodes
  count : (itemCoverage kind doc nodes).covered ≤ ((kind.ids doc).filter fun id =>
    nodes.any fun node => decide (Mentions part kind id node)).length

/-- An id that is part of the label of a node of its kind is mentioned by some such node, or, where
it is part of the label of the node added, by that one. -/
def PartsMentioned (part : Char → Bool) (kind : ItemKind) (doc : IngestedDocument)
    (nodes : List GraphNode) (added : GraphNode) : Prop :=
  ∀ id ∈ kind.ids doc,
    ((∃ node ∈ nodes, Contains kind id node) → ∃ node ∈ nodes, Mentions part kind id node) ∧
      (Contains kind id added → Mentions part kind id added ∨
        ∃ node ∈ nodes, Mentions part kind id node)

variable {part : Char → Bool} {kind : ItemKind} {doc : IngestedDocument} {nodes : List GraphNode}
  {added node : GraphNode} {id label : List Char} {chunks : List PaperChunk} {results : Completions}

theorem infix_of_whole (h : whole part id label = true) : id <:+: label := by
  obtain ⟨start, -, hstart⟩ := List.any_eq_true.mp h
  have htake : (label.drop start).take id.length = id := by
    simp only [Bool.and_eq_true, beq_iff_eq] at hstart
    exact hstart.1.1
  rw [← htake]
  exact (List.take_prefix _ (label.drop start)).isInfix.trans (label.drop_suffix start).isInfix

theorem contains_of_mentions (h : Mentions part kind id node) : Contains kind id node :=
  ⟨h.1, infix_of_whole h.2⟩

theorem mem_coveredIds : id ∈ coveredIds kind doc nodes ↔
    id ∈ kind.ids doc ∧ ∃ node ∈ nodes, Contains kind id node := by
  rw [coveredIds, List.mem_filter, List.any_eq_true]
  simp only [decide_eq_true_eq]

theorem PartsMentioned.mem_coveredIds (h : PartsMentioned part kind doc nodes added)
    (hid : id ∈ kind.ids doc) :
    id ∈ coveredIds kind doc nodes ↔ ∃ node ∈ nodes, Mentions part kind id node := by
  rw [Analysis.mem_coveredIds]
  constructor
  · rintro ⟨-, hcontains⟩
    exact (h id hid).1 hcontains
  · rintro ⟨node, hnode, hmention⟩
    exact ⟨hid, node, hnode, contains_of_mentions hmention⟩

/-- Items are counted exactly where the ids that are parts of labels are mentioned. -/
theorem countedExactly_iff (part : Char → Bool) (kind : ItemKind) (doc : IngestedDocument)
    (nodes : List GraphNode) (added : GraphNode) :
    CountedExactly part kind doc nodes added ↔ PartsMentioned part kind doc nodes added := by
  constructor
  · intro h id hid
    have hcovered : (∃ node ∈ nodes, Contains kind id node) →
        ∃ node ∈ nodes, Mentions part kind id node := by
      intro hcontains
      exact (h.covered id hid).mp (mem_coveredIds.mpr ⟨hid, hcontains⟩)
    refine ⟨hcovered, ?_⟩
    intro hadded
    by_cases hmention : Mentions part kind id added
    · exact Or.inl hmention
    · right
      apply (h.covered id hid).mp
      apply h.added id hid hmention
      exact mem_coveredIds.mpr ⟨hid, added, by simp, hadded⟩
  · intro h
    constructor
    · intro id hid
      exact h.mem_coveredIds hid
    · intro id hid hmention hmem
      obtain ⟨-, node, hnode, hcontains⟩ := mem_coveredIds.mp hmem
      rcases List.mem_append.mp hnode with hold | hnew
      · exact mem_coveredIds.mpr ⟨hid, node, hold, hcontains⟩
      · rw [List.mem_singleton.mp hnew] at hcontains
        rcases (h id hid).2 hcontains with hadded | hothers
        · exact absurd hadded hmention
        · exact (h.mem_coveredIds hid).mpr hothers
    · apply le_of_eq
      change (coveredIds kind doc nodes).length = _
      congr 1
      apply List.filter_congr
      intro id hid
      rw [Bool.eq_iff_iff, List.any_eq_true, List.any_eq_true]
      simp only [decide_eq_true_eq]
      have hcovered := h.mem_coveredIds hid
      rw [mem_coveredIds, and_iff_right hid] at hcovered
      exact hcovered

def tenFigures : IngestedDocument where
  normalizedFigures := extractFigures (List.replicate 10 {})

def figureNode (label : String) : GraphNode :=
  ⟨0, "figure".toList, label.toList, none, .null, [0]⟩

theorem tenth_figure_covers_first : ¬ CountedExactly Char.isAlphanum .figure tenFigures
    [figureNode "fig-10: results"] (figureNode "fig-2") := by
  intro h
  have hcovered := h.covered "fig-1".toList (by decide +kernel)
  have hmem : "fig-1".toList ∈ coveredIds .figure tenFigures [figureNode "fig-10: results"] := by
    decide +kernel
  have hmention := hcovered.mp hmem
  revert hmention
  decide +kernel

/-! ### Unlinked chunks -/

/-- The content chunks whose ids occur in no provenance, fifty at the most. -/
def uncitedChunks (chunks : List PaperChunk) (nodes : List GraphNode) : List Nat :=
  ((chunks.filter fun chunk => chunk.isContent &&
    nodes.all fun node => !node.sourceChunkIds.contains chunk.id).map PaperChunk.id).take 50

/-- The extraction of the chunk returned a node. -/
def Contributed (results : Completions) (chunk : PaperChunk) : Prop :=
  ∃ result ∈ results, result.1.id = chunk.id ∧ result.2.nodes ≠ []

/-- The ids of content chunks are compared with themselves. -/
theorem findUnlinkedChunks_eq_nil (chunks : List PaperChunk) (edges : List GraphEdge) :
    findUnlinkedChunks chunks edges = [] := by
  have hnone : (chunks.filter fun chunk => chunk.isContent &&
      !((chunks.filter PaperChunk.isContent).map PaperChunk.id).contains chunk.id) = [] := by
    apply List.filter_eq_nil_iff.mpr
    intro chunk hchunk hunlinked
    obtain ⟨hcontent, hmissing⟩ := Bool.and_eq_true_iff.mp hunlinked
    have hmem : chunk.id ∈ (chunks.filter PaperChunk.isContent).map PaperChunk.id :=
      List.mem_map_of_mem (List.mem_filter.mpr ⟨hchunk, hcontent⟩)
    rw [List.contains_iff_mem.mpr hmem] at hmissing
    cases hmissing
  simp only [findUnlinkedChunks, hnone]
  rfl

theorem mem_extracted {entry : Nat × ExtractedNode} : entry ∈ extracted results ↔
    ∃ result ∈ results, result.1.id = entry.1 ∧ entry.2 ∈ result.2.nodes := by
  rw [extracted, List.mem_flatMap]
  constructor
  · rintro ⟨result, hresult, hentry⟩
    obtain ⟨node, hnode, rfl⟩ := List.mem_map.mp hentry
    exact ⟨result, hresult, rfl, hnode⟩
  · rintro ⟨result, hresult, hid, hnode⟩
    refine ⟨result, hresult, List.mem_map.mpr ⟨entry.2, hnode, ?_⟩⟩
    rw [hid]

theorem cited_iff (results : Completions) (chunk : PaperChunk) :
    (∃ node ∈ (extractGraph results).nodes, chunk.id ∈ node.sourceChunkIds) ↔
      Contributed results chunk := by
  constructor
  · rintro ⟨node, hnode, hchunk⟩
    obtain ⟨key, hkey⟩ := mem_nodes_iff.mp hnode
    obtain ⟨entry, hentry, -, hid⟩ := ((under_of_lookup hkey).chunks chunk.id).mp hchunk
    obtain ⟨result, hresult, hresultId, hmem⟩ := mem_extracted.mp hentry
    exact ⟨result, hresult, hresultId.trans hid, List.ne_nil_of_mem hmem⟩
  · rintro ⟨result, hresult, hid, hnodes⟩
    obtain ⟨found, hfound⟩ := List.exists_mem_of_ne_nil _ hnodes
    have hentry : (chunk.id, found) ∈ extracted results :=
      mem_extracted.mpr ⟨result, hresult, hid, hfound⟩
    obtain ⟨node, hnode⟩ := Option.isSome_iff_exists.mp
      (lookup_isSome_iff.mpr ⟨_, hentry, rfl⟩)
    refine ⟨node, mem_nodes_iff.mpr ⟨_, hnode⟩, ?_⟩
    exact ((under_of_lookup hnode).chunks chunk.id).mpr ⟨_, hentry, rfl, rfl⟩

/-- The report of unlinked chunks agrees with provenance exactly where every content chunk has
contributed a node. -/
theorem unlinked_agrees_iff (round3 : Rat → Rat) (doc : IngestedDocument)
    (chunks : List PaperChunk) (results : Completions) :
    (computeCoverage round3 doc chunks (extractGraph results)).unlinkedArtifacts =
        uncitedChunks chunks (extractGraph results).nodes ↔
      ∀ chunk ∈ chunks, chunk.isContent = true → Contributed results chunk := by
  change findUnlinkedChunks chunks (extractGraph results).edges = _ ↔ _
  rw [findUnlinkedChunks_eq_nil, uncitedChunks, eq_comm, List.take_eq_nil_iff,
    or_iff_right (by decide), List.map_eq_nil_iff, List.filter_eq_nil_iff]
  apply forall_congr'
  intro chunk
  apply imp_congr_right
  intro _
  rw [← cited_iff, Bool.and_eq_true_iff]
  cases chunk.isContent with
  | false => simp
  | true => simp

theorem failed_chunk_unreported :
    (computeCoverage (fun q => q) {} [chunkOf 0] (extractGraph [])).unlinkedArtifacts ≠
      uncitedChunks [chunkOf 0] (extractGraph []).nodes := by
  decide +kernel

end Synthetos.Analysis
