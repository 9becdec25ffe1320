import Synthetos.Lib.Capped
import Synthetos.Lib.Paragraphs

/-!
# Chunking of ingested documents

A document is cut into one chunk for each paragraph, figure, table and equation.  The cap on the
number of chunks is tested after each section, but before each figure, table and equation.
-/

namespace Synthetos.Analysis

open Lib Capped Text

structure NormalizedSection where
  heading : List Char := []
  level : Nat := 1
  content : List Char := []
  deriving DecidableEq

structure NormalizedFigure where
  id : List Char
  caption : List Char := []
  page : Option Int := none
  contentDescription : Option (List Char) := none
  deriving DecidableEq

structure NormalizedEquation where
  id : List Char
  latex : List Char := []
  context : Option (List Char) := none
  page : Option Int := none
  deriving DecidableEq

structure IngestedDocument where
  normalizedSections : List NormalizedSection := []
  normalizedFigures : List NormalizedFigure := []
  normalizedTables : List NormalizedFigure := []
  normalizedEquations : List NormalizedEquation := []

inductive ChunkType where
  | section
  | paragraph
  | figure
  | table
  | equation
  deriving DecidableEq

inductive ChunkMetadata where
  | section (level : Nat)
  | paragraph (level : Nat) (parentSection : List Char)
  | figure (figureId : List Char) (page : Option Int)
  | table (tableId : List Char) (page : Option Int)
  | equation (equationId : List Char) (page : Option Int)
  deriving DecidableEq

structure PaperChunk where
  id : Nat
  chunkType : ChunkType
  sectionPath : Option (List Char)
  ordinal : Nat
  content : List Char
  contentHash : List Char
  chunkMetadata : ChunkMetadata
  deriving DecidableEq

/-- SHA-256 in hexadecimal, and the ids given to the chunks of one call. -/
structure ChunkHost where
  sha256 : List Char → List Char
  uuid7 : Nat → Nat

/-- What a chunk is made of, its number apart. -/
structure Piece where
  chunkType : ChunkType
  sectionPath : Option (List Char)
  content : List Char
  metadata : ChunkMetadata
  deriving DecidableEq

def makeChunk (host : ChunkHost) (ordinal : Nat) (piece : Piece) : PaperChunk where
  id := host.uuid7 ordinal
  chunkType := piece.chunkType
  sectionPath := piece.sectionPath
  ordinal := ordinal
  content := piece.content
  contentHash := host.sha256 piece.content
  chunkMetadata := piece.metadata

/-! ### The pieces of a document -/

/-- A section of one paragraph is kept as it is. -/
def sectionPieces (sec : NormalizedSection) : List Piece :=
  if (paragraphs sec.content).length ≤ 1 then
    [⟨.section, some sec.heading, sec.content, .section sec.level⟩]
  else (paragraphs sec.content).map fun para =>
    ⟨.paragraph, some sec.heading, para, .paragraph sec.level sec.heading⟩

/-- The text of a figure or a table: its description follows where it says more than the caption. -/
def figureContent (kind : String) (fig : NormalizedFigure) : List Char :=
  let content := kind.toList ++ " ".toList ++ fig.id ++ ": ".toList ++ fig.caption
  match fig.contentDescription with
  | some desc => if desc ≠ [] ∧ desc ≠ fig.caption then content ++ "\n".toList ++ desc else content
  | none => content

def figurePiece (fig : NormalizedFigure) : Piece :=
  ⟨.figure, none, figureContent "Figure" fig, .figure fig.id fig.page⟩

def tablePiece (tbl : NormalizedFigure) : Piece :=
  ⟨.table, none, figureContent "Table" tbl, .table tbl.id tbl.page⟩

def equationPiece (eq : NormalizedEquation) : Piece :=
  let content := "Equation ".toList ++ eq.id ++ ": ".toList ++ eq.latex
  let content := match eq.context with
    | some ctx => if ctx ≠ [] then content ++ "\nContext: ".toList ++ ctx else content
    | none => content
  ⟨.equation, none, content, .equation eq.id eq.page⟩

/-! ### The loops -/

/-- The chunks made so far and the next number. -/
structure Chunking where
  chunks : List PaperChunk := []
  ordinal : Nat := 0

def Chunking.append (host : ChunkHost) (state : Chunking) (piece : Piece) : Chunking where
  chunks := state.chunks ++ [makeChunk host state.ordinal piece]
  ordinal := state.ordinal + 1

/-- The loop over the sections: the cap is tested after a section that is not blank. -/
def chunkSections (host : ChunkHost) (maxChunks : Nat) :
    List NormalizedSection → Chunking → Chunking
  | [], state => state
  | sec :: rest, state =>
    if blank sec.content then chunkSections host maxChunks rest state
    else
      let state := (sectionPieces sec).foldl (Chunking.append host) state
      if maxChunks ≤ state.chunks.length then state else chunkSections host maxChunks rest state

/-- The loops over figures, tables and equations: the cap is tested before each of them. -/
def chunkPieces (host : ChunkHost) (maxChunks : Nat) : List Piece → Chunking → Chunking
  | [], state => state
  | piece :: rest, state =>
    if maxChunks ≤ state.chunks.length then state
    else chunkPieces host maxChunks rest (state.append host piece)

def chunkDocument (host : ChunkHost) (doc : IngestedDocument) (maxChunks : Nat) : List PaperChunk :=
  let state := chunkSections host maxChunks doc.normalizedSections {}
  let state := chunkPieces host maxChunks (doc.normalizedFigures.map figurePiece) state
  let state := chunkPieces host maxChunks (doc.normalizedTables.map tablePiece) state
  (chunkPieces host maxChunks (doc.normalizedEquations.map equationPiece) state).chunks

/-! ### Lossless up to the cap -/

def textPieces (sec : NormalizedSection) : List Piece :=
  if blank sec.content then [] else sectionPieces sec

def otherPieces (doc : IngestedDocument) : List Piece :=
  doc.normalizedFigures.map figurePiece ++
    (doc.normalizedTables.map tablePiece ++ doc.normalizedEquations.map equationPiece)

def fullPieces (doc : IngestedDocument) : List Piece :=
  doc.normalizedSections.flatMap textPieces ++ otherPieces doc

/-- The chunks of some pieces, numbered from zero. -/
def chunksOf (host : ChunkHost) (pieces : List Piece) : List PaperChunk :=
  pieces.zipIdx.map fun entry => makeChunk host entry.2 entry.1

/-- No section begins below the cap and ends above it. -/
def SectionsFit (doc : IngestedDocument) (maxChunks : Nat) : Prop :=
  NoneCrosses maxChunks (doc.normalizedSections.map textPieces) []

/-- A section has one piece for each of its paragraphs, but for white space. -/
theorem strip_textPieces (sec : NormalizedSection) :
    (textPieces sec).map (fun piece => strip piece.content) = paragraphs sec.content := by
  unfold textPieces
  split
  · rename_i hblank
    rw [paragraphs_of_blank hblank]
    rfl
  · rename_i hfull
    unfold sectionPieces
    split
    · rename_i hone
      rw [paragraphs_of_length_le_one hone, if_neg hfull]
      rfl
    · have hstrip : ∀ para ∈ paragraphs sec.content, strip para = id para := by
        intro para hpara
        obtain ⟨line, -, rfl⟩ := List.mem_map.mp (List.mem_of_mem_filter hpara)
        exact (strip_trimmed line).strip_eq
      rw [List.map_map]
      exact (List.map_congr_left hstrip).trans (List.map_id _)

variable {host : ChunkHost} {doc : IngestedDocument} {maxChunks : Nat} {pieces more : List Piece}
  {sections : List NormalizedSection} {text : List Char}

def madeOf (host : ChunkHost) (pieces : List Piece) : Chunking where
  chunks := chunksOf host pieces
  ordinal := pieces.length

@[simp] theorem length_chunks_madeOf : (madeOf host pieces).chunks.length = pieces.length := by
  simp [madeOf, chunksOf]

theorem append_madeOf (host : ChunkHost) (pieces : List Piece) (piece : Piece) :
    (madeOf host pieces).append host piece = madeOf host (pieces ++ [piece]) := by
  simp [madeOf, chunksOf, Chunking.append, List.zipIdx_append]

theorem foldl_madeOf (host : ChunkHost) (more pieces : List Piece) :
    more.foldl (Chunking.append host) (madeOf host pieces) = madeOf host (pieces ++ more) := by
  induction more generalizing pieces with
  | nil => simp
  | cons piece more ih =>
    rw [List.foldl_cons, append_madeOf, ih, List.append_assoc]
    rfl

theorem chunkSections_madeOf (h : pieces.length < maxChunks) :
    chunkSections host maxChunks sections (madeOf host pieces) =
      madeOf host (appendGroups maxChunks (sections.map textPieces) pieces) := by
  induction sections generalizing pieces with
  | nil => rfl
  | cons sec sections ih =>
    rw [chunkSections, List.map_cons, appendGroups, textPieces]
    split
    · rw [List.append_nil, if_neg (Nat.not_le.mpr h)]
      exact ih h
    · rw [foldl_madeOf]
      dsimp only
      rw [length_chunks_madeOf]
      split
      · rfl
      · rename_i hbelow
        exact ih (Nat.not_le.mp hbelow)

theorem chunkPieces_madeOf (host : ChunkHost) (maxChunks : Nat) (more pieces : List Piece) :
    chunkPieces host maxChunks more (madeOf host pieces) =
      madeOf host (pieces ++ more.take (maxChunks - pieces.length)) := by
  induction more generalizing pieces with
  | nil => simp [chunkPieces]
  | cons piece more ih =>
    rw [chunkPieces, length_chunks_madeOf]
    split
    · rename_i hreached
      rw [Nat.sub_eq_zero_of_le hreached]
      simp
    · rename_i hbelow
      have hleft : maxChunks - pieces.length = maxChunks - (pieces ++ [piece]).length + 1 := by
        rw [List.length_append, List.length_singleton]
        omega
      rw [append_madeOf, ih, hleft, List.take_succ_cons, List.append_assoc]
      rfl

theorem chunkPieces_append (host : ChunkHost) (maxChunks : Nat) (more rest : List Piece)
    (state : Chunking) : chunkPieces host maxChunks (more ++ rest) state =
      chunkPieces host maxChunks rest (chunkPieces host maxChunks more state) := by
  induction more generalizing state with
  | nil => rfl
  | cons piece more ih =>
    rw [List.cons_append, chunkPieces, chunkPieces]
    split
    · rename_i hreached
      cases rest with
      | nil => rfl
      | cons _ _ => rw [chunkPieces, if_pos hreached]
    · exact ih _

theorem chunkDocument_eq (h : 0 < maxChunks) : chunkDocument host doc maxChunks =
    chunksOf host (appendGroups maxChunks (doc.normalizedSections.map textPieces) [] ++
      (otherPieces doc).take (maxChunks -
        (appendGroups maxChunks (doc.normalizedSections.map textPieces) []).length)) := by
  have hsections : chunkSections host maxChunks doc.normalizedSections {} =
      madeOf host (appendGroups maxChunks (doc.normalizedSections.map textPieces) []) := by
    have hstart : ({} : Chunking) = madeOf host [] := rfl
    rw [hstart]
    exact chunkSections_madeOf h
  unfold chunkDocument
  dsimp only
  rw [hsections, ← chunkPieces_append, ← chunkPieces_append]
  exact congrArg Chunking.chunks (chunkPieces_madeOf host maxChunks (otherPieces doc) _)

theorem chunksOf_injective (host : ChunkHost) (h : chunksOf host pieces = chunksOf host more) :
    pieces = more := by
  have hpieces (pieces : List Piece) : (chunksOf host pieces).map (fun chunk =>
      (⟨chunk.chunkType, chunk.sectionPath, chunk.content, chunk.chunkMetadata⟩ : Piece)) =
        pieces := by
    rw [chunksOf, List.map_map]
    exact List.zipIdx_map_fst 0 pieces
  rw [← hpieces pieces, h, hpieces more]

/-- The chunks are the first pieces, numbered, exactly where the sections fit. -/
theorem chunkDocument_lossless_iff (host : ChunkHost) (doc : IngestedDocument)
    (h : 0 < maxChunks) :
    chunkDocument host doc maxChunks = chunksOf host ((fullPieces doc).take maxChunks) ↔
      SectionsFit doc maxChunks := by
  rw [chunkDocument_eq h, fullPieces, SectionsFit, ← appendGroups_take_iff h _ (otherPieces doc),
    List.flatMap_def]
  constructor
  · exact chunksOf_injective host
  · intro heq
    rw [heq]

def plainChunkHost : ChunkHost where
  sha256 := id
  uuid7 := id

def twoParagraphs : IngestedDocument where
  normalizedSections := [{ heading := "A".toList, content := "x\ny".toList }]

def twoSections : IngestedDocument where
  normalizedSections := [{ heading := "A".toList, content := "x\ny".toList },
    { heading := "B".toList, content := "z".toList }]

theorem chunkDocument_lossless_iff_two_sections : chunkDocument plainChunkHost twoSections 3 =
    chunksOf plainChunkHost ((fullPieces twoSections).take 3) := by
  refine (chunkDocument_lossless_iff plainChunkHost twoSections (by decide)).mpr ?_
  exact (Capped.length_appendGroups_le_iff (by decide)).mp (by decide +kernel)

/-- A section of two paragraphs makes two chunks where one is the most. -/
theorem section_over_cap : chunkDocument plainChunkHost twoParagraphs 1 ≠
    chunksOf plainChunkHost ((fullPieces twoParagraphs).take 1) := by
  decide +kernel

end Synthetos.Analysis
