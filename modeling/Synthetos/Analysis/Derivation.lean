import Synthetos.Analysis.OnePass

/-!
# Where stored rows come from

Operators can run again for a job they have committed for, and then store rows twice.  Even so a
session keeps one document, and every other row was computed from rows that were stored before it.
-/

namespace Synthetos.Analysis

open Synthetos.Core Lib Storage Worker Jobs

/-- All nodes and edges of some extractions. -/
def mergedGraph (graphs : List Graph) : Graph where
  nodes := graphs.flatMap Graph.nodes
  edges := graphs.flatMap Graph.edges

/-- What one operator can add to the rows of a session. -/
inductive Stores (maxChunks : Nat) (old : Content) : Content → Prop where
  | nothing : Stores maxChunks old old
  | document (fetched : IngestionResult) (hempty : old.documents = []) :
      Stores maxChunks old { old with documents := [fetched] }
  | chunks (doc : IngestionResult) (host : ChunkHost) (hdoc : old.documents = [doc]) :
      Stores maxChunks old
        { old with chunks := old.chunks ++ chunkDocument host doc.document maxChunks }
  | graph (answers : Answers) :
      Stores maxChunks old
        { old with graphs :=
            old.graphs ++ [(extractGraph (answers.completions old.chunks)).stored] }
  | diagnostic (doc : IngestionResult) (round3 : Rat → Rat) (order : RowOrder)
      (hdoc : old.documents = [doc]) (hempty : old.diagnostics = []) :
      Stores maxChunks old
        { old with diagnostics :=
            [computeCoverage round3 doc.document (order.chunks old.chunks)
              (order.graph (mergedGraph old.graphs))] }
  | packet (summary : List Char) (order : RowOrder) (coverage : Option CoverageDiagnostic)
      (hcoverage : coverage = old.diagnostics.head?) (hempty : old.packets = [])
      (reviews : List ReviewOutput) (hreviews : reviews.length ≤ 1) :
      Stores maxChunks old
        { old with
          packets :=
            [analysisPacket summary old.chunks (order.graph (mergedGraph old.graphs)) coverage]
          reviews := old.reviews ++ reviews }

/-- What an operator leaves of the rows it found. -/
structure Keeps (rows : SessionRows) (existing : List EvidenceCard) (out : Outcome) : Prop where
  stores : Stores rows.analysis.budget.maxChunks rows.content out.rows.content
  budget : out.rows.analysis.budget = rows.analysis.budget
  cycle : out.rows.analysis.cycleId = rows.analysis.cycleId
  cards : ∀ card ∈ out.cards, rows.content.packets ≠ [] ∧
    ∃ candidate : Candidate, card = detect idTexts existing candidate

variable {settings : Settings} {start sys sys' : System} {act : Act} {s t : SessionId}
  {stage : Stage} {rows : SessionRows} {world : AnalysisWorld} {existing : List EvidenceCard}
  {out : Outcome} {old new : Content} {maxChunks : Nat}

theorem addUnique_ok {Row : Type} {table added : List Row} {row : Row}
    (h : addUnique table row = .ok added) : table = [] ∧ added = [row] := by
  cases table with
  | nil => exact ⟨rfl, (Except.ok.inj h).symm⟩
  | cons => exact absurd h nofun

theorem scalarOneOrNone_ok {Row : Type} {table : List Row} {found : Option Row}
    (h : scalarOneOrNone table = .ok found) : table = found.toList := by
  match table, h with
  | [], h => rw [← Except.ok.inj h]; rfl
  | [row], h => rw [← Except.ok.inj h]; rfl

theorem keeps_fail (e : String)
    (h : Stores rows.analysis.budget.maxChunks rows.content new) :
    Keeps rows existing ((rows.store new).fail e) :=
  ⟨h, rfl, rfl, nofun⟩

theorem keeps_succeed {path : Option String}
    (h : Stores rows.analysis.budget.maxChunks rows.content new) :
    Keeps rows existing
      (SessionRows.succeed ⟨{ rows.analysis with reportArtifactPath := path }, new⟩ stage) :=
  ⟨h, rfl, rfl, nofun⟩

theorem ingest_keeps (h : ingestOperator rows world = .ok out) : Keeps rows existing out := by
  unfold ingestOperator at h
  split at h
  · obtain rfl := Except.ok.inj h
    exact keeps_fail _ .nothing
  · dsimp only at h
    split at h
    · obtain rfl := Except.ok.inj h
      exact keeps_fail _ .nothing
    · split at h
      · obtain rfl := Except.ok.inj h
        exact keeps_fail _ .nothing
      · obtain ⟨documents, hadded, h⟩ := bind_eq_ok.mp h
        obtain ⟨hempty, rfl⟩ := addUnique_ok hadded
        obtain rfl := Except.ok.inj h
        exact keeps_succeed (.document _ hempty)

theorem chunk_keeps (h : chunkOperator rows world = .ok out) : Keeps rows existing out := by
  obtain ⟨found, hfound, h⟩ := bind_eq_ok.mp h
  split at h
  · obtain rfl := Except.ok.inj h
    exact keeps_fail _ .nothing
  · rename_i doc
    have stored : Stores rows.analysis.budget.maxChunks rows.content _ :=
      .chunks doc world.host (scalarOneOrNone_ok hfound)
    dsimp only at h
    split at h
    · obtain rfl := Except.ok.inj h
      exact keeps_fail _ stored
    · obtain rfl := Except.ok.inj h
      exact keeps_succeed stored

theorem graphExtract_keeps (h : graphExtractOperator rows world = .ok out) :
    Keeps rows existing out := by
  unfold graphExtractOperator at h
  split at h
  · obtain rfl := Except.ok.inj h
    exact keeps_fail _ .nothing
  · split at h
    · obtain rfl := Except.ok.inj h
      exact keeps_fail _ .nothing
    · dsimp only at h
      split at h
      · exact absurd h nofun
      · split at h
        · obtain rfl := Except.ok.inj h
          exact keeps_fail _ (.graph world.answers)
        · obtain rfl := Except.ok.inj h
          exact keeps_succeed (.graph world.answers)

theorem coverage_keeps (h : coverageOperator rows world = .ok out) : Keeps rows existing out := by
  obtain ⟨found, hfound, h⟩ := bind_eq_ok.mp h
  split at h
  · obtain rfl := Except.ok.inj h
    exact keeps_fail _ .nothing
  · obtain ⟨diagnostics, hadded, h⟩ := bind_eq_ok.mp h
    obtain ⟨hempty, rfl⟩ := addUnique_ok hadded
    obtain rfl := Except.ok.inj h
    exact keeps_succeed (.diagnostic _ world.round3 world.order (scalarOneOrNone_ok hfound) hempty)

theorem review_keeps (h : reviewOperator rows world = .ok out) : Keeps rows existing out := by
  obtain ⟨coverage, hcoverage, h⟩ := bind_eq_ok.mp h
  have hhead : coverage = rows.content.diagnostics.head? := by
    rw [scalarOneOrNone_ok hcoverage]
    cases coverage <;> rfl
  split at h
  · obtain rfl := Except.ok.inj h
    exact keeps_fail _ .nothing
  · obtain rfl := Except.ok.inj h
    exact keeps_fail _ .nothing
  · rename_i summary _ _
    obtain ⟨packets, hadded, h⟩ := bind_eq_ok.mp h
    obtain ⟨hempty, rfl⟩ := addUnique_ok hadded
    have stored (reviews : List ReviewOutput) (hreviews : reviews.length ≤ 1) :
        Stores rows.analysis.budget.maxChunks rows.content _ :=
      .packet summary world.order coverage hhead hempty reviews hreviews
    dsimp only at h
    split at h
    · obtain rfl := Except.ok.inj h
      refine keeps_fail _ ?_
      have packed := stored [] (Nat.zero_le 1)
      rwa [List.append_nil] at packed
    · rename_i review _
      split at h
      · obtain rfl := Except.ok.inj h
        exact keeps_fail _ (stored [review] le_rfl)
      · obtain rfl := Except.ok.inj h
        exact keeps_succeed (stored [review] le_rfl)

theorem evidence_keeps (h : evidenceOperator rows existing world = .ok out) :
    Keeps rows existing out := by
  obtain ⟨found, hfound, h⟩ := bind_eq_ok.mp h
  split at h
  · obtain rfl := Except.ok.inj h
    exact keeps_fail _ .nothing
  · split at h
    · obtain rfl := Except.ok.inj h
      exact keeps_fail _ .nothing
    · obtain rfl := Except.ok.inj h
      refine ⟨.nothing, rfl, rfl, fun card hcard => ?_⟩
      obtain ⟨candidate, -, rfl⟩ := List.mem_map.mp hcard
      refine ⟨?_, candidate, rfl⟩
      rw [scalarOneOrNone_ok hfound]
      exact List.cons_ne_nil _ _

theorem runOperator_keeps (h : runOperator stage rows existing world = .ok out) :
    Keeps rows existing out := by
  cases stage with
  | ingest => exact ingest_keeps h
  | chunk => exact chunk_keeps h
  | graphExtract => exact graphExtract_keeps h
  | coverage => exact coverage_keeps h
  | review => exact review_keeps h
  | evidence => exact evidence_keeps h

/-! ### The invariant -/

/-- The chunks of some passes over the documents. -/
def passesOver (hosts : List ChunkHost) (documents : List IngestionResult) (maxChunks : Nat) :
    List PaperChunk :=
  hosts.flatMap fun host => documents.flatMap fun doc => chunkDocument host doc.document maxChunks

/-- Rows are computed from rows stored before: from the one document, and from first parts of the
tables as they are now, in any order where the query asks for none. -/
structure Derived (maxChunks : Nat) (content : Content) : Prop where
  documents : content.documents.length ≤ 1
  diagnostics : content.diagnostics.length ≤ 1
  packets : content.packets.length ≤ 1
  reviews : content.reviews.length ≤ content.packets.length
  chunks : ∃ hosts, content.chunks = passesOver hosts content.documents maxChunks
  graphs : ∀ graph ∈ content.graphs, ∃ (answers : Answers) (chunks : List PaperChunk),
    chunks <+: content.chunks ∧ graph = (extractGraph (answers.completions chunks)).stored
  measured : ∀ diagnostic ∈ content.diagnostics,
    ∃ (round3 : Rat → Rat) (order : RowOrder) (chunks : List PaperChunk) (graphs : List Graph),
      ∃ doc ∈ content.documents, chunks <+: content.chunks ∧ graphs <+: content.graphs ∧
        diagnostic = computeCoverage round3 doc.document (order.chunks chunks)
          (order.graph (mergedGraph graphs))
  summarised : ∀ packet ∈ content.packets,
    ∃ (summary : List Char) (order : RowOrder) (chunks : List PaperChunk) (graphs : List Graph)
      (coverage : Option CoverageDiagnostic), chunks <+: content.chunks ∧
        graphs <+: content.graphs ∧ (∀ diagnostic ∈ coverage, diagnostic ∈ content.diagnostics) ∧
        packet = analysisPacket summary chunks (order.graph (mergedGraph graphs)) coverage

theorem Derived.empty (maxChunks : Nat) : Derived maxChunks {} where
  documents := Nat.zero_le 1
  diagnostics := Nat.zero_le 1
  packets := Nat.zero_le 1
  reviews := le_rfl
  chunks := ⟨[], rfl⟩
  graphs := nofun
  measured := nofun
  summarised := nofun

/-- Without a document there is nothing to chunk. -/
theorem Derived.no_chunks (h : Derived maxChunks old) (hempty : old.documents = []) :
    old.chunks = [] := by
  obtain ⟨hosts, hchunks⟩ := h.chunks
  rw [hchunks, hempty]
  simp [passesOver]

theorem Derived.no_diagnostics (h : Derived maxChunks old) (hempty : old.documents = []) :
    old.diagnostics = [] := by
  by_contra hsome
  obtain ⟨diagnostic, hmem⟩ := List.exists_mem_of_ne_nil _ hsome
  obtain ⟨-, -, -, -, doc, hdoc, -⟩ := h.measured diagnostic hmem
  rw [hempty] at hdoc
  exact absurd hdoc nofun

/-- What rests on chunks and graphs still does when more are stored. -/
theorem Derived.grow {chunks : List PaperChunk} {graphs : List Graph}
    (h : Derived maxChunks old) (hchunks : old.chunks <+: chunks) (hgraphs : old.graphs <+: graphs)
    (hpasses : ∃ hosts, chunks = passesOver hosts old.documents maxChunks)
    (hextracted : ∀ graph ∈ graphs, ∃ (answers : Answers) (read : List PaperChunk),
      read <+: chunks ∧ graph = (extractGraph (answers.completions read)).stored) :
    Derived maxChunks { old with chunks, graphs } := by
  refine { h with chunks := hpasses, graphs := hextracted, measured := ?_, summarised := ?_ }
  · intro diagnostic hdiagnostic
    obtain ⟨round3, order, read, merged, doc, hdoc, hread, hmerged, heq⟩ :=
      h.measured _ hdiagnostic
    exact ⟨round3, order, read, merged, doc, hdoc, hread.trans hchunks, hmerged.trans hgraphs, heq⟩
  · intro packet hpacket
    obtain ⟨summary, order, read, merged, coverage, hread, hmerged, hrest⟩ :=
      h.summarised packet hpacket
    exact ⟨summary, order, read, merged, coverage, hread.trans hchunks, hmerged.trans hgraphs,
      hrest⟩

theorem derived_stores (h : Derived maxChunks old) (hstores : Stores maxChunks old new) :
    Derived maxChunks new := by
  have grown {α : Type} {l more : List α} : l <+: l ++ more := List.prefix_append l more
  cases hstores with
  | nothing => exact h
  | document fetched hempty =>
    refine { h with documents := le_rfl, chunks := ⟨[], h.no_chunks hempty⟩, measured := ?_ }
    rw [h.no_diagnostics hempty]
    exact nofun
  | chunks doc host hdoc =>
    obtain ⟨hosts, hchunks⟩ := h.chunks
    refine h.grow grown (List.prefix_refl _) ⟨hosts ++ [host], ?_⟩ fun graph hgraph => ?_
    · rw [hchunks, hdoc]
      simp [passesOver]
    · obtain ⟨answers, chunks, hprefix, heq⟩ := h.graphs graph hgraph
      exact ⟨answers, chunks, hprefix.trans grown, heq⟩
  | graph answers =>
    refine h.grow (List.prefix_refl _) grown h.chunks fun graph hgraph => ?_
    rcases List.mem_append.mp hgraph with hold | hnew
    · exact h.graphs graph hold
    · obtain rfl := List.mem_singleton.mp hnew
      exact ⟨answers, old.chunks, List.prefix_refl _, rfl⟩
  | diagnostic doc round3 order hdoc hempty =>
    refine { h with diagnostics := le_rfl, measured := ?_, summarised := ?_ }
    · intro diagnostic hdiagnostic
      obtain rfl := List.mem_singleton.mp hdiagnostic
      exact ⟨round3, order, old.chunks, old.graphs, doc,
        by rw [hdoc]; exact List.mem_singleton_self doc, List.prefix_refl _, List.prefix_refl _,
        rfl⟩
    · intro packet hpacket
      obtain ⟨summary, order, chunks, graphs, coverage, hprefix, hgraphs, hmem, heq⟩ :=
        h.summarised packet hpacket
      refine ⟨summary, order, chunks, graphs, coverage, hprefix, hgraphs, fun d hd => ?_, heq⟩
      have hin := hmem d hd
      rw [hempty] at hin
      exact absurd hin nofun
  | packet summary order coverage hcoverage hempty reviews hreviews =>
    have hnone : old.reviews = [] := by
      have hle := h.reviews
      rw [hempty] at hle
      exact List.eq_nil_of_length_eq_zero (Nat.le_zero.mp hle)
    refine { h with packets := le_rfl, reviews := ?_, summarised := ?_ }
    · rw [hnone]
      exact hreviews
    · intro packet hpacket
      obtain rfl := List.mem_singleton.mp hpacket
      refine ⟨summary, order, old.chunks, old.graphs, coverage, List.prefix_refl _,
        List.prefix_refl _, fun d hd => ?_, rfl⟩
      rw [hcoverage] at hd
      exact List.mem_of_mem_head? hd

/-- A document is never replaced, and packets are never removed. -/
theorem stores_packets (h : Stores maxChunks old new) (hsome : old.packets ≠ []) :
    new.packets ≠ [] := by
  cases h with
  | packet summary order coverage hcoverage hempty => exact absurd hempty hsome
  | _ => exact hsome

/-- Each evidence card of a session was compared with cards of its cycle filed before it. -/
structure Filed (store : AnalysisDb) (s : SessionId) (rows : SessionRows) : Prop where
  derived : Derived rows.analysis.budget.maxChunks rows.content
  packet : store.cardsOf s ≠ [] → rows.content.packets ≠ []
  compared : ∀ n row, store.evidence[n]? = some row → row.sessionId = s →
    row.cycleId = rows.analysis.cycleId ∧ ∃ (visible : Nat) (candidate : Candidate), visible ≤ n ∧
      row.card = detect idTexts (store.existing rows.analysis.cycleId visible) candidate

structure AllFiled (store : AnalysisDb) : Prop where
  sessions : ∀ s rows, store.sessions[s]? = some rows → Filed store s rows
  evidence : ∀ row ∈ store.evidence, row.sessionId < store.sessions.length

variable {db db' : AnalysisDb}

/-- A session without new cards has its rows where they were. -/
theorem evidence_kept {n : Nat} {row : EvidenceRow} (hevidence : db.evidence <+: db'.evidence)
    (hcards : db'.cardsOf s = db.cardsOf s) (hrow : db'.evidence[n]? = some row)
    (hsession : row.sessionId = s) : db.evidence[n]? = some row := by
  obtain ⟨more, hmore⟩ := hevidence
  rw [← hmore] at hrow
  rcases Nat.lt_or_ge n db.evidence.length with hlt | hge
  · rwa [List.getElem?_append_left hlt] at hrow
  · rw [List.getElem?_append_right hge] at hrow
    have hnone : more.filter (fun row => row.sessionId == s) = [] := by
      have hlength := congrArg List.length hcards
      unfold AnalysisDb.cardsOf at hlength
      rw [← hmore, List.filter_append, List.map_append, List.length_append] at hlength
      exact List.map_eq_nil_iff.mp (List.eq_nil_of_length_eq_zero (Nat.add_eq_left.mp hlength))
    exact absurd (beq_iff_eq.mpr hsession)
      (List.filter_eq_nil_iff.mp hnone row (List.mem_of_getElem? hrow))

theorem Filed.mono (h : Filed db s rows) (hevidence : db.evidence <+: db'.evidence)
    (hcards : db'.cardsOf s = db.cardsOf s) : Filed db' s rows where
  derived := h.derived
  packet hsome := h.packet (by rwa [hcards] at hsome)
  compared n row hrow hsession := by
    have hold := evidence_kept hevidence hcards hrow hsession
    obtain ⟨hcycle, visible, candidate, hle, heq⟩ := h.compared n row hold hsession
    refine ⟨hcycle, visible, candidate, hle, ?_⟩
    rw [existing_mono hevidence _ (hle.trans (Table.lt_length_of_getElem? hold).le), heq]

theorem filed_self (h : Filed db s rows) (hout : Operated db s stage world db' rows out) :
    Filed db' s out.rows := by
  have hkeeps := runOperator_keeps hout.ran
  refine ⟨?_, fun hsome => ?_, fun n row hrow hsession => ?_⟩
  · rw [hkeeps.budget]
    exact derived_stores h.derived hkeeps.stores
  · apply stores_packets hkeeps.stores
    rw [cardsOf_self hout] at hsome
    by_cases hold : db.cardsOf s = []
    · rw [hold, List.nil_append] at hsome
      obtain ⟨card, hcard⟩ := List.exists_mem_of_ne_nil _ hsome
      exact (hkeeps.cards card hcard).1
    · exact h.packet hold
  · rw [hkeeps.cycle]
    rcases Nat.lt_or_ge n db.evidence.length with hlt | hge
    · have hold : db.evidence[n]? = some row := by
        rwa [hout.evidence, List.getElem?_append_left hlt] at hrow
      obtain ⟨hcycle, visible, candidate, hle, heq⟩ := h.compared n row hold hsession
      refine ⟨hcycle, visible, candidate, hle, ?_⟩
      rw [existing_mono hout.evidence_prefix _ (hle.trans hlt.le), heq]
    · rw [hout.evidence, List.getElem?_append_right hge] at hrow
      obtain ⟨card, hcard, rfl⟩ := List.mem_map.mp (List.mem_of_getElem? hrow)
      obtain ⟨-, candidate, heq⟩ := hkeeps.cards card hcard
      refine ⟨rfl, min world.visible db.evidence.length, candidate,
        (Nat.min_le_right ..).trans hge, ?_⟩
      rw [existing_mono hout.evidence_prefix _ (Nat.min_le_right ..), existing_min, heq]

theorem allFiled_operated (h : AllFiled db) (hout : Operated db s stage world db' rows out) :
    AllFiled db' := by
  refine ⟨fun t new ht => ?_, filed_operated h.evidence hout⟩
  by_cases hne : s = t
  · subst hne
    obtain rfl := Option.some.inj (hout.self.symm.trans ht)
    exact filed_self (h.sessions s rows hout.found) hout
  · rw [hout.other hne] at ht
    exact (h.sessions t new ht).mono hout.evidence_prefix (cardsOf_other hout hne)

theorem allFiled_marked {seen : AnalysisSession} {error : String} (h : AllFiled db) :
    AllFiled (db.writeFailure s seen error) := by
  refine ⟨fun t new ht => ?_, fun row hrow => ?_⟩
  · by_cases hne : s = t
    · subst hne
      obtain ⟨old, hold, hcontent, hbudget, hcycle, -⟩ := writeFailure_self ht
      obtain ⟨hderived, hpacket, hcompared⟩ := h.sessions s old hold
      exact ⟨by rwa [hcontent, hbudget], by rwa [hcontent], by rwa [hcycle]⟩
    · rw [writeFailure_other hne] at ht
      exact (h.sessions t new ht).mono (List.prefix_refl _) rfl
  · rw [writeFailure_length]
    exact h.evidence row hrow

theorem allFiled_created {analysis : AnalysisSession} (h : AllFiled db) :
    AllFiled (db.create analysis) := by
  refine ⟨fun t rows ht => ?_, fun row hrow => ?_⟩
  · rcases Table.getElem?_append_singleton ht with hold | ⟨rfl, rfl⟩
    · exact (h.sessions t rows hold).mono (List.prefix_refl _) rfl
    · have hnone : (db.create analysis).cardsOf db.sessions.length = [] := cardsOf_new h.evidence
      refine ⟨.empty _, fun hsome => absurd hnone hsome, fun n row hrow hsession => ?_⟩
      exact absurd hsession (Nat.ne_of_lt (h.evidence row (List.mem_of_getElem? hrow)))
  · simp only [AnalysisDb.create, List.length_append, List.length_singleton]
    exact Nat.lt_succ_of_lt (h.evidence row hrow)

theorem allFiled_step (hinv : AllFiled sys.store) (h : Moves settings sys act sys') :
    AllFiled sys'.store := by
  cases h with
  | quiet | read | raised | refused => exact hinv
  | mark => exact allFiled_marked hinv
  | started => exact allFiled_created hinv
  | failed w world k stage s e rt store errors hexec hk hout
  | passed w world k stage next s rt store job hexec hk hnext hout
  | finished w world k stage s rt store hexec hk hend hout =>
    obtain ⟨rows, out, hoperated, -⟩ := operate_cases hout
    exact allFiled_operated hinv hoperated

theorem allFiled_run (h₀ : start.Initial)
    (h : Reaches Unguarded (System.step settings) start sys) : AllFiled sys.store :=
  h.invariant (fun sys => AllFiled sys.store)
    (fun _ _ _ hinv _ hstep => allFiled_step hinv (moves_of_step hstep))
    (by rw [h₀.store]; exact ⟨nofun, nofun⟩)

/-- In every reachable state, however often operators ran again, the rows of a session were
computed from its one document and from rows stored before them. -/
theorem stored_rows_derived {settings : Settings} {start sys : System} {s : SessionId}
    {rows : SessionRows} (h₀ : start.Initial)
    (h : Reaches Unguarded (System.step settings) start sys)
    (hs : sys.store.sessions[s]? = some rows) : Filed sys.store s rows :=
  (allFiled_run h₀ h).sessions s rows hs

/-! ### An operator that runs twice -/

/-- A worker dies after the chunks are committed, and another takes up its job again. -/
def chunkTwice : List Act :=
  [.runtime (.receive 0 (.startAnalysis 0)), .start 0 ⟨0, 0, some "escalated", .usual⟩] ++
    workOn { html := .ok shortPaper } ++
    [.runtime (.claim 0 []), .runtime (.start 0), .operate 0 {}, .runtime (.crash 0),
      .runtime (.tick 120000001), .runtime (.readStale 1), .runtime (.writeStale 1),
      .runtime (.claim 1 []), .runtime (.start 1), .operate 1 {}]

def chunksStored (n : Nat) (sys : System) : Bool :=
  sys.store.sessions[0]?.any fun rows => rows.content.chunks.length == n

theorem stored_rows_derived_twice : ∃ (start sys : System) (rows : SessionRows),
    start.Initial ∧ Reaches Unguarded (System.step {}) start sys ∧
      sys.store.sessions[0]? = some rows ∧ rows.content.chunks.length = 2 ∧
      Filed sys.store 0 rows := by
  have hperform : (perform (fun _ _ => true) (System.step {}) screenedCycle chunkTwice).any
      (chunksStored 2) = true := by decide +kernel
  obtain ⟨sys, hrun, htest⟩ := Reaches.of_perform_all hperform
  obtain ⟨rows, hrows, hcount⟩ := (Option.any_eq_true _ _).mp htest
  exact ⟨screenedCycle, sys, rows, screenedCycle_initial, hrun, hrows, beq_iff_eq.mp hcount,
    stored_rows_derived screenedCycle_initial hrun hrows⟩

end Synthetos.Analysis
