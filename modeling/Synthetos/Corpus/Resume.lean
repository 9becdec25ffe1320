import Synthetos.Corpus.Checkpoints

/-!
# Resuming until an import completes

An undisturbed `--resume` without a limit either completes its run or leaves it, through the
exception handler, at a later line.  A file therefore needs at most as many resumes as it has
lines, one more if no run of it is open.
-/

namespace Synthetos.Corpus

open Lib

/-- Only resumes of one file, and no call that fails for reasons of its own. -/
def Resuming (path : String) (batchSize : Int) (_ : World) (action : Action) : Prop :=
  action = .start path true none batchSize ∨ action = .advance

/-- The phases after a line of this invocation has been read. -/
def Phase.moved : Phase → Bool
  | .rejecting | .flushing _ | .flushed _ | .failing => true
  | _ => false

/-- Steps a phase is away from the end of the invocation, when no further line is read. -/
def Phase.rank : Phase → Nat
  | .ended _ => 0
  | .finishing | .failing => 1
  | .flushed true => 2
  | .flushing true => 3
  | .reading => 4
  | .flushed false | .rejecting => 5
  | .flushing false => 6

def Import.remaining (p : Import) (lines : List Line) : Nat :=
  7 * (lines.length - p.currentLineNo) + p.phase.rank

/-- `last_arxiv_id` takes the id of every valid record. -/
def IdsFit (lines : List Line) : Prop :=
  ∀ record ∈ lines.filterMap Line.record?, Column.fits 64 record.arxivId.toList = true

/-- What `resumable` reads of the runs. -/
def keys (w : World) : List (String × Bool) :=
  w.runs.map fun run => (run.sourcePath, run.completedAt)

variable {files : String → Option (List Line)} {accepts : RunMode → List Record → Bool}
  {lines : List Line} {line : Line} {record : Record} {w w' : World} {p q : Import} {path : String} {batchSize : Int}

structure Placed (lines : List Line) (p : Import) : Prop where
  inFile : p.currentLineNo ≤ lines.length
  forward : p.fromLine ≤ p.currentLineNo
  moved : p.batch ≠ [] ∨ p.phase.moved = true → p.fromLine < p.currentLineNo

/-- An import that is going on, on an open run of its file. -/
structure Underway (files : String → Option (List Line)) (lines : List Line) (w : World)
    (p : Import) : Prop extends Placed lines p where
  found : w.process = some p
  file : files p.path = some lines
  row : ∃ run, w.runs[p.runId]? = some run
  active : ∀ completed, p.phase ≠ .ended completed
  lastId : p.lastIdFits = true

theorem rank_le (phase : Phase) : phase.rank ≤ 6 := by
  cases phase with
  | flushing last => cases last <;> decide
  | flushed last => cases last <;> decide
  | _ => simp [Phase.rank]

theorem currentLineNo_endRecord : p.endRecord.currentLineNo = p.currentLineNo := by
  rw [Import.endRecord]
  split <;> rfl

theorem currentLineNo_append : (p.append record).currentLineNo = p.currentLineNo := by
  dsimp only [Import.append]
  split
  · rfl
  · exact currentLineNo_endRecord

theorem currentLineNo_readLine (p : Import) (line : Line) :
    (p.readLine line).currentLineNo = p.currentLineNo + 1 := by
  cases line with
  | blank => rfl
  | garbage => rfl
  | document raw =>
    dsimp only [Import.readLine]
    split
    · rfl
    · rfl
    · exact currentLineNo_append

theorem currentLastArxivId_endRecord : p.endRecord.currentLastArxivId = p.currentLastArxivId := by
  rw [Import.endRecord]
  split <;> rfl

theorem currentLastArxivId_append : (p.append record).currentLastArxivId = some record.arxivId := by
  dsimp only [Import.append]
  split
  · rfl
  · exact currentLastArxivId_endRecord

theorem lastIdFits_readLine (fits : IdsFit lines) (found : lines[p.currentLineNo]? = some line)
    (before : p.lastIdFits = true) : (p.readLine line).lastIdFits = true := by
  cases line with
  | blank => exact before
  | garbage => exact before
  | document raw =>
    dsimp only [Import.readLine]
    split
    · exact before
    · exact before
    · rename_i record coerced
      rw [Import.lastIdFits, currentLastArxivId_append]
      refine fits record (List.mem_filterMap.mpr ⟨_, List.mem_of_getElem? found, ?_⟩)
      rw [Line.record?, coerced]
      rfl

theorem lastIdFits_afterFlush (before : p.lastIdFits = true) : p.afterFlush.lastIdFits = true := by
  rw [Import.afterFlush]
  dsimp only
  split
  · exact before
  · rwa [Import.lastIdFits, currentLastArxivId_endRecord]

theorem Placed.readLine (h : Placed lines p) (reading : p.phase = .reading)
    (found : lines[p.currentLineNo]? = some line) :
    Placed lines (p.readLine line) ∧ (p.readLine line).remaining lines < p.remaining lines := by
  have current := currentLineNo_readLine p line
  have inside := Table.lt_length_of_getElem? found
  have start := (continues_readLine line reading).fromLine
  have forward := h.forward
  refine ⟨⟨by omega, by omega, fun _ => by omega⟩, ?_⟩
  have bound := rank_le (p.readLine line).phase
  have here : Phase.reading.rank = 4 := rfl
  rw [Import.remaining, Import.remaining, reading, current]
  omega

theorem Placed.leaveLoop (h : Placed lines p) (reading : p.phase = .reading) :
    Placed lines p.leaveLoop ∧ p.leaveLoop.remaining lines < p.remaining lines := by
  rw [Import.remaining, Import.remaining, reading]
  cases empty : p.batch with
  | nil =>
    refine ⟨⟨h.inFile, h.forward, ?_⟩, by simp [Import.leaveLoop, empty, Phase.rank]⟩
    simp [Import.leaveLoop, empty, Phase.moved]
  | cons first rest =>
    refine ⟨⟨h.inFile, h.forward, fun _ => h.moved (.inl ?_)⟩, ?_⟩
    · rw [empty]
      exact (fun h => by cases h)
    · simp [Import.leaveLoop, empty, Phase.rank]

theorem Placed.afterFlush (h : Placed lines p) (flushed : p.phase = .flushed false) :
    Placed lines p.afterFlush ∧ p.afterFlush.remaining lines < p.remaining lines := by
  have moved := h.moved (.inr (by rw [flushed]; rfl))
  have current : p.afterFlush.currentLineNo = p.currentLineNo := by
    rw [Import.afterFlush]
    dsimp only
    split
    · rfl
    · exact currentLineNo_endRecord
  have rank : p.afterFlush.phase.rank ≤ 4 := by
    simp only [Import.afterFlush, Import.endRecord, Import.leaveLoop]
    split
    · simp [Phase.rank]
    · split <;> simp [Phase.rank]
  have start := (continues_afterFlush (p := p)).fromLine
  have inFile := h.inFile
  refine ⟨⟨by omega, by omega, fun _ => by omega⟩, ?_⟩
  have here : (Phase.flushed false).rank = 5 := rfl
  rw [Import.remaining, Import.remaining, flushed, current]
  omega

theorem Placed.phase {phase : Phase} {inserted : Nat} (h : Placed lines p)
    (moved : phase.moved = true → p.phase.moved = true) (less : phase.rank < p.phase.rank) :
    Placed lines { p with inserted := inserted, phase := phase } ∧
      Import.remaining { p with inserted := inserted, phase := phase } lines < p.remaining lines := by
  refine ⟨⟨h.inFile, h.forward, fun either => h.moved (either.imp_right moved)⟩, ?_⟩
  rw [Import.remaining, Import.remaining]
  dsimp only
  omega

theorem keys_checkpoint {status : RunStatus} : keys (w.checkpoint p status false) = keys w := by
  rw [keys, World.checkpoint]
  dsimp only
  exact Table.map_update fun run => by simp

/-- How an undisturbed step leaves an import: completed, given up at a later line, or going on. -/
inductive Outcome (files : String → Option (List Line)) (lines : List Line) (w : World)
    (p : Import) (w' : World) (q : Import) : Prop
  | completed (phase : q.phase = .ended true)
  | failed (phase : q.phase = .ended false) (same : keys w' = keys w)
      (later : ∃ run, w'.runs[q.runId]? = some run ∧ p.fromLine < run.lastLine ∧
        run.lastLine ≤ lines.length ∧
        (run.lastArxivId.all fun id => Column.fits 64 id.toList) = true)
  | underway (going : Underway files lines w' q) (same : keys w' = keys w)
      (less : q.remaining lines < p.remaining lines)

theorem Underway.become (w' : World) (h : Underway files lines w p) (same : keys w' = keys w)
    (row : ∃ run, w'.runs[p.runId]? = some run) (next : Continues p q)
    (lastId : q.lastIdFits = true)
    (placed : Placed lines q ∧ q.remaining lines < p.remaining lines) :
    Outcome files lines w p (w'.setProcess q) q := by
  refine .underway ⟨placed.1, rfl, by rw [next.path, h.file], ?_, next.active, lastId⟩ same placed.2
  rw [next.runId]
  exact row

theorem mark_eq {status : RunStatus} {completed : Bool} (fits : p.lastIdFits = true) :
    w.mark p status completed q = (w.checkpoint p status completed).setProcess q := if_pos fits

theorem raise_flushing {last : Bool} (phase : p.phase = .flushing last) :
    p.raise = { p with phase := .failing } := by
  rw [Import.raise]
  simp only [phase]

theorem Underway.flush (accepts : RunMode → List Record → Bool) {last : Bool}
    (h : Underway files lines w p) (phase : p.phase = .flushing last) :
    ∃ w' q, w.flush accepts p last = w' ∧ w'.process = some q ∧ q.path = p.path ∧
      q.runId = p.runId ∧ q.fromLine = p.fromLine ∧ Outcome files lines w p w' q := by
  obtain ⟨run, row⟩ := h.row
  have closer : Phase.rank .failing < p.phase.rank ∧ (Phase.flushed last).rank < p.phase.rank := by
    rw [phase]
    cases last <;> decide
  have moved : ∀ {next : Phase}, next.moved = true → p.phase.moved = true := by
    rw [phase]
    exact fun _ => rfl
  obtain failed | ⟨corpus, inserted, _, wrote⟩ := flush_cases accepts w p last
  · rw [failed, raise_flushing phase]
    exact ⟨_, _, rfl, rfl, rfl, rfl, rfl, h.become _ rfl ⟨run, row⟩
      (continues_phase fun _ h => by cases h) h.lastId (h.toPlaced.phase moved closer.1)⟩
  · rw [wrote]
    exact ⟨_, _, rfl, rfl, rfl, rfl, rfl, h.become { w with corpus := corpus } rfl ⟨run, row⟩
      (continues_phase fun _ h => by cases h) h.lastId (h.toPlaced.phase moved closer.2)⟩

theorem Underway.advance (accepts : RunMode → List Record → Bool) (fits : IdsFit lines)
    (h : Underway files lines w p) :
    ∃ w' q, w.advance accepts lines p = some w' ∧ w'.process = some q ∧ q.path = p.path ∧
      q.runId = p.runId ∧ q.fromLine = p.fromLine ∧ Outcome files lines w p w' q := by
  obtain ⟨run, row⟩ := h.row
  have marked : ∀ {status}, ∃ run, (w.checkpoint p status false).runs[p.runId]? = some run :=
    ⟨_, checkpoint_row row⟩
  simp only [World.advance, mark_eq h.lastId]
  cases phase : p.phase with
  | reading =>
    cases next : lines[p.currentLineNo]? with
    | none =>
      have going := continues_leaveLoop (p := p)
      exact ⟨_, _, rfl, rfl, going.path, going.runId, going.fromLine,
        h.become _ rfl ⟨run, row⟩ going h.lastId (h.leaveLoop phase)⟩
    | some line =>
      have going := continues_readLine line phase
      exact ⟨_, _, rfl, rfl, going.path, going.runId, going.fromLine,
        h.become _ rfl ⟨run, row⟩ going (lastIdFits_readLine fits next h.lastId)
          (h.readLine phase next)⟩
  | rejecting =>
    refine ⟨_, _, rfl, rfl, rfl, rfl, rfl, h.become _ keys_checkpoint marked ?_ h.lastId ?_⟩
    · exact continues_phase fun _ h => by cases h
    · exact h.toPlaced.phase (fun h => by cases h) (by rw [phase]; decide)
  | flushing last =>
    obtain ⟨w', q, flushed, outcome⟩ := h.flush accepts phase
    exact ⟨w', q, congrArg some flushed, outcome⟩
  | flushed last =>
    cases last with
    | false =>
      have going := continues_afterFlush (p := p)
      exact ⟨_, _, rfl, rfl, going.path, going.runId, going.fromLine,
        h.become _ keys_checkpoint marked going (lastIdFits_afterFlush h.lastId)
          (h.afterFlush phase)⟩
    | true =>
      refine ⟨_, _, rfl, rfl, rfl, rfl, rfl, h.become _ keys_checkpoint marked ?_ h.lastId ?_⟩
      · exact continues_phase fun _ h => by cases h
      · exact h.toPlaced.phase (fun h => by cases h) (by rw [phase]; decide)
  | finishing => exact ⟨_, _, rfl, rfl, rfl, rfl, rfl, .completed rfl⟩
  | failing =>
    refine ⟨_, _, rfl, rfl, rfl, rfl, rfl, .failed rfl keys_checkpoint ?_⟩
    exact ⟨_, checkpoint_row row, h.moved (.inr (by rw [phase]; rfl)), h.inFile,
      lastId_cut h.lastId⟩
  | ended completed => exact absurd phase (h.active completed)

theorem Underway.ends (path : String) (batchSize : Int) (accepts : RunMode → List Record → Bool)
    (fits : IdsFit lines) (h : Underway files lines w p) :
    ∃ later q, Reaches (Resuming path batchSize) (step files accepts) w later ∧
      later.process = some q ∧ q.path = p.path ∧
      (q.phase = .ended true ∨ q.phase = .ended false ∧ keys later = keys w ∧
        ∃ run, later.runs[p.runId]? = some run ∧ p.fromLine < run.lastLine ∧
          run.lastLine ≤ lines.length ∧
          (run.lastArxivId.all fun id => Column.fits 64 id.toList) = true) := by
  induction measure : p.remaining lines using Nat.strong_induction_on generalizing w p with
  | _ m ih =>
    subst measure
    obtain ⟨w', q, taken, process, file, runId, fromLine, outcome⟩ := h.advance accepts fits
    have next : Next (Resuming path batchSize) (step files accepts) w w' := by
      refine ⟨.advance, .inr rfl, ?_⟩
      simp [step, h.found, h.file, taken]
    have first : Reaches (Resuming path batchSize) (step files accepts) w w' := .tail (.refl w) next
    cases outcome with
    | completed phase => exact ⟨w', q, first, process, file, .inl phase⟩
    | failed phase same later =>
      rw [runId] at later
      exact ⟨w', q, first, process, file, .inr ⟨phase, same, later⟩⟩
    | underway going same less =>
      obtain ⟨last, r, run, found, there, result⟩ := ih _ less going rfl
      refine ⟨last, r, first.trans run, found, there.trans file, result.imp_right ?_⟩
      rintro ⟨phase, kept, row⟩
      rw [runId, fromLine] at row
      exact ⟨phase, kept.trans same, row⟩

theorem resumable_keys : w.resumable path = (List.range (keys w).length).reverse.find? fun k =>
    (keys w)[k]?.any fun key => key.1 == path && !key.2 := by
  simp only [World.resumable, keys, List.length_map, List.getElem?_map, Option.any_map]

theorem resumable_create {limit : Option Nat} {resume : Bool} (short : path.length ≤ 1024) :
    (w.create path resume limit batchSize).resumable path = some w.runs.length := by
  have last : (w.create path resume limit batchSize).runs.length = w.runs.length + 1 := by
    simp [World.create]
  rw [World.resumable, last, List.range_succ, List.reverse_append]
  simp [World.create, cutText_eq short]

theorem resumed_underway (batchSize : Int) {k : Nat} {run : CorpusImportRun}
    (file : files path = some lines) (row : w.runs[k]? = some run)
    (inFile : run.lastLine ≤ lines.length)
    (lastId : (run.lastArxivId.all fun id => Column.fits 64 id.toList) = true) :
    ∃ p, Underway files lines (w.continueRun path none batchSize k run) p ∧ p.path = path ∧
      p.runId = k ∧ p.fromLine = run.lastLine := by
  refine ⟨_, ⟨⟨inFile, Nat.le_refl _, ?_⟩, rfl, file, ⟨run, row⟩, fun _ => nofun, lastId⟩,
    rfl, rfl, rfl⟩
  simp [Phase.moved]

theorem resumes_complete (batchSize : Int) (accepts : RunMode → List Record → Bool)
    (fits : IdsFit lines) {k : Nat} {run : CorpusImportRun} (file : files path = some lines)
    (idle : w.idle = true) (found : w.resumable path = some k) (row : w.runs[k]? = some run)
    (inFile : run.lastLine ≤ lines.length)
    (lastId : (run.lastArxivId.all fun id => Column.fits 64 id.toList) = true) :
    ∃ later p, Reaches (Resuming path batchSize) (step files accepts) w later ∧
      later.process = some p ∧ p.path = path ∧ p.phase = .ended true := by
  induction left : lines.length - run.lastLine using Nat.strong_induction_on
    generalizing w run with
  | _ m ih =>
    obtain ⟨p, going, there, runId, fromLine⟩ :=
      resumed_underway batchSize file row inFile lastId
    have taken : step files accepts w (.start path true none batchSize) =
        some (w.continueRun path none batchSize k run) := by
      simp [step, idle, file, World.start, found, row]
    have first : Reaches (Resuming path batchSize) (step files accepts) w
        (w.continueRun path none batchSize k run) := .tail (.refl w) ⟨_, .inl rfl, taken⟩
    obtain ⟨later, q, rest, process, same, completed |
        ⟨failed, kept, next, mark, above, within, nextId⟩⟩ :=
      going.ends path batchSize accepts fits
    · exact ⟨later, q, first.trans rest, process, same.trans there, completed⟩
    · rw [runId] at mark
      rw [fromLine] at above
      have still : later.resumable path = some k := by
        rw [resumable_keys, kept, ← found, resumable_keys]
        rfl
      obtain ⟨last, r, tail, result⟩ :=
        ih _ (by omega) (by simp [World.idle, process, failed]) still mark within nextId rfl
      exact ⟨last, r, (first.trans rest).trans tail, result⟩

theorem Holds.resumes_complete (batchSize : Int) (accepts : RunMode → List Record → Bool)
    (h : Holds files w) (file : files path = some lines) (idle : w.idle = true)
    (short : path.length ≤ 1024) (text : Column.isText path.toList = true) (fits : IdsFit lines) :
    ∃ later p, Reaches (Resuming path batchSize) (Corpus.step files accepts) w later ∧
      later.process = some p ∧ p.path = path ∧ p.phase = .ended true := by
  cases found : w.resumable path with
  | some k =>
    obtain ⟨run, row, rfl, _⟩ := resumable_row found
    have mark := h.checkpoints run (List.mem_of_getElem? row)
    exact Corpus.resumes_complete batchSize accepts fits file idle found row
      (mark.inFile lines file) mark.lastId
  | none =>
    have takes : Column.fits 1024 path.toList = true :=
      Column.fits_of_length text (String.length_toList.le.trans short)
    have taken : Corpus.step files accepts w (.start path true none batchSize) =
        some (w.create path true none batchSize) := by
      simp [Corpus.step, idle, file, World.start, found, takes]
    have first : Reaches (Resuming path batchSize) (Corpus.step files accepts) w
        (w.create path true none batchSize) := .tail (.refl w) ⟨_, .inl rfl, taken⟩
    have going : Underway files lines (w.create path true none batchSize) _ :=
      ⟨⟨Nat.zero_le _, Nat.le_refl _, by simp [Phase.moved]⟩, rfl, file,
        ⟨_, List.getElem?_concat_length⟩, fun _ => (fun h => by cases h), rfl⟩
    obtain ⟨later, q, rest, process, same, completed |
        ⟨failed, kept, next, mark, _, within, nextId⟩⟩ :=
      going.ends path batchSize accepts fits
    · exact ⟨later, q, first.trans rest, process, same, completed⟩
    · have still : later.resumable path = some w.runs.length := by
        rw [resumable_keys, kept, ← resumable_keys, resumable_create short]
      obtain ⟨last, r, tail, result⟩ := Corpus.resumes_complete batchSize accepts fits file
        (by simp [World.idle, process, failed]) still mark within nextId
      exact ⟨last, r, (first.trans rest).trans tail, result⟩

/-- Crashes, failing calls and resumes in any order: as long as no checkpoint passes a buffered
record that is not stored, every checkpoint is truthful, a completed import has stored what it was
asked for, and no file whose ids fit their column keeps its resumes from completing. -/
theorem checkpoints_truthful {initial : World} (start : Initial initial)
    (run : Reaches Safe (step files accepts) initial w) :
    (∀ r ∈ w.runs, ∀ lines, files r.sourcePath = some lines →
        ∀ record ∈ records lines r.lastLine, record.stored.arxivId ∈ ids w.corpus) ∧
      (∀ p ∈ w.process, p.phase = .ended true → ∃ lines r, files p.path = some lines ∧
        w.runs[p.runId]? = some r ∧ r.sourcePath = p.path ∧ r.completedAt = true ∧
        ∀ record ∈ p.wanted lines, record.stored.arxivId ∈ ids w.corpus) ∧
      ∀ path batchSize lines, w.idle = true → files path = some lines →
        path.length ≤ 1024 → Column.isText path.toList = true → IdsFit lines →
        ∃ later p, Reaches (Resuming path batchSize) (step files accepts) w later ∧
          later.process = some p ∧ p.path = path ∧ p.phase = .ended true := by
  have holds : Holds files w := start.holds.reaches run
  refine ⟨fun r inside lines file => (holds.checkpoints r inside).imported lines file, ?_, ?_⟩
  · intro p found ended
    obtain ⟨lines, file, here, r, row, path, completed⟩ := holds.process p found
    exact ⟨lines, r, file, row, path, completed ended, here.wanted ended⟩
  · intro path batchSize lines idle file short text fits
    exact holds.resumes_complete batchSize accepts file idle short text fits

/-- A line with nothing but an id. -/
def paper (arxivId : String) : Line := .document (.obj [("arxiv_id", .str arxivId)])

def emptyWorld : World := { corpus := [], runs := [], process := none }

/-- Two papers, and a line between them that is not JSON. -/
def twoPapers : List Line := [paper "2401.00001", .garbage, paper "2401.00002"]

/-- The database takes every batch whose texts fit. -/
def acceptsAll (_ : RunMode) (_ : List Record) : Bool := true

/-- A copy is killed behind its first batch; the first resume raises behind the rejected line, the
second one completes. -/
theorem checkpoints_truthful_resumed :
    ∃ w, Reaches Safe (step (fun _ => some twoPapers) acceptsAll) emptyWorld w ∧
      (∃ r ∈ w.runs, r.completedAt = true ∧ r.lastLine = 3 ∧ r.rejectedCount = 1 ∧
        ∀ record ∈ records twoPapers 3, record.stored.arxivId ∈ ids w.corpus) ∧
      ∃ later p,
        Reaches (Resuming "dump" 1) (step (fun _ => some twoPapers) acceptsAll) w later ∧
          later.process = some p ∧ p.path = "dump" ∧ p.phase = .ended true := by
  have run : (perform (fun w action => decide (Safe w action))
      (step (fun _ => some twoPapers) acceptsAll) emptyWorld
      [.start "dump" false none 1, .advance, .advance, .advance, .crash,
        .start "dump" true none 1, .advance, .fail, .advance,
        .start "dump" true none 1, .advance, .advance, .advance, .advance, .advance]).any
      (fun w => w.idle && w.runs.any fun r =>
        r.completedAt && r.lastLine == 3 && r.rejectedCount == 1) = true := by
    decide +kernel
  obtain ⟨w, reached, _, test⟩ := Reaches.of_perform_any (fun _ => True)
    (fun w a _ h => (of_decide_eq_true h : Safe w a)) (fun _ _ _ _ _ _ => trivial) trivial run
  obtain ⟨idle, marked⟩ := Bool.and_eq_true_iff.mp test
  obtain ⟨r, inside, marks⟩ := List.any_eq_true.mp marked
  simp only [Bool.and_eq_true, beq_iff_eq] at marks
  obtain ⟨⟨completed, last⟩, rejected⟩ := marks
  have empty : Initial emptyWorld := ⟨rfl, rfl⟩
  have truthful := checkpoints_truthful empty reached
  refine ⟨w, reached, ⟨r, inside, completed, last, rejected, ?_⟩, ?_⟩
  · have imported := truthful.1 r inside _ rfl
    rwa [last] at imported
  · refine truthful.2.2 "dump" 1 twoPapers idle rfl (by decide) (by decide) ?_
    exact List.forall_iff_forall_mem.mp (by decide +kernel)

/-- A file that repeats an id: the upsert raises, the handler's checkpoint passes both lines, and
the next resume completes the run without a row for them. -/
theorem repeated_id_skipped :
    ∃ files initial w, Initial initial ∧
      Reaches Unguarded (step files acceptsAll) initial w ∧
      ∃ r ∈ w.runs, r.completedAt = true ∧ ∃ lines, files r.sourcePath = some lines ∧
        ∃ record ∈ records lines r.lastLine, record.stored.arxivId ∉ ids w.corpus := by
  have run : (perform (fun _ _ => true)
      (step (fun _ => some [paper "2401.00001", paper "2401.00001"]) acceptsAll) emptyWorld
      [.start "dump" true none 500, .advance, .advance, .advance, .advance, .advance,
        .start "dump" true none 500, .advance, .advance]).any
      (fun w => w.runs.any (fun r => r.completedAt && r.lastLine == 2) && w.corpus.isEmpty) =
        true := by
    decide +kernel
  obtain ⟨w, reached, _, test⟩ := Reaches.of_perform_any (fun _ => True)
    (fun w a _ _ => (trivial : Unguarded w a)) (fun _ _ _ _ _ _ => trivial) trivial run
  rw [Bool.and_eq_true] at test
  obtain ⟨r, inside, marks⟩ := List.any_eq_true.mp test.1
  rw [Bool.and_eq_true, beq_iff_eq] at marks
  have nothing : w.corpus = [] := List.isEmpty_iff.mp test.2
  refine ⟨_, emptyWorld, w, ⟨rfl, rfl⟩, reached, r, inside, marks.1, _, rfl, ?_⟩
  rw [marks.2, nothing]
  exact ⟨_, List.mem_cons_self, by simp [ids]⟩

end Synthetos.Corpus
