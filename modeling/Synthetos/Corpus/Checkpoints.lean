import Synthetos.Corpus.Locals

/-!
# Truthful checkpoints

A checkpoint is truthful when every valid record up to its line is in the corpus.  Three of the
five places that write one do so right after the batch; the checkpoint of a rejected line and the
one of the exception handler pass whatever is still buffered.
-/

namespace Synthetos.Corpus

open Lib

/-- The two places that write a checkpoint without a flush find nothing buffered that is not
stored already; paths are no longer than their column is wide. -/
def Safe (w : World) : Action → Prop
  | .start path _ _ _ => path.length ≤ 1024
  | .advance => ∀ p ∈ w.process, p.phase = .rejecting ∨ p.phase = .failing →
      p.lastIdFits = true → ∀ record ∈ p.batch, record.stored.arxivId ∈ ids w.corpus
  | _ => True

instance (w : World) (action : Action) : Decidable (Safe w action) :=
  match action with
  | .start path _ _ _ => inferInstanceAs (Decidable (path.length ≤ 1024))
  | .advance => inferInstanceAs (Decidable (∀ p ∈ w.process, _ → _ → ∀ record ∈ p.batch, _))
  | .fail => isTrue trivial
  | .crash => isTrue trivial

variable {files : String → Option (List Line)} {accepts : RunMode → List Record → Bool}
  {lines : List Line} {n : Nat} {line : Line} {corpus : List Record} {record : Record}
  {w w' : World} {p q : Import} {action : Action}

/-- A row of the imports of a file, with a last id that its column has taken. -/
structure Truthful (files : String → Option (List Line)) (corpus : List Record)
    (run : CorpusImportRun) : Prop where
  lastId : (run.lastArxivId.all fun id => Column.fits 64 id.toList) = true
  inFile : ∀ lines, files run.sourcePath = some lines → run.lastLine ≤ lines.length
  imported : ∀ lines, files run.sourcePath = some lines → Imported corpus lines run.lastLine

/-- Checkpoints are truthful and inside their file, and a running import is where its locals say. -/
structure Holds (files : String → Option (List Line)) (w : World) : Prop where
  checkpoints : ∀ run ∈ w.runs, Truthful files w.corpus run
  process : ∀ p ∈ w.process, ∃ lines, files p.path = some lines ∧ Local w.corpus lines p ∧
    ∃ run, w.runs[p.runId]? = some run ∧ run.sourcePath = p.path ∧
      (p.phase = .ended true → run.completedAt = true)

/-- Before the first import of a database. -/
structure Initial (w : World) : Prop where
  runs : w.runs = []
  process : w.process = none

theorem Initial.holds (h : Initial w) : Holds files w where
  checkpoints run inside := by simp [h.runs] at inside
  process p inside := by simp [h.process] at inside

theorem cutText_eq {width : Nat} {text : String} (le : text.length ≤ width) :
    cutText width text = text := by
  rw [cutText, Column.cut_eq (String.length_toList.le.trans le), String.ofList_toList]

theorem lastId_cut (fits : p.lastIdFits = true) :
    ((p.currentLastArxivId.map (cutText 64)).all fun id => Column.fits 64 id.toList) = true := by
  rw [Import.lastIdFits] at fits
  cases last : p.currentLastArxivId with
  | none => rfl
  | some id =>
    rw [last] at fits
    simpa [cutText] using Column.fits_cut fits

theorem Truthful.mono {corpus' : List Record} {run : CorpusImportRun}
    (h : Truthful files corpus run) (kept : ∀ id ∈ ids corpus, id ∈ ids corpus') :
    Truthful files corpus' run :=
  { h with imported := fun lines there => (h.imported lines there).mono kept }

theorem Holds.checkpoint {status : RunStatus} {completed : Bool} (h : Holds files w)
    (file : files p.path = some lines) (inFile : p.currentLineNo ≤ lines.length)
    (row : ∃ run, w.runs[p.runId]? = some run ∧ run.sourcePath = p.path)
    (fits : p.lastIdFits = true) (imported : Imported w.corpus lines p.currentLineNo) :
    ∀ run ∈ (w.checkpoint p status completed).runs, Truthful files w.corpus run := by
  intro run inside
  obtain ⟨k, found⟩ := List.getElem?_of_mem inside
  obtain ⟨old, was, rfl⟩ := Table.exists_of_getElem?_update found
  split
  · rename_i same
    obtain ⟨mine, here, path⟩ := row
    rw [same, was] at here
    obtain rfl := Option.some.inj here
    refine ⟨lastId_cut fits, fun other there => ?_, fun other there => ?_⟩
    all_goals
      dsimp only at there
      rw [path, file] at there
      obtain rfl := Option.some.inj there
    · exact inFile
    · exact imported
  · exact h.checkpoints old (List.mem_of_getElem? was)

theorem checkpoint_row {status : RunStatus} {completed : Bool} {run : CorpusImportRun}
    (row : w.runs[p.runId]? = some run) :
    (w.checkpoint p status completed).runs[p.runId]? =
      some { run with
        lastLine := p.currentLineNo
        lastArxivId := p.currentLastArxivId.map (cutText 64)
        insertedCount := p.inserted
        skippedCount := p.skipped
        rejectedCount := p.rejected
        status := status
        completedAt := run.completedAt || completed } := by
  rw [World.checkpoint]
  dsimp only
  rw [Table.getElem?_update_self, row]
  rfl

theorem Holds.become
    (checkpoints : ∀ run ∈ w.runs, Truthful files w.corpus run) (file : files p.path = some lines)
    (row : ∃ run, w.runs[p.runId]? = some run ∧ run.sourcePath = p.path)
    (next : Continues p q) (here : Local w.corpus lines q) : Holds files (w.setProcess q) where
  checkpoints := checkpoints
  process other inside := by
    obtain rfl := Option.some.inj inside
    refine ⟨lines, by rw [next.path, file], here, ?_⟩
    obtain ⟨run, found, path⟩ := row
    exact ⟨run, by rw [next.runId]; exact found, by rw [path, next.path],
      fun ended => absurd ended (next.active true)⟩

/-- An exception writes nothing. -/
theorem Holds.raise (h : Holds files w) (found : w.process = some p)
    (active : ∀ completed, p.phase ≠ .ended completed) : Holds files (w.setProcess p.raise) := by
  obtain ⟨lines, file, here, run, row, path, _⟩ := h.process p found
  refine ⟨h.checkpoints, fun q inside => ?_⟩
  obtain rfl := Option.some.inj inside
  have failed : p.raise.phase = .failing ∨ p.raise.phase = .ended false := by
    cases phase : p.phase with
    | ended completed => exact absurd phase (active completed)
    | _ => simp [Import.raise, phase]
  refine ⟨lines, file, ?_, run, row, path, fun ended => ?_⟩
  · apply (here.toReading.of_same (q := p.raise) rfl rfl rfl rfl).quiet
    all_goals obtain phase | phase := failed <;> rw [phase] <;> rfl
  · obtain phase | phase := failed <;> exact absurd (phase.symm.trans ended) nofun

theorem flush_cases (accepts : RunMode → List Record → Bool) (w : World) (p : Import)
    (last : Bool) : w.flush accepts p last = w.setProcess p.raise ∨
      ∃ corpus inserted,
        (∀ id, id ∈ ids corpus ↔ id ∈ ids w.corpus ∨ id ∈ storedIds p.batch) ∧
        w.flush accepts p last = { w with corpus := corpus }.setProcess
          { p with inserted := inserted, phase := .flushed last } := by
  rw [World.flush]
  split
  · exact .inl rfl
  · split
    · split
      · exact .inr ⟨_, _, fun _ => mem_ids_upsertRecords, rfl⟩
      · exact .inl rfl
    · exact .inr ⟨_, _, fun _ => mem_ids_insertRecords, rfl⟩

theorem Holds.flush {last : Bool} (h : Holds files w) (found : w.process = some p)
    (file : files p.path = some lines)
    (row : ∃ run, w.runs[p.runId]? = some run ∧ run.sourcePath = p.path)
    (here : Local w.corpus lines p) (phase : p.phase = .flushing last) :
    Holds files (w.flush accepts p last) := by
  obtain failed | ⟨corpus, inserted, stored, wrote⟩ := flush_cases accepts w p last
  · rw [failed]
    exact h.raise found fun completed => by rw [phase]; exact nofun
  · rw [wrote]
    have kept : ∀ id ∈ ids w.corpus, id ∈ ids corpus := fun id old => (stored id).mpr (.inl old)
    refine .become (w := { w with corpus := corpus }) ?_ file row ⟨rfl, rfl, rfl, fun _ => nofun⟩ ?_
    · exact fun run inside => (h.checkpoints run inside).mono kept
    · refine ⟨(here.toReading.mono kept).of_same rfl rfl rfl rfl, ?_, ?_⟩
      · exact fun _ id inside => (stored id).mpr (.inr inside)
      · intro ended
        apply here.loopOver
        rw [phase]
        cases last with
        | true => rfl
        | false => exact absurd ended nofun

/-- A checkpoint passes nothing that is not stored, or it is not written. -/
theorem Holds.mark {status : RunStatus} {completed : Bool} (h : Holds files w)
    (found : w.process = some p) (file : files p.path = some lines)
    (active : ∀ completed, p.phase ≠ .ended completed)
    (written : p.lastIdFits = true → ∀ id ∈ storedIds p.batch, id ∈ ids w.corpus)
    (next : q.path = p.path ∧ q.runId = p.runId) (here : Local w.corpus lines q)
    (ended : q.phase = .ended true → completed = true) :
    Holds files (w.mark p status completed q) := by
  obtain ⟨same, there, before, run, row, path, _⟩ := h.process p found
  rw [file] at there
  obtain rfl := Option.some.inj there
  rw [World.mark]
  split
  · rename_i fits
    refine ⟨h.checkpoint file before.inFile ⟨run, row, path⟩ fits
      (before.imported (written fits)), fun other inside => ?_⟩
    obtain rfl := Option.some.inj inside
    refine ⟨lines, by rw [next.1, file], here, ?_⟩
    rw [next.1, next.2]
    exact ⟨_, checkpoint_row row, path, fun done => by simp [ended done]⟩
  · exact h.raise found active

theorem Holds.advance (h : Holds files w) (found : w.process = some p)
    (file : files p.path = some lines) (safe : Safe w .advance)
    (taken : w.advance accepts lines p = some w') : Holds files w' := by
  obtain ⟨same, there, here, run, row, path, _⟩ := h.process p found
  rw [file] at there
  obtain rfl := Option.some.inj there
  have mine : ∃ run, w.runs[p.runId]? = some run ∧ run.sourcePath = p.path := ⟨run, row, path⟩
  have buffered : p.phase = .rejecting ∨ p.phase = .failing → p.lastIdFits = true →
      ∀ id ∈ storedIds p.batch, id ∈ ids w.corpus := by
    intro phase fits id inside
    obtain ⟨row, member, rfl⟩ := List.mem_map.mp inside
    obtain ⟨record, buffered, rfl⟩ := List.mem_map.mp member
    exact safe p found phase fits record buffered
  rw [World.advance] at taken
  cases phase : p.phase with
  | reading =>
    simp only [phase] at taken
    cases next : lines[p.currentLineNo]? with
    | none =>
      rw [next] at taken
      obtain rfl := Option.some.inj taken
      have atEnd := Nat.le_antisymm here.inFile (List.getElem?_eq_none_iff.mp next)
      exact .become h.checkpoints file mine continues_leaveLoop (here.leaveLoop (.inl atEnd))
    | some line =>
      rw [next] at taken
      obtain rfl := Option.some.inj taken
      exact .become h.checkpoints file mine (continues_readLine line phase)
        (here.readLine phase next)
  | rejecting =>
    simp only [phase] at taken
    obtain rfl := Option.some.inj taken
    refine h.mark found file (by rw [phase]; exact nofun) (buffered (.inl phase)) ⟨rfl, rfl⟩ ?_ nofun
    exact Reading.quiet (here.toReading.of_same rfl rfl rfl rfl) rfl rfl
  | flushing last =>
    simp only [phase] at taken
    obtain rfl := Option.some.inj taken
    exact h.flush found file mine here phase
  | flushed last =>
    have written := here.written (by rw [phase]; rfl)
    have active : ∀ completed, p.phase ≠ .ended completed := by rw [phase]; exact nofun
    cases last with
    | false =>
      simp only [phase] at taken
      obtain rfl := Option.some.inj taken
      have going := continues_afterFlush (p := p)
      exact h.mark found file active (fun _ => written) ⟨going.path, going.runId⟩
        (here.afterFlush written) fun ended => absurd ended (going.active true)
    | true =>
      simp only [phase] at taken
      obtain rfl := Option.some.inj taken
      exact h.mark found file active (fun _ => written) ⟨rfl, rfl⟩
        (here.stored written (by rw [phase]; rfl)) nofun
  | finishing =>
    simp only [phase] at taken
    obtain rfl := Option.some.inj taken
    have written := here.written (by rw [phase]; rfl)
    exact h.mark found file (by rw [phase]; exact nofun) (fun _ => written) ⟨rfl, rfl⟩
      (here.stored written (by rw [phase]; rfl)) fun _ => rfl
  | failing =>
    simp only [phase] at taken
    obtain rfl := Option.some.inj taken
    refine h.mark found file (by rw [phase]; exact nofun) (buffered (.inr phase)) ⟨rfl, rfl⟩ ?_ nofun
    exact Reading.quiet (here.toReading.of_same rfl rfl rfl rfl) rfl rfl
  | ended completed =>
    simp only [phase] at taken
    cases taken

theorem Holds.fail (h : Holds files w) (found : w.process = some p) (taken : w.fail p = some w') :
    Holds files w' := by
  rw [World.fail] at taken
  split at taken
  · cases taken
  · rename_i active
    obtain rfl := Option.some.inj taken
    exact h.raise found active

theorem resumable_row {path : String} {k : Nat} (found : w.resumable path = some k) :
    ∃ run, w.runs[k]? = some run ∧ run.sourcePath = path ∧ run.completedAt = false := by
  have test := List.find?_some found
  obtain ⟨run, row, fits⟩ := (Option.any_eq_true _ _).mp test
  rw [Bool.and_eq_true, beq_iff_eq, Bool.not_eq_true'] at fits
  exact ⟨run, row, fits⟩

theorem start_cases (w : World) (path : String) (resume : Bool) (limit : Option Nat)
    (batchSize : Int) :
    (w.start path resume limit batchSize = (if Column.fits 1024 path.toList then
          w.create path resume limit batchSize else { w with process := none }) ∧
        (resume = true → w.resumable path = none)) ∨
      ∃ k run, resume = true ∧ w.resumable path = some k ∧ w.runs[k]? = some run ∧
        run.sourcePath = path ∧ run.completedAt = false ∧
        w.start path resume limit batchSize = w.continueRun path limit batchSize k run := by
  cases resume with
  | false => exact .inl ⟨rfl, nofun⟩
  | true =>
    cases found : w.resumable path with
    | none => exact .inl ⟨by simp [World.start, found], fun _ => rfl⟩
    | some k =>
      obtain ⟨run, row, path, open_⟩ := resumable_row found
      exact .inr ⟨k, run, rfl, rfl, row, path, open_, by simp [World.start, found, row]⟩

theorem Holds.create {path : String} {resume : Bool} {limit : Option Nat} {batchSize : Int}
    (h : Holds files w) (file : files path = some lines) (short : path.length ≤ 1024) :
    Holds files (w.create path resume limit batchSize) := by
  constructor
  · intro run inside
    obtain old | new := List.mem_append.mp inside
    · exact h.checkpoints run old
    · obtain rfl := List.mem_singleton.mp new
      exact ⟨rfl, fun _ _ => Nat.zero_le _, fun _ _ record member =>
        absurd member (by simp [records])⟩
  · intro q inside
    obtain rfl := Option.some.inj inside
    refine ⟨lines, file, Reading.quiet ⟨Nat.le_refl _, Nat.zero_le _, ?_, ?_⟩ rfl rfl, ?_⟩
    · simp [records]
    · simp [records]
    · exact ⟨_, List.getElem?_concat_length, cutText_eq short, (fun h => by cases h)⟩

theorem Holds.start {path : String} {resume : Bool} {limit : Option Nat} {batchSize : Int}
    (h : Holds files w) (file : files path = some lines) (short : path.length ≤ 1024) :
    Holds files (w.start path resume limit batchSize) := by
  obtain ⟨created, _⟩ | ⟨k, run, _, _, row, rfl, _, continued⟩ :=
    start_cases w path resume limit batchSize
  · rw [created]
    split
    · exact h.create file short
    · exact ⟨h.checkpoints, fun q inside => absurd inside nofun⟩
  · rw [continued]
    have before := h.checkpoints run (List.mem_of_getElem? row)
    refine ⟨h.checkpoints, fun q inside => ?_⟩
    obtain rfl := Option.some.inj inside
    refine ⟨lines, file, Reading.quiet ⟨Nat.le_refl _, before.inFile lines file, ?_, ?_⟩ rfl rfl, ?_⟩
    · simp [records]
    · exact fun record member => .inl (before.imported lines file record member)
    · exact ⟨run, row, rfl, (fun h => by cases h)⟩

theorem Holds.step (h : Holds files w) (safe : Safe w action)
    (taken : step files accepts w action = some w') : Holds files w' := by
  cases action with
  | start path resume limit batchSize =>
    simp only [Corpus.step] at taken
    split at taken
    · rename_i ready
      obtain rfl := Option.some.inj taken
      obtain ⟨lines, file⟩ := Option.isSome_iff_exists.mp (Bool.and_eq_true_iff.mp ready).2
      exact h.start file safe
    · cases taken
  | advance =>
    obtain ⟨p, found, rest⟩ := Option.bind_eq_some_iff.mp taken
    obtain ⟨lines, file, next⟩ := Option.bind_eq_some_iff.mp rest
    exact h.advance found file safe next
  | fail =>
    obtain ⟨p, found, next⟩ := Option.bind_eq_some_iff.mp taken
    exact h.fail found next
  | crash =>
    obtain ⟨p, found, rfl⟩ := Option.map_eq_some_iff.mp taken
    exact ⟨h.checkpoints, fun q inside => absurd inside nofun⟩

theorem Holds.reaches (run : Reaches Safe (Corpus.step files accepts) w w') (h : Holds files w) :
    Holds files w' :=
  run.invariant (Holds files) (fun _ _ _ h safe taken => h.step safe taken) h

end Synthetos.Corpus
