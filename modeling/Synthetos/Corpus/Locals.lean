import Synthetos.Corpus.Import

/-!
# The locals of an import

Up to the line it has read, an import has put every valid record into the corpus or into its
batch, and it has counted those it took since it started.
-/

namespace Synthetos.Corpus

open Lib

def ids (rows : List Record) : List String := rows.map Record.arxivId

def storedIds (batch : List Record) : List String := ids (batch.map Record.stored)

/-- The valid records on the first `n` lines. -/
def records (lines : List Line) (n : Nat) : List Record := (lines.take n).filterMap Line.record?

/-- Every valid record up to line `n` has a row. -/
def Imported (corpus : List Record) (lines : List Line) (n : Nat) : Prop :=
  ∀ record ∈ records lines n, record.stored.arxivId ∈ ids corpus

/-- What an import has to store: all records up to the line it started after, and as many of the
rest as its limit admits. -/
def Import.wanted (p : Import) (lines : List Line) : List Record :=
  let rest := (lines.drop p.fromLine).filterMap Line.record?
  records lines p.fromLine ++ (match p.limit with
    | none => rest
    | some n => rest.take n)

variable {lines : List Line} {n : Nat} {line : Line} {corpus batch : List Record} {record : Record}
  {id : String} {p q : Import}

theorem records_succ (found : lines[n]? = some line) :
    records lines (n + 1) = records lines n ++ line.record?.toList := by
  rw [records, List.take_add_one, found, List.filterMap_append, records]
  cases h : line.record? <;> simp [h]

theorem records_split (lines : List Line) {m : Nat} (le : n ≤ m) :
    records lines m = records lines n ++ records (lines.drop n) (m - n) := by
  obtain ⟨d, rfl⟩ := Nat.exists_eq_add_of_le le
  rw [records, List.take_add, List.filterMap_append, Nat.add_sub_cancel_left]
  rfl

theorem records_of_length_le (le : lines.length ≤ n) :
    records lines n = lines.filterMap Line.record? := by
  rw [records, List.take_of_length_le le]

theorem mem_ids_upsert :
    id ∈ ids (Table.upsert corpus (·.arxivId == record.arxivId) record) ↔
      id ∈ ids corpus ∨ id = record.arxivId := by
  unfold Table.upsert
  split
  · rename_i k found
    obtain ⟨inside, same, _⟩ := List.findIdx?_eq_some_iff_getElem.mp found
    have key : corpus[k].arxivId = record.arxivId := by simpa using same
    have bound : k < (corpus.map Record.arxivId).length := by simpa using inside
    have there : (corpus.map Record.arxivId)[k] = record.arxivId := by simpa using key
    have kept : ids (corpus.set k record) = ids corpus := by
      rw [ids, List.map_set, ← there, List.set_getElem_self]
      rfl
    rw [kept, ← there]
    refine ⟨.inl, fun h => h.elim (fun old => old) ?_⟩
    rintro rfl
    exact List.getElem_mem _
  · simp [ids]

theorem mem_ids_upsertRecords :
    id ∈ ids (upsertRecords corpus batch) ↔ id ∈ ids corpus ∨ id ∈ ids batch := by
  induction batch generalizing corpus with
  | nil => simp [upsertRecords, ids]
  | cons record rest ih =>
    rw [upsertRecords, List.foldl_cons]
    rw [← upsertRecords, ih, mem_ids_upsert]
    simp only [ids, List.map_cons, List.mem_cons]
    tauto

theorem mem_ids_insertRecords :
    id ∈ ids (insertRecords corpus batch) ↔ id ∈ ids corpus ∨ id ∈ ids batch := by
  induction batch generalizing corpus with
  | nil => simp [insertRecords, ids]
  | cons record rest ih =>
    rw [insertRecords, List.foldl_cons, ← insertRecords, ih]
    simp only [ids, List.map_cons, List.mem_cons]
    split
    · rename_i stored
      obtain ⟨row, inside, same⟩ := List.any_eq_true.mp stored
      have known : record.arxivId ∈ corpus.map Record.arxivId :=
        List.mem_map.mpr ⟨row, inside, by simpa using same⟩
      constructor
      · tauto
      · rintro (old | rfl | new)
        · exact .inl old
        · exact .inl known
        · exact .inr new
    · simp only [List.map_append, List.map_cons, List.map_nil, List.mem_append, List.mem_singleton]
      tauto

/-- What holds of the locals of an import, whatever its phase. -/
structure Reading (corpus : List Record) (lines : List Line) (p : Import) : Prop where
  forward : p.fromLine ≤ p.currentLineNo
  inFile : p.currentLineNo ≤ lines.length
  counted :
    p.processedValid = (records (lines.drop p.fromLine) (p.currentLineNo - p.fromLine)).length
  taken : ∀ record ∈ records lines p.currentLineNo,
    record.stored.arxivId ∈ ids corpus ∨ record.stored.arxivId ∈ storedIds p.batch

def Phase.written : Phase → Bool
  | .flushed _ | .finishing | .ended true => true
  | _ => false

/-- The loop is over, and no exception has ended it. -/
def Phase.over : Phase → Bool
  | .flushing true | .flushed true | .finishing | .ended true => true
  | _ => false

structure Local (corpus : List Record) (lines : List Line) (p : Import) : Prop
    extends Reading corpus lines p where
  written : p.phase.written = true → ∀ id ∈ storedIds p.batch, id ∈ ids corpus
  loopOver : p.phase.over = true → p.currentLineNo = lines.length ∨ p.limitReached = true

theorem Imported.mono {corpus' : List Record} (h : Imported corpus lines n)
    (kept : ∀ id ∈ ids corpus, id ∈ ids corpus') : Imported corpus' lines n :=
  fun record inside => kept _ (h record inside)

theorem Reading.of_same (h : Reading corpus lines p) (start : q.fromLine = p.fromLine)
    (current : q.currentLineNo = p.currentLineNo) (count : q.processedValid = p.processedValid)
    (batch : q.batch = p.batch) : Reading corpus lines q where
  forward := by
    rw [start, current]
    exact h.forward
  inFile := by
    rw [current]
    exact h.inFile
  counted := by
    rw [start, current, count]
    exact h.counted
  taken := by
    rw [current, batch]
    exact h.taken

theorem Local.stored {phase : Phase} (h : Local corpus lines p)
    (written : ∀ id ∈ storedIds p.batch, id ∈ ids corpus) (looped : p.phase.over = true) :
    Local corpus lines { p with phase := phase } :=
  ⟨h.toReading.of_same rfl rfl rfl rfl, fun _ => written, fun _ => h.loopOver looped⟩

theorem Reading.mono {corpus' : List Record} (h : Reading corpus lines p)
    (kept : ∀ id ∈ ids corpus, id ∈ ids corpus') : Reading corpus' lines p :=
  { h with taken := fun record inside => (h.taken record inside).imp_left (kept _) }

theorem Reading.imported (h : Reading corpus lines p)
    (written : ∀ id ∈ storedIds p.batch, id ∈ ids corpus) : Imported corpus lines p.currentLineNo :=
  fun record inside => (h.taken record inside).elim (fun stored => stored) (written _)

theorem Reading.quiet (h : Reading corpus lines p) (unwritten : p.phase.written = false)
    (inside : p.phase.over = false) : Local corpus lines p where
  toReading := h
  written yes := by
    rw [unwritten] at yes
    exact absurd yes nofun
  loopOver yes := by
    rw [inside] at yes
    exact absurd yes nofun

theorem Reading.leaveLoop (h : Reading corpus lines p)
    (atEnd : p.currentLineNo = lines.length ∨ p.limitReached = true) :
    Local corpus lines p.leaveLoop where
  toReading := h.of_same rfl rfl rfl rfl
  written yes id inside := by
    cases empty : p.batch with
    | nil => simp [Import.leaveLoop, empty, storedIds, ids] at inside
    | cons first rest => simp [Import.leaveLoop, empty, Phase.written] at yes
  loopOver _ := atEnd

theorem Reading.endRecord (h : Reading corpus lines p) : Local corpus lines p.endRecord := by
  rw [Import.endRecord]
  split
  · rename_i reached
    exact h.leaveLoop (.inr reached)
  · exact (h.of_same (q := { p with phase := .reading }) rfl rfl rfl rfl).quiet rfl rfl

theorem Reading.reject (h : Reading corpus lines p) : Local corpus lines p.reject := by
  refine (h.of_same (q := p.reject) rfl rfl rfl rfl).quiet ?_ ?_
  all_goals
    rw [Import.reject]
    dsimp only
    split <;> rfl

theorem Reading.skip (h : Reading corpus lines p) (found : lines[p.currentLineNo]? = some line)
    (none : line.record? = none) :
    Reading corpus lines { p with currentLineNo := p.currentLineNo + 1 } := by
  have rest : (lines.drop p.fromLine)[p.currentLineNo - p.fromLine]? = some line := by
    rw [List.getElem?_drop, Nat.add_sub_cancel' h.forward, found]
  refine ⟨Nat.le_succ_of_le h.forward, Table.lt_length_of_getElem? found, ?_, ?_⟩
  · rw [Nat.sub_add_comm h.forward, records_succ rest, none, h.counted]
    simp
  · intro record inside
    rw [records_succ found, none] at inside
    exact h.taken record (by simpa using inside)

theorem Reading.take (h : Reading corpus lines p) (found : lines[p.currentLineNo]? = some line)
    (valid : line.record? = some record) :
    Reading corpus lines
      { p with
        currentLineNo := p.currentLineNo + 1
        batch := p.batch ++ [record]
        processedValid := p.processedValid + 1
        currentLastArxivId := some record.arxivId } := by
  have rest : (lines.drop p.fromLine)[p.currentLineNo - p.fromLine]? = some line := by
    rw [List.getElem?_drop, Nat.add_sub_cancel' h.forward, found]
  refine ⟨Nat.le_succ_of_le h.forward, Table.lt_length_of_getElem? found, ?_, ?_⟩
  · rw [Nat.sub_add_comm h.forward, records_succ rest, valid, h.counted]
    simp
  · intro other inside
    rw [records_succ found, valid] at inside
    simp only [Option.toList_some, List.mem_append, List.mem_singleton] at inside
    simp only [storedIds, ids, List.map_append, List.map_cons, List.map_nil, List.mem_append,
      List.mem_singleton]
    obtain old | rfl := inside
    · exact (h.taken other old).imp_right .inl
    · exact .inr (.inr rfl)

theorem Reading.readLine (h : Reading corpus lines p) (reading : p.phase = .reading)
    (found : lines[p.currentLineNo]? = some line) : Local corpus lines (p.readLine line) := by
  cases line with
  | blank =>
    have skipped := h.skip found rfl
    refine skipped.quiet ?_ ?_
    all_goals
      dsimp only
      rw [reading]
      rfl
  | garbage => exact (h.skip found rfl).reject
  | document raw =>
    have record? : Line.record? (.document raw) = ((coerceRecord raw).toOption).join := rfl
    dsimp only [Import.readLine]
    cases coerced : coerceRecord raw with
    | error message =>
      rw [coerced] at record?
      refine Reading.quiet ?_ rfl rfl
      exact (h.skip found record?).of_same rfl rfl rfl rfl
    | ok accepted =>
      rw [coerced] at record?
      cases accepted with
      | none => exact (h.skip found record?).reject
      | some record =>
        have next := h.take found record?
        dsimp only [Import.append]
        split
        · refine Reading.quiet ?_ rfl rfl
          exact next.of_same rfl rfl rfl rfl
        · exact next.endRecord

theorem Reading.afterFlush (h : Reading corpus lines p)
    (written : ∀ id ∈ storedIds p.batch, id ∈ ids corpus) : Local corpus lines p.afterFlush := by
  have cleared : Reading corpus lines { p with batch := [] } :=
    { h with taken := fun record inside => .inl (h.imported written record inside) }
  rw [Import.afterFlush]
  dsimp only
  split
  · refine Reading.quiet ?_ rfl rfl
    exact cleared.of_same rfl rfl rfl rfl
  · exact cleared.endRecord

/-- Later locals of one invocation, which is still going on. -/
structure Continues (p q : Import) : Prop where
  path : q.path = p.path
  runId : q.runId = p.runId
  fromLine : q.fromLine = p.fromLine
  active : ∀ completed, q.phase ≠ .ended completed

theorem continues_phase {phase : Phase} {inserted : Nat}
    (active : ∀ completed, phase ≠ .ended completed) :
    Continues p { p with inserted := inserted, phase := phase } := ⟨rfl, rfl, rfl, active⟩

theorem continues_leaveLoop : Continues p p.leaveLoop := by
  refine ⟨rfl, rfl, rfl, fun completed => ?_⟩
  rw [Import.leaveLoop]
  dsimp only
  split <;> exact nofun

theorem continues_endRecord : Continues p p.endRecord := by
  rw [Import.endRecord]
  split
  · exact continues_leaveLoop
  · exact ⟨rfl, rfl, rfl, fun _ => nofun⟩

theorem continues_reject : Continues p p.reject := by
  refine ⟨rfl, rfl, rfl, fun completed => ?_⟩
  rw [Import.reject]
  dsimp only
  split <;> exact nofun

theorem continues_append : Continues p (p.append record) := by
  dsimp only [Import.append]
  split
  · exact ⟨rfl, rfl, rfl, fun _ => nofun⟩
  · exact ⟨continues_endRecord.path, continues_endRecord.runId, continues_endRecord.fromLine,
      continues_endRecord.active⟩

theorem continues_readLine (line : Line) (reading : p.phase = .reading) : Continues p (p.readLine line) := by
  cases line with
  | blank =>
    refine ⟨rfl, rfl, rfl, fun completed => ?_⟩
    dsimp only [Import.readLine]
    rw [reading]
    exact nofun
  | garbage => exact ⟨rfl, rfl, rfl, continues_reject.active⟩
  | document raw =>
    dsimp only [Import.readLine]
    split
    · exact ⟨rfl, rfl, rfl, fun _ => nofun⟩
    · exact ⟨rfl, rfl, rfl, continues_reject.active⟩
    · exact ⟨continues_append.path, continues_append.runId, continues_append.fromLine,
        continues_append.active⟩

theorem continues_afterFlush : Continues p p.afterFlush := by
  rw [Import.afterFlush]
  dsimp only
  split
  · exact ⟨rfl, rfl, rfl, fun _ => nofun⟩
  · exact ⟨continues_endRecord.path, continues_endRecord.runId, continues_endRecord.fromLine,
      continues_endRecord.active⟩

theorem Local.wanted (h : Local corpus lines p) (ended : p.phase = .ended true) :
    ∀ record ∈ p.wanted lines, record.stored.arxivId ∈ ids corpus := by
  have imported := h.imported (h.written (by rw [ended]; rfl))
  intro record inside
  rw [Import.wanted, List.mem_append] at inside
  have split := records_split lines h.forward
  apply imported
  rw [split, List.mem_append]
  refine inside.imp_right fun rest => ?_
  have all : (lines.drop p.fromLine).filterMap Line.record? =
      records (lines.drop p.fromLine) (p.currentLineNo - p.fromLine) ++
        ((lines.drop p.fromLine).drop (p.currentLineNo - p.fromLine)).filterMap Line.record? := by
    rw [records, ← List.filterMap_append, List.take_append_drop]
  obtain atEnd | reached := h.loopOver (by rw [ended]; rfl)
  · rw [records_of_length_le (by rw [List.length_drop, atEnd])]
    cases bound : p.limit with
    | none => simpa [bound] using rest
    | some n =>
      simp only [bound] at rest
      exact List.mem_of_mem_take rest
  · obtain ⟨n, bound, enough⟩ := (Option.any_eq_true _ _).mp reached
    have few : n ≤ (records (lines.drop p.fromLine) (p.currentLineNo - p.fromLine)).length := by
      rw [← h.counted]
      exact of_decide_eq_true enough
    simp only [bound] at rest
    rw [all, List.take_append_of_le_length few] at rest
    exact List.mem_of_mem_take rest

end Synthetos.Corpus
