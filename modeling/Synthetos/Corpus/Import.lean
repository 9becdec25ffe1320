import Synthetos.Lib.Column
import Synthetos.Lib.Json
import Synthetos.Lib.Table
import Synthetos.Lib.Transition

/-!
# Importing an arXiv dump

`import-arxiv` reads a file of JSON lines, collects the accepted records in a batch and writes
each full batch to `arxiv_corpus` in a transaction of its own.  A row of `corpus_import_runs` keeps
the last line the import has dealt with; `--resume` continues after that line.  One step of the
machine below ends where the process can be killed or where a call can raise.  `accepts` stands for
what the driver and the database make of a batch whose texts fit their columns.
-/

namespace Synthetos.Corpus

open Lib

/-- A line of the file, stripped: empty, not JSON, or a JSON document. -/
inductive Line where
  | blank
  | garbage
  | document (raw : Json)

/-- A row of `arxiv_corpus` as `_coerce_record` builds it; `imported_at` is left out. -/
structure Record where
  arxivId : String
  title : Json
  abstract : Json
  authors : Json
  categories : Json
  createdDate : Json
  updatedDate : Json
  doi : Json
  sourceUrl : Json
  pdfUrl : Json
  rawMetadata : Json
  searchText : Json
  contentHash : Json
  embedding : Json
  embeddingModelId : Json
  embeddingUpdatedAt : Json

def expectedFormat : String := "synthetos.arxiv.embedded.v1"

def expectedModel : String := "Alibaba-NLP/gte-modernbert-base"

def checkpointInterval : Nat := 5000

/-- `len(v)` -/
def len : Json → Except String Nat
  | .str s => .ok s.length
  | .arr items => .ok items.length
  | .obj fields => .ok fields.length
  | _ => .error "TypeError: object has no len()"

/-- `v and v != expected` -/
def differs (v : Json) (expected : String) : Bool := v.truthy && !v.same (.str expected)

/-- `v or default` -/
def orElse (v default : Json) : Json := if v.truthy then v else default

/-- A present embedding has 768 components. -/
def goodDimension (embedding : Json) : Except String Bool :=
  match embedding with
  | .null => .ok true
  | v => (len v).map (· == 768)

/-- `_coerce_record`: a record, a rejection, or an exception for what is not a JSON object or has
an embedding without a length. -/
def coerceRecord : Json → Except String (Option Record)
  | .obj raw =>
    let get := fun key => Dict.getD raw key .null
    if differs (get "_synthetos_format") expectedFormat then .ok none
    else if differs (get "embedding_model_id") expectedModel then .ok none
    else if !(get "arxiv_id").truthy then .ok none
    else (goodDimension (get "embedding")).map fun good =>
      if good then some
        { arxivId := String.ofList (get "arxiv_id").strChars
          title := orElse (get "title") (.str "")
          abstract := orElse (get "abstract") (.str "")
          authors := get "authors"
          categories := get "categories"
          createdDate := get "created_date"
          updatedDate := get "updated_date"
          doi := orElse (get "doi") .null
          sourceUrl := orElse (get "source_url") .null
          pdfUrl := orElse (get "pdf_url") .null
          rawMetadata := get "raw_metadata"
          searchText := get "search_text"
          contentHash := get "content_hash"
          embedding := get "embedding"
          embeddingModelId := get "embedding_model_id"
          embeddingUpdatedAt := get "embedding_updated_at" }
      else none
  | _ => .error "AttributeError: object has no attribute 'get'"

/-- The record on a line, when the line is valid. -/
def Line.record? : Line → Option Record
  | .document raw => ((coerceRecord raw).toOption).join
  | _ => none

/-- The text columns of `arxiv_corpus` with their widths, where they have one. -/
def Record.texts (record : Record) : List (Option Nat × Json) :=
  [(some 64, .str record.arxivId), (none, record.title), (none, record.abstract),
    (some 64, record.createdDate), (some 64, record.updatedDate), (some 256, record.doi),
    (some 512, record.sourceUrl), (some 512, record.pdfUrl), (none, record.searchText),
    (some 64, record.contentHash), (some 200, record.embeddingModelId),
    (some 64, record.embeddingUpdatedAt)]

def textFits : Option Nat × Json → Bool
  | (some width, .str s) => Column.fits width s.toList
  | (none, .str s) => Column.isText s.toList
  | _ => true

def Record.fits (record : Record) : Bool := record.texts.all textFits

def cutText (width : Nat) (s : String) : String := String.ofList (Column.cut width s.toList)

def cutJson (width : Nat) : Json → Json
  | .str s => .str (cutText width s)
  | v => v

/-- The row of a record that fits: what exceeds a column is blank and cut off. -/
def Record.stored (record : Record) : Record :=
  { record with
    arxivId := cutText 64 record.arxivId
    createdDate := cutJson 64 record.createdDate
    updatedDate := cutJson 64 record.updatedDate
    doi := cutJson 256 record.doi
    sourceUrl := cutJson 512 record.sourceUrl
    pdfUrl := cutJson 512 record.pdfUrl
    contentHash := cutJson 64 record.contentHash
    embeddingModelId := cutJson 200 record.embeddingModelId
    embeddingUpdatedAt := cutJson 64 record.embeddingUpdatedAt }

inductive RunMode where
  | copy
  | upsert
deriving DecidableEq

inductive RunStatus where
  | running
  | failed
  | completed
deriving DecidableEq

/-- A row of `corpus_import_runs`; rows are created one after the other, so the order of
`started_at` is the order of the table. -/
structure CorpusImportRun where
  sourcePath : String
  mode : RunMode
  status : RunStatus := .running
  lastLine : Nat := 0
  lastArxivId : Option String := none
  insertedCount : Nat := 0
  skippedCount : Nat := 0
  rejectedCount : Nat := 0
  completedAt : Bool := false

/-- Where the process stands: before a read, before a call of the database, or out of the `try`.
`last` marks the batch that is left when the loop is over. -/
inductive Phase where
  | reading
  | rejecting
  | flushing (last : Bool)
  | flushed (last : Bool)
  | finishing
  | failing
  | ended (completed : Bool)
deriving DecidableEq

/-- The local variables of one invocation. -/
structure Import where
  path : String
  resume : Bool
  limit : Option Nat
  batchSize : Int
  runId : Nat
  fromLine : Nat
  inserted : Nat
  skipped : Nat
  rejected : Nat
  processedValid : Nat := 0
  currentLineNo : Nat
  currentLastArxivId : Option String
  batch : List Record := []
  phase : Phase := .reading

structure World where
  corpus : List Record
  runs : List CorpusImportRun
  process : Option Import

/-- `ON CONFLICT DO UPDATE`, record by record. -/
def upsertRecords (corpus batch : List Record) : List Record :=
  batch.foldl (fun rows record => Table.upsert rows (·.arxivId == record.arxivId) record) corpus

/-- `ON CONFLICT DO NOTHING`, record by record. -/
def insertRecords (corpus batch : List Record) : List Record :=
  batch.foldl
    (fun rows record => if rows.any (·.arxivId == record.arxivId) then rows else rows ++ [record])
    corpus

namespace Import

def mode (p : Import) : RunMode := if p.resume then .upsert else .copy

/-- `last_arxiv_id` takes the last id. -/
def lastIdFits (p : Import) : Bool :=
  p.currentLastArxivId.all fun id => Column.fits 64 id.toList

/-- Inside the `try` an exception leads to the handler, outside of it the process ends. -/
def raise (p : Import) : Import :=
  { p with phase := match p.phase with
      | .finishing | .failing => .ended false
      | .ended completed => .ended completed
      | _ => .failing }

/-- `limit is not None and processed_valid >= limit` -/
def limitReached (p : Import) : Bool := p.limit.any (· ≤ p.processedValid)

/-- What follows the loop: the rest of the batch, if there is one. -/
def leaveLoop (p : Import) : Import :=
  { p with phase := if p.batch.isEmpty then .finishing else .flushing true }

def endRecord (p : Import) : Import :=
  if p.limitReached then p.leaveLoop else { p with phase := .reading }

def reject (p : Import) : Import :=
  { p with
    rejected := p.rejected + 1
    phase := if p.currentLineNo % checkpointInterval = 0 then .rejecting else .reading }

def append (p : Import) (record : Record) : Import :=
  let p := { p with
    batch := p.batch ++ [record]
    processedValid := p.processedValid + 1
    currentLastArxivId := some record.arxivId }
  if p.batchSize ≤ p.batch.length then { p with phase := .flushing false } else p.endRecord

/-- One iteration of the loop, up to the first call of the database. -/
def readLine (p : Import) (line : Line) : Import :=
  let p := { p with currentLineNo := p.currentLineNo + 1 }
  match line with
  | .blank => p
  | .garbage => p.reject
  | .document raw =>
    match coerceRecord raw with
    | .error _ => { p with phase := .failing }
    | .ok none => p.reject
    | .ok (some record) => p.append record

/-- After the checkpoint of a flushed batch: `batch.clear()`, the progress message, whose modulus
is zero for a batch size of zero, and the limit. -/
def afterFlush (p : Import) : Import :=
  let p := { p with batch := [] }
  if p.batchSize = 0 then { p with phase := .failing } else p.endRecord

end Import

namespace World

/-- `_checkpoint_run` -/
def checkpoint (w : World) (p : Import) (status : RunStatus) (completed : Bool) : World :=
  { w with runs := Table.update w.runs p.runId fun run =>
      { run with
        lastLine := p.currentLineNo
        lastArxivId := p.currentLastArxivId.map (cutText 64)
        insertedCount := p.inserted
        skippedCount := p.skipped
        rejectedCount := p.rejected
        status := status
        completedAt := run.completedAt || completed } }

def setProcess (w : World) (p : Import) : World := { w with process := some p }

/-- A checkpoint after which the import goes on as `next`. -/
def mark (w : World) (p : Import) (status : RunStatus) (completed : Bool) (next : Import) : World :=
  if p.lastIdFits then (w.checkpoint p status completed).setProcess next
  else w.setProcess p.raise

/-- Writing the batch: a text that does not fit raises, and so does an upsert of a batch that repeats
an id. -/
def flush (accepts : RunMode → List Record → Bool) (w : World) (p : Import) (last : Bool) : World :=
  let rows := p.batch.map Record.stored
  if !(p.batch.all Record.fits && accepts p.mode p.batch) then w.setProcess p.raise
  else if p.resume then
    if (rows.map Record.arxivId).Nodup then
      { w with corpus := upsertRecords w.corpus rows }.setProcess
        { p with inserted := p.inserted + p.batch.length, phase := .flushed last }
    else w.setProcess p.raise
  else
    { w with corpus := insertRecords w.corpus rows }.setProcess
      { p with
        inserted := p.inserted + ((insertRecords w.corpus rows).length - w.corpus.length)
        phase := .flushed last }

/-- `_load_resume_run`: the latest run of the file that is not completed. -/
def resumable (w : World) (path : String) : Option Nat :=
  (List.range w.runs.length).reverse.find? fun k =>
    w.runs[k]?.any fun run => run.sourcePath == path && !run.completedAt

/-- The row `_create_run` adds and the locals of a fresh import. -/
def create (w : World) (path : String) (resume : Bool) (limit : Option Nat) (batchSize : Int) :
    World :=
  { w with
    runs := w.runs ++
      [{ sourcePath := cutText 1024 path, mode := if resume then .upsert else .copy }]
    process := some
      { path, resume, limit, batchSize, runId := w.runs.length, fromLine := 0, inserted := 0,
        skipped := 0, rejected := 0, currentLineNo := 0, currentLastArxivId := none } }

/-- The locals of an import that resumes a run. -/
def continueRun (w : World) (path : String) (limit : Option Nat) (batchSize : Int) (runId : Nat)
    (run : CorpusImportRun) : World :=
  w.setProcess
    { path, resume := true, limit, batchSize, runId, fromLine := run.lastLine
      inserted := run.insertedCount, skipped := run.skippedCount, rejected := run.rejectedCount
      currentLineNo := run.lastLine, currentLastArxivId := run.lastArxivId }

def start (w : World) (path : String) (resume : Bool) (limit : Option Nat) (batchSize : Int) :
    World :=
  match if resume then w.resumable path else none with
  | none =>
    if Column.fits 1024 path.toList then w.create path resume limit batchSize
    else { w with process := none }
  | some k =>
    match w.runs[k]? with
    | none => w
    | some run => w.continueRun path limit batchSize k run

end World

inductive Action where
  | start (path : String) (resume : Bool) (limit : Option Nat) (batchSize : Int)
  | advance
  | fail
  | crash

/-- The next call of a process succeeds (as far as the database accepts what it is given). -/
def World.advance (accepts : RunMode → List Record → Bool) (w : World) (lines : List Line)
    (p : Import) : Option World :=
  match p.phase with
  | .reading =>
    match lines[p.currentLineNo]? with
    | none => some (w.setProcess p.leaveLoop)
    | some line => some (w.setProcess (p.readLine line))
  | .rejecting => some (w.mark p .running false { p with phase := .reading })
  | .flushing last => some (w.flush accepts p last)
  | .flushed false => some (w.mark p .running false p.afterFlush)
  | .flushed true => some (w.mark p .running false { p with phase := .finishing })
  | .finishing => some (w.mark p .completed true { p with phase := .ended true })
  | .failing => some (w.mark p .failed false { p with phase := .ended false })
  | .ended _ => none

def World.fail (w : World) (p : Import) : Option World :=
  match p.phase with
  | .ended _ => none
  | _ => some (w.setProcess p.raise)

def World.idle (w : World) : Bool :=
  match w.process with
  | none => true
  | some p => p.phase matches .ended _

def step (files : String → Option (List Line)) (accepts : RunMode → List Record → Bool)
    (w : World) : Action → Option World
  | .start path resume limit batchSize =>
    if w.idle && (files path).isSome then some (w.start path resume limit batchSize) else none
  | .advance => do
    let p ← w.process
    w.advance accepts (← files p.path) p
  | .fail => w.process.bind w.fail
  | .crash => w.process.map fun _ => { w with process := none }

end Synthetos.Corpus
