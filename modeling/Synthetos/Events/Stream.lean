import Synthetos.Lib.Transition
import Mathlib.Data.List.Perm.Basic
import Mathlib.Algebra.GroupWithZero.Nat

/-!
# The event stream

Transactions emit events whose id and creation time are fixed at once and which become visible
when the transaction commits.  The stream polls the visible rows: it selects the rows above its
cursor in the order of their creation times, yields the first hundred and moves the cursor to the
last one it yielded.
-/

namespace Synthetos.Events

open Lib

abbrev Uuid := Nat

/-- A UUIDv7 as a number: 48 bits of milliseconds in front of 80 bits that the caller cannot
predict. -/
def uuid7 (millis random : Nat) : Uuid := millis * 2 ^ 80 + random % 2 ^ 80

structure EventRow where
  id : Uuid
  charterId : Option Uuid
  cycleId : Option Uuid
  createdAt : Nat
deriving DecidableEq, Repr

/-- `emit_event`: the id carries the milliseconds of the clock, the creation time is read right
after it, in microseconds. -/
def emitEvent (now random delay : Nat) (charterId cycleId : Option Uuid) : EventRow where
  id := uuid7 (now / 1000) random
  charterId := charterId
  cycleId := cycleId
  createdAt := now + delay

/-- The local variables of `_event_stream`; `frames` are the events it has yielded so far. -/
structure Stream where
  charterId : Option Uuid
  cycleId : Option Uuid
  lastEventId : Option Uuid
  cursor : Option Uuid := lastEventId
  frames : List EventRow := []
deriving DecidableEq

/-- `cursor is None or id > cursor`. -/
def newer (cursor : Option Uuid) (event : EventRow) : Bool := cursor.all (· < event.id)

namespace Stream

def pageSize : Nat := 100

def covers (stream : Stream) (event : EventRow) : Bool :=
  stream.charterId.all (fun charter => event.charterId == some charter) &&
    stream.cycleId.all (fun cycle => event.cycleId == some cycle)

def matching (stream : Stream) (rows : List EventRow) : List EventRow :=
  rows.filter fun event => stream.covers event && newer stream.cursor event

/-- `for event in events: yield ..; cursor = event.id`. -/
def yieldAll (stream : Stream) (events : List EventRow) : Stream :=
  { stream with
    frames := stream.frames ++ events
    cursor := events.foldl (fun _ event => some event.id) stream.cursor }

end Stream

/-- The answer to `order_by(created_at.asc())`: rows with equal times come in any order. -/
def Ordered (rows answer : List EventRow) : Prop :=
  answer.Perm rows ∧ answer.Pairwise fun a b => a.createdAt ≤ b.createdAt

instance (rows answer : List EventRow) : Decidable (Ordered rows answer) :=
  inferInstanceAs (Decidable (_ ∧ _))

abbrev TxId := Nat

structure Feed where
  now : Nat
  visible : List EventRow
  uncommitted : List (TxId × EventRow)
  stream : Stream

inductive Action where
  | tick (micros : Nat)
  | emit (tx : TxId) (charterId cycleId : Option Uuid) (random delay : Nat)
  | commit (tx : TxId)
  | rollback (tx : TxId)
  | poll (answer : List EventRow)

namespace Feed

/-- Every row there is, visible or not. -/
def rows (feed : Feed) : List EventRow := feed.visible ++ feed.uncommitted.map Prod.snd

def ids (feed : Feed) : List Uuid := feed.rows.map EventRow.id

/-- The events of one open transaction. -/
def held (feed : Feed) (tx : TxId) : List EventRow :=
  (feed.uncommitted.filter (·.1 = tx)).map Prod.snd

def release (feed : Feed) (tx : TxId) : List (TxId × EventRow) :=
  feed.uncommitted.filter (·.1 ≠ tx)

def step (feed : Feed) : Action → Option Feed
  | .tick micros => some { feed with now := feed.now + micros }
  | .emit tx charterId cycleId random delay =>
    let event := emitEvent feed.now random delay charterId cycleId
    if event.id ∈ feed.ids then none
    else some { feed with uncommitted := feed.uncommitted ++ [(tx, event)] }
  | .commit tx =>
    some { feed with visible := feed.visible ++ feed.held tx, uncommitted := feed.release tx }
  | .rollback tx => some { feed with uncommitted := feed.release tx }
  | .poll answer =>
    if Ordered (feed.stream.matching feed.visible) answer then
      some { feed with stream := feed.stream.yieldAll (answer.take Stream.pageSize) }
    else none

variable {feed feed' : Feed}

theorem step_emit {tx : TxId} {charterId cycleId : Option Uuid} {random delay : Nat}
    (taken : feed.step (.emit tx charterId cycleId random delay) = some feed') :
    (emitEvent feed.now random delay charterId cycleId).id ∉ feed.ids ∧
      feed' = { feed with
        uncommitted := feed.uncommitted ++
          [(tx, emitEvent feed.now random delay charterId cycleId)] } := by
  simp only [step] at taken
  split at taken
  · cases taken
  · rename_i fresh
    exact ⟨fresh, (Option.some.inj taken).symm⟩

theorem step_poll {answer : List EventRow} (taken : feed.step (.poll answer) = some feed') :
    Ordered (feed.stream.matching feed.visible) answer ∧
      feed' = { feed with stream := feed.stream.yieldAll (answer.take Stream.pageSize) } := by
  simp only [step] at taken
  split at taken
  · rename_i ordered
    exact ⟨ordered, (Option.some.inj taken).symm⟩
  · cases taken

/-- A stream that has just been opened, over any rows and open transactions. -/
structure Opened (feed : Feed) : Prop where
  fromStart : feed.stream.cursor = feed.stream.lastEventId
  silent : feed.stream.frames = []
  distinct : feed.ids.Nodup

/-- A committed event the stream has to deliver. -/
structure Owed (feed : Feed) (event : EventRow) : Prop where
  committed : event ∈ feed.visible
  covered : feed.stream.covers event = true
  newer : newer feed.stream.lastEventId event = true

instance (feed : Feed) (event : EventRow) : Decidable (feed.Owed event) :=
  decidable_of_iff (event ∈ feed.visible ∧ feed.stream.covers event = true ∧
      Events.newer feed.stream.lastEventId event = true)
    ⟨fun ⟨a, b, c⟩ => ⟨a, b, c⟩, fun h => ⟨h.1, h.2, h.3⟩⟩

end Feed

end Synthetos.Events
