import Synthetos.Events.Stream
import Mathlib.Data.List.Nodup

/-!
# What the event stream delivers

The cursor is the id of the last event yielded, so an event is delivered exactly once as long as
ids become visible in their own order: no commit brings an event below the cursor, and no page
leaves out an event below its last one.
-/

namespace Synthetos.Events

open Lib

def Action.isPoll : Action → Bool
  | .poll _ => true
  | _ => false

namespace Feed

/-- A commit brings what the stream wants above its cursor; a page holds exactly the rows with ids
up to that of its last row. -/
def InOrder (feed : Feed) : Action → Prop
  | .commit tx => ∀ event ∈ feed.held tx, feed.stream.covers event = true →
      Events.newer feed.stream.lastEventId event = true → Events.newer feed.stream.cursor event = true
  | .poll answer => ∀ last ∈ (answer.take Stream.pageSize).getLast?, ∀ event ∈ answer,
      event ∈ answer.take Stream.pageSize ↔ event.id ≤ last.id
  | _ => True

instance (feed : Feed) (action : Action) : Decidable (feed.InOrder action) :=
  match action with
  | .tick _ => isTrue trivial
  | .emit .. => isTrue trivial
  | .commit tx => inferInstanceAs (Decidable (∀ event ∈ feed.held tx, _))
  | .rollback _ => isTrue trivial
  | .poll answer =>
    inferInstanceAs (Decidable (∀ last ∈ (answer.take Stream.pageSize).getLast?, ∀ event ∈ answer,
      (event ∈ answer.take Stream.pageSize ↔ event.id ≤ last.id)))

/-- Every event the stream owes has either been yielded or is still above the cursor, not both. -/
structure Delivering (feed : Feed) : Prop where
  distinct : feed.ids.Nodup
  forward : ∀ event, newer feed.stream.cursor event = true →
    newer feed.stream.lastEventId event = true
  only : ∀ event ∈ feed.stream.frames, feed.Owed event
  split : ∀ event, feed.Owed event →
    (event ∈ feed.stream.frames ↔ newer feed.stream.cursor event = false)
  once : feed.stream.frames.Nodup

variable {feed feed' : Feed} {action : Action} {event : EventRow} {answer : List EventRow}
  {actions : List Action}

theorem newer_of_le {cursor : Option Uuid} {a b : EventRow} (above : newer cursor a = true)
    (le : a.id ≤ b.id) : newer cursor b = true := by
  cases cursor with
  | none => rfl
  | some c =>
    simp only [newer, Option.all_some, decide_eq_true_eq] at above ⊢
    exact Nat.lt_of_lt_of_le above le

theorem Opened.delivering (opened : feed.Opened) : feed.Delivering where
  distinct := opened.distinct
  forward event := by
    rw [opened.fromStart]
    exact id
  only := by simp [opened.silent]
  split event owed := by
    rw [opened.silent, opened.fromStart, owed.newer]
    simp
  once := by simp [opened.silent]

theorem Delivering.visible_nodup (h : feed.Delivering) : feed.visible.Nodup := by
  have distinct := h.distinct
  rw [ids, rows, List.map_append] at distinct
  exact List.Nodup.of_map EventRow.id (List.nodup_append.mp distinct).1

theorem Delivering.mem_matching (h : feed.Delivering) :
    event ∈ feed.stream.matching feed.visible ↔ feed.Owed event ∧ event ∉ feed.stream.frames := by
  rw [Stream.matching, List.mem_filter, Bool.and_eq_true]
  constructor
  · rintro ⟨visible, covers, above⟩
    have owed : feed.Owed event := ⟨visible, covers, h.forward event above⟩
    refine ⟨owed, fun yielded => ?_⟩
    rw [(h.split event owed).mp yielded] at above
    exact absurd above nofun
  · rintro ⟨owed, fresh⟩
    refine ⟨owed.committed, owed.covered, ?_⟩
    by_contra below
    exact fresh ((h.split event owed).mpr (by simpa using below))

theorem Delivering.answer_nodup (h : feed.Delivering)
    (ordered : Ordered (feed.stream.matching feed.visible) answer) : answer.Nodup :=
  ordered.1.nodup_iff.mpr (h.visible_nodup.filter _)

theorem cursor_yieldAll (stream : Stream) {page : List EventRow} {last : EventRow}
    (found : page.getLast? = some last) : (stream.yieldAll page).cursor = some last.id := by
  obtain ⟨front, rfl⟩ := List.getLast?_eq_some_iff.mp found
  simp [Stream.yieldAll, List.foldl_append]

theorem yieldAll_nil {stream : Stream} : stream.yieldAll [] = stream := by
  simp [Stream.yieldAll]

theorem Delivering.of_same (h : feed.Delivering) (visible : feed'.visible = feed.visible)
    (stream : feed'.stream = feed.stream) (distinct : feed'.ids.Nodup) : feed'.Delivering where
  distinct := distinct
  forward := by
    rw [stream]
    exact h.forward
  only event yielded := by
    rw [stream] at yielded
    have owed := h.only event yielded
    exact ⟨visible ▸ owed.committed, stream ▸ owed.covered, stream ▸ owed.newer⟩
  split event owed := by
    rw [stream]
    exact h.split event ⟨visible ▸ owed.committed, stream ▸ owed.covered, stream ▸ owed.newer⟩
  once := stream ▸ h.once

theorem ids_release_sublist {tx : TxId} :
    ({ feed with uncommitted := feed.release tx } : Feed).ids.Sublist feed.ids :=
  ((List.Sublist.refl _).append (List.filter_sublist.map _)).map _

theorem rows_commit_perm {tx : TxId} :
    (feed.visible ++ feed.held tx ++ (feed.release tx).map Prod.snd).Perm feed.rows := by
  rw [List.append_assoc]
  apply List.Perm.append_left
  rw [held, release, ← List.map_append]
  apply List.Perm.map
  simpa using List.filter_append_perm (fun row : TxId × EventRow => decide (row.1 = tx))
    feed.uncommitted

theorem Delivering.commit {tx : TxId} (h : feed.Delivering)
    (inOrder : feed.InOrder (.commit tx)) :
    ({ feed with visible := feed.visible ++ feed.held tx,
                 uncommitted := feed.release tx } : Feed).Delivering where
  distinct := (rows_commit_perm.map _).nodup_iff.mpr h.distinct
  forward := h.forward
  only event yielded := by
    have owed := h.only event yielded
    exact ⟨List.mem_append_left _ owed.committed, owed.covered, owed.newer⟩
  split event owed := by
    obtain ⟨visible, covered, above⟩ := owed
    rcases List.mem_append.mp visible with old | new
    · exact h.split event ⟨old, covered, above⟩
    · have ahead := inOrder event new covered above
      constructor
      · intro yielded
        exact (h.split event (h.only event yielded)).mp yielded
      · intro below
        rw [ahead] at below
        exact absurd below nofun
  once := h.once

theorem Delivering.poll (h : feed.Delivering)
    (ordered : Ordered (feed.stream.matching feed.visible) answer)
    (inOrder : feed.InOrder (.poll answer)) :
    ({ feed with stream := feed.stream.yieldAll (answer.take Stream.pageSize) } : Feed).Delivering := by
  cases found : (answer.take Stream.pageSize).getLast? with
  | none =>
    rw [List.getLast?_eq_none_iff.mp found, yieldAll_nil]
    exact h
  | some last =>
    have cursor := cursor_yieldAll feed.stream found
    have fresh : ∀ event ∈ answer, feed.Owed event ∧ event ∉ feed.stream.frames :=
      fun event inside => h.mem_matching.mp (ordered.1.mem_iff.mp inside)
    have lastIn : last ∈ answer := List.mem_of_mem_take (List.mem_of_getLast? found)
    have behind : ∀ event, feed.Owed event →
        (event ∈ feed.stream.frames ++ answer.take Stream.pageSize ↔ event.id ≤ last.id) := by
      intro event owed
      rw [List.mem_append]
      by_cases yielded : event ∈ feed.stream.frames
      · have below := (h.split event owed).mp yielded
        have lastAbove := (List.mem_filter.mp (ordered.1.mem_iff.mp lastIn)).2
        rw [Bool.and_eq_true] at lastAbove
        refine ⟨fun _ => ?_, fun _ => .inl yielded⟩
        by_contra beyond
        have above := newer_of_le lastAbove.2 (Nat.le_of_not_le beyond)
        rw [below] at above
        exact absurd above nofun
      · have inside := ordered.1.mem_iff.mpr (h.mem_matching.mpr ⟨owed, yielded⟩)
        rw [← inOrder last found event inside]
        exact ⟨fun either => either.resolve_left yielded, .inr⟩
    constructor
    · exact h.distinct
    · intro event above
      rw [cursor] at above
      refine newer_of_le (fresh last lastIn).1.newer ?_
      simpa [newer] using Nat.le_of_lt (of_decide_eq_true above)
    · intro event yielded
      rcases List.mem_append.mp yielded with old | new
      · exact ⟨(h.only event old).committed, (h.only event old).covered, (h.only event old).newer⟩
      · have owed := (fresh event (List.mem_of_mem_take new)).1
        exact ⟨owed.committed, owed.covered, owed.newer⟩
    · intro event owed
      refine (behind event ⟨owed.committed, owed.covered, owed.newer⟩).trans ?_
      rw [cursor]
      simp [Events.newer]
    · refine List.nodup_append.mpr ⟨h.once, (h.answer_nodup ordered).sublist (List.take_sublist ..), ?_⟩
      rintro event yielded _ inside rfl
      exact (fresh event (List.mem_of_mem_take inside)).2 yielded

theorem Delivering.step (h : feed.Delivering) (inOrder : feed.InOrder action)
    (taken : feed.step action = some feed') : feed'.Delivering := by
  cases action with
  | tick micros =>
    obtain rfl := Option.some.inj taken
    exact h.of_same rfl rfl h.distinct
  | emit tx charterId cycleId random delay =>
    obtain ⟨fresh, rfl⟩ := step_emit taken
    refine h.of_same rfl rfl ?_
    simp only [ids, rows, List.map_append, List.map_cons, List.map_nil, ← List.append_assoc] at fresh ⊢
    refine List.nodup_append.mpr ⟨by simpa [ids, rows] using h.distinct, by simp, ?_⟩
    rintro id old _ new rfl
    rw [List.mem_singleton.mp new] at old
    exact fresh old
  | commit tx =>
    obtain rfl := Option.some.inj taken
    exact h.commit inOrder
  | rollback tx =>
    obtain rfl := Option.some.inj taken
    exact h.of_same rfl rfl (h.distinct.sublist ids_release_sublist)
  | poll answer =>
    obtain ⟨ordered, rfl⟩ := step_poll taken
    exact h.poll ordered inOrder

theorem Delivering.reaches (run : Reaches InOrder Feed.step feed feed') (h : feed.Delivering) :
    feed'.Delivering :=
  run.invariant Delivering (fun _ _ _ h inOrder taken => h.step inOrder taken) h

theorem Owed.step (owed : feed.Owed event) (taken : feed.step action = some feed') :
    feed'.Owed event := by
  cases action with
  | tick micros =>
    obtain rfl := Option.some.inj taken
    exact ⟨owed.committed, owed.covered, owed.newer⟩
  | emit tx charterId cycleId random delay =>
    obtain ⟨_, rfl⟩ := step_emit taken
    exact ⟨owed.committed, owed.covered, owed.newer⟩
  | commit tx =>
    obtain rfl := Option.some.inj taken
    exact ⟨List.mem_append_left _ owed.committed, owed.covered, owed.newer⟩
  | rollback tx =>
    obtain rfl := Option.some.inj taken
    exact ⟨owed.committed, owed.covered, owed.newer⟩
  | poll answer =>
    obtain ⟨_, rfl⟩ := step_poll taken
    exact ⟨owed.committed, owed.covered, owed.newer⟩

theorem stream_step (taken : feed.step action = some feed') :
    feed'.stream = feed.stream ∧ action.isPoll = false ∨
      ∃ answer, action = .poll answer ∧ Ordered (feed.stream.matching feed.visible) answer ∧
        feed'.stream = feed.stream.yieldAll (answer.take Stream.pageSize) := by
  cases action with
  | tick micros =>
    obtain rfl := Option.some.inj taken
    exact .inl ⟨rfl, rfl⟩
  | emit tx charterId cycleId random delay =>
    obtain ⟨_, rfl⟩ := step_emit taken
    exact .inl ⟨rfl, rfl⟩
  | commit tx =>
    obtain rfl := Option.some.inj taken
    exact .inl ⟨rfl, rfl⟩
  | rollback tx =>
    obtain rfl := Option.some.inj taken
    exact .inl ⟨rfl, rfl⟩
  | poll answer =>
    obtain ⟨ordered, rfl⟩ := step_poll taken
    exact .inr ⟨answer, rfl, ordered, rfl⟩

/-- The rows that may be yielded before an event: those created no later. -/
def earlier (rows : List EventRow) (event : EventRow) : List EventRow :=
  rows.filter fun row => row ≠ event ∧ row.createdAt ≤ event.createdAt

theorem length_earlier_page {rows : List EventRow} (ordered : Ordered rows answer)
    (inside : event ∈ answer) (left : event ∉ answer.take Stream.pageSize) :
    (earlier (answer.take Stream.pageSize) event).length = Stream.pageSize := by
  have rest : event ∈ answer.drop Stream.pageSize := by
    rw [← List.take_append_drop Stream.pageSize answer, List.mem_append] at inside
    exact inside.resolve_left left
  have full : (answer.take Stream.pageSize).length = Stream.pageSize := by
    rw [List.length_take]
    have := List.length_pos_of_mem rest
    rw [List.length_drop] at this
    omega
  have sorted := ordered.2
  rw [← List.take_append_drop Stream.pageSize answer, List.pairwise_append] at sorted
  rw [earlier, List.filter_eq_self.mpr, full]
  intro row onPage
  have apart : row ≠ event := by
    rintro rfl
    exact left onPage
  simpa [apart] using sorted.2.2 row onPage event rest

/-- Along a run, an event that stays above the cursor lets a full page of earlier events pass at
every poll. -/
theorem yielded_or_behind (h : feed.Delivering) (owed : feed.Owed event)
    (run : Path InOrder Feed.step feed actions feed') :
    feed'.Delivering ∧ feed'.Owed event ∧ (event ∈ feed'.stream.frames ∨
      Stream.pageSize * actions.countP Action.isPoll ≤
        (earlier feed'.stream.frames event).length) := by
  induction run with
  | nil => exact ⟨h, owed, .inr (by simp)⟩
  | @snoc _ _ mid _ _ inOrder taken ih =>
    obtain ⟨delivering, still, waiting⟩ := ih
    refine ⟨delivering.step inOrder taken, still.step taken, ?_⟩
    rw [List.countP_append, List.countP_singleton]
    obtain ⟨same, quiet⟩ | ⟨answer, rfl, ordered, frames⟩ := stream_step taken
    · simpa [same, quiet] using waiting
    · rw [frames, Stream.yieldAll, List.mem_append]
      by_cases yielded : event ∈ mid.stream.frames
      · exact .inl (.inl yielded)
      · have inside := ordered.1.mem_iff.mpr (delivering.mem_matching.mpr ⟨still, yielded⟩)
        by_cases onPage : event ∈ answer.take Stream.pageSize
        · exact .inl (.inr onPage)
        · right
          have behind := waiting.resolve_left yielded
          have page := length_earlier_page ordered inside onPage
          simp only [earlier, List.filter_append, List.length_append, Action.isPoll] at behind page ⊢
          rw [page]
          simp only [if_true, Nat.mul_add, Nat.mul_one]
          omega

/-- Once the clock is past an event's creation, no row is added that the stream could yield before
it. -/
theorem earlier_rows_step (past : event.createdAt < feed.now)
    (taken : feed.step action = some feed') :
    event.createdAt < feed'.now ∧
      (earlier feed'.rows event).length ≤ (earlier feed.rows event).length := by
  cases action with
  | tick micros =>
    obtain rfl := Option.some.inj taken
    exact ⟨Nat.lt_add_right _ past, Nat.le_refl _⟩
  | emit tx charterId cycleId random delay =>
    obtain ⟨_, rfl⟩ := step_emit taken
    refine ⟨past, Nat.le_of_eq ?_⟩
    have late : ¬feed.now + delay ≤ event.createdAt := by omega
    simp [earlier, rows, emitEvent, List.filter_append, late]
  | commit tx =>
    obtain rfl := Option.some.inj taken
    exact ⟨past, Nat.le_of_eq (rows_commit_perm.filter _).length_eq⟩
  | rollback tx =>
    obtain rfl := Option.some.inj taken
    exact ⟨past, (((List.Sublist.refl _).append (List.filter_sublist.map _)).filter _).length_le⟩
  | poll answer =>
    obtain ⟨_, rfl⟩ := step_poll taken
    exact ⟨past, Nat.le_refl _⟩

theorem earlier_rows_path {ok : Feed → Action → Prop} (past : event.createdAt < feed.now)
    (run : Path ok Feed.step feed actions feed') :
    event.createdAt < feed'.now ∧
      (earlier feed'.rows event).length ≤ (earlier feed.rows event).length := by
  induction run with
  | nil => exact ⟨past, Nat.le_refl _⟩
  | snoc _ _ taken ih =>
    have next := earlier_rows_step ih.1 taken
    exact ⟨next.1, Nat.le_trans next.2 ih.2⟩

theorem Delivering.earlier_frames_le (h : feed.Delivering) (event : EventRow) :
    (earlier feed.stream.frames event).length ≤ (earlier feed.rows event).length := by
  apply List.Subperm.length_le
  apply List.subperm_of_subset (h.once.filter _)
  intro row inside
  obtain ⟨yielded, early⟩ := List.mem_filter.mp inside
  exact List.mem_filter.mpr ⟨List.mem_append_left _ (h.only row yielded).committed, early⟩

/-- While ids become visible in their order, the stream yields only what it owes and nothing twice,
and an event it owes is yielded once as soon as the polls have had room for the rows created no
later. -/
theorem stream_exactly_once {opened mid last : Feed} (start : opened.Opened)
    (before : Reaches InOrder Feed.step opened mid)
    (after : Path InOrder Feed.step mid actions last) :
    (∀ event, last.stream.frames.count event ≤ 1) ∧
      (∀ event ∈ last.stream.frames, last.Owed event) ∧
      ∀ event, mid.Owed event → event.createdAt < mid.now →
        (earlier mid.rows event).length < Stream.pageSize * actions.countP Action.isPoll →
        last.stream.frames.count event = 1 := by
  have delivering := start.delivering.reaches before
  have final := delivering.reaches after.reaches
  refine ⟨fun event => List.nodup_iff_count_le_one.mp final.once event, final.only, ?_⟩
  intro event owed past enough
  apply List.count_eq_one_of_mem final.once
  obtain ⟨_, _, yielded | behind⟩ := yielded_or_behind delivering owed after
  · exact yielded
  · have settled := (earlier_rows_path past after).2
    have frames := final.earlier_frames_le event
    omega

/-- No event, no transaction, and a stream of one charter. -/
def quietCharter : Feed where
  now := 0
  visible := []
  uncommitted := []
  stream := { charterId := some 4, cycleId := none, lastEventId := none }

def earlyEvent : EventRow := emitEvent 0 7 0 (some 4) none

def foreignEvent : EventRow := emitEvent 0 8 0 (some 5) none

def lateEvent : EventRow := emitEvent 1000 9 0 (some 4) none

/-- The early event is polled before the transaction of the late one commits; another transaction is
rolled back. -/
def served : Feed where
  now := 1001
  visible := [earlyEvent, foreignEvent, lateEvent]
  uncommitted := []
  stream := { quietCharter.stream with cursor := some earlyEvent.id, frames := [earlyEvent] }

theorem stream_exactly_once_served :
    ∃ last, Reaches InOrder Feed.step quietCharter served ∧
      Path InOrder Feed.step served [.poll [lateEvent], .poll []] last ∧
      last.stream.frames.count earlyEvent = 1 ∧ last.stream.frames.count lateEvent = 1 := by
  have before : perform (fun feed action => decide (feed.InOrder action)) Feed.step quietCharter
      [.emit 1 (some 4) none 7 0, .emit 1 (some 5) none 8 0, .emit 3 (some 4) none 5 0, .tick 1000,
        .emit 2 (some 4) none 9 0, .commit 1, .rollback 3, .poll [earlyEvent], .commit 2,
        .tick 1] = some served := by rfl
  obtain ⟨last, after⟩ : ∃ last, perform (fun feed action => decide (feed.InOrder action))
      Feed.step served [.poll [lateEvent], .poll []] = some last := ⟨_, by rfl⟩
  have run := Path.of_perform (fun s a h => (of_decide_eq_true h : InOrder s a)) before
  have final := Path.of_perform (fun s a h => (of_decide_eq_true h : InOrder s a)) after
  have opened : quietCharter.Opened := ⟨rfl, rfl, List.nodup_nil⟩
  have yielded := (stream_exactly_once opened run.reaches final).2.2
  exact ⟨last, run.reaches, final,
    yielded earlyEvent (by decide) (by decide) (by decide),
    yielded lateEvent (by decide) (by decide) (by decide)⟩

/-- No event, no transaction, and a stream without filters or starting point. -/
def quiet : Feed where
  now := 0
  visible := []
  uncommitted := []
  stream := { charterId := none, cycleId := none, lastEventId := none }

theorem quiet_opened : quiet.Opened := ⟨rfl, rfl, List.nodup_nil⟩

theorem passed_over (fresh : event ∉ feed.stream.frames)
    (below : newer feed.stream.cursor event = false) (taken : feed.step action = some feed') :
    event ∉ feed'.stream.frames ∧ newer feed'.stream.cursor event = false := by
  obtain ⟨same, _⟩ | ⟨answer, rfl, ordered, yields⟩ := stream_step taken
  · rw [same]
    exact ⟨fresh, below⟩
  · rw [yields]
    have above : ∀ row ∈ answer.take Stream.pageSize, newer feed.stream.cursor row = true := by
      intro row onPage
      have selected := ordered.1.mem_iff.mp (List.mem_of_mem_take onPage)
      exact (Bool.and_eq_true_iff.mp (List.mem_filter.mp selected).2).2
    constructor
    · intro yielded
      have onPage := (List.mem_append.mp yielded).resolve_left fresh
      exact absurd (above event onPage) (by rw [below]; decide)
    · cases found : (answer.take Stream.pageSize).getLast? with
      | none =>
        rw [List.getLast?_eq_none_iff.mp found, yieldAll_nil]
        exact below
      | some last =>
        rw [cursor_yieldAll feed.stream found]
        by_contra beyond
        have beyond : last.id < event.id := by simpa [newer] using beyond
        have ahead := newer_of_le (above last (List.mem_of_getLast? found)) (Nat.le_of_lt beyond)
        rw [below] at ahead
        exact absurd ahead nofun

/-- A transaction that emits first and commits after a poll that saw a later event: its event is
committed, wanted, and in no continuation yielded. -/
theorem late_commit_never_streamed :
    ∃ opened feed event, opened.Opened ∧ Reaches Unguarded Feed.step opened feed ∧
      feed.Owed event ∧
      ∀ later, Reaches Unguarded Feed.step feed later → event ∉ later.stream.frames := by
  have run : (perform (fun _ _ => true) Feed.step quiet
      [.emit 1 none none 0 0, .tick 1000, .emit 2 none none 0 0, .commit 2,
        .poll [emitEvent 1000 0 0 none none], .commit 1]).any
      (fun feed => decide (feed.Owed (emitEvent 0 0 0 none none)) &&
        decide (emitEvent 0 0 0 none none ∉ feed.stream.frames) &&
        !newer feed.stream.cursor (emitEvent 0 0 0 none none)) = true := by
    decide +kernel
  obtain ⟨feed, reached, _, test⟩ := Reaches.of_perform_any (fun _ => True)
    (fun s a _ _ => (trivial : Unguarded s a)) (fun _ _ _ _ _ _ => trivial) trivial run
  simp only [Bool.and_eq_true, decide_eq_true_eq, Bool.not_eq_true'] at test
  refine ⟨quiet, feed, _, quiet_opened, reached, test.1.1, fun later continued => ?_⟩
  exact (continued.invariant
    (fun feed => emitEvent 0 0 0 none none ∉ feed.stream.frames ∧
      newer feed.stream.cursor (emitEvent 0 0 0 none none) = false)
    (fun _ _ _ h _ taken => passed_over h.1 h.2 taken) ⟨test.1.2, test.2⟩).1

end Feed

end Synthetos.Events
