import Synthetos.Lib.Journal
import Synthetos.Worker.LoopExits

/-!
# Transition events

The moves of a cycle are its `research_cycle_transitioned` events.  No operator files one: they
are the business of the worker loop and of `transition_cycle`.  Outside the loop an operator does
not take a loop decision either.
-/

namespace Synthetos.Storage

open Synthetos.Core Lib

/-- The move of cycle `c` an event records. -/
def DomainEvent.move? (c : CycleId) : DomainEvent → Option (Move CycleStatus)
  | .cycleTransitioned k fromStatus toStatus => if k = c then some ⟨fromStatus, toStatus⟩ else none
  | _ => none

/-- The moves of cycle `c` in a list of events. -/
def movesOf (events : List DomainEvent) (c : CycleId) : List (Move CycleStatus) :=
  events.filterMap (DomainEvent.move? c)

def Db.moves (db : Db) (c : CycleId) : List (Move CycleStatus) := movesOf db.events c

/-- No event of the list is a transition. -/
def Still (events : List DomainEvent) : Prop := ∀ c, movesOf events c = []

theorem Still.append {a b : List DomainEvent} (ha : Still a) (hb : Still b) : Still (a ++ b) := by
  intro c
  rw [movesOf, List.filterMap_append, ← movesOf, ← movesOf, ha c, hb c]
  rfl

theorem movesOf_append_still {a b : List DomainEvent} (hb : Still b) (c : CycleId) :
    movesOf (a ++ b) c = movesOf a c := by
  rw [movesOf, List.filterMap_append, ← movesOf, ← movesOf, hb c, List.append_nil]

theorem still_map {α : Type} {f : α → DomainEvent} {items : List α}
    (h : ∀ item c, (f item).move? c = none) : Still (items.map f) := by
  intro c
  rw [movesOf, List.filterMap_map, List.filterMap_eq_nil_iff]
  exact fun item _ => h item c

end Synthetos.Storage

namespace Synthetos.Worker

open Synthetos.Core Storage Lib Autonomy Execution Protocols Remediation Verification

variable {db : Db} {input : OperatorInput} {phase : Phase} {world : External} {txn : Txn}
  {next : Next}

/-- The transaction files no transition, takes no loop decision, counts no run, moves no hypothesis
card and adds no spec. -/
structure Plain (txn : Txn) : Prop where
  still : Still txn.events
  undecided : txn.newDecisions = []
  uncharged : charges txn.events = []
  unbudgeted : txn.budget = none
  unmoved : txn.cardStatuses = []
  unspecified : txn.newSpecs = []

/-- Nor does it file a remediation action. -/
structure Bare (txn : Txn) : Prop extends Plain txn where
  actionless : txn.newActions = []

theorem txn_of_eq {P : Txn → Prop} {out : Txn × Next} (h : out = (txn, next)) (hout : P out.1) :
    P txn := by
  rw [h] at hout
  exact hout

theorem txn_of_pure {P : Txn → Prop} {out : Txn × Next}
    (h : (pure out : Except String (Txn × Next)) = .ok (txn, next)) (hout : P out.1) : P txn :=
  txn_of_eq (pure_eq_ok.mp h) hout

/-! ### Execution, verification and remediation -/

theorem executionSetup_bare (h : executionSetupOperator db input world = .ok (txn, next)) :
    Bare txn := by
  unfold executionSetupOperator at h
  split at h
  · obtain ⟨run, -, h⟩ := bind_eq_ok.mp h
    split at h
    · split at h
      · exact txn_of_pure h ⟨⟨fun _ => rfl, rfl, rfl, rfl, rfl, rfl⟩, rfl⟩
      · obtain ⟨_, -, h⟩ := bind_eq_ok.mp h
        split at h
        · exact txn_of_pure h ⟨⟨fun _ => rfl, rfl, rfl, rfl, rfl, rfl⟩, rfl⟩
        · split at h
          · exact txn_of_pure h ⟨⟨fun _ => rfl, rfl, rfl, rfl, rfl, rfl⟩, rfl⟩
          · split at h <;> exact txn_of_pure h ⟨⟨fun _ => rfl, rfl, rfl, rfl, rfl, rfl⟩, rfl⟩
    · exact txn_of_pure h ⟨⟨fun _ => rfl, rfl, rfl, rfl, rfl, rfl⟩, rfl⟩
  · exact txn_of_pure h ⟨⟨fun _ => rfl, rfl, rfl, rfl, rfl, rfl⟩, rfl⟩

theorem executionRun_bare (h : executionRunOperator db input phase world = .ok (txn, next)) :
    Bare txn := by
  unfold executionRunOperator at h
  split at h
  · refine txn_of_eq (Except.ok.inj h) ?_
    unfold executionRunLaunch
    split <;> exact ⟨⟨fun _ => rfl, rfl, rfl, rfl, rfl, rfl⟩, rfl⟩
  · refine txn_of_eq (Except.ok.inj h) ?_
    unfold executionRunPoll
    split
    · exact ⟨⟨fun _ => rfl, rfl, rfl, rfl, rfl, rfl⟩, rfl⟩
    · split <;> exact ⟨⟨fun _ => rfl, rfl, rfl, rfl, rfl, rfl⟩, rfl⟩
  · refine txn_of_eq (Except.ok.inj h) ?_
    unfold executionRunCheck
    split <;> exact ⟨⟨fun _ => rfl, rfl, rfl, rfl, rfl, rfl⟩, rfl⟩
  · obtain ⟨run, -, h⟩ := bind_eq_ok.mp h
    refine txn_of_pure h ?_
    unfold executionRunRecord
    split
    · exact ⟨⟨fun _ => rfl, rfl, rfl, rfl, rfl, rfl⟩, rfl⟩
    · exact ⟨⟨fun _ => rfl, rfl, rfl, rfl, rfl, rfl⟩, rfl⟩
    · dsimp only
      split <;> exact ⟨⟨fun _ => rfl, rfl, rfl, rfl, rfl, rfl⟩, rfl⟩
  · unfold executionRunStart at h
    split at h
    · obtain ⟨run, -, h⟩ := bind_eq_ok.mp h
      split at h <;> exact txn_of_pure h ⟨⟨fun _ => rfl, rfl, rfl, rfl, rfl, rfl⟩, rfl⟩
    · exact txn_of_pure h ⟨⟨fun _ => rfl, rfl, rfl, rfl, rfl, rfl⟩, rfl⟩

theorem executionCapture_bare (h : executionCaptureOperator db input world = .ok (txn, next)) :
    Bare txn := by
  unfold executionCaptureOperator at h
  split at h
  · obtain ⟨run, -, h⟩ := bind_eq_ok.mp h
    split at h
    · split at h <;> exact txn_of_pure h ⟨⟨fun _ => rfl, rfl, rfl, rfl, rfl, rfl⟩, rfl⟩
    · exact txn_of_pure h ⟨⟨fun _ => rfl, rfl, rfl, rfl, rfl, rfl⟩, rfl⟩
  · exact txn_of_pure h ⟨⟨fun _ => rfl, rfl, rfl, rfl, rfl, rfl⟩, rfl⟩

theorem verificationCheck_bare (h : verificationCheckOperator db input world = .ok (txn, next)) :
    Bare txn := by
  unfold verificationCheckOperator at h
  split at h
  · obtain ⟨run, -, h⟩ := bind_eq_ok.mp h
    split at h
    · split at h
      · exact txn_of_pure h ⟨⟨fun _ => rfl, rfl, rfl, rfl, rfl, rfl⟩, rfl⟩
      · split at h <;> exact txn_of_pure h ⟨⟨fun _ => rfl, rfl, rfl, rfl, rfl, rfl⟩, rfl⟩
    · exact txn_of_pure h ⟨⟨fun _ => rfl, rfl, rfl, rfl, rfl, rfl⟩, rfl⟩
  · exact txn_of_pure h ⟨⟨fun _ => rfl, rfl, rfl, rfl, rfl, rfl⟩, rfl⟩

theorem verificationPostmortem_bare
    (h : verificationPostmortemOperator db input world = .ok (txn, next)) : Bare txn := by
  unfold verificationPostmortemOperator at h
  split at h
  · obtain ⟨run, -, h⟩ := bind_eq_ok.mp h
    obtain ⟨report, -, h⟩ := bind_eq_ok.mp h
    exact txn_of_pure h ⟨⟨fun _ => rfl, rfl, rfl, rfl, rfl, rfl⟩, rfl⟩
  · exact txn_of_pure h ⟨⟨fun _ => rfl, rfl, rfl, rfl, rfl, rfl⟩, rfl⟩

theorem autoRemediate_plain (h : autoRemediateOperator db input world = .ok (txn, next)) :
    Plain txn := by
  cases autoRemediate_path h with
  | unnamed _ _ hstep | exhausted _ _ _ _ _ _ hstep | skipped _ _ _ _ _ _ hstep
  | unfixed _ _ _ _ _ _ hstep =>
    exact txn_of_eq hstep ⟨fun _ => rfl, rfl, rfl, rfl, rfl, rfl⟩
  | retried _ _ _ _ _ _ _ _ _ hstep =>
    refine txn_of_eq hstep ⟨fun _ => ?_, rfl, ?_, rfl, rfl, rfl⟩
    · dsimp only [succeedWith, retryTxn]
      split <;> rfl
    · dsimp only [succeedWith, retryTxn]
      split <;> rfl

theorem signalClassify_bare (h : signalClassifyOperator db input = .ok (txn, next)) :
    Bare txn := by
  unfold signalClassifyOperator at h
  split at h
  · obtain ⟨run, -, h⟩ := bind_eq_ok.mp h
    obtain ⟨spec, -, h⟩ := bind_eq_ok.mp h
    split at h
    · dsimp only at h
      split at h
      · split at h
        · obtain ⟨report, -, h⟩ := bind_eq_ok.mp h
          refine txn_of_pure h ⟨⟨fun _ => ?_, rfl, ?_, rfl, rfl, rfl⟩, rfl⟩
          · dsimp only [succeedWith]
            split <;> rfl
          · dsimp only [succeedWith]
            split <;> rfl
        · exact txn_of_pure h ⟨⟨fun _ => rfl, rfl, rfl, rfl, rfl, rfl⟩, rfl⟩
      · exact txn_of_pure h ⟨⟨fun _ => rfl, rfl, rfl, rfl, rfl, rfl⟩, rfl⟩
    · exact txn_of_pure h ⟨⟨fun _ => rfl, rfl, rfl, rfl, rfl, rfl⟩, rfl⟩
  · exact txn_of_pure h ⟨⟨fun _ => rfl, rfl, rfl, rfl, rfl, rfl⟩, rfl⟩

theorem recommend_bare (h : recommendOperator db input = .ok (txn, next)) : Bare txn := by
  unfold recommendOperator at h
  split at h
  · obtain ⟨run, -, h⟩ := bind_eq_ok.mp h
    obtain ⟨spec, -, h⟩ := bind_eq_ok.mp h
    obtain ⟨report, -, h⟩ := bind_eq_ok.mp h
    dsimp only at h
    split at h
    · refine txn_of_pure h ⟨⟨.append (fun _ => rfl) ?_, rfl, ?_, rfl, rfl, rfl⟩, rfl⟩
      · unfold loopStartedEvents
        split <;> exact fun _ => rfl
      · unfold loopStartedEvents
        dsimp only [succeedWith]
        split <;> rfl
    · exact txn_of_pure h ⟨⟨fun _ => rfl, rfl, rfl, rfl, rfl, rfl⟩, rfl⟩
  · exact txn_of_pure h ⟨⟨fun _ => rfl, rfl, rfl, rfl, rfl, rfl⟩, rfl⟩

theorem loopReport_bare (h : loopReportOperator db input phase world = .ok (txn, next)) :
    Bare txn := by
  unfold loopReportOperator at h
  split at h
  · exact txn_of_eq (Except.ok.inj h) ⟨⟨fun _ => rfl, rfl, rfl, rfl, rfl, rfl⟩, rfl⟩
  · unfold writeCompletionReport at h
    split at h
    · exact txn_of_eq (Except.ok.inj h) ⟨⟨fun _ => rfl, rfl, rfl, rfl, rfl, rfl⟩, rfl⟩
    · obtain ⟨_, -, h⟩ := bind_eq_ok.mp h
      exact txn_of_pure h ⟨⟨fun _ => rfl, rfl, rfl, rfl, rfl, rfl⟩, rfl⟩

theorem specEvent_move? (row : ExperimentSpec × Nat) (c : CycleId) :
    (specEvent db row).move? c = none := by
  unfold specEvent
  split <;> rfl

theorem specEvents_free (rows : List (ExperimentSpec × Nat)) (compiled rejected : Nat) :
    charges (rows.map (specEvent db) ++ [.compilationCompleted compiled rejected]) = [] := by
  rw [charges_append, charges, List.filterMap_map]
  refine List.append_eq_nil_iff.mpr ⟨List.filterMap_eq_nil_iff.mpr fun row _ => ?_, rfl⟩
  unfold specEvent
  dsimp only [Function.comp_apply]
  split <;> rfl

theorem compileSpecs_bare (h : compileSpecs db input world = .ok (txn, next)) :
    Bare { txn with cardStatuses := [], newSpecs := [] } := by
  cases compileSpecs_path h with
  | rejected error hreject =>
    obtain ⟨rfl, -⟩ := Prod.mk.inj hreject
    exact ⟨⟨fun _ => rfl, rfl, rfl, rfl, rfl, rfl⟩, rfl⟩
  | drafted _ _ _ _ _ _ _ _ hstep =>
    obtain ⟨rfl, -⟩ := Prod.mk.inj hstep
    exact ⟨⟨(still_map specEvent_move?).append fun _ => rfl, rfl, specEvents_free .., rfl, rfl, rfl⟩, rfl⟩

theorem relay_bare (h : relayOperator db input world = .ok (txn, next)) : Bare txn := by
  unfold relayOperator at h
  obtain ⟨_, -, h⟩ := bind_eq_ok.mp h
  exact txn_of_pure h ⟨⟨fun _ => rfl, rfl, rfl, rfl, rfl, rfl⟩, rfl⟩

theorem handler_bare (h : handler db input phase world = .ok (txn, next)) :
    Bare txn ∨ autoRemediateOperator db input world = .ok (txn, next) ∨
      input.jobType = .loopDecide ∧ loopDecideOperator db input world = .ok (txn, next) ∨
        (∃ specId, phase = .compiled specId ∧ input.jobType = .protocolCompile ∧
          prepareRun db input specId = .ok (txn, next)) ∨
        (∀ specId, phase ≠ .compiled specId) ∧ input.jobType = .protocolCompile ∧
          compileSpecs db input world = .ok (txn, next) := by
  unfold handler at h
  split at h
  · unfold protocolCompileOperator at h
    split at h
    · exact .inr (.inr (.inr (.inl ⟨_, rfl, ‹_›, h⟩)))
    · exact .inr (.inr (.inr (.inr ⟨‹_›, ‹_›, h⟩)))
  · exact .inl (executionSetup_bare h)
  · exact .inl (executionRun_bare h)
  · exact .inl (executionCapture_bare h)
  · exact .inl (verificationCheck_bare h)
  · exact .inl (verificationPostmortem_bare h)
  · exact .inr (.inl h)
  · exact .inl (signalClassify_bare h)
  · exact .inl (recommend_bare h)
  · exact .inr (.inr (.inl ⟨‹_›, h⟩))
  · exact .inl (loopReport_bare h)
  · exact .inl (relay_bare h)

theorem handler_plain (h : handler db input phase world = .ok (txn, next)) :
    Plain txn ∨
      input.jobType = .loopDecide ∧ loopDecideOperator db input world = .ok (txn, next) ∨
        (∃ specId, phase = .compiled specId ∧ input.jobType = .protocolCompile ∧
          prepareRun db input specId = .ok (txn, next)) ∨
        (∀ specId, phase ≠ .compiled specId) ∧ input.jobType = .protocolCompile ∧
          compileSpecs db input world = .ok (txn, next) := by
  rcases handler_bare h with hbare | hremediate | hother
  · exact .inl hbare.toPlain
  · exact .inl (autoRemediate_plain hremediate)
  · exact .inr hother

end Synthetos.Worker
