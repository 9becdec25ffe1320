import Synthetos.Lib.Transition
import Synthetos.Storage.Models
import Mathlib.Logic.Function.Basic

/-!
# Scheduling pattern decay

Every worker's periodic tick reads the state row of `decay_patterns`, decides whether the interval
has elapsed and commits the job with the row.  The jobs write the row too, when they finish.  A row
is read without a lock, and an insert fails where the row is there by then.
-/

namespace Synthetos.Worker.Periodic

open Lib Storage

/-- The row of `periodic_job_state` for `decay_patterns`. -/
structure PeriodicJobState where
  lastEnqueuedAt : Option Timestamp := none
  lastCompletedAt : Option Timestamp := none
  lastJobId : Option JobId := none
  deriving DecidableEq

/-- Where a worker's tick is. -/
inductive Tick where
  | idle
  | read (seen : Option PeriodicJobState)
  | due (seen : Option PeriodicJobState) (now : Timestamp)

/-- Where an execution of a decay job is. -/
inductive Touch where
  | idle
  | running (now : Timestamp)
  | read (now : Timestamp) (seen : Option PeriodicJobState)

structure System where
  row : Option PeriodicJobState := none
  ticks : WorkerId → Tick := fun _ => .idle
  touches : JobId → Touch := fun _ => .idle
  /-- The times of the jobs the ticks have enqueued. -/
  enqueued : List Timestamp := []

/-- A tick may be abandoned at any point; every worker has a clock of its own. -/
inductive Label where
  | readState (worker : WorkerId)
  | takeNow (worker : WorkerId) (now : Timestamp)
  | commitTick (worker : WorkerId)
  | abandon (worker : WorkerId)
  | startJob (job : JobId) (now : Timestamp)
  | readTouch (job : JobId)
  | commitTouch (job : JobId)

/-- The interval has elapsed since the last enqueue, if there was one. -/
def isDue (interval : Nat) (state : Option PeriodicJobState) (now : Timestamp) : Bool :=
  match state.bind PeriodicJobState.lastEnqueuedAt with
  | none => true
  | some last => decide (last + interval ≤ now)

/-- What `_maybe_enqueue_decay` commits: nothing where its insert conflicts, or the row is gone. -/
def enqueueDecay (sys : System) (seen : Option PeriodicJobState) (now : Timestamp) (job : JobId) :
    System :=
  match seen, sys.row with
  | none, none =>
    { sys with
      row := some { lastEnqueuedAt := some now, lastJobId := some job }
      enqueued := sys.enqueued ++ [now] }
  | some _, some row =>
    { sys with
      row := some { row with lastEnqueuedAt := some now, lastJobId := some job }
      enqueued := sys.enqueued ++ [now] }
  | _, _ => sys

/-- What `_touch_periodic_state` commits. -/
def touchPeriodicState (sys : System) (seen : Option PeriodicJobState) (now : Timestamp)
    (job : JobId) : System :=
  match seen, sys.row with
  | none, none => { sys with row := some { lastCompletedAt := some now, lastJobId := some job } }
  | some _, some row =>
    { sys with row := some { row with lastCompletedAt := some now, lastJobId := some job } }
  | _, _ => sys

def System.setTick (sys : System) (worker : WorkerId) (tick : Tick) : System :=
  { sys with ticks := Function.update sys.ticks worker tick }

def System.setTouch (sys : System) (job : JobId) (touch : Touch) : System :=
  { sys with touches := Function.update sys.touches job touch }

def step (interval : Nat) (sys : System) : Label → Option System
  | .readState worker =>
    match sys.ticks worker with
    | .idle => some (sys.setTick worker (.read sys.row))
    | _ => none
  | .takeNow worker now =>
    match sys.ticks worker with
    | .read seen =>
      some (sys.setTick worker (if isDue interval seen now then .due seen now else .idle))
    | _ => none
  | .commitTick worker =>
    match sys.ticks worker with
    | .due seen now =>
      some ((enqueueDecay sys seen now sys.enqueued.length).setTick worker .idle)
    | _ => none
  | .abandon worker => some (sys.setTick worker .idle)
  | .startJob job now =>
    match sys.touches job with
    | .idle => some (sys.setTouch job (.running now))
    | _ => none
  | .readTouch job =>
    match sys.touches job with
    | .running now => some (sys.setTouch job (.read now sys.row))
    | _ => none
  | .commitTouch job =>
    match sys.touches job with
    | .read now seen => some ((touchPeriodicState sys seen now job).setTouch job .idle)
    | _ => none

/-- No tick and no job is under way, and nothing has been enqueued yet. -/
structure Initial (sys : System) : Prop where
  ticks : ∀ worker, sys.ticks worker = .idle
  touches : ∀ job, sys.touches job = .idle
  enqueued : sys.enqueued = []

/-- Any two of the jobs are at least the interval apart. -/
def OncePerInterval (interval : Nat) (sys : System) : Prop :=
  sys.enqueued.Pairwise fun earlier later => earlier + interval ≤ later

/-- A tick that updates the row finds it still due when it commits. -/
def stillDue (interval : Nat) (sys : System) : Label → Bool
  | .commitTick worker =>
    match sys.ticks worker with
    | .due (some _) now => isDue interval sys.row now
    | _ => true
  | _ => true

variable {interval : Nat} {sys sys' : System} {l : Label} {state : PeriodicJobState}
  {now : Timestamp}

/-- The row shows the latest of the jobs, and they are apart. -/
structure Recorded (interval : Nat) (sys : System) : Prop where
  apart : OncePerInterval interval sys
  latest : ∀ time ∈ sys.enqueued, ∃ row last, sys.row = some row ∧
    row.lastEnqueuedAt = some last ∧ time ≤ last

theorem Recorded.of_same (h : Recorded interval sys) (hrow : sys'.row = sys.row)
    (henqueued : sys'.enqueued = sys.enqueued) : Recorded interval sys' := by
  constructor
  · rw [OncePerInterval, henqueued]
    exact h.apart
  · rw [henqueued, hrow]
    exact h.latest

theorem Recorded.elapsed (h : Recorded interval sys) (hdue : isDue interval sys.row now = true) :
    ∀ time ∈ sys.enqueued, time + interval ≤ now := by
  intro time htime
  obtain ⟨row, last, hrow, hlast, hle⟩ := h.latest time htime
  have hbound : last + interval ≤ now := by simpa [isDue, hrow, hlast] using hdue
  exact Nat.le_trans (Nat.add_le_add_right hle interval) hbound

theorem Recorded.snoc (h : Recorded interval sys) (hdue : isDue interval sys.row now = true)
    (henqueued : sys'.enqueued = sys.enqueued ++ [now]) (hrow : sys'.row = some state)
    (hlast : state.lastEnqueuedAt = some now) : Recorded interval sys' := by
  have helapsed := h.elapsed hdue
  constructor
  · rw [OncePerInterval, henqueued, List.pairwise_append]
    refine ⟨h.apart, List.pairwise_singleton _ _, ?_⟩
    intro time htime later hlater
    rw [List.mem_singleton.mp hlater]
    exact helapsed time htime
  · rw [henqueued]
    intro time htime
    refine ⟨state, now, hrow, hlast, ?_⟩
    rcases List.mem_append.mp htime with hold | hnew
    · exact Nat.le_trans (Nat.le_add_right time interval) (helapsed time hold)
    · rw [List.mem_singleton.mp hnew]

theorem enqueueDecay_recorded (h : Recorded interval sys) (seen : Option PeriodicJobState)
    (job : JobId) (hdue : seen.isSome = true → isDue interval sys.row now = true) :
    Recorded interval (enqueueDecay sys seen now job) := by
  unfold enqueueDecay
  split
  · rename_i hrow
    exact h.snoc (by rw [hrow]; rfl) rfl rfl rfl
  · exact h.snoc (hdue rfl) rfl rfl rfl
  · exact h

theorem touchPeriodicState_recorded (h : Recorded interval sys) (seen : Option PeriodicJobState)
    (now : Timestamp) (job : JobId) : Recorded interval (touchPeriodicState sys seen now job) := by
  unfold touchPeriodicState
  split
  · rename_i hrow
    refine ⟨h.apart, fun time htime => ?_⟩
    obtain ⟨row, last, hsome, -⟩ := h.latest time htime
    rw [hrow] at hsome
    cases hsome
  · rename_i row hrow
    refine ⟨h.apart, fun time htime => ?_⟩
    obtain ⟨row', last, hsome, hlast, hle⟩ := h.latest time htime
    obtain rfl := Option.some.inj (hrow.symm.trans hsome)
    exact ⟨_, last, rfl, hlast, hle⟩
  · exact h

theorem step_recorded (h : Recorded interval sys) (hdue : stillDue interval sys l = true)
    (hstep : step interval sys l = some sys') : Recorded interval sys' := by
  cases l with
  | commitTick worker =>
    simp only [step] at hstep
    split at hstep
    · rename_i seen now htick
      cases hstep
      refine (enqueueDecay_recorded h seen sys.enqueued.length ?_).of_same rfl rfl
      intro hsome
      obtain ⟨state, rfl⟩ := Option.isSome_iff_exists.mp hsome
      simpa only [stillDue, htick] using hdue
    · cases hstep
  | commitTouch job =>
    simp only [step] at hstep
    split at hstep
    · rename_i now seen _
      cases hstep
      exact (touchPeriodicState_recorded h seen now job).of_same rfl rfl
    · cases hstep
  | abandon worker =>
    cases hstep
    exact h.of_same rfl rfl
  | _ =>
    simp only [step] at hstep
    split at hstep
    · cases hstep
      exact h.of_same rfl rfl
    · cases hstep

/-- Where every tick that updates the row finds it still due, the jobs are an interval apart. -/
theorem decay_once_per_interval {start : System} (hstart : Initial start)
    (h : Reaches (fun s l => stillDue interval s l = true) (step interval) start sys) :
    OncePerInterval interval sys := by
  have hrecorded : Recorded interval start := by
    constructor
    · rw [OncePerInterval, hstart.enqueued]
      exact List.Pairwise.nil
    · rw [hstart.enqueued]
      simp
  exact (h.invariant (Recorded interval) (fun _ _ _ hinv hdue hstep =>
    step_recorded hinv hdue hstep) hrecorded).apart

/-- Two ticks of one worker, the second as soon as the interval has elapsed, with a decay job
between them. -/
theorem decay_once_per_interval_elapsed : ∃ sys, sys.enqueued = [3, 13] ∧ OncePerInterval 10 sys := by
  have htest : (perform (stillDue 10) (step 10) {}
      [.readState 0, .takeNow 0 3, .commitTick 0, .startJob 0 5, .readTouch 0, .commitTouch 0,
        .readState 0, .takeNow 0 13, .commitTick 0]).any
      (fun sys => sys.enqueued == [3, 13]) = true := by
    decide +kernel
  obtain ⟨sys, hrun, -, htimes⟩ : ∃ sys, Reaches (fun s l => stillDue 10 s l = true) (step 10) {} sys ∧
      True ∧ (sys.enqueued == [3, 13]) = true :=
    Reaches.of_perform_any (fun _ => True) (fun _ _ _ h => h) (fun _ _ _ _ _ _ => trivial) trivial
      htest
  exact ⟨sys, beq_iff_eq.mp htimes,
    decay_once_per_interval ⟨fun _ => rfl, fun _ => rfl, rfl⟩ hrun⟩

/-- Two workers read the row of the interval before, and both enqueue. -/
theorem two_ticks_enqueue : ¬ ∀ (interval : Nat) (start sys : System), Initial start →
    Reaches Unguarded (step interval) start sys → OncePerInterval interval sys := by
  intro hclaim
  have htest : (perform (fun _ _ => true) (step 10) { row := some { lastEnqueuedAt := some 0 } }
      [.readState 0, .readState 1, .takeNow 0 20, .takeNow 1 20, .commitTick 0, .commitTick 1]).any
      (fun sys => sys.enqueued == [20, 20]) = true := by
    decide +kernel
  obtain ⟨sys, hrun, htimes⟩ := Reaches.of_perform_all htest
  have hapart := hclaim 10 _ sys ⟨fun _ => rfl, fun _ => rfl, rfl⟩ hrun
  rw [OncePerInterval, beq_iff_eq.mp htimes] at hapart
  exact absurd hapart (by decide)

end Synthetos.Worker.Periodic
