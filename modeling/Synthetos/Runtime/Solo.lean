import Synthetos.Runtime.Processes

/-!
# Executions of one worker and one client

Worker 0 and request 0 alone take steps, one while the other is idle.  Such an execution meets
every condition on what the other processes are about to do.
-/

namespace Synthetos

open Synthetos.Core Storage Lib Worker Api

namespace Runtime

def workerIdle (sys : Runtime) : Bool :=
  match sys.workers 0 with
  | .idle => true
  | _ => false

def requestIdle (sys : Runtime) : Bool :=
  match sys.requests 0 with
  | .idle => true
  | _ => false

/-- Any label of worker 0 and of request 0. -/
def single (_ : Runtime) (l : Label) : Bool :=
  (l.worker? == none || l.worker? == some 0) && (l.request? == none || l.request? == some 0)

/-- A label of worker 0 or of request 0 while the other is idle. -/
def alone (sys : Runtime) (l : Label) : Bool :=
  sys.single l && (l.worker? == none || sys.requestIdle) && (l.request? == none || sys.workerIdle)

/-- Only worker 0 and request 0 have left their idle state. -/
structure Solo (sys : Runtime) : Prop where
  workers : ∀ w, w ≠ 0 → sys.workers w = .idle
  requests : ∀ q, q ≠ 0 → sys.requests q = .idle

theorem Solo.of_initial {sys : Runtime} (h : sys.Initial) : sys.Solo :=
  ⟨fun w _ => h.workers w, fun q _ => h.requests q⟩

theorem Solo.step {settings : Settings} {sys sys' : Runtime} {l : Label} (hsolo : sys.Solo)
    (hsingle : sys.single l = true) (h : Runtime.step settings sys l = some sys') : sys'.Solo := by
  simp only [single, Bool.and_eq_true, Bool.or_eq_true, beq_iff_eq] at hsingle
  obtain ⟨hworker, hrequest⟩ := hsingle
  constructor
  · intro w hw
    rw [step_other_worker (step_cases h)]
    · exact hsolo.workers w hw
    · rintro hl
      rcases hworker with hworker | hworker
      · exact absurd (hl.symm.trans hworker) fun h => by cases h
      · exact hw (Option.some.inj (hl.symm.trans hworker))
  · intro q hq
    rw [step_other_request (step_cases h)]
    · exact hsolo.requests q hq
    · rintro hl
      rcases hrequest with hrequest | hrequest
      · exact absurd (hl.symm.trans hrequest) fun h => by cases h
      · exact hq (Option.some.inj (hl.symm.trans hrequest))

theorem single_of_alone {sys : Runtime} {l : Label} (h : sys.alone l = true) :
    sys.single l = true := by
  simp only [alone, Bool.and_eq_true] at h
  exact h.1.1

theorem Solo.others {sys : Runtime} {l : Label} (hsolo : sys.Solo) (h : sys.alone l = true) :
    (l.worker? ≠ none ∨ l.request? ≠ none) →
    (∀ w, l.worker? ≠ some w → sys.workers w = .idle) ∧
      ∀ q, l.request? ≠ some q → sys.requests q = .idle := by
  simp only [alone, single, Bool.and_eq_true, Bool.or_eq_true, beq_iff_eq] at h
  obtain ⟨⟨⟨hworker, hrequest⟩, hrequestIdle⟩, hworkerIdle⟩ := h
  intro hacts
  have hzero : (l.worker? = none → sys.workers 0 = .idle) ∧
      (l.request? = none → sys.requests 0 = .idle) := by
    constructor
    · intro hnone
      rcases hworkerIdle with hother | hidle
      · rcases hacts with hacts | hacts
        · exact absurd hnone hacts
        · exact absurd hother hacts
      · unfold workerIdle at hidle
        split at hidle
        · assumption
        · exact absurd hidle fun h => by cases h
    · intro hnone
      rcases hrequestIdle with hother | hidle
      · rcases hacts with hacts | hacts
        · exact absurd hother hacts
        · exact absurd hnone hacts
      · unfold requestIdle at hidle
        split at hidle
        · assumption
        · exact absurd hidle fun h => by cases h
  constructor
  · intro w hw
    by_cases hzero' : w = 0
    · subst hzero'
      rcases hworker with hnone | hsome
      · exact hzero.1 hnone
      · exact absurd hsome hw
    · exact hsolo.workers w hzero'
  · intro q hq
    by_cases hzero' : q = 0
    · subst hzero'
      rcases hrequest with hnone | hsome
      · exact hzero.2 hnone
      · exact absurd hsome hq
    · exact hsolo.requests q hzero'

variable {settings : Settings} {start : Runtime} {labels : List Label} {test : Runtime → Bool}

def anyone (_ : Runtime) (_ : Label) : Bool := true

/-- Any execution at all. -/
theorem run_of_anyone (h : (perform anyone (step settings) start labels).any test = true) :
    ∃ sys, Reaches Unguarded (step settings) start sys ∧ test sys = true :=
  Reaches.of_perform_all h

/-- An execution in which worker 0 and request 0 do not overlap. -/
theorem run_of_alone {ok : Runtime → Label → Prop} (hstart : start.Solo)
    (hok : ∀ sys l, sys.Solo → sys.alone l = true → ok sys l)
    (h : (perform alone (step settings) start labels).any test = true) :
    ∃ sys, Reaches ok (step settings) start sys ∧ sys.Solo ∧ test sys = true :=
  Reaches.of_perform_any Solo hok (fun _ _ _ hsolo hone => hsolo.step (single_of_alone hone)) hstart h

/-- Only workers 0 and 1 have left their idle state. -/
def PairOnly (sys : Runtime) : Prop := ∀ w, 2 ≤ w → sys.workers w = .idle

theorem PairOnly.step {sys' : Runtime} {l : Label} (hpair : start.PairOnly)
    (hl : l.worker?.all (· < 2) = true) (h : Runtime.step settings start l = some sys') :
    sys'.PairOnly := by
  intro w hw
  rw [step_other_worker (step_cases h)]
  · exact hpair w hw
  · intro hsome
    rw [hsome, Option.all_some, decide_eq_true_eq] at hl
    exact absurd hl (Nat.not_lt.mpr hw)

/-- Worker 0 executes the next job, with one answer of the world for each of its transactions. -/
def work (worlds : List External) : List Label :=
  [.claim 0 [], .start 0] ++ worlds.map (.exec 0) ++
    [.readOutcome 0, .readTarget 0, .writeOutcome 0]

/-- One cycle in the status `created` and nothing else. -/
def newCycle : Runtime := { db := { cycles := [{ charterId := 0 }] } }

theorem newCycle_initial : newCycle.Initial where
  workers _ := rfl
  requests _ := rfl
  jobs := rfl
  runs := rfl
  reports := rfl
  decisions := rfl
  recommendations := rfl
  budgets := rfl
  events := rfl
  cycles := by
    intro cycle h
    obtain rfl := List.mem_singleton.mp h
    rfl

def compiledSpec : ExperimentSpec :=
  { hypothesisCardId := 0, charterId := 0, cycleId := 0, title := "baseline", status := .validated
    metrics := [[("name", .str "accuracy"), ("direction", .str "maximize")]]
    codePlan := some [("entry_point", .str "main.py"), ("files", .obj [("main.py", .str "")])] }

/-- One cycle in `protocol_ready` with a hypothesis session, a compiled card and its spec. -/
def compiledCycle : Runtime :=
  { db := {
      cycles := [{ charterId := 0, status := .protocolReady }]
      sessions := [{ charterId := 0, cycleId := 0 }]
      cards := [{ hypothesisSessionId := 0, charterId := 0, cycleId := 0, status := .compiled }]
      specs := [compiledSpec] } }

theorem compiledCycle_initial : compiledCycle.Initial where
  workers _ := rfl
  requests _ := rfl
  jobs := rfl
  runs := rfl
  reports := rfl
  decisions := rfl
  recommendations := rfl
  budgets := rfl
  events := rfl
  cycles := by
    intro cycle h
    obtain rfl := List.mem_singleton.mp h
    rfl

/-- One cycle in `protocol_ready` with two compiled cards and a spec of each. -/
def twoSpecs : Runtime :=
  { db := { compiledCycle.db with
      cards := compiledCycle.db.cards ++ compiledCycle.db.cards
      specs := [compiledSpec, { compiledSpec with hypothesisCardId := 1 }] } }

theorem twoSpecs_initial : twoSpecs.Initial where
  workers _ := rfl
  requests _ := rfl
  jobs := rfl
  runs := rfl
  reports := rfl
  decisions := rfl
  recommendations := rfl
  budgets := rfl
  events := rfl
  cycles := compiledCycle_initial.cycles

end Runtime

end Synthetos
