import Synthetos.Autonomy.Repetition
import Synthetos.Loop.Lifecycle

/-!
# Repeated experiments

The specs are observed together with the statuses they were filed with and with the specs a run
was started of, and repetition detection is compared with the experiments a cycle has run.
-/

namespace Synthetos.Loop

open Synthetos.Core Storage Lib Worker Api Autonomy

structure Watched where
  sys : Runtime
  /-- The status each spec was filed with. -/
  filed : SpecId → Option SpecStatus
  /-- The specs `start_run` was answered for. -/
  started : List SpecId

def startedBy (sys : Runtime) : Label → Option SpecId
  | .respond q =>
    match sys.requests q with
    | .opened (.startRun spec) seen =>
      if (startRun seen sys.db spec).isOk then some spec else none
    | _ => none
  | _ => none

def statusOf (db : Db) (s : SpecId) : Option SpecStatus := db.specs[s]?.map ExperimentSpec.status

def Watched.step (settings : Settings) (o : Watched) (l : Label) : Option Watched :=
  (Runtime.step settings o.sys l).map fun sys =>
    { sys
      filed := fun s => (o.filed s).or (statusOf sys.db s)
      started := o.started ++ (startedBy o.sys l).toList }

def watch (sys : Runtime) : Watched := ⟨sys, statusOf sys.db, []⟩

/-- Another spec of the cycle with the same fingerprint. -/
structure Twin (e : Encoder) (db : Db) (c : CycleId) (currentId : SpecId)
    (current : ExperimentSpec) (s : SpecId) : Prop where
  other : s ≠ currentId
  row : ∃ spec, db.specs[s]? = some spec ∧ spec.cycleId = c ∧
    fingerprint e (.ofSpec current) = fingerprint e (.ofSpec spec)

def HasRun (db : Db) (s : SpecId) : Prop := ∃ run ∈ db.runs, run.experimentSpecId = s

def ReportsExact (e : Encoder) (db : Db) (c : CycleId) (currentId : SpecId)
    (current : ExperimentSpec) : Prop :=
  ∃ prior, detectRepetition e db c currentId current = .ok ⟨true, false, some prior, some .exact⟩

/-- Where another spec with the fingerprint has been run, an exact duplicate is reported. -/
def CoversRuns (e : Encoder) (db : Db) (c : CycleId) (currentId : SpecId)
    (current : ExperimentSpec) : Prop :=
  ∀ s, Twin e db c currentId current s → HasRun db s → ReportsExact e db c currentId current

/-- A spec has the status it was filed with until a run of it is started. -/
structure Tracks (o : Watched) : Prop where
  filed : ∀ s status, o.filed s = some status →
    statusOf o.sys.db s = some (if s ∈ o.started then .executing else status)
  unfiled : ∀ s, o.filed s = none → statusOf o.sys.db s = none
  known : ∀ s ∈ o.started, ∃ status, o.filed s = some status

variable {settings : Settings} {sys sys' : Runtime} {o o' : Watched} {l : Label} {e : Encoder}
  {db : Db} {c : CycleId} {s currentId : SpecId} {current : ExperimentSpec}

/-! ### Statuses -/

theorem startRun_row {seen new : Db} {spec : SpecId} (h : startRun seen db spec = .ok new) :
    ∃ row, seen.specs[spec]? = some row := by
  unfold startRun at h
  split at h
  · exact absurd h nofun
  · exact ⟨_, ‹_›⟩

theorem startedBy_respond {q : Nat} {body : Request} {seen : Db}
    (hpc : sys.requests q = .opened body seen) (hbody : ∀ spec, body ≠ .startRun spec) :
    startedBy sys (.respond q) = none := by
  simp only [startedBy, hpc]
  cases body with
  | startRun spec => exact absurd rfl (hbody spec)
  | _ => rfl

theorem startedBy_startRun {q : Nat} {spec : SpecId} {seen : Db}
    (hpc : sys.requests q = .opened (.startRun spec) seen) : startedBy sys (.respond q) =
      if (startRun seen sys.db spec).isOk then some spec else none := by
  simp only [startedBy, hpc]

theorem step_specs (hpast : ReadsPast sys) (htaken : Runtime.step settings sys l = some sys') :
    (startedBy sys l = none ∧ ∃ born, sys'.db.specs = sys.db.specs ++ born) ∨
      ∃ spec row, startedBy sys l = some spec ∧ sys.db.specs[spec]? = some row ∧
        sys'.db.specs = Table.update sys.db.specs spec fun old =>
          { old with status := .executing } := by
  have kept (hspecs : sys'.db.specs = sys.db.specs) :
      ∃ born, sys'.db.specs = sys.db.specs ++ born := ⟨[], by rw [hspecs, List.append_nil]⟩
  by_cases hl : ∃ q, l = .respond q
  case neg =>
    left
    constructor
    · cases l with
      | respond q => exact absurd ⟨q, rfl⟩ hl
      | _ => rfl
    · obtain ⟨-, hborn | ⟨q, -, hq, -⟩⟩ := step_designs (step_cases htaken)
      · exact hborn
      · exact absurd ⟨q, hq⟩ hl
  obtain ⟨q, rfl⟩ := hl
  have htaken : sys.respond q = some sys' := htaken
  unfold Runtime.respond at htaken
  split at htaken
  · exact absurd htaken nofun
  · rename_i body seen hpc
    split at htaken
    · rename_i new hanswer
      obtain rfl := Option.some.inj htaken
      obtain ⟨-, ⟨hbody, hspecs⟩ | ⟨spec, rfl, hspecs⟩⟩ := respond_designs (respond_cases hanswer)
      · exact .inl ⟨startedBy_respond hpc hbody, kept hspecs⟩
      · have hanswer : startRun seen sys.db spec = .ok new := hanswer
        obtain ⟨row, hrow⟩ := startRun_row hanswer
        obtain ⟨now, hnow, -⟩ := (hpast q _ seen hpc).specs spec row hrow
        refine .inr ⟨spec, now, ?_, hnow, hspecs⟩
        rw [startedBy_startRun hpc, hanswer]
        rfl
    · rename_i error hanswer
      obtain rfl := Option.some.inj htaken
      refine .inl ⟨?_, kept rfl⟩
      cases body with
      | startRun spec =>
        have hanswer : startRun seen sys.db spec = .error error := hanswer
        rw [startedBy_startRun hpc, hanswer]
        rfl
      | _ => exact startedBy_respond hpc nofun

theorem statusOf_append {old new : Db} {born : List ExperimentSpec}
    (h : new.specs = old.specs ++ born) {status : SpecStatus} (hs : statusOf old s = some status) :
    statusOf new s = some status := by
  obtain ⟨spec, hspec, rfl⟩ := Option.map_eq_some_iff.mp hs
  rw [statusOf, h, Table.getElem?_append_old hspec]
  rfl

theorem statusOf_update {old new : Db} {spec : SpecId}
    (h : new.specs = Table.update old.specs spec fun row => { row with status := .executing }) :
    statusOf new s =
      if spec = s then (statusOf old s).map fun _ => .executing else statusOf old s := by
  rw [statusOf, statusOf, h, Table.getElem?_update]
  split
  · rw [Option.map_map, Option.map_map]
    rfl
  · rfl

theorem watched_step (h : o.step settings l = some o') :
    ∃ sys, Runtime.step settings o.sys l = some sys ∧ o' =
      { sys, filed := fun s => (o.filed s).or (statusOf sys.db s)
        started := o.started ++ (startedBy o.sys l).toList } := by
  obtain ⟨sys, hsys, rfl⟩ := Option.map_eq_some_iff.mp h
  exact ⟨sys, hsys, rfl⟩

theorem tracks_watch (sys : Runtime) : Tracks (watch sys) where
  filed s status h := by
    have hempty : s ∉ (watch sys).started := List.not_mem_nil
    rw [if_neg hempty]
    exact h
  unfiled s h := h
  known s h := absurd h List.not_mem_nil

theorem tracks_filing (htracks : Tracks o) {born : List ExperimentSpec}
    (hborn : sys.db.specs = o.sys.db.specs ++ born) :
    Tracks { sys, filed := fun s => (o.filed s).or (statusOf sys.db s), started := o.started } where
  filed s status hs := by
    cases hfiled : o.filed s with
    | some old =>
      dsimp only at hs
      rw [hfiled, Option.some_or] at hs
      obtain rfl := Option.some.inj hs
      exact statusOf_append hborn (htracks.filed s old hfiled)
    | none =>
      have hfresh : s ∉ o.started := by
        intro hmem
        obtain ⟨old, hold⟩ := htracks.known s hmem
        exact absurd (hfiled.symm.trans hold) nofun
      dsimp only at hs
      rw [hfiled, Option.none_or] at hs
      rw [if_neg hfresh]
      exact hs
  unfiled s hs := (Option.or_eq_none_iff.mp hs).2
  known s hmem := by
    obtain ⟨status, hstatus⟩ := htracks.known s hmem
    exact ⟨status, by dsimp only; rw [hstatus, Option.some_or]⟩

theorem tracks_marking (htracks : Tracks o) {spec : SpecId} {row : ExperimentSpec}
    (hrow : o.sys.db.specs[spec]? = some row)
    (hupdate : sys.db.specs = Table.update o.sys.db.specs spec fun old =>
      { old with status := .executing }) :
    Tracks { sys, filed := fun s => (o.filed s).or (statusOf sys.db s)
             started := o.started ++ [spec] } := by
  have hkept (s : SpecId) : (o.filed s).or (statusOf sys.db s) = o.filed s := by
    cases hfiled : o.filed s with
    | some old => rfl
    | none =>
      rw [Option.none_or, statusOf_update hupdate, htracks.unfiled s hfiled]
      split <;> rfl
  have hfiled (s : SpecId) : ∀ status, o.filed s = some status →
      statusOf sys.db s = some (if s ∈ o.started ++ [spec] then .executing else status) := by
    intro status hs
    rw [statusOf_update hupdate, htracks.filed s status hs]
    simp only [List.mem_append, List.mem_singleton, eq_comm (a := spec)]
    by_cases hspec : s = spec
    · simp [hspec]
    · simp [hspec]
  refine ⟨fun s status hs => hfiled s status ((hkept s).symm.trans hs), fun s hs => ?_, fun s hmem => ?_⟩
  · exact (Option.or_eq_none_iff.mp hs).2
  · dsimp only
    rw [hkept]
    rcases List.mem_append.mp hmem with hmem | hmem
    · exact htracks.known s hmem
    · obtain rfl := List.mem_singleton.mp hmem
      cases hs : o.filed s with
      | some status => exact ⟨status, rfl⟩
      | none =>
        have hnone := htracks.unfiled s hs
        rw [statusOf, hrow] at hnone
        exact absurd hnone nofun

theorem tracks_step (hpast : ReadsPast o.sys) (htracks : Tracks o)
    (h : o.step settings l = some o') : Tracks o' := by
  obtain ⟨sys, htaken, rfl⟩ := watched_step h
  obtain ⟨hnone, born, hborn⟩ | ⟨spec, row, hstart, hrow, hupdate⟩ := step_specs hpast htaken
  · rw [hnone, Option.toList_none, List.append_nil]
    exact tracks_filing htracks hborn
  · rw [hstart]
    exact tracks_marking htracks hrow hupdate

theorem tracks_run (hstart : sys.Initial)
    (hrun : Reaches Unguarded (Watched.step settings) (watch sys) o) : Tracks o := by
  have hpast : ReadsPast sys := fun q body seen hpc => absurd ((hstart.requests q).symm.trans hpc) nofun
  refine (hrun.invariant (fun o => ReadsPast o.sys ∧ Tracks o) ?_ ⟨hpast, tracks_watch sys⟩).2
  rintro o l o' ⟨hpast, htracks⟩ - htaken
  obtain ⟨sys', hsys, rfl⟩ := watched_step htaken
  exact ⟨readsPast_step hpast (step_cases hsys), tracks_step hpast htracks htaken⟩

/-! ### Detection -/

theorem mem_priorRows {spec : ExperimentSpec} : (spec, s) ∈ priorRows db c currentId ↔
    db.specs[s]? = some spec ∧ spec.cycleId = c ∧ s ≠ currentId ∧ spec.status = .validated := by
  rw [priorRows, List.mem_filter, List.mem_zipIdx_iff_getElem?]
  simp [and_assoc]

theorem detectNearDuplicate_inexact {rows : List (ExperimentSpec × SpecId)}
    {result : RepetitionResult} (h : detectNearDuplicate e current rows = .ok result) :
    result.isDuplicate = false := by
  induction rows with
  | nil =>
    obtain rfl := Except.ok.inj h
    rfl
  | cons row rest ih =>
    unfold detectNearDuplicate at h
    split at h
    · obtain ⟨within, -, h⟩ := bind_eq_ok.mp h
      split at h
      · obtain rfl := pure_eq_ok.mp h
        rfl
      · exact ih h
    · exact ih h

theorem reportsExact_iff : ReportsExact e db c currentId current ↔
    ∃ s, Twin e db c currentId current s ∧ statusOf db s = some .validated := by
  unfold ReportsExact detectRepetition
  dsimp only
  constructor
  · rintro ⟨prior, h⟩
    split at h
    · rename_i row hfind
      obtain ⟨spec, s⟩ := row
      obtain ⟨hspec, hcycle, hother, hstatus⟩ := mem_priorRows.mp (List.mem_of_find?_eq_some hfind)
      have hsame := List.find?_some hfind
      refine ⟨s, ⟨hother, spec, hspec, hcycle, beq_iff_eq.mp hsame⟩, ?_⟩
      rw [statusOf, hspec, Option.map_some, hstatus]
    · exact absurd (detectNearDuplicate_inexact h) nofun
  · rintro ⟨s, ⟨hother, spec, hspec, hcycle, hsame⟩, hstatus⟩
    rw [statusOf, hspec, Option.map_some] at hstatus
    have hmem : (spec, s) ∈ priorRows db c currentId :=
      mem_priorRows.mpr ⟨hspec, hcycle, hother, Option.some.inj hstatus⟩
    split
    · exact ⟨_, rfl⟩
    · rename_i hnone
      exact absurd (beq_iff_eq.mpr hsame) (List.find?_eq_none.mp hnone _ hmem)

theorem isDuplicate_iff (he : e.Lawful) :
    isDuplicate db c currentId current = true ↔ ReportsExact e db c currentId current := by
  have hsame (prior : ExperimentSpec) : (fingerprintSpec prior).same (fingerprintSpec current) = true ↔
      fingerprint e (.ofSpec current) = fingerprint e (.ofSpec prior) := by
    rw [eq_comm (a := fingerprint e _), fingerprint_eq_iff he, ← agree_iff]
    exact Json.same_iff
  simp only [reportsExact_iff, isDuplicate, priorSpecs, List.any_eq_true, hsame]
  constructor
  · rintro ⟨prior, hprior, heq⟩
    obtain ⟨⟨prior, s⟩, hrow, rfl⟩ := List.mem_map.mp hprior
    obtain ⟨hspec, hcycle, hother, hstatus⟩ := mem_priorRows.mp hrow
    refine ⟨s, ⟨hother, prior, hspec, hcycle, heq⟩, ?_⟩
    rw [statusOf, hspec, Option.map_some, hstatus]
  · rintro ⟨s, ⟨hother, spec, hspec, hcycle, heq⟩, hstatus⟩
    rw [statusOf, hspec, Option.map_some] at hstatus
    exact ⟨spec, List.mem_map.mpr ⟨(spec, s),
      mem_priorRows.mpr ⟨hspec, hcycle, hother, Option.some.inj hstatus⟩, rfl⟩, heq⟩

/-- In every state of a cycle's history, a twin that has been run is reported exactly where some
twin was filed validated and never had a run started of it. -/
theorem covers_runs_iff {start : Runtime} (hstart : start.Initial)
    (hrun : Reaches Unguarded (Watched.step settings) (watch start) o) (e : Encoder) (c : CycleId)
    (currentId : SpecId) (current : ExperimentSpec) :
    CoversRuns e o.sys.db c currentId current ↔
      ∀ s, Twin e o.sys.db c currentId current s → HasRun o.sys.db s →
        ∃ t, Twin e o.sys.db c currentId current t ∧ o.filed t = some .validated ∧
          t ∉ o.started := by
  have htracks := tracks_run hstart hrun
  have hstill (t : SpecId) : statusOf o.sys.db t = some .validated ↔
      o.filed t = some .validated ∧ t ∉ o.started := by
    constructor
    · intro ht
      cases hfiled : o.filed t with
      | none => exact absurd ((htracks.unfiled t hfiled).symm.trans ht) nofun
      | some status =>
        have hstatus := (htracks.filed t status hfiled).symm.trans ht
        split at hstatus
        · exact absurd hstatus nofun
        · exact ⟨hstatus, ‹_›⟩
    · rintro ⟨hfiled, hfresh⟩
      rw [htracks.filed t _ hfiled, if_neg hfresh]
  simp only [CoversRuns, reportsExact_iff, hstill]

/-! ### Copies of one spec -/

open Synthetos.Runtime (work)

/-- A cycle with `n` copies of its spec. -/
def copiesCycle (gates : CheckpointGateConfig) (n : Nat) : Runtime :=
  { gatedCycle gates with db := { (gatedCycle gates).db with
      specs := (gatedCycle gates).db.specs.flatMap (List.replicate n) } }

theorem copiesCycle_initial (gates : CheckpointGateConfig) (n : Nat) :
    (copiesCycle gates n).Initial :=
  let h := gatedCycle_initial gates
  ⟨h.workers, h.requests, h.jobs, h.runs, h.reports, h.decisions, h.recommendations, h.budgets,
    h.events, h.cycles⟩

theorem watched_grows (hrun : Reaches Unguarded (Watched.step settings) (watch sys) o) :
    Grows sys.db o.sys.db := by
  refine hrun.invariant (fun o => Grows sys.db o.sys.db) ?_ (.refl _)
  rintro o l o' hgrows - htaken
  obtain ⟨sys', hsys, rfl⟩ := watched_step htaken
  exact hgrows.trans (step_grows (step_cases hsys))

theorem copies_twin {gates : CheckpointGateConfig} {n : Nat} {s t : SpecId} (e : Encoder)
    (hrun : Reaches Unguarded (Watched.step settings) (watch (copiesCycle gates n)) o)
    (hs : s < n) (ht : t < n) (hne : t ≠ s) :
    ∃ spec, o.sys.db.specs[s]? = some spec ∧ Twin e o.sys.db 0 s spec t := by
  have hgrows := watched_grows hrun
  have hrow (k : SpecId) (hk : k < n) : (copiesCycle gates n).db.specs[k]? =
      some { Runtime.compiledSpec with
        codePlan := some [("entry_point", .str "main.py"), ("requires_network", .bool true)] } := by
    simp [copiesCycle, gatedCycle, hk]
  obtain ⟨spec, hspec, hsame⟩ := hgrows.specs s _ (hrow s hs)
  obtain ⟨twin, htwin, hsame'⟩ := hgrows.specs t _ (hrow t ht)
  refine ⟨spec, hspec, hne, twin, htwin, hsame'.cycleId, ?_⟩
  rw [hsame, hsame']
  rfl

/-- Of three copies one is run and another was never started: the third is reported. -/
theorem covers_runs_copies : ∃ (o : Watched) (spec : ExperimentSpec),
    Reaches Unguarded (Watched.step {}) (watch (copiesCycle {} 3)) o ∧
      o.sys.db.specs[1]? = some spec ∧ Twin wholeEncoder o.sys.db 0 1 spec 0 ∧
      HasRun o.sys.db 0 ∧ CoversRuns wholeEncoder o.sys.db 0 1 spec := by
  obtain ⟨o, hrun, htest⟩ := Reaches.of_perform_all
    (show (perform (fun _ _ => true) (Watched.step {}) (watch (copiesCycle {} 3))
      [.receive 0 (.startRun 0), .respond 0]).any (fun o =>
        o.sys.db.runs.any (fun run => run.experimentSpecId == 0) && o.filed 2 == some .validated &&
          !o.started.contains 2) = true by decide +kernel)
  simp only [Bool.and_eq_true, List.any_eq_true, beq_iff_eq, Bool.not_eq_true',
    List.contains_eq_mem, decide_eq_false_iff_not] at htest
  obtain ⟨⟨hran, hfiled⟩, hfresh⟩ := htest
  obtain ⟨spec, hspec, hrun0⟩ := copies_twin wholeEncoder hrun (s := 1) (t := 0) (by decide)
    (by decide) (by decide)
  obtain ⟨spec', hspec', hrun2⟩ := copies_twin wholeEncoder hrun (s := 1) (t := 2) (by decide)
    (by decide) (by decide)
  obtain rfl := Option.some.inj (hspec.symm.trans hspec')
  exact ⟨o, spec, hrun, hspec, hrun0, hran,
    (covers_runs_iff (copiesCycle_initial {} 3) hrun wholeEncoder 0 1 spec).mpr
      fun _ _ _ => ⟨2, hrun2, hfiled, hfresh⟩⟩

/-- Two copies are started one after the other, with a gate pause between them. -/
def bothRuns : List Label :=
  firstRun ++ work [{}] ++ [.receive 0 (.transitionCycle 0 .running), .respond 0,
    .receive 0 (.startRun 1), .respond 0] ++ work [{}] ++ work [{}, {}, {}, {}, {}] ++
    work [{ metrics := [("accuracy", 2)] }] ++ work [{}] ++ work [{}] ++ work [{}] ++ work [{}] ++
    Loop.resumeGate ++ work [{}]

/-- The first copy has been run to completion, and the loop runs the second once more. -/
theorem completed_copy_missed : ∃ (o : Watched) (spec : ExperimentSpec),
    (copiesCycle { afterEveryRun := true } 2).Initial ∧
      Reaches Unguarded (Watched.step {}) (watch (copiesCycle { afterEveryRun := true } 2)) o ∧
      o.sys.db.specs[1]? = some spec ∧
      (∃ run ∈ o.sys.db.runs, run.experimentSpecId = 0 ∧ run.status = .completed) ∧
      (∃ row ∈ o.sys.db.decisions, row.runRecordId = 1 ∧ row.decision = .continueCurrent) ∧
      ∀ e : Encoder, ¬ CoversRuns e o.sys.db 0 1 spec := by
  obtain ⟨o, hrun, htest⟩ := Reaches.of_perform_all
    (show (perform (fun _ _ => true) (Watched.step {}) (watch (copiesCycle { afterEveryRun := true } 2))
      bothRuns).any (fun o =>
        o.sys.db.runs.any (fun run => run.experimentSpecId == 0 && run.status == .completed) &&
          o.sys.db.decisions.any (fun row => row.runRecordId == 1 &&
            row.decision == .continueCurrent) &&
          o.sys.db.specs.all fun spec => spec.status == .executing) = true by decide +kernel)
  simp only [Bool.and_eq_true, List.any_eq_true, List.all_eq_true, beq_iff_eq] at htest
  obtain ⟨⟨hran, hdecided⟩, hexecuting⟩ := htest
  have htwin (e : Encoder) := copies_twin e hrun (s := 1) (t := 0) (by decide) (by decide)
    (by decide)
  obtain ⟨spec, hspec, -⟩ := htwin wholeEncoder
  refine ⟨o, spec, copiesCycle_initial _ 2, hrun, hspec, hran, hdecided, fun e hcovers => ?_⟩
  obtain ⟨spec', hspec', htwin⟩ := htwin e
  obtain rfl := Option.some.inj (hspec.symm.trans hspec')
  obtain ⟨run, hmem, hof, -⟩ := hran
  obtain ⟨t, -, hvalidated⟩ := reportsExact_iff.mp (hcovers 0 htwin ⟨run, hmem, hof⟩)
  obtain ⟨row, hrow, hstatus⟩ := Option.map_eq_some_iff.mp hvalidated
  exact absurd ((hexecuting row (List.mem_of_getElem? hrow)).symm.trans hstatus) fun h => by cases h

end Synthetos.Loop
