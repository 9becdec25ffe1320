import Synthetos.Protocols.Compile
import Synthetos.Verification.Declared

/-!
# Validated specs and the operators behind them

A spec that passes validation is written into a worktree and later read by the four verification
checks.  Each of them assumes a shape of the nested values that validation does not look at.
-/

namespace Synthetos.Protocols

open Synthetos.Core Lib Verification

/-- A spec as the language model drafts it, with the artifacts it expects. -/
structure DraftedSpec extends CompiledSpec where
  expectedArtifacts : List Dict := []

/-- The file-writing step of `execution_setup`; `write` creates the parent directories of a file
and writes its text. -/
def writeFiles {σ : Type} (write : σ → String → String → Except String σ) (tree : σ)
    (codePlan : Dict) : Except String σ :=
  match codePlan.getD "files" (.obj []) with
  | .obj files => files.foldlM (fun tree file =>
      match file.2 with
      | .str text => write tree file.1 text
      | _ => .error "TypeError: data must be str") tree
  | _ => .error "AttributeError: object has no attribute 'items'"

section

variable {σ : Type} (host : Host) (write : σ → String → String → Except String σ) (tree : σ)
  (spec : DraftedSpec)

/-- The operators behind validation return, whatever the run reported and captured. -/
structure RunsClean : Prop where
  files : ∃ tree', writeFiles write tree spec.codePlan = .ok tree'
  baseline : ∀ metrics,
    ∃ verdicts, compareToBaseline host metrics spec.metrics spec.baseline = .ok verdicts
  artifacts : ∀ manifest,
    ∃ checks, checkArtifactContract manifest spec.expectedArtifacts = .ok checks
  output : ∀ manifest,
    ∃ checks, buildOutputContract host manifest spec.expectedArtifacts = .ok checks
  sanity : ∀ metrics, ∃ checks, buildMetricSanity host metrics spec.metrics = .ok checks

def Floatable (v : Json) : Prop := v = .null ∨ ∃ x, float host.numeral v = .ok x

/-- What `baseline["expected_metrics"]` may be for a metric of the name: empty, an object whose
entry for the name is a number, or a list or text that does not contain the name. -/
def BaselineFor (name : String) (v : Json) : Prop :=
  v.truthy = false ∨
  (∃ fields, v = .obj fields ∧ ∀ entry, Dict.get? fields name = some entry →
    ∃ x, float host.numeral entry = .ok x) ∨
  (∃ items, v = .arr items ∧ ∀ item ∈ items, item.same (.str name) = false) ∨
  ∃ text, v = .str text ∧ containsText name.toList text.toList = false

/-- The shape of the nested values that the operators assume. -/
structure WellShaped : Prop where
  files : ∃ files : List (String × String),
    spec.codePlan.getD "files" (.obj []) = .obj (files.map fun file => (file.1, .str file.2)) ∧
      ∃ tree', files.foldlM (fun tree file => write tree file.1 file.2) tree = .ok tree'
  metricNames : ∀ metric ∈ spec.metrics, hashable (metricName metric) = true
  thresholds : ∀ metric ∈ spec.metrics, ∀ name, metricName metric = .str name →
    Floatable host (metric.getD "threshold" .null)
  baseline : ∀ metric ∈ spec.metrics, ∀ name, metricName metric = .str name →
    BaselineFor host name (spec.baseline.getD "expected_metrics" (.obj []))
  ranges : ∀ name metric, (specByName spec.metrics).lookup name = some metric →
    Floatable host (metric.getD "min" .null) ∧ Floatable host (metric.getD "max" .null)
  artifactNames : ∀ expected ∈ spec.expectedArtifacts, hashable (artifactName expected) = true

end

variable {σ : Type} {host : Host} {write : σ → String → String → Except String σ} {tree : σ}
  {spec : DraftedSpec}

/-! ### When each reading returns -/

theorem optionalFloat_ok_iff {fields : Dict} {key : String} :
    (∃ x, optionalFloat host fields key = .ok x) ↔ Floatable host (fields.getD key .null) := by
  rw [optionalFloat, Floatable]
  cases fields.getD key .null with
  | null => simp
  | _ => simpa using exists_map_ok

theorem baselineEntry_ok_iff {name : String} {v : Json} :
    (∃ x, baselineEntry host name v = .ok x) ↔ BaselineFor host name v := by
  by_cases hempty : v.truthy = true
  · cases v with
    | obj fields =>
      simp only [baselineEntry, BaselineFor, hempty, Bool.not_true, Bool.false_eq_true, ↓reduceIte,
        reduceCtorEq, false_or, false_and, exists_false, or_false, Json.obj.injEq,
        exists_eq_left', Bool.true_eq_false]
      cases Dict.get? fields name with
      | none => simp
      | some entry => simpa using exists_map_ok
    | arr items =>
      have hany : (∀ item ∈ items, item.same (.str name) = false) ↔
          (items.any fun item => item.same (.str name)) = false := by simp
      simp only [baselineEntry, BaselineFor, hempty, Json.arr.injEq, exists_eq_left', hany]
      cases items.any fun item => item.same (.str name) <;> simp
    | str text =>
      simp only [baselineEntry, BaselineFor, hempty]
      by_cases hmem : containsText name.toList text.toList = true <;> simp [hmem]
    | _ => simp [baselineEntry, BaselineFor, hempty]
  · simp [baselineEntry, BaselineFor, hempty]

theorem compareMetric_ok_iff {metrics : Metrics} {baseline metric : Dict} :
    (∃ v, compareMetric host metrics baseline metric = .ok v) ↔
      hashable (metricName metric) = true ∧ ∀ name, metricName metric = .str name →
        (metrics.get? name).isSome = true →
          BaselineFor host name (baseline.getD "expected_metrics" (.obj [])) ∧
            Floatable host (metric.getD "threshold" .null) := by
  cases hname : metricName metric with
  | str name =>
    cases hvalue : metrics.get? name with
    | none => simp [compareMetric, hname, hvalue, hashable, pure_eq_ok]
    | some value =>
      simp only [compareMetric, hname, hvalue, classifyMetric, exists_bind_ok, pure_eq_ok,
        ← baselineEntry_ok_iff, ← optionalFloat_ok_iff, hashable]
      simp [hvalue]
  | arr items => simp [compareMetric, hname, hashable, lookupJson]
  | obj fields => simp [compareMetric, hname, hashable, lookupJson]
  | _ => simp [compareMetric, hname, hashable, lookupJson]

theorem checkArtifact_ok_iff {manifest : List ManifestEntry} {expected : Dict} :
    (∃ check, checkArtifact manifest expected = .ok check) ↔
      hashable (artifactName expected) = true :=
  ⟨fun ⟨_, h⟩ => checkArtifact_hashable h, fun h => ⟨_, checkArtifact_eq h⟩⟩

theorem outputCheck_ok_iff {manifest : List ManifestEntry} {expected : Dict} :
    (∃ check, outputCheck host manifest expected = .ok check) ↔
      hashable (artifactName expected) = true := by
  constructor
  · rintro ⟨check, h⟩
    obtain ⟨_, hlookup, _⟩ := bind_eq_ok.mp h
    exact lookupJson_hashable hlookup
  · intro h
    exact ⟨_, outputCheck_eq h⟩

theorem rangeCheck_ok_iff {specs : List (String × Dict)} {entry : String × Rat} :
    (∃ check, rangeCheck host specs entry = .ok check) ↔
      ∀ metric, specs.lookup entry.1 = some metric →
        Floatable host (metric.getD "min" .null) ∧ Floatable host (metric.getD "max" .null) := by
  simp only [rangeCheck, exists_bind_ok, pure_eq_ok, ← optionalFloat_ok_iff]
  cases specs.lookup entry.1 with
  | none => simp [optionalFloat, Dict.getD, Dict.get?]
  | some metric => simp

theorem buildMetricSanity_ok_iff {metrics : Metrics} {specMetrics : List Dict} :
    (∃ checks, buildMetricSanity host metrics specMetrics = .ok checks) ↔
      ∀ entry ∈ metrics.entries, ∀ metric, (specByName specMetrics).lookup entry.1 = some metric →
        Floatable host (metric.getD "min" .null) ∧ Floatable host (metric.getD "max" .null) := by
  have hloop := @exists_mapM_ok _ _ _ (rangeCheck host (specByName specMetrics)) metrics.entries
  simp only [rangeCheck_ok_iff] at hloop
  rw [← hloop]
  simp only [buildMetricSanity, exists_bind_ok, pure_eq_ok, exists_eq', and_true]

/-! ### The files -/

theorem foldlM_cons_ok_iff {α : Type} {f : σ → α → Except String σ} {x : α} {rest : List α} :
    (∃ tree', (x :: rest).foldlM f tree = .ok tree') ↔
      ∃ next, f tree x = .ok next ∧ ∃ tree', rest.foldlM f next = .ok tree' := by
  rw [List.foldlM_cons]
  exact exists_bind_ok

theorem writeFiles_ok_iff {codePlan : Dict} :
    (∃ tree', writeFiles write tree codePlan = .ok tree') ↔
      ∃ files : List (String × String),
        codePlan.getD "files" (.obj []) = .obj (files.map fun file => (file.1, .str file.2)) ∧
          ∃ tree', files.foldlM (fun tree file => write tree file.1 file.2) tree = .ok tree' := by
  rw [writeFiles]
  cases codePlan.getD "files" (.obj []) with
  | obj fields =>
    simp only [Json.obj.injEq]
    induction fields generalizing tree with
    | nil =>
      constructor
      · rintro ⟨tree', h⟩
        exact ⟨[], rfl, tree', h⟩
      · rintro ⟨files, hfiles, tree', h⟩
        obtain rfl := List.map_eq_nil_iff.mp hfiles.symm
        exact ⟨tree', h⟩
    | cons field rest ih =>
      obtain ⟨name, content⟩ := field
      rw [foldlM_cons_ok_iff]
      constructor
      · rintro ⟨next, hnext, hrest⟩
        obtain ⟨files, rfl, hfiles⟩ := ih.mp hrest
        cases content with
        | str text => exact ⟨(name, text) :: files, rfl, foldlM_cons_ok_iff.mpr ⟨next, hnext, hfiles⟩⟩
        | _ => cases hnext
      · rintro ⟨files, hfiles, hwrites⟩
        cases files with
        | nil => cases hfiles
        | cons file files =>
          cases hfiles
          obtain ⟨next, hnext, hrest⟩ := foldlM_cons_ok_iff.mp hwrites
          exact ⟨next, hnext, ih.mpr ⟨files, rfl, hrest⟩⟩
  | _ => simp

/-! ### The operators and the shape -/

def oneMetric (name : String) : Metrics := ⟨[(name, 0)], by simp⟩

theorem runsClean_iff_wellShaped :
    RunsClean host write tree spec ↔ WellShaped host write tree spec := by
  constructor
  · intro h
    have hmetric : ∀ metric ∈ spec.metrics, ∀ metrics,
        ∃ v, compareMetric host metrics spec.baseline metric = .ok v :=
      fun metric hmem metrics => exists_mapM_ok.mp (h.baseline metrics) metric hmem
    have hfound : ∀ metric ∈ spec.metrics, ∀ name, metricName metric = .str name →
        BaselineFor host name (spec.baseline.getD "expected_metrics" (.obj [])) ∧
          Floatable host (metric.getD "threshold" .null) := by
      intro metric hmem name hname
      apply (compareMetric_ok_iff.mp (hmetric metric hmem (oneMetric name))).2 name hname
      simp [oneMetric, Metrics.get?]
    refine ⟨writeFiles_ok_iff.mp h.files, ?_, ?_, ?_, ?_, ?_⟩
    · intro metric hmem
      exact (compareMetric_ok_iff.mp (hmetric metric hmem (oneMetric ""))).1
    · intro metric hmem name hname
      exact (hfound metric hmem name hname).2
    · intro metric hmem name hname
      exact (hfound metric hmem name hname).1
    · intro name metric hlookup
      exact buildMetricSanity_ok_iff.mp (h.sanity (oneMetric name)) (name, 0)
        (List.mem_singleton.mpr rfl) metric hlookup
    · intro expected hmem
      exact checkArtifact_ok_iff.mp (exists_mapM_ok.mp (h.artifacts []) expected hmem)
  · intro h
    refine ⟨writeFiles_ok_iff.mpr h.files, ?_, ?_, ?_, ?_⟩
    · intro metrics
      refine exists_mapM_ok.mpr fun metric hmem => compareMetric_ok_iff.mpr ⟨?_, ?_⟩
      · exact h.metricNames metric hmem
      · intro name hname _
        exact ⟨h.baseline metric hmem name hname, h.thresholds metric hmem name hname⟩
    · intro manifest
      exact exists_mapM_ok.mpr fun expected hmem =>
        checkArtifact_ok_iff.mpr (h.artifactNames expected hmem)
    · intro manifest
      exact exists_mapM_ok.mpr fun expected hmem =>
        outputCheck_ok_iff.mpr (h.artifactNames expected hmem)
    · intro metrics
      exact buildMetricSanity_ok_iff.mpr fun entry _ metric hlookup =>
        h.ranges entry.1 metric hlookup

/-- An accepted spec is executable exactly when its nested values have the shape the operators
assume. -/
theorem accepted_runs_iff_wellShaped {σ : Type} (host : Host)
    (write : σ → String → String → Except String σ) (tree : σ) (spec : DraftedSpec) :
    (validateSpec spec.toCompiledSpec = [] → RunsClean host write tree spec) ↔
      (validateSpec spec.toCompiledSpec = [] → WellShaped host write tree spec) := by
  rw [runsClean_iff_wellShaped]

def wordThreshold : DraftedSpec where
  baseline := [("description", .str "random guessing")]
  metrics := [[("name", .str "accuracy"), ("direction", .str "maximize"),
    ("threshold", .str "high")]]
  codePlan := [("entry_point", .str "main.py"), ("files", .obj [("main.py", .str "print()")])]

theorem wordThreshold_accepted_and_raises :
    validateSpec wordThreshold.toCompiledSpec = [] ∧
      ¬ ∀ (host : Host) (write : List String → String → String → Except String (List String)) tree
        (spec : DraftedSpec),
        validateSpec spec.toCompiledSpec = [] → RunsClean host write tree spec := by
  have haccepted : validateSpec wordThreshold.toCompiledSpec = [] := by decide +kernel
  refine ⟨haccepted, fun h => ?_⟩
  obtain ⟨verdicts, hverdicts⟩ := (h ⟨fun _ => none, id⟩ (fun tree name _ => .ok (name :: tree)) []
    wordThreshold haccepted).baseline (oneMetric "accuracy")
  cases hverdicts

end Synthetos.Protocols
