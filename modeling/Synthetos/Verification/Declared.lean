import Synthetos.Lib.Entries
import Synthetos.Lib.Except
import Synthetos.Verification.Checks

/-!
# Declared metrics and expected artifacts

What a spec declares, when a run fails it, and what each check reports about it.
-/

namespace Synthetos.Verification

open Synthetos.Core Lib

variable {host : Host} {evidence : Evidence}

/-! ### The declarations of a spec -/

/-- A number with a float, or no value at all. -/
def Numeric (host : Host) (v : Json) : Prop :=
  v = .null ∨ ∃ q, v.number? = some q ∧ float host.numeral v = .ok (.finite q)

/-- A named metric spec with numeric threshold and range. -/
structure Declared (host : Host) (specMetric : Dict) : Prop where
  named : (metricName specMetric).truthy = true
  threshold : Numeric host (specMetric.getD "threshold" .null)
  min : Numeric host (specMetric.getD "min" .null)
  max : Numeric host (specMetric.getD "max" .null)

/-- `baseline["expected_metrics"]` is empty or an object of numbers. -/
def NumericBaseline (host : Host) (v : Json) : Prop :=
  v.truthy = false ∨ ∃ fields, v = .obj fields ∧ ∀ name entry, Dict.get? fields name = some entry →
    entry ≠ .null ∧ Numeric host entry

/-- The evidence of a spec whose numbers are numbers. -/
structure WellTyped (host : Host) (evidence : Evidence) : Prop where
  declared : ∀ specMetric ∈ evidence.specMetrics, Declared host specMetric
  baseline : NumericBaseline host (evidence.baseline.getD "expected_metrics" (.obj []))

def reportedValue (metrics : Metrics) (specMetric : Dict) : Option Rat :=
  match metricName specMetric with
  | .str name => metrics.get? name
  | _ => none

def bound? (specMetric : Dict) (key : String) : Option Rat := (specMetric.getD key .null).number?

def recordedFile (manifest : List ManifestEntry) (expected : Dict) : Option ManifestEntry :=
  match artifactName expected with
  | .str name => manifestByName manifest name
  | _ => none

def MissingMetric (evidence : Evidence) (specMetric : Dict) : Prop :=
  reportedValue evidence.metrics specMetric = none

/-- Below the threshold of a metric to maximize, above that of a metric to minimize. -/
def ViolatesThreshold (evidence : Evidence) (specMetric : Dict) : Prop :=
  ∃ value bound, reportedValue evidence.metrics specMetric = some value ∧
    bound? specMetric "threshold" = some bound ∧
    if maximizes specMetric then value < bound else bound < value

def OutOfRange (evidence : Evidence) (specMetric : Dict) : Prop :=
  ∃ value, reportedValue evidence.metrics specMetric = some value ∧
    ((∃ bound, bound? specMetric "min" = some bound ∧ value < bound) ∨
      ∃ bound, bound? specMetric "max" = some bound ∧ bound < value)

def AbsentArtifact (evidence : Evidence) (expected : Dict) : Prop :=
  (required expected).truthy = true ∧ recordedFile evidence.manifest expected = none

def WrongType (host : Host) (evidence : Evidence) (expected : Dict) : Prop :=
  ∃ entry, recordedFile evidence.manifest expected = some entry ∧
    artifactType host expected ≠ [] ∧ artifactType host expected ≠ "file".toList ∧
    artifactType host expected ≠ inferredSuffix host (entryPath entry)

/-- A declaration of the spec that the run does not meet. -/
def Fails (host : Host) (evidence : Evidence) : Prop :=
  (∃ specMetric ∈ evidence.specMetrics, MissingMetric evidence specMetric ∨
    ViolatesThreshold evidence specMetric ∨ OutOfRange evidence specMetric) ∨
  ∃ expected ∈ evidence.expectedArtifacts, AbsentArtifact evidence expected ∨
    WrongType host evidence expected

/-- The checks of one run agree on what is present. -/
structure Agree (checks : Checks) : Prop where
  missing : ∀ name, (∃ v ∈ checks.metricVerdicts, v.name = .str name ∧ v.detail = .notFound) ↔
    ∃ c ∈ checks.metricSanity, c.name = name ∧ c.detail = .missing
  found : ∀ name, (∃ v ∈ checks.metricVerdicts, v.name = .str name ∧ v.detail ≠ .notFound) →
    ∀ c ∈ checks.metricSanity, c.name = name → c.detail ≠ .missing
  artifacts : checks.artifactChecks.map (·.found) = checks.outputContract.map (·.present)

/-- The verdict is what the declarations say, and the checks agree. -/
def VerdictAsDeclared (host : Host) (evidence : Evidence) : Prop :=
  ∃ checks verdict, runChecks host evidence = .ok checks ∧ checkVerdict host evidence = .ok verdict ∧
    (verdict = .failed ↔ Fails host evidence) ∧
    (¬ Fails host evidence → (∃ specMetric ∈ evidence.specMetrics, ∃ bound,
      bound? specMetric "threshold" = some bound) → verdict = .passed) ∧
    (¬ Fails host evidence → (∀ specMetric ∈ evidence.specMetrics,
      bound? specMetric "threshold" = none) → verdict = .inconclusive) ∧
    Agree checks

/-- The spec whose range is checked: the last one of its name. -/
def Effective (specMetrics : List Dict) (specMetric : Dict) : Prop :=
  ∃ name, metricName specMetric = .str name ∧ (specByName specMetrics).lookup name = some specMetric

/-- A declaration not met, other than a range of a spec that a later one of its name hides. -/
def FailsVisibly (host : Host) (evidence : Evidence) : Prop :=
  (∃ specMetric ∈ evidence.specMetrics, MissingMetric evidence specMetric ∨
    ViolatesThreshold evidence specMetric ∨
    (Effective evidence.specMetrics specMetric ∧ OutOfRange evidence specMetric)) ∨
  ∃ expected ∈ evidence.expectedArtifacts, AbsentArtifact evidence expected ∨
    WrongType host evidence expected

/-- Names are texts, as far as a report has to print them, and no range violation is hidden. -/
structure Transparent (host : Host) (evidence : Evidence) : Prop where
  metricNames : ∀ specMetric ∈ evidence.specMetrics, ∃ name, metricName specMetric = .str name
  artifactNames : ∀ expected ∈ evidence.expectedArtifacts,
    (∃ name, artifactName expected = .str name) ∨
      hashable (artifactName expected) = true ∧ (required expected).truthy = false
  ranges : (∃ specMetric ∈ evidence.specMetrics, OutOfRange evidence specMetric) →
    FailsVisibly host evidence

/-! ### One check at a time -/

theorem optionalFloat_eq {specMetric : Dict} {key : String}
    (h : Numeric host (specMetric.getD key .null)) :
    optionalFloat host specMetric key = .ok ((bound? specMetric key).map .finite) := by
  rcases h with hnull | ⟨q, hnumber, hfloat⟩
  · simp [optionalFloat, bound?, hnull, Json.number?]
  · rw [optionalFloat, bound?, hnumber]
    cases hv : specMetric.getD key .null with
    | null => simp [hv, Json.number?] at hnumber
    | _ =>
      rw [hv] at hfloat
      simp only [hfloat]
      rfl

theorem baselineEntry_ok {v : Json} (h : NumericBaseline host v) (name : String) :
    ∃ entry, baselineEntry host name v = .ok entry := by
  rcases h with hempty | ⟨fields, rfl, hfields⟩
  · exact ⟨none, by simp [baselineEntry, hempty]⟩
  · rw [baselineEntry]
    split
    · exact ⟨none, rfl⟩
    · cases hentry : Dict.get? fields name with
      | none => exact ⟨none, rfl⟩
      | some entry =>
        obtain ⟨hne, hnull | ⟨q, _, hfloat⟩⟩ := hfields name entry hentry
        · exact absurd hnull hne
        · exact ⟨some (.finite q), by simp only [hfloat]; rfl⟩

theorem passes_iff {value : Rat} {specMetric : Dict} {bound : Option Rat} :
    (match bound.map Floating.finite with
      | some bound =>
        if maximizes specMetric then bound.le (.finite value) else (Floating.finite value).le bound
      | none => true) = true ↔
    ¬ ∃ b, bound = some b ∧ if maximizes specMetric then value < b else b < value := by
  cases bound with
  | none => simp
  | some b => by_cases hmax : maximizes specMetric = true <;> simp [hmax]

theorem compareMetric_spec (htyped : WellTyped host evidence) {specMetric : Dict}
    (hmem : specMetric ∈ evidence.specMetrics) {v : MetricVerdict}
    (h : compareMetric host evidence.metrics evidence.baseline specMetric = .ok v) :
    v.name = metricName specMetric ∧
      (v.detail = .notFound ↔ MissingMetric evidence specMetric) ∧
      (v.passed = true ↔
        ¬ MissingMetric evidence specMetric ∧ ¬ ViolatesThreshold evidence specMetric) := by
  have hdeclared := htyped.declared specMetric hmem
  rw [compareMetric] at h
  split at h
  · next name hname =>
    split at h
    · next value hvalue =>
      have hreported : reportedValue evidence.metrics specMetric = some value := by
        rw [reportedValue, hname]
        exact hvalue
      obtain ⟨baselineValue, _, h⟩ := bind_eq_ok.mp h
      rw [optionalFloat_eq hdeclared.threshold] at h
      obtain ⟨threshold, hthreshold, h⟩ := bind_eq_ok.mp h
      cases hthreshold
      cases h
      refine ⟨hname.symm, ?_, ?_⟩
      · simp only [MissingMetric, hreported, reduceCtorEq, iff_false]
        cases bound? specMetric "threshold" <;> cases baselineValue <;> simp
      · refine passes_iff.trans ?_
        simp [MissingMetric, ViolatesThreshold, hreported]
    · next hvalue =>
      cases h
      have hreported : reportedValue evidence.metrics specMetric = none := by
        rw [reportedValue, hname]
        exact hvalue
      simp [hname, MissingMetric, hreported]
  · next hname =>
    obtain ⟨_, _, h⟩ := bind_eq_ok.mp h
    cases h
    have hreported : reportedValue evidence.metrics specMetric = none := by
      rw [reportedValue]
      split
      · next name heq => exact absurd heq (hname name)
      · rfl
    simp [MissingMetric, hreported]

theorem lookupJson_ok {α : Type} (find : String → Option α) {key : Json}
    (h : hashable key = true) : ∃ found, lookupJson find key = .ok found := by
  cases key with
  | arr items => cases h
  | obj fields => cases h
  | _ => exact ⟨_, rfl⟩

theorem lookupJson_hashable {α : Type} {find : String → Option α} {key : Json} {found : Option α}
    (h : lookupJson find key = .ok found) : hashable key = true := by
  cases key with
  | arr items => cases h
  | obj fields => cases h
  | _ => rfl

theorem compareMetric_ok (htyped : WellTyped host evidence) {specMetric : Dict}
    (hmem : specMetric ∈ evidence.specMetrics)
    (hname : hashable (metricName specMetric) = true) :
    ∃ v, compareMetric host evidence.metrics evidence.baseline specMetric = .ok v := by
  rw [compareMetric]
  split
  · next name _ =>
    split
    · next value _ =>
      obtain ⟨entry, hentry⟩ := baselineEntry_ok htyped.baseline name
      rw [classifyMetric, hentry, optionalFloat_eq (htyped.declared specMetric hmem).threshold]
      exact ⟨_, rfl⟩
    · exact ⟨_, rfl⟩
  · obtain ⟨found, hlookup⟩ := lookupJson_ok evidence.metrics.get? hname
    rw [hlookup]
    exact ⟨_, rfl⟩

theorem isSome_manifestByName (manifest : List ManifestEntry) (name : String) :
    (manifest.find? fun entry => entry.name == name).isSome =
      (manifestByName manifest name).isSome := by
  rw [Bool.eq_iff_iff, manifestByName, List.find?_isSome, List.find?_isSome]
  simp

theorem lookup_recordedFile {manifest : List ManifestEntry} {expected : Dict}
    (hname : hashable (artifactName expected) = true) :
    lookupJson (manifestByName manifest) (artifactName expected) =
      .ok (recordedFile manifest expected) := by
  rw [recordedFile]
  cases hkey : artifactName expected with
  | arr items => rw [hkey] at hname; cases hname
  | obj fields => rw [hkey] at hname; cases hname
  | _ => rfl

theorem checkArtifact_eq {manifest : List ManifestEntry} {expected : Dict}
    (hname : hashable (artifactName expected) = true) :
    checkArtifact manifest expected = .ok
      { name := artifactName expected, found := (recordedFile manifest expected).isSome
        required := required expected
        passed := (recordedFile manifest expected).isSome || !(required expected).truthy } := by
  rw [checkArtifact, recordedFile]
  cases hkey : artifactName expected with
  | arr items => rw [hkey] at hname; cases hname
  | obj fields => rw [hkey] at hname; cases hname
  | str name => rw [← isSome_manifestByName]; rfl
  | _ => rfl

theorem outputCheck_eq {manifest : List ManifestEntry} {expected : Dict}
    (hname : hashable (artifactName expected) = true) :
    outputCheck host manifest expected = .ok
      (match recordedFile manifest expected with
        | none => ⟨artifactName expected, false, !(required expected).truthy⟩
        | some entry => ⟨artifactName expected, true, typeOk host expected entry⟩) := by
  rw [outputCheck, lookup_recordedFile hname]
  cases recordedFile manifest expected <;> rfl

theorem checkArtifact_hashable {manifest : List ManifestEntry} {expected : Dict}
    {check : ArtifactCheck} (h : checkArtifact manifest expected = .ok check) :
    hashable (artifactName expected) = true := by
  obtain ⟨_, hlookup, _⟩ := bind_eq_ok.mp h
  exact lookupJson_hashable hlookup

theorem artifact_passes_iff {expected : Dict} :
    ((recordedFile evidence.manifest expected).isSome || !(required expected).truthy) = true ↔
      ¬ AbsentArtifact evidence expected := by
  cases hfile : recordedFile evidence.manifest expected <;> simp [AbsentArtifact, hfile]

theorem output_passes_iff {expected : Dict} :
    (match recordedFile evidence.manifest expected with
      | none => (⟨artifactName expected, false, !(required expected).truthy⟩ : OutputCheck)
      | some entry => ⟨artifactName expected, true, typeOk host expected entry⟩).passed = true ↔
    ¬ AbsentArtifact evidence expected ∧ ¬ WrongType host evidence expected := by
  cases hfile : recordedFile evidence.manifest expected with
  | none => simp [AbsentArtifact, WrongType, hfile]
  | some entry =>
    simp only [AbsentArtifact, WrongType, hfile, typeOk, Bool.or_eq_true, List.isEmpty_iff,
      beq_iff_eq, reduceCtorEq, and_false, not_false_eq_true, true_and, Option.some.injEq,
      exists_eq_left']
    tauto

/-! ### The sanity check -/

theorem getD_name {specMetric : Dict} (h : (metricName specMetric).truthy = true) :
    specMetric.getD "name" .null = metricName specMetric := by
  rw [metricName, Dict.getD, Dict.getD] at *
  cases hname : specMetric.get? "name" with
  | none => simp [hname, Json.truthy] at h
  | some v => rfl

theorem mem_of_specByName {specMetrics : List Dict} {name : String} {specMetric : Dict}
    (h : (specByName specMetrics).lookup name = some specMetric) :
    specMetric ∈ specMetrics ∧ String.ofList (specMetric.getD "name" .null).strChars = name := by
  obtain ⟨found, hfound, hpair⟩ := List.mem_map.mp (Entries.mem_of_lookup h)
  cases hpair
  exact ⟨List.mem_reverse.mp (List.mem_filter.mp hfound).1, rfl⟩

theorem mem_keys_specByName {specMetrics : List Dict} {name : String} :
    name ∈ (specByName specMetrics).map Prod.fst ↔
      ∃ specMetric ∈ specMetrics, (specMetric.getD "name" .null).truthy = true ∧
        String.ofList (specMetric.getD "name" .null).strChars = name := by
  simp [specByName, and_assoc]

theorem mem_sortedDifference {names known : List String} {name : String} :
    name ∈ sortedDifference names known ↔ name ∈ names ∧ name ∉ known := by
  simp [sortedDifference]

theorem Metrics.mem_iff (metrics : Metrics) {name : String} {value : Rat} :
    (name, value) ∈ metrics.entries ↔ metrics.get? name = some value :=
  Entries.mem_iff_lookup metrics.nodup

theorem Metrics.mem_keys_iff (metrics : Metrics) {name : String} :
    name ∈ metrics.entries.map Prod.fst ↔ (metrics.get? name).isSome = true :=
  Entries.isSome_lookup_iff.symm

theorem numeric_of_lookup (htyped : WellTyped host evidence) (name : String) (key : String)
    (hkey : key = "min" ∨ key = "max") :
    Numeric host ((((specByName evidence.specMetrics).lookup name).getD []).getD key .null) := by
  cases hlookup : (specByName evidence.specMetrics).lookup name with
  | none => exact .inl rfl
  | some specMetric =>
    have hdeclared := htyped.declared specMetric (mem_of_specByName hlookup).1
    rcases hkey with rfl | rfl
    · exact hdeclared.min
    · exact hdeclared.max

/-- Outside the range of a spec, for a value already at hand. -/
def Outside (specMetric : Dict) (value : Rat) : Prop :=
  (∃ bound, bound? specMetric "min" = some bound ∧ value < bound) ∨
    ∃ bound, bound? specMetric "max" = some bound ∧ bound < value

theorem rangeCheck_eq (htyped : WellTyped host evidence) (entry : String × Rat) :
    ∃ passed, rangeCheck host (specByName evidence.specMetrics) entry =
        .ok ⟨entry.1, passed, .measured⟩ ∧
      (passed = true ↔ ¬ ∃ specMetric,
        (specByName evidence.specMetrics).lookup entry.1 = some specMetric ∧
          Outside specMetric entry.2) := by
  have hmin := numeric_of_lookup htyped entry.1 "min" (.inl rfl)
  have hmax := numeric_of_lookup htyped entry.1 "max" (.inr rfl)
  rw [rangeCheck, optionalFloat_eq hmin, optionalFloat_eq hmax]
  refine ⟨_, rfl, ?_⟩
  cases (specByName evidence.specMetrics).lookup entry.1 with
  | none => simp [bound?, Dict.getD, Dict.get?, Json.number?]
  | some specMetric =>
    simp only [Option.getD_some, Option.some.injEq, exists_eq_left', Outside, Bool.and_eq_true]
    cases bound? specMetric "min" <;> cases bound? specMetric "max" <;> simp

theorem buildMetricSanity_spec (htyped : WellTyped host evidence) :
    ∃ checks, buildMetricSanity host evidence.metrics evidence.specMetrics = .ok checks ∧
      (checks.all (·.passed) = true ↔
        (∀ name value specMetric, evidence.metrics.get? name = some value →
          (specByName evidence.specMetrics).lookup name = some specMetric →
            ¬ Outside specMetric value) ∧
        ∀ name ∈ (specByName evidence.specMetrics).map Prod.fst,
          (evidence.metrics.get? name).isSome = true) ∧
      ∀ name, (∃ c ∈ checks, c.name = name ∧ c.detail = .missing) ↔
        name ∈ (specByName evidence.specMetrics).map Prod.fst ∧
          (evidence.metrics.get? name).isSome = false := by
  have hrange := rangeCheck_eq htyped
  have hexists : ∃ measured, evidence.metrics.entries.mapM
      (rangeCheck host (specByName evidence.specMetrics)) = .ok measured := by
    refine exists_mapM_ok.mpr fun entry _ => ?_
    obtain ⟨passed, hok, _⟩ := hrange entry
    exact ⟨_, hok⟩
  obtain ⟨measured, hmeasured⟩ := hexists
  refine ⟨_, by rw [buildMetricSanity, hmeasured]; rfl, ?_, ?_⟩
  · have hmeasuredPass : measured.all (·.passed) = true ↔
        ∀ name value specMetric, evidence.metrics.get? name = some value →
          (specByName evidence.specMetrics).lookup name = some specMetric →
            ¬ Outside specMetric value := by
      rw [List.all_eq_true]
      constructor
      · intro hall name value specMetric hvalue hlookup houtside
        obtain ⟨check, hcheck, hok⟩ :=
          (mapM_mem hmeasured).2 (name, value) (evidence.metrics.mem_iff.mpr hvalue)
        obtain ⟨passed, hok', hpassed⟩ := hrange (name, value)
        rw [hok'] at hok
        cases hok
        exact hpassed.mp (hall _ hcheck) ⟨specMetric, hlookup, houtside⟩
      · intro hall check hcheck
        obtain ⟨entry, hentry, hok⟩ := (mapM_mem hmeasured).1 check hcheck
        obtain ⟨passed, hok', hpassed⟩ := hrange entry
        rw [hok'] at hok
        cases hok
        refine hpassed.mpr ?_
        rintro ⟨specMetric, hlookup, houtside⟩
        exact hall entry.1 entry.2 specMetric (evidence.metrics.mem_iff.mp hentry) hlookup houtside
    have hmissingPass : ((sortedDifference ((specByName evidence.specMetrics).map Prod.fst)
          (evidence.metrics.entries.map Prod.fst)).map
            fun name => (⟨name, false, .missing⟩ : SanityCheck)).all (·.passed) = true ↔
        ∀ name ∈ (specByName evidence.specMetrics).map Prod.fst,
          (evidence.metrics.get? name).isSome = true := by
      rw [List.all_eq_true]
      constructor
      · intro hall name hname
        by_contra hnone
        rw [← evidence.metrics.mem_keys_iff] at hnone
        exact absurd (hall _ (List.mem_map_of_mem (mem_sortedDifference.mpr ⟨hname, hnone⟩)))
          Bool.false_ne_true
      · intro hall check hcheck
        obtain ⟨name, hname, rfl⟩ := List.mem_map.mp hcheck
        obtain ⟨hdeclared, hunreported⟩ := mem_sortedDifference.mp hname
        exact absurd (evidence.metrics.mem_keys_iff.mpr (hall name hdeclared)) hunreported
    rw [List.all_append, List.all_append, Bool.and_eq_true, Bool.and_eq_true, hmeasuredPass,
      hmissingPass]
    simp
  · intro name
    have hdetail : ∀ check ∈ measured, check.detail ≠ .missing := by
      intro check hcheck
      obtain ⟨entry, _, hok⟩ := (mapM_mem hmeasured).1 check hcheck
      obtain ⟨passed, hok', _⟩ := hrange entry
      rw [hok'] at hok
      cases hok
      exact nofun
    have hkeys := @Metrics.mem_keys_iff evidence.metrics name
    constructor
    · rintro ⟨check, hcheck, rfl, hmissing⟩
      rcases List.mem_append.mp hcheck with hcheck | hextra
      · rcases List.mem_append.mp hcheck with hmeas | hmiss
        · exact absurd hmissing (hdetail check hmeas)
        · obtain ⟨name, hname, rfl⟩ := List.mem_map.mp hmiss
          obtain ⟨hdeclared, hunreported⟩ := mem_sortedDifference.mp hname
          exact ⟨hdeclared, by simpa [hkeys] using hunreported⟩
      · obtain ⟨name, _, rfl⟩ := List.mem_map.mp hextra
        cases hmissing
    · rintro ⟨hdeclared, hunreported⟩
      have hnot : name ∉ evidence.metrics.entries.map Prod.fst := by
        rw [hkeys, hunreported]
        exact Bool.false_ne_true
      exact ⟨⟨name, false, .missing⟩, List.mem_append_left _ (List.mem_append_right _
        (List.mem_map_of_mem (mem_sortedDifference.mpr ⟨hdeclared, hnot⟩))), rfl, rfl⟩

end Synthetos.Verification
