import Synthetos.Lib.Text
import Synthetos.Verification.Declared

/-!
# The verification verdict

The verdict of a run says whether it meets the declarations of its spec.
-/

namespace Synthetos.Verification

open Synthetos.Core Lib

variable {host : Host} {evidence : Evidence} {checks : Checks}

theorem runChecks_eq_ok : runChecks host evidence = .ok checks ↔
    compareToBaseline host evidence.metrics evidence.specMetrics evidence.baseline =
        .ok checks.metricVerdicts ∧
      checkArtifactContract evidence.manifest evidence.expectedArtifacts =
        .ok checks.artifactChecks ∧
      buildOutputContract host evidence.manifest evidence.expectedArtifacts =
        .ok checks.outputContract ∧
      buildMetricSanity host evidence.metrics evidence.specMetrics = .ok checks.metricSanity := by
  simp only [runChecks, bind_eq_ok, pure_eq_ok]
  constructor
  · rintro ⟨verdicts, hverdicts, artifacts, hartifacts, outputs, houtputs, sanity, hsanity, rfl⟩
    exact ⟨hverdicts, hartifacts, houtputs, hsanity⟩
  · rintro ⟨hverdicts, hartifacts, houtputs, hsanity⟩
    exact ⟨_, hverdicts, _, hartifacts, _, houtputs, _, hsanity, rfl⟩

/-! ### What passes -/

section

variable (htyped : WellTyped host evidence) (hchecks : runChecks host evidence = .ok checks)

include htyped hchecks

theorem metricVerdicts_pass_iff : checks.metricVerdicts.all (·.passed) = true ↔
    ∀ specMetric ∈ evidence.specMetrics, ¬ MissingMetric evidence specMetric ∧
      ¬ ViolatesThreshold evidence specMetric := by
  have hmem := mapM_mem (runChecks_eq_ok.mp hchecks).1
  rw [List.all_eq_true]
  constructor
  · intro hall specMetric hspec
    obtain ⟨v, hv, hok⟩ := hmem.2 specMetric hspec
    exact (compareMetric_spec htyped hspec hok).2.2.mp (hall v hv)
  · intro hall v hv
    obtain ⟨specMetric, hspec, hok⟩ := hmem.1 v hv
    exact (compareMetric_spec htyped hspec hok).2.2.mpr (hall specMetric hspec)

omit htyped in
theorem hashable_artifactName {expected : Dict} (h : expected ∈ evidence.expectedArtifacts) :
    hashable (artifactName expected) = true := by
  obtain ⟨check, _, hok⟩ := (mapM_mem (runChecks_eq_ok.mp hchecks).2.1).2 expected h
  exact checkArtifact_hashable hok

omit htyped in
theorem artifacts_pass_iff :
    (checks.artifactChecks.all (·.passed) && checks.outputContract.all (·.passed)) = true ↔
    ∀ expected ∈ evidence.expectedArtifacts, ¬ AbsentArtifact evidence expected ∧
      ¬ WrongType host evidence expected := by
  have hartifacts := mapM_mem (runChecks_eq_ok.mp hchecks).2.1
  have houtputs := mapM_mem (runChecks_eq_ok.mp hchecks).2.2.1
  rw [Bool.and_eq_true, List.all_eq_true, List.all_eq_true]
  constructor
  · rintro ⟨_, hall⟩ expected hexpected
    obtain ⟨check, hcheck, hok⟩ := houtputs.2 expected hexpected
    rw [outputCheck_eq (hashable_artifactName hchecks hexpected)] at hok
    cases hok
    exact output_passes_iff.mp (hall _ hcheck)
  · intro hall
    constructor
    · intro check hcheck
      obtain ⟨expected, hexpected, hok⟩ := hartifacts.1 check hcheck
      rw [checkArtifact_eq (hashable_artifactName hchecks hexpected)] at hok
      cases hok
      exact artifact_passes_iff.mpr (hall expected hexpected).1
    · intro check hcheck
      obtain ⟨expected, hexpected, hok⟩ := houtputs.1 check hcheck
      rw [outputCheck_eq (hashable_artifactName hchecks hexpected)] at hok
      cases hok
      exact output_passes_iff.mpr (hall expected hexpected)

variable (hnames : ∀ specMetric ∈ evidence.specMetrics,
  ∃ name, metricName specMetric = .str name)

include hnames

omit hchecks in
theorem metricName_of_mem {specMetric : Dict} (h : specMetric ∈ evidence.specMetrics) :
    metricName specMetric = .str (String.ofList (specMetric.getD "name" .null).strChars) := by
  obtain ⟨name, hname⟩ := hnames specMetric h
  rw [getD_name (htyped.declared specMetric h).named, hname]
  simp [Json.strChars]

omit hchecks in
theorem mem_keys_of_mem {specMetric : Dict} {name : String} (h : specMetric ∈ evidence.specMetrics)
    (hname : metricName specMetric = .str name) :
    name ∈ (specByName evidence.specMetrics).map Prod.fst := by
  have hnamed := (htyped.declared specMetric h).named
  have hstr := metricName_of_mem htyped hnames h
  rw [hname, Json.str.injEq] at hstr
  exact mem_keys_specByName.mpr ⟨specMetric, h, by rw [getD_name hnamed]; exact hnamed, hstr.symm⟩

theorem metricSanity_pass_iff : checks.metricSanity.all (·.passed) = true ↔
    (∀ specMetric ∈ evidence.specMetrics, Effective evidence.specMetrics specMetric →
      ¬ OutOfRange evidence specMetric) ∧
    ∀ specMetric ∈ evidence.specMetrics, ¬ MissingMetric evidence specMetric := by
  obtain ⟨sanity, hsanity, hpass, _⟩ := buildMetricSanity_spec htyped
  rw [(runChecks_eq_ok.mp hchecks).2.2.2] at hsanity
  cases hsanity
  rw [hpass]
  apply and_congr
  · constructor
    · rintro hall specMetric _ ⟨name, hname, hlookup⟩ ⟨value, hvalue, houtside⟩
      rw [reportedValue, hname] at hvalue
      exact hall name value specMetric hvalue hlookup houtside
    · intro hall name value specMetric hvalue hlookup houtside
      obtain ⟨hmem, hstr⟩ := mem_of_specByName hlookup
      have hname := metricName_of_mem htyped hnames hmem
      rw [hstr] at hname
      exact hall specMetric hmem ⟨name, hname, hlookup⟩
        ⟨value, by rw [reportedValue, hname]; exact hvalue, houtside⟩
  · constructor
    · intro hall specMetric hmem hmissing
      obtain ⟨name, hname⟩ := hnames specMetric hmem
      have hreported := hall name (mem_keys_of_mem htyped hnames hmem hname)
      rw [MissingMetric, reportedValue, hname] at hmissing
      simp [hmissing] at hreported
    · intro hall name hkey
      obtain ⟨specMetric, hmem, _, hstr⟩ := mem_keys_specByName.mp hkey
      have hname := metricName_of_mem htyped hnames hmem
      rw [hstr] at hname
      have hreported := hall specMetric hmem
      rw [MissingMetric, reportedValue, hname] at hreported
      exact Option.isSome_iff_ne_none.mpr hreported

theorem allPass_iff : checks.allPass = true ↔ ¬ FailsVisibly host evidence := by
  rw [Checks.allPass, Bool.and_assoc, Bool.and_assoc, ← Bool.and_assoc (checks.artifactChecks.all _),
    Bool.and_eq_true, Bool.and_eq_true, metricVerdicts_pass_iff htyped hchecks,
    artifacts_pass_iff hchecks, metricSanity_pass_iff htyped hchecks hnames, FailsVisibly]
  constructor
  · rintro ⟨hmetrics, hartifacts, hranges, _⟩ (⟨specMetric, hmem, hfail⟩ | ⟨expected, hmem, hfail⟩)
    · rcases hfail with hmissing | hthreshold | ⟨heffective, hrange⟩
      · exact (hmetrics specMetric hmem).1 hmissing
      · exact (hmetrics specMetric hmem).2 hthreshold
      · exact hranges specMetric hmem heffective hrange
    · rcases hfail with habsent | htype
      · exact (hartifacts expected hmem).1 habsent
      · exact (hartifacts expected hmem).2 htype
  · intro h
    refine ⟨fun specMetric hmem => ⟨fun hfail => ?_, fun hfail => ?_⟩,
      fun expected hmem => ⟨fun hfail => ?_, fun hfail => ?_⟩,
      fun specMetric hmem heffective hfail => ?_, fun specMetric hmem hfail => ?_⟩
    · exact h (.inl ⟨specMetric, hmem, .inl hfail⟩)
    · exact h (.inl ⟨specMetric, hmem, .inr (.inl hfail)⟩)
    · exact h (.inr ⟨expected, hmem, .inl hfail⟩)
    · exact h (.inr ⟨expected, hmem, .inr hfail⟩)
    · exact h (.inl ⟨specMetric, hmem, .inr (.inr ⟨heffective, hfail⟩)⟩)
    · exact h (.inl ⟨specMetric, hmem, .inl hfail⟩)

end

/-! ### The names in the warnings -/

theorem joinNames_eq_ok {names : List Json} {u : Unit} :
    joinNames names = .ok u ↔ ∀ name ∈ names, ∃ text, name = .str text := by
  rw [joinNames]
  constructor
  · intro h name hmem
    split at h
    · next hall =>
      have hname := List.all_eq_true.mp hall name hmem
      cases name with
      | str text => exact ⟨text, rfl⟩
      | _ => cases hname
    · cases h
  · intro h
    rw [if_pos]
    rw [List.all_eq_true]
    intro name hmem
    obtain ⟨text, rfl⟩ := h name hmem
    rfl

theorem checkVerdict_eq_ok {verdict : Verdict} (hchecks : runChecks host evidence = .ok checks) :
    checkVerdict host evidence = .ok verdict ↔
      determineVerdict evidence.specMetrics checks = .ok verdict := by
  rw [checkVerdict, hchecks]
  rfl

theorem determineVerdict_pass {specMetrics : List Dict} (h : checks.allPass = true) :
    determineVerdict specMetrics checks =
      .ok (if hasThresholds specMetrics then .passed else .inconclusive) := by
  rw [determineVerdict, if_pos h]
  rfl

theorem determineVerdict_fail {specMetrics : List Dict} (h : checks.allPass ≠ true)
    {verdict : Verdict} : determineVerdict specMetrics checks = .ok verdict ↔
      verdict = .failed ∧
      (∀ v ∈ checks.metricVerdicts, v.passed = false → ∃ name, v.name = .str name) ∧
      (∀ c ∈ checks.artifactChecks, c.passed = false → ∃ name, c.name = .str name) ∧
      ∀ c ∈ checks.outputContract, c.passed = false → ∃ name, c.name = .str name := by
  rw [determineVerdict, if_neg h]
  simp only [bind_eq_ok, pure_eq_ok, joinNames_eq_ok, List.mem_map, List.mem_filter,
    Bool.not_eq_true', forall_exists_index, and_imp]
  constructor
  · rintro ⟨_, hmetrics, _, hartifacts, _, houtputs, rfl⟩
    exact ⟨rfl, fun v hv hnot => hmetrics _ v hv hnot rfl,
      fun c hc hnot => hartifacts _ c hc hnot rfl, fun c hc hnot => houtputs _ c hc hnot rfl⟩
  · rintro ⟨rfl, hmetrics, hartifacts, houtputs⟩
    exact ⟨(), fun _ v hv hnot heq => heq ▸ hmetrics v hv hnot,
      (), fun _ c hc hnot heq => heq ▸ hartifacts c hc hnot,
      (), fun _ c hc hnot heq => heq ▸ houtputs c hc hnot, rfl⟩

theorem hasThresholds_iff (htyped : WellTyped host evidence) :
    hasThresholds evidence.specMetrics = true ↔
      ∃ specMetric ∈ evidence.specMetrics, ∃ bound, bound? specMetric "threshold" = some bound := by
  rw [hasThresholds, List.any_eq_true]
  apply exists_congr
  intro specMetric
  apply and_congr_right
  intro hmem
  rcases (htyped.declared specMetric hmem).threshold with hnull | ⟨q, hnumber, _⟩
  · simp [bound?, hnull, Json.same, Json.number?]
  · rw [bound?, hnumber]
    cases hv : specMetric.getD "threshold" .null with
    | null => simp [hv, Json.number?] at hnumber
    | _ => simp [Json.same]

/-! ### Agreement -/

theorem map_eq_of_forall₂ {α β γ δ : Type} {R : α → β → Prop} {S : α → γ → Prop} {xs : List α}
    {ys : List β} {zs : List γ} {f : β → δ} {g : γ → δ} (hys : List.Forall₂ R xs ys)
    (hzs : List.Forall₂ S xs zs) (h : ∀ x ∈ xs, ∀ y z, R x y → S x z → f y = g z) :
    ys.map f = zs.map g := by
  induction hys generalizing zs with
  | nil =>
    cases hzs
    rfl
  | cons hy _ ih =>
    cases hzs with
    | cons hz hrest =>
      rw [List.map_cons, List.map_cons, h _ List.mem_cons_self _ _ hy hz,
        ih hrest fun x hmem => h x (List.mem_cons_of_mem _ hmem)]

theorem agree_of_names (htyped : WellTyped host evidence)
    (hchecks : runChecks host evidence = .ok checks)
    (hnames : ∀ specMetric ∈ evidence.specMetrics, ∃ name, metricName specMetric = .str name) :
    Agree checks := by
  have hmetrics := mapM_mem (runChecks_eq_ok.mp hchecks).1
  obtain ⟨sanity, hsanity, _, hmissing⟩ := buildMetricSanity_spec htyped
  rw [(runChecks_eq_ok.mp hchecks).2.2.2] at hsanity
  cases hsanity
  have hreported : ∀ specMetric name, metricName specMetric = .str name →
      (MissingMetric evidence specMetric ↔ (evidence.metrics.get? name).isSome = false) := by
    intro specMetric name hname
    simp only [MissingMetric, reportedValue, hname]
    cases evidence.metrics.get? name <;> simp
  refine ⟨fun name => ?_, ?_, ?_⟩
  · rw [hmissing name]
    constructor
    · rintro ⟨v, hv, hvname, hdetail⟩
      obtain ⟨specMetric, hmem, hok⟩ := hmetrics.1 v hv
      obtain ⟨hname, hnotFound, _⟩ := compareMetric_spec htyped hmem hok
      rw [hvname] at hname
      exact ⟨mem_keys_of_mem htyped hnames hmem hname.symm,
        (hreported specMetric name hname.symm).mp (hnotFound.mp hdetail)⟩
    · rintro ⟨hkey, habsent⟩
      obtain ⟨specMetric, hmem, _, hstr⟩ := mem_keys_specByName.mp hkey
      have hname := metricName_of_mem htyped hnames hmem
      rw [hstr] at hname
      obtain ⟨v, hv, hok⟩ := hmetrics.2 specMetric hmem
      obtain ⟨hvname, hnotFound, _⟩ := compareMetric_spec htyped hmem hok
      exact ⟨v, hv, by rw [hvname, hname],
        hnotFound.mpr ((hreported specMetric name hname).mpr habsent)⟩
  · rintro name ⟨v, hv, hvname, hdetail⟩ c hc hcname hcdetail
    obtain ⟨specMetric, hmem, hok⟩ := hmetrics.1 v hv
    obtain ⟨hname, hnotFound, _⟩ := compareMetric_spec htyped hmem hok
    rw [hvname] at hname
    have habsent := ((hmissing name).mp ⟨c, hc, hcname, hcdetail⟩).2
    exact hdetail (hnotFound.mpr ((hreported specMetric name hname.symm).mpr habsent))
  · have hfiles : ∀ expected ∈ evidence.expectedArtifacts, ∀ check output,
        checkArtifact evidence.manifest expected = .ok check →
        outputCheck host evidence.manifest expected = .ok output →
          check.found = output.present := by
      intro expected hexpected check output hcheck houtput
      have hname := hashable_artifactName hchecks hexpected
      rw [checkArtifact_eq hname] at hcheck
      rw [outputCheck_eq hname] at houtput
      cases hcheck
      cases houtput
      cases recordedFile evidence.manifest expected <;> rfl
    exact map_eq_of_forall₂ (mapM_eq_ok.mp (runChecks_eq_ok.mp hchecks).2.1)
      (mapM_eq_ok.mp (runChecks_eq_ok.mp hchecks).2.2.1) hfiles

/-! ### The verdict and the declarations -/

theorem fails_of_visibly (h : FailsVisibly host evidence) : Fails host evidence := by
  rcases h with ⟨specMetric, hmem, hmissing | hthreshold | ⟨_, hrange⟩⟩ | hartifact
  · exact .inl ⟨specMetric, hmem, .inl hmissing⟩
  · exact .inl ⟨specMetric, hmem, .inr (.inl hthreshold)⟩
  · exact .inl ⟨specMetric, hmem, .inr (.inr hrange)⟩
  · exact .inr hartifact

theorem visibly_of_fails (h : Fails host evidence)
    (hranges : (∃ specMetric ∈ evidence.specMetrics, OutOfRange evidence specMetric) →
      FailsVisibly host evidence) : FailsVisibly host evidence := by
  rcases h with ⟨specMetric, hmem, hmissing | hthreshold | hrange⟩ | hartifact
  · exact .inl ⟨specMetric, hmem, .inl hmissing⟩
  · exact .inl ⟨specMetric, hmem, .inr (.inl hthreshold)⟩
  · exact hranges ⟨specMetric, hmem, hrange⟩
  · exact .inr hartifact

theorem runChecks_ok (htyped : WellTyped host evidence)
    (hmetrics : ∀ specMetric ∈ evidence.specMetrics, hashable (metricName specMetric) = true)
    (hartifacts : ∀ expected ∈ evidence.expectedArtifacts,
      hashable (artifactName expected) = true) :
    ∃ checks, runChecks host evidence = .ok checks := by
  obtain ⟨verdicts, hverdicts⟩ := exists_mapM_ok.mpr fun specMetric hmem =>
    compareMetric_ok htyped hmem (hmetrics specMetric hmem)
  obtain ⟨artifacts, hartifact⟩ := exists_mapM_ok.mpr fun expected hmem =>
    ⟨_, checkArtifact_eq (hartifacts expected hmem)⟩
  obtain ⟨outputs, houtput⟩ := exists_mapM_ok.mpr fun expected hmem =>
    ⟨_, outputCheck_eq (hartifacts expected hmem)⟩
  obtain ⟨sanity, hsanity, _⟩ := buildMetricSanity_spec htyped
  exact ⟨⟨verdicts, artifacts, outputs, sanity⟩,
    runChecks_eq_ok.mpr ⟨hverdicts, hartifact, houtput, hsanity⟩⟩

theorem recordedFile_of_not_text {manifest : List ManifestEntry} {expected : Dict}
    (h : ¬ ∃ name, artifactName expected = .str name) : recordedFile manifest expected = none := by
  rw [recordedFile]
  split
  · next name hname => exact absurd ⟨name, hname⟩ h
  · rfl

theorem verdict_of_transparent (htyped : WellTyped host evidence)
    (h : Transparent host evidence) : VerdictAsDeclared host evidence := by
  have hartifactNames : ∀ expected ∈ evidence.expectedArtifacts,
      hashable (artifactName expected) = true := by
    intro expected hmem
    rcases h.artifactNames expected hmem with ⟨name, hname⟩ | ⟨hhash, _⟩
    · rw [hname]
      rfl
    · exact hhash
  have hmetricNames : ∀ specMetric ∈ evidence.specMetrics,
      hashable (metricName specMetric) = true := by
    intro specMetric hmem
    obtain ⟨name, hname⟩ := h.metricNames specMetric hmem
    rw [hname]
    rfl
  obtain ⟨checks, hchecks⟩ := runChecks_ok htyped hmetricNames hartifactNames
  have hpass := allPass_iff htyped hchecks h.metricNames
  have hfails : FailsVisibly host evidence ↔ Fails host evidence :=
    ⟨fails_of_visibly, fun hfail => visibly_of_fails hfail h.ranges⟩
  rw [hfails] at hpass
  have hagree := agree_of_names htyped hchecks h.metricNames
  by_cases hall : checks.allPass = true
  · have hmeets := hpass.mp hall
    refine ⟨checks, _, hchecks, (checkVerdict_eq_ok hchecks).mpr (determineVerdict_pass hall),
      ?_, ?_, ?_, hagree⟩
    · refine iff_of_false ?_ hmeets
      split <;> exact nofun
    · intro _ hthreshold
      rw [if_pos ((hasThresholds_iff htyped).mpr hthreshold)]
    · intro _ hnone
      rw [if_neg]
      rw [hasThresholds_iff htyped]
      rintro ⟨specMetric, hmem, bound, hbound⟩
      rw [hnone specMetric hmem] at hbound
      cases hbound
  · have hfail : Fails host evidence := not_not.mp fun hmeets => hall (hpass.mpr hmeets)
    refine ⟨checks, .failed, hchecks, (checkVerdict_eq_ok hchecks).mpr
      ((determineVerdict_fail hall).mpr ⟨rfl, ?_, ?_, ?_⟩), iff_of_true rfl hfail,
      fun hmeets => absurd hfail hmeets, fun hmeets => absurd hfail hmeets, hagree⟩
    · intro v hv _
      obtain ⟨specMetric, hmem, hok⟩ := (mapM_mem (runChecks_eq_ok.mp hchecks).1).1 v hv
      rw [(compareMetric_spec htyped hmem hok).1]
      exact h.metricNames specMetric hmem
    · intro c hc hnot
      obtain ⟨expected, hmem, hok⟩ := (mapM_mem (runChecks_eq_ok.mp hchecks).2.1).1 c hc
      rw [checkArtifact_eq (hartifactNames expected hmem)] at hok
      cases hok
      by_contra hname
      rcases h.artifactNames expected hmem with htext | ⟨_, hoptional⟩
      · exact hname htext
      · simp [hoptional] at hnot
    · intro c hc hnot
      obtain ⟨expected, hmem, hok⟩ := (mapM_mem (runChecks_eq_ok.mp hchecks).2.2.1).1 c hc
      rw [outputCheck_eq (hartifactNames expected hmem)] at hok
      by_contra hname
      rcases h.artifactNames expected hmem with htext | ⟨_, hoptional⟩
      · refine hname ?_
        cases hok
        cases recordedFile evidence.manifest expected <;> exact htext
      · by_cases htext : ∃ name, artifactName expected = .str name
        · refine hname ?_
          cases hok
          cases recordedFile evidence.manifest expected <;> exact htext
        · rw [recordedFile_of_not_text htext] at hok
          cases hok
          simp [hoptional] at hnot

theorem transparent_of_verdict (htyped : WellTyped host evidence)
    (h : VerdictAsDeclared host evidence) : Transparent host evidence := by
  obtain ⟨checks, verdict, hchecks, hverdict, hfailed, _⟩ := h
  rw [checkVerdict_eq_ok hchecks] at hverdict
  have hnames : ∀ specMetric ∈ evidence.specMetrics,
      ∃ name, metricName specMetric = .str name := by
    intro specMetric hmem
    by_contra hname
    obtain ⟨v, hv, hok⟩ := (mapM_mem (runChecks_eq_ok.mp hchecks).1).2 specMetric hmem
    obtain ⟨hvname, _, hpassed⟩ := compareMetric_spec htyped hmem hok
    have hmissing : MissingMetric evidence specMetric := by
      rw [MissingMetric, reportedValue]
      split
      · next name heq => exact absurd ⟨name, heq⟩ hname
      · rfl
    have hnot : v.passed = false := Bool.eq_false_iff.mpr fun hp => (hpassed.mp hp).1 hmissing
    have hall : checks.allPass ≠ true := by
      intro hall
      simp only [Checks.allPass, Bool.and_eq_true, List.all_eq_true] at hall
      rw [hall.1.1.1 v hv] at hnot
      cases hnot
    obtain ⟨name, htext⟩ := ((determineVerdict_fail hall).mp hverdict).2.1 v hv hnot
    exact hname ⟨name, by rw [← hvname, htext]⟩
  refine ⟨hnames, ?_, ?_⟩
  · intro expected hmem
    have hhash := hashable_artifactName hchecks hmem
    by_cases htext : ∃ name, artifactName expected = .str name
    · exact .inl htext
    · refine .inr ⟨hhash, ?_⟩
      by_contra hrequired
      obtain ⟨c, hc, hok⟩ := (mapM_mem (runChecks_eq_ok.mp hchecks).2.1).2 expected hmem
      rw [checkArtifact_eq hhash, recordedFile_of_not_text htext] at hok
      have hnot : c.passed = false := by
        cases hok
        simpa using hrequired
      have hall : checks.allPass ≠ true := by
        intro hall
        simp only [Checks.allPass, Bool.and_eq_true, List.all_eq_true] at hall
        rw [hall.1.1.2 c hc] at hnot
        cases hnot
      obtain ⟨name, hname⟩ := ((determineVerdict_fail hall).mp hverdict).2.2.1 c hc hnot
      cases hok
      exact htext ⟨name, hname⟩
  · rintro ⟨specMetric, hmem, hrange⟩
    have hfail : verdict = .failed := hfailed.mpr (.inl ⟨specMetric, hmem, .inr (.inr hrange)⟩)
    by_contra hhidden
    have hall := (allPass_iff htyped hchecks hnames).mpr hhidden
    rw [determineVerdict_pass hall, hfail] at hverdict
    split at hverdict <;> cases hverdict

/-- For numeric declarations, the verdict is what they say exactly when names are texts where a
report prints them and no range violation is hidden by a later spec of the same name. -/
theorem verdictAsDeclared_iff (host : Host) (evidence : Evidence)
    (htyped : WellTyped host evidence) :
    VerdictAsDeclared host evidence ↔ Transparent host evidence :=
  ⟨transparent_of_verdict htyped, verdict_of_transparent htyped⟩

/-- A host that reads no text as a number. -/
def plainHost : Host := ⟨fun _ => none, Text.lower⟩

/-- One metric of value 5 under two specs of its name; only the first bounds it, by 1. -/
def hiddenRange : Evidence where
  metrics := ⟨[("loss", 5)], by simp⟩
  specMetrics := [[("name", .str "loss"), ("direction", .str "minimize"), ("max", .float 1)],
    [("name", .str "loss"), ("direction", .str "minimize")]]
  baseline := []
  expectedArtifacts := []
  manifest := []

theorem hiddenRange_wellTyped : WellTyped plainHost hiddenRange := by
  refine ⟨?_, .inr ⟨[], rfl, fun _ _ h => by cases h⟩⟩
  intro specMetric hmem
  simp only [hiddenRange, List.mem_cons, List.not_mem_nil, or_false] at hmem
  rcases hmem with rfl | rfl
  · exact ⟨rfl, .inl rfl, .inl rfl, .inr ⟨1, rfl, rfl⟩⟩
  · exact ⟨rfl, .inl rfl, .inl rfl, .inl rfl⟩

theorem verdictAsDeclared_later_range :
    VerdictAsDeclared plainHost { hiddenRange with specMetrics := hiddenRange.specMetrics.tail } := by
  have htyped : WellTyped plainHost
      { hiddenRange with specMetrics := hiddenRange.specMetrics.tail } :=
    ⟨fun specMetric hmem => hiddenRange_wellTyped.declared specMetric (List.mem_of_mem_tail hmem),
      hiddenRange_wellTyped.baseline⟩
  refine (verdictAsDeclared_iff plainHost _ htyped).mpr
    ⟨?_, fun _ h => absurd h List.not_mem_nil, ?_⟩
  · intro specMetric hmem
    rw [List.mem_singleton.mp hmem]
    exact ⟨"loss", rfl⟩
  · rintro ⟨specMetric, hmem, value, _, ⟨bound, hbound, _⟩ | ⟨bound, hbound, _⟩⟩
    · rw [List.mem_singleton.mp hmem] at hbound
      cases hbound
    · rw [List.mem_singleton.mp hmem] at hbound
      cases hbound

/-- The violated range is not seen: the verdict is inconclusive. -/
theorem hiddenRange_inconclusive :
    checkVerdict plainHost hiddenRange = .ok .inconclusive ∧ Fails plainHost hiddenRange ∧
      ¬ ∀ host evidence, WellTyped host evidence → VerdictAsDeclared host evidence := by
  have hverdict : checkVerdict plainHost hiddenRange = .ok .inconclusive := by
    decide +kernel
  have hfails : Fails plainHost hiddenRange :=
    .inl ⟨_, List.mem_cons_self, .inr (.inr ⟨5, rfl, .inr ⟨1, rfl, by decide⟩⟩)⟩
  refine ⟨hverdict, hfails, fun h => ?_⟩
  obtain ⟨_, verdict, _, hreported, hfailed, _⟩ := h plainHost hiddenRange hiddenRange_wellTyped
  rw [hverdict] at hreported
  cases hreported
  exact absurd (hfailed.mpr hfails) nofun

end Synthetos.Verification
