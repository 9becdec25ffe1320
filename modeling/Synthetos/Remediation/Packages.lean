import Synthetos.Execution.Preparation
import Synthetos.Lib.Distinct
import Synthetos.Lib.Dockerfile
import Synthetos.Remediation.ImportErrors

/-!
# Packages a retry installs

The dependency strategy installs what the log names after an import error, and `execution_setup`
turns the names into a line of the Dockerfile.
-/

namespace Synthetos.Remediation

open Lib Execution

/-- The letters and digits beyond ASCII that may begin or continue an identifier. -/
structure Alphabet where
  start : Char → Bool
  part : Char → Bool

def Alphabet.isPart (alphabet : Alphabet) (c : Char) : Bool :=
  c.isAlphanum || c == '_' || (128 ≤ c.toNat && alphabet.part c)

def isIdentifier (alphabet : Alphabet) : List Char → Bool
  | [] => false
  | c :: rest =>
    (c.isAlpha || c == '_' || (128 ≤ c.toNat && alphabet.start c && alphabet.part c)) &&
      rest.all alphabet.isPart

def topLevel (module : List Char) : String := String.ofList (Text.beforeFirst '.' module)

/-- The log says `No module named` of a module with this top-level name. -/
def ReportedMissing (log : List Char) (name : String) : Prop :=
  ∃ q module, isQuote q = true ∧ q ∉ module ∧ name = topLevel module ∧
    "No module named ".toList ++ q :: (module ++ [q]) <:+: log

/-- The Dockerfile a retry builds has one instruction more, which installs the names. -/
def GainsInstall (escape : Dockerfile.Escape) (imageRef : String) (buildRecipe : Option Dict)
    (overrides : Dict) (names : List String) : Prop :=
  ∀ base recipe content, baseDockerfile imageRef buildRecipe = some base →
    patchedRecipe imageRef buildRecipe overrides = .ok recipe →
      dockerfile recipe = some (.str content) →
        Dockerfile.instructions escape content.toList =
          Dockerfile.instructions escape base.toList ++ [(pipLine names).toList]

def installOverrides (names : List String) : Dict :=
  [("build_recipe", .obj [("extra_pip_packages", .arr (names.map .str))])]

/-- Every package is a module reported as missing and an identifier, and installing them takes one
instruction. -/
def InstallsMissing (escape : Dockerfile.Escape) (alphabet : Alphabet) (inputs : StrategyInputs)
    (imageRef : String) (buildRecipe : Option Dict) : Prop :=
  ∀ names, (dependencyStrategy inputs).overrides = installOverrides names →
    (∀ name ∈ names, ReportedMissing inputs.stderrTail.toList name ∧
      isIdentifier alphabet name.toList = true) ∧
      GainsInstall escape imageRef buildRecipe (dependencyStrategy inputs).overrides names

variable {escape : Dockerfile.Escape} {alphabet : Alphabet} {inputs : StrategyInputs}
  {imageRef base : String} {buildRecipe : Option Dict} {names : List String}

/-! ### The Dockerfile -/

theorem mem_intercalate {sep : List Char} {texts : List (List Char)} {c : Char}
    (h : c ∈ sep.intercalate texts) : c ∈ sep ∨ ∃ text ∈ texts, c ∈ text := by
  induction texts with
  | nil => exact absurd h List.not_mem_nil
  | cons text rest ih =>
    cases rest with
    | nil =>
      rw [List.intercalate_singleton] at h
      exact .inr ⟨text, List.mem_cons_self, h⟩
    | cons next rest =>
      rw [List.intercalate_cons_cons] at h
      simp only [List.mem_append] at h
      rcases h with (h | h) | h
      · exact .inr ⟨text, List.mem_cons_self, h⟩
      · exact .inl h
      · exact (ih h).imp_right fun ⟨found, hfound, hc⟩ => ⟨found, List.mem_cons_of_mem _ hfound, hc⟩

theorem getLast?_intercalate {sep text : List Char} {texts : List (List Char)} (h : text ≠ []) :
    (sep.intercalate (texts ++ [text])).getLast? = text.getLast? := by
  induction texts with
  | nil => rw [List.nil_append, List.intercalate_singleton]
  | cons first rest ih =>
    rw [List.cons_append, List.intercalate_cons_of_ne_nil (by simp), List.getLast?_append_of_ne_nil]
    · exact ih
    · intro hnil
      rw [hnil] at ih
      exact h (List.getLast?_eq_none_iff.mp ih.symm)

theorem identifier_part {name : List Char} (h : isIdentifier alphabet name = true) :
    name ≠ [] ∧ ∀ c ∈ name, alphabet.isPart c = true := by
  cases name with
  | nil => exact absurd h nofun
  | cons c rest =>
    obtain ⟨hfirst, hrest⟩ := (Bool.and_eq_true _ _).mp h
    refine ⟨List.cons_ne_nil c rest, fun d hd => ?_⟩
    rcases List.mem_cons.mp hd with rfl | hd
    · simp only [Alphabet.isPart, Char.isAlphanum, Bool.or_eq_true, Bool.and_eq_true] at hfirst ⊢
      rcases hfirst with (hfirst | hfirst) | ⟨⟨hbeyond, -⟩, hpart⟩
      · exact .inl (.inl (.inl hfirst))
      · exact .inl (.inr hfirst)
      · exact .inr ⟨hbeyond, hpart⟩
    · exact List.all_eq_true.mp hrest d hd

theorem toList_joined (start : String) (names : List String) :
    (start ++ " ".intercalate names).toList =
      start.toList ++ [' '].intercalate (names.map String.toList) := by
  rw [String.toList_append, String.toList_intercalate]
  rfl

theorem pipLine_toList (names : List String) : (pipLine names).toList =
    "RUN pip install ".toList ++ [' '].intercalate (names.map String.toList) :=
  toList_joined _ names

theorem isPart_special (alphabet : Alphabet) (escape : Dockerfile.Escape) {c : Char}
    (h : c = '\n' ∨ Dockerfile.isBlank c = true ∨ c = escape.char) : alphabet.isPart c = false := by
  have hlow (d : Char) (hword : d.isAlphanum = false) (hd : d ≠ '_') (hsmall : d.toNat < 128) :
      alphabet.isPart d = false := by
    simp [Alphabet.isPart, hword, hd, hsmall]
  rcases h with rfl | h | rfl
  · exact hlow _ (by decide) (by decide) (by decide)
  · simp only [Dockerfile.isBlank, Bool.or_eq_true, beq_iff_eq] at h
    rcases h with (rfl | rfl) | rfl
    · exact hlow _ (by decide) (by decide) (by decide)
    · exact hlow _ (by decide) (by decide) (by decide)
    · exact hlow _ (by decide) (by decide) (by decide)
  · cases escape with
    | backslash => exact hlow _ (by decide) (by decide) (by decide)
    | backtick => exact hlow _ (by decide) (by decide) (by decide)

theorem pipLine_plain (hne : names ≠ [])
    (hnames : ∀ name ∈ names, isIdentifier alphabet name.toList = true) :
    Dockerfile.Plain escape (pipLine names).toList := by
  have hspecial {c : Char} (hc : alphabet.isPart c = true) :
      ¬ (c = '\n' ∨ Dockerfile.isBlank c = true ∨ c = escape.char) := fun h =>
    absurd (hc.symm.trans (isPart_special alphabet escape h)) nofun
  rw [pipLine_toList]
  refine ⟨fun hmem => ?_, rfl, ?_⟩
  · rcases List.mem_append.mp hmem with hmem | hmem
    · exact absurd hmem (by decide)
    · rcases mem_intercalate hmem with hmem | ⟨text, htext, hmem⟩
      · exact absurd hmem (by decide)
      · obtain ⟨name, hname, rfl⟩ := List.mem_map.mp htext
        exact hspecial ((identifier_part (hnames name hname)).2 _ hmem) (.inl rfl)
  · obtain ⟨front, last, rfl⟩ := (List.eq_nil_or_concat names).resolve_left hne
    rw [List.concat_eq_append] at hnames ⊢
    obtain ⟨hlast, hparts⟩ := identifier_part (hnames last (by simp))
    have hend : ([' '].intercalate (front.map String.toList ++ [last.toList])).getLast? =
        last.toList.getLast? := getLast?_intercalate hlast
    obtain ⟨c, hc⟩ := Option.ne_none_iff_exists'.mp (mt List.getLast?_eq_none_iff.mp hlast)
    have hclast := hspecial (hparts c (List.mem_of_getLast? hc))
    simp only [not_or, Bool.not_eq_true] at hclast
    refine Dockerfile.continued_of_getLast ?_ hclast.2.1 hclast.2.2
    rw [List.map_append, List.map_singleton, List.getLast?_append, hend, hc]
    rfl

theorem packageNames_texts (names : List String) :
    packageNames (.arr (names.map .str)) = .ok names := by
  unfold packageNames
  dsimp only
  induction names with
  | nil => rfl
  | cons name rest ih =>
    rw [List.map_cons, List.mapM_cons, ih]
    rfl

theorem recipe_installed (hne : names ≠ [])
    (hbase : baseDockerfile imageRef buildRecipe = some base) :
    ∃ recipe, patchedRecipe imageRef buildRecipe (installOverrides names) = .ok recipe ∧
      dockerfile recipe = some (.str (base ++ "\n" ++ pipLine names ++ "\n")) := by
  obtain ⟨recipe, hrecipe, hcontent⟩ := recipeWithPackages_ok names hbase
  have hnames : packagesOf (installOverrides names) = .ok names :=
    bind_eq_ok.mpr ⟨_, rfl, packageNames_texts names⟩
  exact ⟨some recipe, patchedRecipe_eq_ok.mpr ⟨names, hnames, .inr ⟨hne, recipe, hrecipe, rfl⟩⟩,
    hcontent⟩

theorem gainsInstall_iff (hne : names ≠ [])
    (hnames : ∀ name ∈ names, isIdentifier alphabet name.toList = true) :
    GainsInstall escape imageRef buildRecipe (installOverrides names) names ↔
      ∀ base, baseDockerfile imageRef buildRecipe = some base →
        Dockerfile.Complete escape base.toList := by
  have hlines (base : String) : (base ++ "\n" ++ pipLine names ++ "\n").toList =
      base.toList ++ '\n' :: ((pipLine names).toList ++ ['\n']) := by
    simp
  constructor
  · intro h base hbase
    obtain ⟨recipe, hrecipe, hcontent⟩ := recipe_installed hne hbase
    have hgain := h base recipe _ hbase hrecipe hcontent
    rw [hlines] at hgain
    exact (Dockerfile.instructions_append_iff (pipLine_plain hne hnames)).mp hgain
  · intro h base recipe content hbase hrecipe hcontent
    obtain ⟨recipe', hrecipe', hcontent'⟩ := recipe_installed hne hbase
    obtain rfl := Except.ok.inj (hrecipe.symm.trans hrecipe')
    obtain rfl := Json.str.inj (Option.some.inj (hcontent.symm.trans hcontent'))
    rw [hlines]
    exact (Dockerfile.instructions_append_iff (pipLine_plain hne hnames)).mpr (h base hbase)

/-! ### The packages -/

theorem dependencyStrategy_overrides (inputs : StrategyInputs) :
    (dependencyStrategy inputs).overrides =
      if needsEscalation inputs = true ∨ extractMissingModules inputs.stderrTail = [] then []
      else installOverrides (extractMissingModules inputs.stderrTail) := by
  unfold dependencyStrategy
  by_cases hescalate : needsEscalation inputs = true
  · simp [hescalate, broadDebugResult]
  · cases hmissing : extractMissingModules inputs.stderrTail with
    | nil => simp [hescalate, broadDebugResult]
    | cons name rest => simp [hescalate, installOverrides]

/-- The packages are the top-level names of the captured words with fewer than ten other names
before them. -/
theorem forall_missing_iff (log : String) (good : String → Prop) :
    (∀ name ∈ extractMissingModules log, good name) ↔
      ∀ earlier word, Captured log.toList earlier word →
        (earlier.map topLevel).eraseDups.length < 10 → good (topLevel word) := by
  have hfuel : log.toList.length ≤ log.length := Nat.le_of_eq String.length_toList
  change (∀ name ∈ ((importErrors log.length log.toList).map topLevel).eraseDups.take 10, good name) ↔ _
  rw [Distinct.forall_mem_take_iff]
  simp only [captured_iff hfuel]
  constructor
  · rintro h earlier word ⟨later, hlater⟩ hfew
    refine h (earlier.map topLevel) (topLevel word) (later.map topLevel) ?_ hfew
    rw [hlater, List.map_append, List.map_cons]
  · intro h before name after hsplit hfew
    obtain ⟨earlier, rest, hlater, rfl, hrest⟩ := List.map_eq_append_iff.mp hsplit
    obtain ⟨word, later, rfl, rfl, rfl⟩ := List.map_eq_cons_iff.mp hrest
    exact h earlier word ⟨later, hlater⟩ hfew

theorem missing_nil_iff {log : String} :
    extractMissingModules log = [] ↔ ∀ word, ¬ Captured log.toList [] word := by
  rw [List.eq_nil_iff_forall_not_mem]
  change (∀ name ∈ extractMissingModules log, False) ↔ _
  rw [forall_missing_iff]
  constructor
  · intro h word hcaptured
    exact h [] word hcaptured (by decide)
  · intro h earlier word hcaptured _
    cases hcaptured with
    | first hfirst => exact h word (.first hfirst)
    | later hfirst => exact h _ (.first hfirst)

/-- What the strategy installs is sound where a focused strategy was tried before or nothing is
captured, and otherwise exactly where every captured word with fewer than ten other names before
it is a reported module with a plain name, and the base leaves no instruction open. -/
theorem installs_missing_iff (escape : Dockerfile.Escape) (alphabet : Alphabet)
    (inputs : StrategyInputs) (imageRef : String) (buildRecipe : Option Dict) :
    InstallsMissing escape alphabet inputs imageRef buildRecipe ↔
      needsEscalation inputs = true ∨ (∀ word, ¬ Captured inputs.stderrTail.toList [] word) ∨
        (∀ earlier word, Captured inputs.stderrTail.toList earlier word →
          (earlier.map topLevel).eraseDups.length < 10 →
            ReportedMissing inputs.stderrTail.toList (topLevel word) ∧
              isIdentifier alphabet (topLevel word).toList = true) ∧
          ∀ base, baseDockerfile imageRef buildRecipe = some base →
            Dockerfile.Complete escape base.toList := by
  rw [← missing_nil_iff, ← or_assoc]
  unfold InstallsMissing
  rw [dependencyStrategy_overrides]
  by_cases hnone : needsEscalation inputs = true ∨ extractMissingModules inputs.stderrTail = []
  · rw [if_pos hnone]
    exact iff_of_true (fun names h => absurd h nofun) (.inl hnone)
  · rw [if_neg hnone, or_iff_right hnone, ← forall_missing_iff _ fun name =>
      ReportedMissing inputs.stderrTail.toList name ∧ isIdentifier alphabet name.toList = true]
    have hne := (not_or.mp hnone).2
    generalize extractMissingModules inputs.stderrTail = missing at hne
    have hsame {names : List String} (h : installOverrides missing = installOverrides names) :
        names = missing := by
      have hmap : missing.map Json.str = names.map .str := by simpa [installOverrides] using h
      exact (List.map_injective_iff.mpr (fun _ _ => Json.str.inj) hmap).symm
    constructor
    · intro h
      obtain ⟨hgood, hgains⟩ := h missing rfl
      exact ⟨hgood, (gainsInstall_iff hne fun name hname => (hgood name hname).2).mp hgains⟩
    · rintro ⟨hgood, hbase⟩ names hnames
      obtain rfl := hsame hnames
      exact ⟨hgood, (gainsInstall_iff hne fun name hname => (hgood name hname).2).mpr hbase⟩

/-- A dependency failure with this log and no earlier attempt. -/
def dependencyInputs (stderrTail : String) : StrategyInputs :=
  { failureClass := "dependency", stderrTail, limits := [], priorStrategies := []
    priorFailureClasses := [], expectedArtifacts := [], artifactManifest := [], codePlan := [] }

/-- The name of a function is installed as a package, and a quoted text over several lines becomes
an instruction of its own. -/
theorem unreported_installed :
    (∀ escape alphabet, ¬ InstallsMissing escape alphabet
      (dependencyInputs "ImportError: cannot import name 'run' from 'train'") "python:3.12-slim"
        none) ∧
      (∀ escape alphabet, ¬ InstallsMissing escape alphabet
        (dependencyInputs "ImportError: 'x\nRUN touch /root/y\n'") "python:3.12-slim" none) ∧
        ∃ recipe content, patchedRecipe "python:3.12-slim" none
            (dependencyStrategy (dependencyInputs "ImportError: 'x\nRUN touch /root/y\n'")).overrides =
              .ok recipe ∧
          dockerfile recipe = some (.str content) ∧
            "RUN touch /root/y".toList ∈ Dockerfile.instructions .backslash content.toList := by
  have hunreported {log name : String} (hlog : ¬ "No module named ".toList <:+: log.toList) :
      ¬ ReportedMissing log.toList name := by
    rintro ⟨q, module, -, -, -, hinfix⟩
    exact hlog ((List.prefix_append _ _).isInfix.trans hinfix)
  have hoverrides {log : String} {names : List String} (hne : names ≠ [])
      (hmissing : extractMissingModules log = names) :
      (dependencyStrategy (dependencyInputs log)).overrides = installOverrides names := by
    have hfresh : needsEscalation (dependencyInputs log) = false := rfl
    have hlog : (dependencyInputs log).stderrTail = log := rfl
    rw [dependencyStrategy_overrides, hlog, hmissing, if_neg (by simp [hfresh, hne])]
  have hfunction : (dependencyStrategy (dependencyInputs
      "ImportError: cannot import name 'run' from 'train'")).overrides = installOverrides ["run"] :=
    hoverrides (by decide) (by decide +kernel)
  have hlines : (dependencyStrategy (dependencyInputs
      "ImportError: 'x\nRUN touch /root/y\n'")).overrides =
        installOverrides ["x\nRUN touch /root/y\n"] :=
    hoverrides (by decide) (by decide +kernel)
  refine ⟨fun escape alphabet h => ?_, fun escape alphabet h => ?_, ?_⟩
  · exact hunreported (by decide +kernel) ((h _ hfunction).1 "run" List.mem_cons_self).1
  · exact hunreported (by decide +kernel) ((h _ hlines).1 _ List.mem_cons_self).1
  · rw [hlines]
    have hbase : baseDockerfile "python:3.12-slim" none = some "FROM python:3.12-slim" := by
      decide +kernel
    obtain ⟨recipe, hrecipe, hcontent⟩ := recipe_installed (List.cons_ne_nil _ _) hbase
    exact ⟨recipe, _, hrecipe, hcontent, by decide +kernel⟩

end Synthetos.Remediation
