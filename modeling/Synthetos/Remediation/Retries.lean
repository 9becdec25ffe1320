import Synthetos.Execution.Preparation
import Synthetos.Remediation.Strategies
import Synthetos.Storage.Models
import Mathlib.Data.List.Induction

/-!
# What the retries of a lineage are prepared with

The overrides of code and build recipe travel in the setup job of one retry, the limits in its
row.  `execution_setup` starts from the spec each time.
-/

namespace Synthetos.Remediation

open Lib Storage Execution

/-- The overrides of an attempt, or `none` where no retry is created; `debugged` are the files of a
broad debug, where the language model produced some. -/
def attemptOverrides (strat : StrategyResult) (debugged : Option Dict) : Option Dict :=
  if !strat.remediable then none
  else if strat.strategy = "debug_broad" then
    (debugged.filter fun patched => !patched.isEmpty).map fun patched =>
      strat.overrides.set "code_plan" (.obj [("patched_files", .obj patched)])
  else some strat.overrides

def limitsOf (overrides : Dict) : Except String Dict :=
  match overrides.get? "run_resource_limits" with
  | none => .ok []
  | some limits => asDict limits

def retryLimits (resourceLimits : Option Dict) (overrides : Dict) : Except String (Option Dict) := do
  let newLimits := (resourceLimits.getD []).update (← limitsOf overrides)
  return if newLimits.isEmpty then none else some newLimits

/-- The overrides in the payload of the retry's setup. -/
def setupOverrides (overrides : Dict) : Dict :=
  overrides.filter fun field => field.1 == "code_plan" || field.1 == "build_recipe"

/-- What `execution_setup` prepares a run with. -/
structure Preparation where
  files : Dict
  buildRecipe : Option Dict
  limits : Dict

def imageOf (spec : ExperimentSpec) : String :=
  (spec.baseImage.filter fun image => image != "").getD "python:3.12-slim"

def prepare (spec : ExperimentSpec) (resourceLimits : Option Dict) (overrides : Dict) :
    Except String Preparation := do
  let files ← planFiles spec.codePlan overrides
  let buildRecipe ← patchedRecipe (imageOf spec) spec.buildRecipe overrides
  return ⟨files, buildRecipe, setupLimits resourceLimits spec.hardwareProfile⟩

/-- The retry of a run that was prepared and failed. -/
def retry (spec : ExperimentSpec) (failed : Preparation) (overrides : Dict) :
    Except String Preparation := do
  prepare spec (← retryLimits (some failed.limits) overrides) (setupOverrides overrides)

/-- The last run of a lineage with these attempts. -/
def lastRetry (spec : ExperimentSpec) (attempts : List Dict) : Except String Preparation := do
  attempts.foldlM (retry spec) (← prepare spec none [])

def applyFix (spec : ExperimentSpec) (before : Preparation) (overrides : Dict) :
    Except String Preparation := do
  let files ← planFiles (some [("files", .obj before.files)]) overrides
  let buildRecipe ← patchedRecipe (imageOf spec) before.buildRecipe overrides
  return ⟨files, buildRecipe, before.limits.update (← limitsOf overrides)⟩

/-- The overrides of all attempts folded in order. -/
def allFixes (spec : ExperimentSpec) (attempts : List Dict) : Except String Preparation := do
  attempts.foldlM (applyFix spec) (← prepare spec none [])

structure Preparation.Same (p q : Preparation) : Prop where
  files : ∀ name, p.files.get? name = q.files.get? name
  dockerfile : dockerfile p.buildRecipe = dockerfile q.buildRecipe
  limits : p.limits = q.limits

def patchOf (attempt : Dict) (name : String) : Option Json :=
  ((patchedFilesOf attempt).toOption.getD []).get? name

def packages (attempt : Dict) : List String := (packagesOf attempt).toOption.getD []

/-- The content the last attempt that patched a file gave it. -/
def latestPatch (attempts : List Dict) (name : String) : Option Json :=
  attempts.foldl (fun found attempt => (patchOf attempt name).or found) none

def specFile (spec : ExperimentSpec) (name : String) : Option Json :=
  match (spec.codePlan.getD []).getD "files" (.obj []) with
  | .obj files => Dict.get? files name
  | _ => none

variable {spec : ExperimentSpec} {attempts earlier : List Dict} {overrides last existing : Dict}
  {p q : Preparation}

/-! ### One retry -/

theorem get?_setupOverrides {key : String} (h : key = "code_plan" ∨ key = "build_recipe") :
    (setupOverrides overrides).get? key = overrides.get? key :=
  Entries.lookup_filter_of_kept (fun name => name == "code_plan" || name == "build_recipe")
    (by simpa using h) overrides

theorem patchedFilesOf_setup (overrides : Dict) :
    patchedFilesOf (setupOverrides overrides) = patchedFilesOf overrides := by
  rw [patchedFilesOf, patchedFilesOf, get?_setupOverrides (.inl rfl)]

theorem packagesOf_setup (overrides : Dict) :
    packagesOf (setupOverrides overrides) = packagesOf overrides := by
  rw [packagesOf, packagesOf, get?_setupOverrides (.inr rfl)]

theorem setupLimits_updated {limits : Dict} (hne : limits ≠ []) (new : Dict)
    (hardwareProfile : Option Dict) :
    limits.update new ≠ [] ∧ setupLimits (some (limits.update new)) hardwareProfile =
      limits.update new := by
  have hupdated : limits.update new ≠ [] := by
    intro hnil
    obtain ⟨rfl, hkept⟩ := List.append_eq_nil_iff.mp hnil
    obtain ⟨field, rest, rfl⟩ := List.exists_cons_of_ne_nil hne
    simp [Dict.get?] at hkept
  refine ⟨hupdated, ?_⟩
  unfold setupLimits
  cases hcases : limits.update new with
  | nil => exact absurd hcases hupdated
  | cons field rest => rfl

/-- A run's files and recipe come from the spec and its own overrides; its limits also from the
row of the run that failed. -/
theorem retry_eq_ok (hne : p.limits ≠ []) : retry spec p overrides = .ok q ↔
    planFiles spec.codePlan overrides = .ok q.files ∧
      patchedRecipe (imageOf spec) spec.buildRecipe overrides = .ok q.buildRecipe ∧
        ∃ limits, limitsOf overrides = .ok limits ∧ q.limits = p.limits.update limits := by
  have hfiles (files : Dict) : planFiles spec.codePlan (setupOverrides overrides) = .ok files ↔
      planFiles spec.codePlan overrides = .ok files := by
    rw [planFiles_eq_ok, planFiles_eq_ok, patchedFilesOf_setup]
  have hrecipe (recipe : Option Dict) :
      patchedRecipe (imageOf spec) spec.buildRecipe (setupOverrides overrides) = .ok recipe ↔
        patchedRecipe (imageOf spec) spec.buildRecipe overrides = .ok recipe := by
    rw [patchedRecipe_eq_ok, patchedRecipe_eq_ok, packagesOf_setup]
  have hlimits (limits : Dict) (h : limitsOf overrides = .ok limits) :
      retryLimits (some p.limits) overrides = .ok (some (p.limits.update limits)) := by
    refine bind_eq_ok.mpr ⟨limits, h, ?_⟩
    dsimp only [Option.getD_some]
    rw [if_neg (by simpa using (setupLimits_updated hne limits none).1)]
    rfl
  constructor
  · intro h
    obtain ⟨row, hrow, h⟩ := bind_eq_ok.mp h
    obtain ⟨limits, hread, -⟩ := bind_eq_ok.mp hrow
    obtain rfl := Except.ok.inj ((hlimits limits hread).symm.trans hrow)
    obtain ⟨files, hplan, h⟩ := bind_eq_ok.mp h
    obtain ⟨recipe, hpatched, h⟩ := bind_eq_ok.mp h
    obtain rfl := pure_eq_ok.mp h
    exact ⟨(hfiles files).mp hplan, (hrecipe recipe).mp hpatched, limits, hread,
      (setupLimits_updated hne limits _).2⟩
  · rintro ⟨hplan, hpatched, limits, hread, hq⟩
    refine bind_eq_ok.mpr ⟨_, hlimits limits hread, bind_eq_ok.mpr ⟨q.files, (hfiles _).mpr hplan,
      bind_eq_ok.mpr ⟨q.buildRecipe, (hrecipe _).mpr hpatched, ?_⟩⟩⟩
    rw [(setupLimits_updated hne limits _).2, ← hq]
    rfl

theorem applyFix_eq_ok : applyFix spec p overrides = .ok q ↔
    (∃ patched, patchedFilesOf overrides = .ok patched ∧ q.files = mergeFiles p.files patched) ∧
      patchedRecipe (imageOf spec) p.buildRecipe overrides = .ok q.buildRecipe ∧
        ∃ limits, limitsOf overrides = .ok limits ∧ q.limits = p.limits.update limits := by
  have hfiles (files : Dict) : planFiles (some [("files", .obj p.files)]) overrides = .ok files ↔
      ∃ patched, patchedFilesOf overrides = .ok patched ∧ files = mergeFiles p.files patched := by
    rw [planFiles_eq_ok]
    constructor
    · rintro ⟨existing, patched, hexisting, hpatched, rfl⟩
      obtain rfl := Json.obj.inj hexisting
      exact ⟨patched, hpatched, rfl⟩
    · rintro ⟨patched, hpatched, rfl⟩
      exact ⟨p.files, patched, rfl, hpatched, rfl⟩
  constructor
  · intro h
    obtain ⟨files, hplan, h⟩ := bind_eq_ok.mp h
    obtain ⟨recipe, hpatched, h⟩ := bind_eq_ok.mp h
    obtain ⟨limits, hread, h⟩ := bind_eq_ok.mp h
    obtain rfl := pure_eq_ok.mp h
    exact ⟨(hfiles files).mp hplan, hpatched, limits, hread, rfl⟩
  · rintro ⟨hplan, hpatched, limits, hread, hq⟩
    refine bind_eq_ok.mpr ⟨q.files, (hfiles _).mpr hplan, bind_eq_ok.mpr ⟨q.buildRecipe, hpatched,
      bind_eq_ok.mpr ⟨limits, hread, ?_⟩⟩⟩
    rw [← hq]
    rfl

/-! ### A lineage -/

theorem lastRetry_snoc (spec : ExperimentSpec) (attempts : List Dict) (last : Dict) :
    lastRetry spec (attempts ++ [last]) = lastRetry spec attempts >>= fun p => retry spec p last := by
  simp [lastRetry, List.foldlM_append]

theorem allFixes_snoc (spec : ExperimentSpec) (attempts : List Dict) (last : Dict) :
    allFixes spec (attempts ++ [last]) = allFixes spec attempts >>= fun q => applyFix spec q last := by
  simp [allFixes, List.foldlM_append]

theorem latestPatch_snoc (attempts : List Dict) (last : Dict) (name : String) :
    latestPatch (attempts ++ [last]) name = (patchOf last name).or (latestPatch attempts name) := by
  simp [latestPatch]

theorem patchOf_eq {patched : Dict} (h : patchedFilesOf overrides = .ok patched) (name : String) :
    patchOf overrides name = patched.get? name := by
  rw [patchOf, h]
  rfl

theorem packages_eq {names : List String} (h : packagesOf overrides = .ok names) :
    packages overrides = names := by
  rw [packages, h]
  rfl

theorem planFiles_get? {files : Dict} (h : planFiles spec.codePlan overrides = .ok files)
    (name : String) : files.get? name = (patchOf overrides name).or (specFile spec name) := by
  obtain ⟨existing, patched, hexisting, hpatched, rfl⟩ := planFiles_eq_ok.mp h
  rw [get?_mergeFiles, patchOf_eq hpatched, specFile, hexisting]

/-- What the recipe of the folded overrides has become. -/
inductive Installed (spec : ExperimentSpec) (attempts : List Dict) (recipe : Option Dict) : Prop where
  | nothing (hnone : ∀ attempt ∈ attempts, packages attempt = [])
      (hrecipe : recipe = spec.buildRecipe)
  | longer (base content : String) (hsome : ∃ attempt ∈ attempts, packages attempt ≠ [])
      (hbase : baseDockerfile (imageOf spec) spec.buildRecipe = some base)
      (hcontent : dockerfile recipe = some (.str content)) (hlonger : base.length < content.length)

/-- What the folded overrides have made of the spec. -/
structure Folded (spec : ExperimentSpec) (attempts : List Dict) (p q : Preparation) : Prop where
  files : ∀ name, q.files.get? name = (latestPatch attempts name).or (specFile spec name)
  recipe : Installed spec attempts q.buildRecipe
  limits : p.limits = q.limits
  limited : p.limits ≠ []

theorem installed_step {recipe alone : Option Dict} (h : Installed spec attempts recipe)
    (halone : patchedRecipe (imageOf spec) spec.buildRecipe last = .ok alone) :
    ∃ next, patchedRecipe (imageOf spec) recipe last = .ok next ∧
      Installed spec (attempts ++ [last]) next := by
  obtain ⟨names, hnames, hcases⟩ := patchedRecipe_eq_ok.mp halone
  obtain ⟨rfl, -⟩ | ⟨hne, patched, hpatched, -⟩ := hcases
  · refine ⟨recipe, patchedRecipe_eq_ok.mpr ⟨[], hnames, .inl ⟨rfl, rfl⟩⟩, ?_⟩
    cases h with
    | nothing hnone hrecipe =>
      refine .nothing (fun attempt hmem => ?_) hrecipe
      rcases List.mem_append.mp hmem with hmem | hmem
      · exact hnone attempt hmem
      · rw [List.mem_singleton.mp hmem, packages_eq hnames]
    | longer base content hsome hbase hcontent hlonger =>
      obtain ⟨attempt, hmem, hinstalls⟩ := hsome
      exact .longer base content ⟨attempt, List.mem_append_left _ hmem, hinstalls⟩ hbase hcontent
        hlonger
  · obtain ⟨base, hbase⟩ := baseDockerfile_of_ok hpatched
    have hinstalls : ∃ attempt ∈ attempts ++ [last], packages attempt ≠ [] :=
      ⟨last, by simp, by rwa [packages_eq hnames]⟩
    have hnext (old : String) (hold : baseDockerfile (imageOf spec) recipe = some old)
        (hlonger : base.length ≤ old.length) : ∃ next,
          patchedRecipe (imageOf spec) recipe last = .ok next ∧
            Installed spec (attempts ++ [last]) next := by
      obtain ⟨next, hok, hcontent⟩ := recipeWithPackages_ok names hold
      refine ⟨some next, patchedRecipe_eq_ok.mpr ⟨names, hnames, .inr ⟨hne, next, hok, rfl⟩⟩,
        .longer base _ hinstalls hbase hcontent ?_⟩
      simp only [String.length_append]
      have hline : "\n".length = 1 := rfl
      omega
    cases h with
    | nothing hnone hrecipe => exact hnext base (hrecipe ▸ hbase) (Nat.le_refl _)
    | longer base' content hsome hbase' hcontent hlonger =>
      obtain rfl := Option.some.inj (hbase.symm.trans hbase')
      exact hnext content (baseDockerfile_of_text hcontent) (Nat.le_of_lt hlonger)

theorem prepare_folded (h : prepare spec none [] = .ok p) : Folded spec [] p p := by
  obtain ⟨files, hfiles, h⟩ := bind_eq_ok.mp h
  obtain ⟨recipe, hrecipe, h⟩ := bind_eq_ok.mp h
  obtain rfl := pure_eq_ok.mp h
  obtain rfl := Except.ok.inj hrecipe
  exact ⟨planFiles_get? hfiles, .nothing nofun rfl, rfl, List.cons_ne_nil _ _⟩

/-- Where the lineage goes on, so does the folding of its overrides. -/
theorem folded_run (h : lastRetry spec attempts = .ok p) :
    ∃ q, allFixes spec attempts = .ok q ∧ Folded spec attempts p q := by
  induction attempts using List.reverseRecOn generalizing p with
  | nil =>
    have hfirst : prepare spec none [] = .ok p := by simpa [lastRetry] using h
    exact ⟨p, by simpa [allFixes] using hfirst, prepare_folded hfirst⟩
  | append_singleton attempts last ih =>
    rw [lastRetry_snoc] at h
    obtain ⟨p', hbefore, hretry⟩ := bind_eq_ok.mp h
    obtain ⟨q', hfixes, hfolded⟩ := ih hbefore
    obtain ⟨hfiles, halone, limits, hread, hlimits⟩ := (retry_eq_ok hfolded.limited).mp hretry
    obtain ⟨existing, patched, -, hpatched, -⟩ := planFiles_eq_ok.mp hfiles
    obtain ⟨recipe, hrecipe, hinstalled⟩ := installed_step hfolded.recipe halone
    refine ⟨⟨mergeFiles q'.files patched, recipe, q'.limits.update limits⟩, ?_, ?_, hinstalled, ?_, ?_⟩
    · rw [allFixes_snoc]
      exact bind_eq_ok.mpr ⟨q', hfixes, applyFix_eq_ok.mpr ⟨⟨patched, hpatched, rfl⟩, hrecipe,
        limits, hread, rfl⟩⟩
    · intro name
      rw [latestPatch_snoc, patchOf_eq hpatched, Option.or_assoc, ← hfolded.files name]
      exact get?_mergeFiles q'.files patched name
    · rw [hlimits, hfolded.limits]
    · rw [hlimits]
      exact (setupLimits_updated hfolded.limited limits none).1

theorem dockerfile_eq_iff {recipe alone next : Option Dict} (h : Installed spec earlier recipe)
    (halone : patchedRecipe (imageOf spec) spec.buildRecipe last = .ok alone)
    (hnext : patchedRecipe (imageOf spec) recipe last = .ok next) :
    dockerfile alone = dockerfile next ↔ ∀ attempt ∈ earlier, packages attempt = [] := by
  cases h with
  | nothing hnone hrecipe =>
    obtain rfl := Except.ok.inj (halone.symm.trans (hrecipe ▸ hnext))
    exact iff_of_true rfl hnone
  | longer base content hsome hbase hcontent hlonger =>
    obtain ⟨attempt, hmem, hinstalls⟩ := hsome
    refine iff_of_false (fun heq => ?_) fun hnone => hinstalls (hnone attempt hmem)
    obtain ⟨names, hnames, hcases⟩ := patchedRecipe_eq_ok.mp halone
    obtain ⟨names', hnames', hcases'⟩ := patchedRecipe_eq_ok.mp hnext
    obtain rfl := Except.ok.inj (hnames.symm.trans hnames')
    obtain ⟨rfl, rfl⟩ | ⟨hne, patched, hpatched, rfl⟩ := hcases
    · obtain ⟨-, rfl⟩ | ⟨hne, -⟩ := hcases'
      · have hsame : base = content := Option.some.inj
          (hbase.symm.trans (baseDockerfile_of_text (heq.trans hcontent)))
        exact absurd hlonger (hsame ▸ Nat.lt_irrefl _)
      · exact absurd rfl hne
    · obtain ⟨rfl, -⟩ | ⟨-, patched', hpatched', rfl⟩ := hcases'
      · exact absurd rfl hne
      · obtain ⟨one, hone, honeContent⟩ := recipeWithPackages_ok names hbase
        have hgrown : baseDockerfile (imageOf spec) recipe = some content :=
          baseDockerfile_of_text hcontent
        obtain ⟨two, htwo, htwoContent⟩ := recipeWithPackages_ok names hgrown
        obtain rfl := Except.ok.inj (hone.symm.trans hpatched)
        obtain rfl := Except.ok.inj (htwo.symm.trans hpatched')
        rw [honeContent, htwoContent] at heq
        have hlength := congrArg String.length (Json.str.inj (Option.some.inj heq))
        simp only [String.length_append] at hlength
        omega

/-- The retry is prepared as the folded overrides say exactly where no earlier attempt installed
packages and every file an earlier attempt patched is patched once more or back to the spec's. -/
theorem accumulates_iff (hretry : lastRetry spec (earlier ++ [last]) = .ok p) :
    (∃ q, allFixes spec (earlier ++ [last]) = .ok q ∧ p.Same q) ↔
      (∀ attempt ∈ earlier, packages attempt = []) ∧
        ∀ name content, latestPatch earlier name = some content →
          (patchOf last name).isSome = true ∨ specFile spec name = some content := by
  obtain ⟨q, hq, hfolded⟩ := folded_run hretry
  have hsame : (∃ q, allFixes spec (earlier ++ [last]) = .ok q ∧ p.Same q) ↔ p.Same q := by
    constructor
    · rintro ⟨q', hq', h⟩
      obtain rfl := Except.ok.inj (hq.symm.trans hq')
      exact h
    · exact fun h => ⟨q, hq, h⟩
  rw [hsame]
  rw [lastRetry_snoc] at hretry
  obtain ⟨p', hbefore, hlast⟩ := bind_eq_ok.mp hretry
  obtain ⟨q', hq', hfolded'⟩ := folded_run hbefore
  obtain ⟨hfiles, halone, -⟩ := (retry_eq_ok hfolded'.limited).mp hlast
  rw [allFixes_snoc] at hq
  obtain ⟨q'', hq'', hfix⟩ := bind_eq_ok.mp hq
  obtain rfl := Except.ok.inj (hq'.symm.trans hq'')
  obtain ⟨-, hnext, -⟩ := applyFix_eq_ok.mp hfix
  have hdockerfile := dockerfile_eq_iff hfolded'.recipe halone hnext
  have hname (name : String) : p.files.get? name = q.files.get? name ↔
      ∀ content, latestPatch earlier name = some content →
        (patchOf last name).isSome = true ∨ specFile spec name = some content := by
    rw [planFiles_get? hfiles, hfolded.files, latestPatch_snoc]
    cases patchOf last name with
    | some content => simp
    | none =>
      cases latestPatch earlier name with
      | none => simp
      | some content => simp
  constructor
  · rintro ⟨hfiles, hcontent, -⟩
    exact ⟨hdockerfile.mp hcontent, fun name => (hname name).mp (hfiles name)⟩
  · rintro ⟨hnone, hkept⟩
    exact ⟨fun name => (hname name).mpr (hkept name), hdockerfile.mpr hnone, hfolded.limits⟩

def trainSpec : ExperimentSpec where
  hypothesisCardId := 0
  charterId := 0
  cycleId := 0
  codePlan := some [("files", .obj [("train.py", .str "fit(batch=512, workers=8)")])]

def moreMemory : Dict := [("run_resource_limits", .obj [("memory", .str "32g")])]

/-- What a broad debug sends along. -/
def patchedTo (content : String) : Dict :=
  [("code_plan", .obj [("patched_files", .obj [("train.py", .str content)])])]

theorem patched_name {content name : String} {v : Json}
    (h : patchOf (patchedTo content) name = some v) : name = "train.py" := by
  have hfields : patchOf (patchedTo content) name =
      Dict.get? [("train.py", .str content)] name := rfl
  rw [hfields, Dict.get?, List.lookup_cons] at h
  split at h
  · rename_i hname
    exact beq_iff_eq.mp hname
  · cases h

/-- Raised limits accumulate, and the last attempt may patch a file once more. -/
theorem memory_kept : ∃ p, lastRetry trainSpec
      ([moreMemory, patchedTo "fit(batch=64, workers=8)"] ++ [patchedTo "fit(batch=64)"]) = .ok p ∧
    ∃ q, allFixes trainSpec
      ([moreMemory, patchedTo "fit(batch=64, workers=8)"] ++ [patchedTo "fit(batch=64)"]) = .ok q ∧
      p.Same q := by
  refine ⟨_, rfl, (accumulates_iff rfl).mpr ⟨?_, ?_⟩⟩
  · decide +kernel
  · intro name content hpatched
    have hfirst : patchOf moreMemory name = none := rfl
    rw [latestPatch, List.foldl_cons, List.foldl_cons, List.foldl_nil, hfirst, Option.or_none,
      Option.or_none] at hpatched
    rw [patched_name hpatched]
    exact .inl (by decide +kernel)

/-- The first run of a lineage crashes. -/
def crashed : StrategyInputs where
  failureClass := "runtime"
  stderrTail := ""
  limits := profileLimits []
  priorStrategies := []
  priorFailureClasses := []
  expectedArtifacts := []
  artifactManifest := []
  codePlan := trainSpec.codePlan.getD []

/-- With the patch, the run goes on and needs more memory. -/
def killedAfterPatch : StrategyInputs :=
  { crashed with
    failureClass := "oom"
    priorStrategies := ["debug_broad"]
    priorFailureClasses := ["runtime"] }

theorem patch_lost :
    (selectStrategy crashed).toOption.bind
        (attemptOverrides · (some [("train.py", .str "fit(batch=64)")])) =
          some (patchedTo "fit(batch=64)") ∧
      (selectStrategy killedAfterPatch).toOption.bind (attemptOverrides · none) =
        some moreMemory ∧
      ∃ p, lastRetry trainSpec [patchedTo "fit(batch=64)", moreMemory] = .ok p ∧
        ¬ ∃ q, allFixes trainSpec [patchedTo "fit(batch=64)", moreMemory] = .ok q ∧ p.Same q := by
  refine ⟨rfl, rfl, _, rfl, ?_⟩
  rintro ⟨q, hq, hsame⟩
  obtain rfl := Except.ok.inj hq
  have hfile : some (Json.str "fit(batch=512, workers=8)") = some (Json.str "fit(batch=64)") :=
    hsame.files "train.py"
  exact absurd (Json.str.inj (Option.some.inj hfile)) (by decide)

end Synthetos.Remediation
