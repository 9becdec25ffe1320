import Synthetos.Lib.Except
import Synthetos.Lib.Fields
import Synthetos.Lib.Text

/-!
# What a run is prepared with

`execution_setup` merges the overrides of a remediation attempt into the code files and the build
recipe of the spec, and derives resource limits unless the run already has some.
-/

namespace Synthetos.Execution

open Lib

/-- A value used as a mapping; the files of a plan and the parts of an override are objects. -/
def asDict : Json → Except String Dict
  | .obj fields => .ok fields
  | _ => .error "AttributeError: object has no attribute 'get'"

/-- `existing.update(patched)`: a replaced file keeps its place, a new one comes last. -/
def mergeFiles (existing patched : Dict) : Dict :=
  existing.map (fun file => (file.1, patched.getD file.1 file.2)) ++
    patched.filter fun file => (existing.get? file.1).isNone

def patchedCodePlan (codePlan overrides : Dict) : Except String Dict :=
  match overrides.get? "code_plan" with
  | none => .ok codePlan
  | some patch => do
    let patched ← asDict ((← asDict patch).getD "patched_files" (.obj []))
    let existing ← asDict (codePlan.getD "files" (.obj []))
    return codePlan.set "files" (.obj (mergeFiles existing patched))

def planFiles (codePlan : Option Dict) (overrides : Dict) : Except String Dict := do
  asDict ((← patchedCodePlan (codePlan.getD []) overrides).getD "files" (.obj []))

/-- `' '.join(extra_pkgs)` takes texts only. -/
def packageNames : Json → Except String (List String)
  | .arr items => items.mapM fun
    | .str name => .ok name
    | _ => .error "TypeError: sequence item: expected str instance"
  | _ => .error "TypeError: can only join an iterable"

def pipLine (extraPkgs : List String) : String :=
  "RUN pip install " ++ " ".intercalate extraPkgs

def recipeWithPackages (imageRef : String) (buildRecipe : Option Dict) (extraPkgs : List String) :
    Except String Dict :=
  match (buildRecipe.bind fun recipe => recipe.get? "dockerfile_content").filter Json.truthy with
  | some (.str content) =>
    .ok ((buildRecipe.getD []).set "dockerfile_content"
      (.str (content ++ "\n" ++ pipLine extraPkgs ++ "\n")))
  | some _ => .error "TypeError: can only concatenate str"
  | none =>
    .ok [("dockerfile_content",
      .str ("FROM " ++ imageRef ++ "\n" ++ pipLine extraPkgs ++ "\n"))]

def patchedRecipe (imageRef : String) (buildRecipe : Option Dict) (overrides : Dict) :
    Except String (Option Dict) :=
  match overrides.get? "build_recipe" with
  | none => .ok buildRecipe
  | some patch => do
    let extraPkgs ← packageNames ((← asDict patch).getD "extra_pip_packages" (.arr []))
    if extraPkgs.isEmpty then return buildRecipe
    return some (← recipeWithPackages imageRef buildRecipe extraPkgs)

def dockerfile (buildRecipe : Option Dict) : Option Json :=
  (buildRecipe.bind fun recipe => recipe.get? "dockerfile_content").filter Json.truthy

/-- The Dockerfile without the extra packages, where it is a text. -/
def baseDockerfile (imageRef : String) (buildRecipe : Option Dict) : Option String :=
  match (buildRecipe.bind fun recipe => recipe.get? "dockerfile_content").filter Json.truthy with
  | some (.str content) => some content
  | some _ => none
  | none => some ("FROM " ++ imageRef)

/-- `f"{mem_gb}g" if isinstance(mem_gb, int) else "16g"`, where booleans are integers. -/
def memoryText : Option Json → String
  | some (.int n) => toString n ++ "g"
  | some (.bool b) => (if b then "True" else "False") ++ "g"
  | _ => "16g"

def profileLimits (hw : Dict) : Dict :=
  [("memory", .str (memoryText (hw.get? "memory_gb"))),
    ("timeout", hw.getD "timeout_seconds" (.int 3600)),
    ("gpu", hw.getD "gpu_required" (.bool false)),
    ("gpu_count", hw.getD "gpu_count" (.int 1))]

def setupLimits (resourceLimits hardwareProfile : Option Dict) : Dict :=
  match resourceLimits with
  | some (limit :: rest) => limit :: rest
  | _ => profileLimits (hardwareProfile.getD [])

def patchedFilesOf (overrides : Dict) : Except String Dict :=
  match overrides.get? "code_plan" with
  | none => .ok []
  | some patch => do asDict ((← asDict patch).getD "patched_files" (.obj []))

def packagesOf (overrides : Dict) : Except String (List String) :=
  match overrides.get? "build_recipe" with
  | none => .ok []
  | some patch => do packageNames ((← asDict patch).getD "extra_pip_packages" (.arr []))

variable {existing patched overrides files recipe : Dict} {codePlan buildRecipe patchedTo : Option Dict}
  {imageRef base content : String} {names : List String}

/-! ### Code files -/

theorem mergeFiles_nil (existing : Dict) : mergeFiles existing [] = existing := by
  have hsame : (fun file : String × Json => (file.1, Dict.getD [] file.1 file.2)) = id := by
    funext file
    rfl
  rw [mergeFiles, hsame, List.map_id, List.filter_nil, List.append_nil]

theorem get?_mergeFiles (existing patched : Dict) (name : String) :
    (mergeFiles existing patched).get? name = (patched.get? name).or (existing.get? name) := by
  have hold : Dict.get? (existing.map fun file => (file.1, patched.getD file.1 file.2)) name =
      (existing.get? name).map (patched.getD name) := by
    unfold Dict.get?
    induction existing with
    | nil => rfl
    | cons file rest ih =>
      obtain ⟨key, old⟩ := file
      simp only [List.map_cons, List.lookup_cons]
      by_cases hname : name = key
      · subst hname
        simp
      · have hne : (name == key) = false := by simpa using hname
        simp only [hne, ih]
  rw [mergeFiles, Dict.get?_append, hold]
  cases hexisting : existing.get? name with
  | some old =>
    rw [Option.map_some, Option.some_or, Dict.getD]
    cases patched.get? name <;> rfl
  | none =>
    rw [Option.map_none, Option.none_or, Option.or_none]
    exact Entries.lookup_filter_of_kept (fun key => (existing.get? key).isNone) (by simp [hexisting]) _

theorem planFiles_eq_ok : planFiles codePlan overrides = .ok files ↔ ∃ existing patched,
    (codePlan.getD []).getD "files" (.obj []) = .obj existing ∧
      patchedFilesOf overrides = .ok patched ∧ files = mergeFiles existing patched := by
  have hdict {v : Json} {fields : Dict} : asDict v = .ok fields ↔ v = .obj fields := by
    cases v <;> simp [asDict]
  unfold planFiles patchedCodePlan patchedFilesOf
  generalize codePlan.getD [] = plan
  constructor
  · intro h
    obtain ⟨merged, hmerged, hfiles⟩ := bind_eq_ok.mp h
    split at hmerged
    · obtain rfl := Except.ok.inj hmerged
      exact ⟨files, [], hdict.mp hfiles, rfl, (mergeFiles_nil files).symm⟩
    · obtain ⟨fields, hfields, hmerged⟩ := bind_eq_ok.mp hmerged
      obtain ⟨patched, hpatched, hmerged⟩ := bind_eq_ok.mp hmerged
      obtain ⟨existing, hexisting, hmerged⟩ := bind_eq_ok.mp hmerged
      obtain rfl := pure_eq_ok.mp hmerged
      rw [Dict.getD, Dict.get?_set, Option.getD_some] at hfiles
      exact ⟨existing, patched, hdict.mp hexisting, bind_eq_ok.mpr ⟨fields, hfields, hpatched⟩,
        (Except.ok.inj hfiles).symm⟩
  · rintro ⟨existing, patched, hexisting, hpatched, rfl⟩
    split at hpatched
    · obtain rfl := Except.ok.inj hpatched
      refine bind_eq_ok.mpr ⟨plan, rfl, hdict.mpr ?_⟩
      rw [hexisting, mergeFiles_nil]
    · obtain ⟨fields, hfields, hpatched⟩ := bind_eq_ok.mp hpatched
      refine bind_eq_ok.mpr ⟨_, bind_eq_ok.mpr ⟨fields, hfields, bind_eq_ok.mpr ⟨patched, hpatched,
        bind_eq_ok.mpr ⟨existing, hdict.mpr hexisting, rfl⟩⟩⟩, ?_⟩
      rw [Dict.getD, Dict.get?_set]
      rfl

/-! ### Build recipes -/

theorem recipeWithPackages_ok (names : List String)
    (hbase : baseDockerfile imageRef buildRecipe = some base) :
    ∃ recipe, recipeWithPackages imageRef buildRecipe names = .ok recipe ∧
      dockerfile (some recipe) = some (.str (base ++ "\n" ++ pipLine names ++ "\n")) := by
  have htruthy : (Json.str (base ++ "\n" ++ pipLine names ++ "\n")).truthy = true := by
    refine bne_iff_ne.mpr fun hempty => ?_
    have hlength := congrArg String.length hempty
    simp at hlength
  unfold baseDockerfile at hbase
  unfold recipeWithPackages dockerfile
  split at hbase
  · rename_i old hold
    obtain rfl := Option.some.inj hbase
    refine ⟨_, rfl, ?_⟩
    rw [Option.bind_some, Dict.get?_set]
    exact Option.filter_eq_some_iff.mpr ⟨rfl, htruthy⟩
  · exact absurd hbase nofun
  · obtain rfl := Option.some.inj hbase
    exact ⟨_, rfl, Option.filter_eq_some_iff.mpr ⟨rfl, htruthy⟩⟩

theorem baseDockerfile_of_ok (h : recipeWithPackages imageRef buildRecipe names = .ok recipe) :
    ∃ base, baseDockerfile imageRef buildRecipe = some base := by
  unfold recipeWithPackages at h
  unfold baseDockerfile
  split at h
  · exact ⟨_, rfl⟩
  · exact absurd h nofun
  · exact ⟨_, rfl⟩

theorem baseDockerfile_of_text (h : dockerfile buildRecipe = some (.str content)) :
    baseDockerfile imageRef buildRecipe = some content := by
  unfold dockerfile at h
  rw [baseDockerfile, h]

theorem patchedRecipe_eq_ok : patchedRecipe imageRef buildRecipe overrides = .ok patchedTo ↔
    ∃ names, packagesOf overrides = .ok names ∧ (names = [] ∧ patchedTo = buildRecipe ∨
      names ≠ [] ∧ ∃ recipe, recipeWithPackages imageRef buildRecipe names = .ok recipe ∧
        patchedTo = some recipe) := by
  unfold patchedRecipe packagesOf
  split
  · constructor
    · intro h
      exact ⟨[], rfl, .inl ⟨rfl, (Except.ok.inj h).symm⟩⟩
    · rintro ⟨names, hnames, h⟩
      obtain rfl := Except.ok.inj hnames
      obtain ⟨-, rfl⟩ | ⟨hne, -⟩ := h
      · rfl
      · exact absurd rfl hne
  · constructor
    · intro h
      obtain ⟨fields, hfields, h⟩ := bind_eq_ok.mp h
      obtain ⟨names, hnames, h⟩ := bind_eq_ok.mp h
      refine ⟨names, bind_eq_ok.mpr ⟨fields, hfields, hnames⟩, ?_⟩
      cases names with
      | nil => exact .inl ⟨rfl, (pure_eq_ok.mp h).symm⟩
      | cons name rest =>
        obtain ⟨recipe, hrecipe, h⟩ := bind_eq_ok.mp h
        exact .inr ⟨List.cons_ne_nil name rest, recipe, hrecipe, (pure_eq_ok.mp h).symm⟩
    · rintro ⟨names, hnames, h⟩
      obtain ⟨fields, hfields, hnames⟩ := bind_eq_ok.mp hnames
      refine bind_eq_ok.mpr ⟨fields, hfields, bind_eq_ok.mpr ⟨names, hnames, ?_⟩⟩
      obtain ⟨rfl, rfl⟩ | ⟨hne, recipe, hrecipe, rfl⟩ := h
      · rfl
      · rw [if_neg (by simpa using hne)]
        exact bind_eq_ok.mpr ⟨recipe, hrecipe, rfl⟩

end Synthetos.Execution
