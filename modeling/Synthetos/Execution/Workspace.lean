import Synthetos.Execution.Preparation
import Synthetos.Lib.Fields
import Synthetos.Lib.Paths
import Synthetos.Protocols.Compile
import Synthetos.Remediation.Strategies

/-!
# Workspace confinement

Where `execution_setup` writes the code files of a run.
-/

namespace Synthetos.Execution

open Synthetos.Core Protocols Lib Lib.Path

/-- Whether the directories above a path can be made and the path be opened for writing, given the
paths written before. -/
abbrev Disk := List Dir → Dir → Bool

/-- Write the files in order; the first that cannot be written ends the loop. -/
def writeFiles (disk : Disk) (worktree : Dir) (written : List Dir) : Dict → List Dir
  | (filename, .str _) :: rest =>
    let filePath := resolve worktree filename.toList
    if disk written filePath then
      filePath :: writeFiles disk worktree (written ++ [filePath]) rest
    else []
  | _ => []

def setupWrites (disk : Disk) (worktree : Dir) (codePlan : Option Dict) (overrides : Dict) :
    List Dir :=
  match planFiles codePlan overrides with
  | .ok files => writeFiles disk worktree [] files
  | .error _ => []

/-- Whatever the file system lets it write, the code stays in the worktree. -/
def Confined (worktree : Dir) (codePlan : Option Dict) (overrides : Dict) : Prop :=
  ∀ (disk : Disk), ∀ path ∈ setupWrites disk worktree codePlan overrides, worktree <+: path

def isText : Json → Bool
  | .str _ => true
  | _ => false

def textFiles (files : Dict) : Dict := files.takeWhile fun file => isText file.2

variable {disk : Disk} {worktree : Dir} {written : List Dir} {files existing patched : Dict}
  {codePlan : Option Dict} {overrides : Dict}

/-! ### Writes -/

theorem writeFiles_initial (disk : Disk) (worktree : Dir) (written : List Dir) (files : Dict) :
    writeFiles disk worktree written files <+:
      (textFiles files).map fun file => resolve worktree file.1.toList := by
  induction files generalizing written with
  | nil => exact List.prefix_refl _
  | cons file rest ih =>
    obtain ⟨filename, content⟩ := file
    cases content with
    | str text =>
      change _ <+: resolve worktree filename.toList ::
        (textFiles rest).map fun file => resolve worktree file.1.toList
      unfold writeFiles
      dsimp only
      split
      · exact (List.prefix_cons_inj _).mpr (ih _)
      · exact List.nil_prefix
    | _ => exact List.nil_prefix

theorem writeFiles_open (worktree : Dir) (written : List Dir) (files : Dict) :
    writeFiles (fun _ _ => true) worktree written files =
      (textFiles files).map fun file => resolve worktree file.1.toList := by
  induction files generalizing written with
  | nil => rfl
  | cons file rest ih =>
    obtain ⟨filename, content⟩ := file
    cases content with
    | str text =>
      change resolve worktree filename.toList :: writeFiles _ worktree _ rest =
        resolve worktree filename.toList :: _
      rw [ih]
      rfl
    | _ => rfl

theorem setupWrites_iff (inside : Dir → Prop) :
    (∀ (disk : Disk), ∀ path ∈ setupWrites disk worktree codePlan overrides, inside path) ↔
      ∀ files, planFiles codePlan overrides = .ok files → ∀ file ∈ textFiles files,
        inside (resolve worktree file.1.toList) := by
  unfold setupWrites
  constructor
  · intro h files hfiles file hfile
    have hopen := h fun _ _ => true
    rw [hfiles] at hopen
    dsimp only at hopen
    rw [writeFiles_open] at hopen
    exact hopen _ (List.mem_map_of_mem hfile)
  · intro h disk path hpath
    split at hpath
    · rename_i files hfiles
      obtain ⟨file, hfile, rfl⟩ := List.mem_map.mp
        ((writeFiles_initial disk worktree [] files).subset hpath)
      exact h files hfiles file hfile
    · exact absurd hpath List.not_mem_nil

/-- The code is confined where every filename stays, up to the first file that is no text. -/
theorem confined_iff (worktree : Dir) (codePlan : Option Dict) (overrides : Dict) :
    Confined worktree codePlan overrides ↔
      ∀ files, planFiles codePlan overrides = .ok files → ∀ file ∈ textFiles files,
        Stays worktree file.1.toList := by
  simp only [← prefix_resolve_iff]
  exact setupWrites_iff _

/-- A plan a language model drafted, with one code file. -/
def draftedPlan (filename : String) : CompiledSpec :=
  { baseline := [("description", .str "baseline")]
    metrics := [[("name", .str "accuracy"), ("direction", .str "maximize")]]
    codePlan := [("entry_point", .str "main.py"), ("files", .obj [(filename, .str "pass")])] }

/-- The plan is accepted and its file lands in the workspace of another run; so does the file a
debugging attempt adds to a plan whose own file stays. -/
theorem written_elsewhere :
    let worktree := ["workspaces", "run-1"].map String.toList
    (validateSpec (draftedPlan "../run-2/main.py") = [] ∧
      ¬ Confined worktree (some (draftedPlan "../run-2/main.py").codePlan) []) ∧
      validateSpec (draftedPlan "main.py") = [] ∧
        ¬ Confined worktree (some (draftedPlan "main.py").codePlan) [("code_plan",
          .obj [("patched_files", .obj [("/workspaces/run-2/main.py", .str "pass")])])] := by
  intro worktree
  have outside {codePlan : Option Dict} {overrides : Dict}
      (h : ["workspaces", "run-2", "main.py"].map String.toList ∈
        setupWrites (fun _ _ => true) worktree codePlan overrides) :
      ¬ Confined worktree codePlan overrides :=
    fun hconfined => absurd (hconfined _ _ h) (by decide)
  exact ⟨⟨by decide +kernel, outside (by decide +kernel)⟩, by decide +kernel,
    outside (by decide +kernel)⟩

/-! ### Path repairs -/

theorem mem_patchedFiles {produced expected : List Char} {name : String} {content : Json}
    (h : (name, content) ∈ Remediation.patchedFiles produced expected existing) :
    isText content = true ∧ ∃ text, (name, .str text) ∈ existing := by
  unfold Remediation.patchedFiles at h
  obtain ⟨⟨path, old⟩, hold, hnew⟩ := List.mem_filterMap.mp h
  cases old with
  | str text =>
    obtain ⟨-, hpair⟩ := Option.ite_none_left_eq_some.mp hnew
    obtain ⟨rfl, rfl⟩ := Prod.mk.inj (Option.some.inj hpair)
    exact ⟨rfl, text, hold⟩
  | _ => exact absurd hnew nofun

theorem isText_patched {produced expected : List Char} (hkeys : (existing.map Prod.fst).Nodup)
    {file : String × Json} (hfile : file ∈ existing) :
    isText (Dict.getD (Remediation.patchedFiles produced expected existing) file.1 file.2) =
      isText file.2 := by
  unfold Dict.getD Dict.get?
  cases hnew : (Remediation.patchedFiles produced expected existing).lookup file.1 with
  | none => rfl
  | some content =>
    obtain ⟨htext, text, hold⟩ := mem_patchedFiles (Entries.mem_of_lookup hnew)
    have hsame : (file.1, Json.str text) = file := List.inj_on_of_nodup_map hkeys hold hfile rfl
    rw [Option.getD_some, htext, ← hsame]
    rfl

theorem textFiles_repaired {produced expected : List Char} (hkeys : (existing.map Prod.fst).Nodup) :
    (textFiles (mergeFiles existing
      (Remediation.patchedFiles produced expected existing))).map Prod.fst =
        (textFiles existing).map Prod.fst := by
  generalize hpatched : Remediation.patchedFiles produced expected existing = patched
  have hnew : (patched.filter fun file => (existing.get? file.1).isNone) = [] := by
    refine List.filter_eq_nil_iff.mpr fun file hfile hnone => ?_
    obtain ⟨-, text, hold⟩ := mem_patchedFiles (hpatched ▸ hfile)
    have hsome := Dict.isSome_get?_iff.mpr (List.mem_map_of_mem (f := Prod.fst) hold)
    rw [Option.isNone_iff_eq_none.mp hnone] at hsome
    exact absurd hsome nofun
  have htext : ∀ file ∈ existing, isText (patched.getD file.1 file.2) = isText file.2 :=
    fun file hfile => hpatched ▸ isText_patched hkeys hfile
  rw [mergeFiles, hnew, List.append_nil, textFiles, List.takeWhile_map, List.map_map, textFiles]
  congr 1
  clear hkeys hnew hpatched
  induction existing with
  | nil => rfl
  | cons file rest ih =>
    simp only [List.takeWhile_cons, Function.comp_apply, htext file List.mem_cons_self]
    rw [← ih fun file hfile => htext file (List.mem_cons_of_mem _ hfile)]

theorem confined_repaired_iff {codePlan : Dict} {produced expected : List Char}
    (hfiles : codePlan.get? "files" = some (.obj existing))
    (hkeys : (existing.map Prod.fst).Nodup) :
    Confined worktree (some codePlan) [("code_plan", .obj [("patched_files",
        .obj (Remediation.patchedFiles produced expected existing))])] ↔
      Confined worktree (some codePlan) [] := by
  have hexisting : codePlan.getD "files" (.obj []) = .obj existing := by
    rw [Dict.getD, hfiles, Option.getD_some]
  have hrepaired : planFiles (some codePlan) [("code_plan", .obj [("patched_files",
      .obj (Remediation.patchedFiles produced expected existing))])] =
        .ok (mergeFiles existing (Remediation.patchedFiles produced expected existing)) :=
    planFiles_eq_ok.mpr ⟨existing, _, hexisting, rfl, rfl⟩
  have hplain : planFiles (some codePlan) [] = .ok existing :=
    planFiles_eq_ok.mpr ⟨existing, [], hexisting, rfl, (mergeFiles_nil existing).symm⟩
  have hby (files : Dict) : (∀ file ∈ textFiles files,
      worktree <+: resolve worktree file.1.toList) ↔
        ∀ name ∈ (textFiles files).map Prod.fst, worktree <+: resolve worktree name.toList := by
    rw [List.forall_mem_map]
  unfold Confined
  simp only [setupWrites_iff, hrepaired, hplain, Except.ok.injEq, forall_eq']
  rw [hby, hby, textFiles_repaired hkeys]

end Synthetos.Execution
