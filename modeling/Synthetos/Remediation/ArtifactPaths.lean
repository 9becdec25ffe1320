import Synthetos.Lib.Rewriting
import Synthetos.Remediation.Strategies

/-!
# Artifact path repairs

A repair replaces the produced path by the expected one, then the produced basename by the expected
one.  The second replacement also reads what the first inserted.
-/

namespace Synthetos.Remediation

open Lib Lib.Rewriting

def basename (path : List Char) : List Char := Text.afterLast '/' path

def splitAtPath (producedPath content : List Char) : List (List Char) :=
  gaps (scan (fun _ => true) producedPath (plain content))

/-- The expected basename for every reference to the produced basename; a path that ends in `/` has
none. -/
def withExpectedBasename (producedPath expectedPath text : List Char) : List Char :=
  if basename producedPath = [] then text
  else Text.replace (basename producedPath) (basename expectedPath) text

/-- The expected path for every reference to the produced path, and the expected basename for every
other reference to the produced basename. -/
def repairedText (producedPath expectedPath content : List Char) : List Char :=
  expectedPath.intercalate
    ((splitAtPath producedPath content).map (withExpectedBasename producedPath expectedPath))

/-- The expected path for every reference to the produced path, with its letters marked. -/
def withPathsMarked (producedPath expectedPath content : List Char) : Marked Char :=
  (inserted expectedPath).intercalate ((splitAtPath producedPath content).map plain)

/-- The references to the produced basename, read from the left once the paths are in place, share
no letter with an inserted path. -/
def InsertedPathsKept (producedPath expectedPath content : List Char) : Prop :=
  basename producedPath ≠ [] → basename producedPath ≠ basename expectedPath →
    Untouched (scan (fun _ => true) (basename producedPath)
      (withPathsMarked producedPath expectedPath content))

/-- A touched path shows in the text: the produced path has no directory, its basename cannot
overlap itself, or the basenames have one length. -/
def DamageShows (producedPath expectedPath : List Char) : Prop :=
  basename producedPath = producedPath ∨ Unbordered (basename producedPath) ∨
    (basename producedPath).length = (basename expectedPath).length

def rewrittenText (producedPath expectedPath content : List Char) : List Char :=
  let moved := Text.replace producedPath expectedPath content
  if basename producedPath ≠ [] ∧ basename producedPath ≠ basename expectedPath then
    Text.replace (basename producedPath) (basename expectedPath) moved
  else moved

theorem mem_patchedFiles_iff {producedPath expectedPath : List Char} {files : Dict} {path : String}
    {updated : Json} :
    (path, updated) ∈ patchedFiles producedPath expectedPath files ↔
      ∃ content, (path, .str content) ∈ files ∧
        rewrittenText producedPath expectedPath content.toList ≠ content.toList ∧
        updated = .str (String.ofList (rewrittenText producedPath expectedPath content.toList)) := by
  unfold patchedFiles
  rw [List.mem_filterMap]
  constructor
  · rintro ⟨⟨name, old⟩, hmem, hsome⟩
    cases old with
    | str content =>
      obtain ⟨hchanged, hpair⟩ := Option.ite_none_left_eq_some.mp hsome
      obtain ⟨rfl, rfl⟩ := Prod.mk.inj (Option.some.inj hpair)
      exact ⟨content, hmem, hchanged, rfl⟩
    | _ => exact absurd hsome nofun
  · rintro ⟨content, hmem, hchanged, rfl⟩
    exact ⟨(path, .str content), hmem, if_neg hchanged⟩

section

variable {producedPath expectedPath content : List Char}

theorem replace_eq_intercalate (producedPath expectedPath content : List Char) :
    Text.replace producedPath expectedPath content =
      expectedPath.intercalate (splitAtPath producedPath content) := by
  rw [replace_eq, splitAtPath, intercalate_gaps]

theorem letters_withPathsMarked (producedPath expectedPath content : List Char) :
    letters (withPathsMarked producedPath expectedPath content) =
      Text.replace producedPath expectedPath content := by
  rw [withPathsMarked, letters_intercalate, replace_eq_intercalate]

/-- Where no other reference is left, only the path is replaced. -/
theorem repairedText_of_gaps (h : ∀ gap ∈ splitAtPath producedPath content,
    withExpectedBasename producedPath expectedPath gap = gap) :
    repairedText producedPath expectedPath content =
      Text.replace producedPath expectedPath content := by
  rw [repairedText, List.map_congr_left h, List.map_id', replace_eq_intercalate]

theorem repairedText_eq_scan (hexpected : expectedPath ≠ []) (hname : basename producedPath ≠ []) :
    repairedText producedPath expectedPath content =
      render (basename expectedPath) (scan unmarked (basename producedPath)
        (withPathsMarked producedPath expectedPath content)) := by
  have hgap (gap : List Char) : withExpectedBasename producedPath expectedPath gap =
      render (basename expectedPath) (scan (fun _ => true) (basename producedPath) (plain gap)) := by
    rw [withExpectedBasename, if_neg hname, replace_eq]
  rw [repairedText, withPathsMarked, render_intercalate hname hexpected, funext hgap]

theorem rewrittenText_eq_scan (hname : basename producedPath ≠ [])
    (hdiff : basename producedPath ≠ basename expectedPath) :
    rewrittenText producedPath expectedPath content =
      render (basename expectedPath) (scan (fun _ => true) (basename producedPath)
        (withPathsMarked producedPath expectedPath content)) := by
  rw [rewrittenText, if_pos ⟨hname, hdiff⟩, ← letters_withPathsMarked producedPath,
    replace_letters]

/-- Without a second replacement there is nothing it could spoil. -/
theorem rewrittenText_of_moved
    (h : ¬ (basename producedPath ≠ [] ∧ basename producedPath ≠ basename expectedPath)) :
    rewrittenText producedPath expectedPath content =
      repairedText producedPath expectedPath content := by
  rw [rewrittenText, if_neg h, repairedText_of_gaps]
  intro gap _
  unfold withExpectedBasename
  split
  · rfl
  · rename_i hname
    have hsame : basename producedPath = basename expectedPath := by
      by_contra hdiff
      exact h ⟨hname, hdiff⟩
    rw [← hsame, replace_eq, render_scan_self hname, letters_plain]

theorem rewrittenText_eq_repairedText (hexpected : expectedPath ≠ [])
    (h : InsertedPathsKept producedPath expectedPath content) :
    rewrittenText producedPath expectedPath content =
      repairedText producedPath expectedPath content := by
  by_cases hsecond : basename producedPath ≠ [] ∧ basename producedPath ≠ basename expectedPath
  · obtain ⟨hname, hdiff⟩ := hsecond
    rw [rewrittenText_eq_scan hname hdiff, repairedText_eq_scan hexpected hname,
      scan_eq_of_untouched hname (h hname hdiff)]
  · exact rewrittenText_of_moved hsecond

/-- A produced path without a directory is its own basename, and no other reference is left. -/
theorem repairedText_of_no_directory (hproduced : producedPath ≠ [])
    (hdir : basename producedPath = producedPath) :
    repairedText producedPath expectedPath content =
      letters (withPathsMarked producedPath expectedPath content) := by
  rw [letters_withPathsMarked, repairedText_of_gaps]
  intro gap hgap
  have hnone : ¬ producedPath <:+: gap := not_infix_gap hproduced hgap
  rw [withExpectedBasename, hdir, if_neg hproduced, replace_eq,
    scan_of_not_infix (by rwa [letters_plain]), render_kept, letters_plain]

theorem insertedPathsKept_of_eq (hproduced : producedPath ≠ []) (hexpected : expectedPath ≠ [])
    (hshows : DamageShows producedPath expectedPath)
    (h : rewrittenText producedPath expectedPath content =
      repairedText producedPath expectedPath content) :
    InsertedPathsKept producedPath expectedPath content := by
  intro hname hdiff
  have hscan := h
  rw [rewrittenText_eq_scan hname hdiff, repairedText_eq_scan hexpected hname] at hscan
  by_cases hlen : (basename producedPath).length = (basename expectedPath).length
  · exact untouched_of_length_eq hname hlen hdiff hscan
  · rcases hshows with hdir | hunbordered | hsame
    · rw [rewrittenText_eq_scan hname hdiff, repairedText_of_no_directory hproduced hdir] at h
      refine untouched_of_references ?_
      have hcount := length_render (basename producedPath) (basename expectedPath)
        (scan (fun _ => true) (basename producedPath)
          (withPathsMarked producedPath expectedPath content))
      rw [h, render_scan_self hname] at hcount
      by_contra hsome
      exact hlen (Nat.eq_of_mul_eq_mul_left (Nat.pos_of_ne_zero hsome) (Nat.add_left_cancel hcount))
    · exact untouched_of_unbordered hname hunbordered hlen hscan
    · exact absurd hsame hlen

-- A basename that overlaps itself can hide the damage: the reference taken is not the one meant.
example : rewrittenText "c/aa".toList "a".toList "c/aaaa".toList =
      repairedText "c/aa".toList "a".toList "c/aaaa".toList ∧
    scan (fun _ => true) "aa".toList (withPathsMarked "c/aa".toList "a".toList "c/aaaa".toList) =
      [.taken [('a', true), ('a', false)], .kept 'a'] :=
  ⟨by decide +kernel, rfl⟩

end

/-- The names that a fix was selected for, and what it overrides. -/
structure PathRepair (inputs : StrategyInputs) (fix : StrategyResult)
    (producedPath expectedPath : List Char) (files patched : Dict) : Prop where
  produced : ∃ entry ∈ inputs.artifactManifest, producedPath = Text.strip (entryPath entry)
  expected : ∃ artifact ∈ inputs.expectedArtifacts,
    expectedPath = match (artifact.get? "path").filter Json.truthy with
      | some path => Text.strip path.strChars
      | none => entryText artifact "name"
  produced_ne_nil : producedPath ≠ []
  expected_ne_nil : expectedPath ≠ []
  codeFiles : inputs.codePlan.getD "files" (.obj []) = .obj files
  patchedFiles : patched = Remediation.patchedFiles producedPath expectedPath files
  overrides : fix.overrides = [("code_plan", .obj [("patched_files", .obj patched)]),
    ("artifact_rewrite", .obj [("from", .str (String.ofList producedPath)),
      ("to", .str (String.ofList expectedPath))])]

theorem pathRepair_of_some {inputs : StrategyInputs} {fix : StrategyResult}
    (h : selectInvalidArtifactFix inputs = some fix) :
    ∃ producedPath expectedPath files patched,
      PathRepair inputs fix producedPath expectedPath files patched := by
  unfold selectInvalidArtifactFix at h
  split at h
  case h_2 =>
    dsimp only at h
    repeat' split at h
    all_goals cases h
  case h_1 files hfiles =>
    dsimp only at h
    split at h
    case h_2 => cases h
    case h_1 expected hmissing =>
      obtain ⟨hexpected, h⟩ := Option.ite_none_left_eq_some.mp h
      split at h
      case h_2 => cases h
      case h_1 produced hcandidates =>
        obtain ⟨hproduced, h⟩ := Option.ite_none_left_eq_some.mp h
        obtain ⟨-, hfix⟩ := Option.ite_none_left_eq_some.mp h
        have hentry := List.mem_of_mem_filter (hcandidates ▸ List.mem_singleton_self produced)
        have hartifact := List.mem_of_mem_filter (hmissing ▸ List.mem_singleton_self expected)
        exact ⟨_, _, files, _, ⟨produced, hentry, rfl⟩, ⟨expected, hartifact, rfl⟩,
          fun hnil => hproduced (List.isEmpty_iff.mpr hnil),
          fun hnil => hexpected (List.isEmpty_iff.mpr hnil), hfiles, rfl,
          (congrArg StrategyResult.overrides (Option.some.inj hfix)).symm⟩

/-- A fix repairs a file as it should where no inserted path is touched, and only there unless a
basename that overlaps itself hides the damage. -/
theorem patched_eq_repaired {inputs : StrategyInputs} {fix : StrategyResult}
    (h : selectInvalidArtifactFix inputs = some fix) :
    ∃ producedPath expectedPath files patched,
      PathRepair inputs fix producedPath expectedPath files patched ∧
      ∀ path updated, (path, updated) ∈ patched →
        ∃ content, (path, .str content) ∈ files ∧
          (InsertedPathsKept producedPath expectedPath content.toList →
            updated = .str (String.ofList
              (repairedText producedPath expectedPath content.toList))) ∧
          (DamageShows producedPath expectedPath →
            updated = .str (String.ofList
              (repairedText producedPath expectedPath content.toList)) →
            InsertedPathsKept producedPath expectedPath content.toList) := by
  obtain ⟨producedPath, expectedPath, files, patched, hrepair⟩ := pathRepair_of_some h
  refine ⟨producedPath, expectedPath, files, patched, hrepair, fun path updated hmem => ?_⟩
  rw [hrepair.patchedFiles, mem_patchedFiles_iff] at hmem
  obtain ⟨content, hcontent, -, rfl⟩ := hmem
  refine ⟨content, hcontent, fun hkept => ?_, fun hshows heq => ?_⟩
  · rw [rewrittenText_eq_repairedText hrepair.expected_ne_nil hkept]
  · exact insertedPathsKept_of_eq hrepair.produced_ne_nil hrepair.expected_ne_nil hshows
      (String.ofList_injective (Json.str.inj heq))

/-- A run that wrote `results.json` where a final artifact was expected at `path`. -/
def misplacedResults (path : String) : StrategyInputs where
  failureClass := "invalid_artifact"
  stderrTail := ""
  limits := []
  priorStrategies := []
  priorFailureClasses := []
  expectedArtifacts := [[("name", .str "final"), ("path", .str path)]]
  artifactManifest := [[("name", .str "results"), ("path", .str "results.json")]]
  codePlan := [("files", .obj [("main.py", .str "open('results.json')")])]

/-- The expected path ends in the produced basename, which is then replaced once more. -/
theorem inserted_path_rewritten_again :
    ∃ fix, selectInvalidArtifactFix (misplacedResults "out/final_results.json") = some fix ∧
      fix.overrides = [
        ("code_plan", .obj [("patched_files",
          .obj [("main.py", .str "open('out/final_final_results.json')")])]),
        ("artifact_rewrite", .obj [("from", .str "results.json"),
          ("to", .str "out/final_results.json")])] ∧
      repairedText "results.json".toList "out/final_results.json".toList
        "open('results.json')".toList = "open('out/final_results.json')".toList :=
  ⟨_, rfl, rfl, by decide +kernel⟩

theorem patched_eq_repaired_misplaced :
    ∃ fix, selectInvalidArtifactFix (misplacedResults "out/metrics.json") = some fix ∧
      ∃ producedPath expectedPath files patched,
        PathRepair (misplacedResults "out/metrics.json") fix producedPath expectedPath files
          patched ∧
        ∀ path updated, (path, updated) ∈ patched →
          ∃ content, (path, .str content) ∈ files ∧
            (InsertedPathsKept producedPath expectedPath content.toList →
              updated = .str (String.ofList
                (repairedText producedPath expectedPath content.toList))) ∧
            (DamageShows producedPath expectedPath →
              updated = .str (String.ofList
                (repairedText producedPath expectedPath content.toList)) →
              InsertedPathsKept producedPath expectedPath content.toList) := by
  have hsome : (selectInvalidArtifactFix (misplacedResults "out/metrics.json")).isSome = true := by
    decide +kernel
  obtain ⟨fix, hfix⟩ := Option.isSome_iff_exists.mp hsome
  exact ⟨fix, hfix, patched_eq_repaired hfix⟩

end Synthetos.Remediation
