import Synthetos.Lib.Text
import Mathlib.Data.List.Basic

/-!
# Paragraphs

The paragraphs of a text are its lines, stripped, where they are not blank.  A text of one paragraph
is that paragraph but for the white space around it.
-/

namespace Synthetos.Lib.Text

def blank (text : List Char) : Bool := (strip text).isEmpty

/-- `[p.strip() for p in text.split("\n") if p.strip()]` -/
def paragraphs (text : List Char) : List (List Char) :=
  ((text.splitOn '\n').map strip).filter (!·.isEmpty)

def fullLines (lines : List (List Char)) : List (List Char) := (lines.map strip).filter (!·.isEmpty)

variable {text left right line : List Char} {lines : List (List Char)}

theorem dropWhile_isSpace_append (h : ∀ c ∈ left, isSpace c = true) (text : List Char) :
    (left ++ text).dropWhile isSpace = text.dropWhile isSpace := by
  rw [List.dropWhile_append, List.dropWhile_eq_nil_iff.mpr h]
  simp

theorem strip_append_left (h : ∀ c ∈ left, isSpace c = true) (text : List Char) :
    strip (left ++ text) = strip text := by
  rw [strip, dropWhile_isSpace_append h, strip]

theorem strip_append_right (h : ∀ c ∈ right, isSpace c = true) (text : List Char) :
    strip (text ++ right) = strip text := by
  have hreverse : ∀ c ∈ right.reverse, isSpace c = true := by
    intro c hc
    exact h c (List.mem_reverse.mp hc)
  rw [strip, strip, List.dropWhile_append]
  split
  · rename_i hempty
    rw [List.dropWhile_eq_nil_iff.mpr h, List.isEmpty_iff.mp hempty]
  · rw [List.reverse_append, dropWhile_isSpace_append hreverse]

theorem strip_eq_nil_iff : strip text = [] ↔ ∀ c ∈ text, isSpace c = true := by
  constructor
  · intro hstrip
    have hinner : ∀ c ∈ text.dropWhile isSpace, isSpace c = true := by
      intro c hc
      apply List.dropWhile_eq_nil_iff.mp (List.reverse_eq_nil_iff.mp hstrip)
      exact List.mem_reverse.mpr hc
    rw [← List.dropWhile_eq_nil_iff]
    cases hdrop : text.dropWhile isSpace with
    | nil => rfl
    | cons c rest =>
      have hhead := List.head?_dropWhile_not isSpace text
      rw [hdrop] at hhead hinner
      exact absurd (hinner c List.mem_cons_self) (by simpa using hhead)
  · intro hspace
    rw [strip, List.dropWhile_eq_nil_iff.mpr hspace]
    rfl

theorem mem_intercalate {sep : List Char} {c : Char} (hline : line ∈ lines) (hc : c ∈ line) :
    c ∈ sep.intercalate lines := by
  induction lines with
  | nil => cases hline
  | cons first lines ih =>
    cases lines with
    | nil =>
      rw [List.intercalate_singleton, ← List.mem_singleton.mp hline]
      exact hc
    | cons next lines =>
      rw [List.intercalate_cons_cons]
      rcases List.mem_cons.mp hline with rfl | hmem
      · simp [hc]
      · exact List.mem_append_right _ (ih hmem)

theorem mem_of_mem_intercalate {sep : List Char} {c : Char} (h : c ∈ sep.intercalate lines) :
    c ∈ sep ∨ ∃ line ∈ lines, c ∈ line := by
  induction lines with
  | nil => cases h
  | cons first lines ih =>
    cases lines with
    | nil =>
      rw [List.intercalate_singleton] at h
      exact Or.inr ⟨first, List.mem_cons_self, h⟩
    | cons next lines =>
      rw [List.intercalate_cons_cons, List.append_assoc, List.mem_append, List.mem_append] at h
      rcases h with hfirst | hsep | hrest
      · exact Or.inr ⟨first, List.mem_cons_self, hfirst⟩
      · exact Or.inl hsep
      · rcases ih hrest with hsep | ⟨line, hline, hc⟩
        · exact Or.inl hsep
        · exact Or.inr ⟨line, List.mem_cons_of_mem _ hline, hc⟩

theorem fullLines_cons : fullLines (line :: lines) =
    if (strip line).isEmpty then fullLines lines else strip line :: fullLines lines := by
  unfold fullLines
  rw [List.map_cons, List.filter_cons]
  cases (strip line).isEmpty <;> rfl

theorem isSpace_of_fullLines_nil (h : fullLines lines = []) :
    ∀ c ∈ ['\n'].intercalate lines, isSpace c = true := by
  intro c hc
  rcases mem_of_mem_intercalate hc with hsep | ⟨line, hline, hmem⟩
  · rw [List.mem_singleton.mp hsep]
    rfl
  · have hfull := List.filter_eq_nil_iff.mp h (strip line) (List.mem_map_of_mem hline)
    have hblank : strip line = [] := by simpa using hfull
    exact strip_eq_nil_iff.mp hblank c hmem

/-- Lines of which at most one is not blank are that one, and white space. -/
theorem fullLines_of_length_le_one (h : (fullLines lines).length ≤ 1) :
    fullLines lines = if blank (['\n'].intercalate lines) then []
      else [strip (['\n'].intercalate lines)] := by
  induction lines with
  | nil => rfl
  | cons line lines ih =>
    rw [fullLines_cons] at h ⊢
    split at h
    · rename_i hblank
      have hline := strip_eq_nil_iff.mp (List.isEmpty_iff.mp hblank)
      rw [if_pos hblank, ih h]
      cases lines with
      | nil =>
        have hempty : blank (['\n'].intercalate [line]) = true := by
          rw [List.intercalate_singleton]
          exact hblank
        rw [hempty]
        rfl
      | cons next lines =>
        have hspace : ∀ c ∈ line ++ ['\n'], isSpace c = true := by
          intro c hc
          rcases List.mem_append.mp hc with hleft | hsep
          · exact hline c hleft
          · rw [List.mem_singleton.mp hsep]
            rfl
        rw [List.intercalate_cons_cons, blank, blank, strip_append_left hspace]
    · rename_i hfull
      have hnone : fullLines lines = [] := by
        apply List.length_eq_zero_iff.mp
        rw [List.length_cons] at h
        omega
      have hstrip : strip (['\n'].intercalate (line :: lines)) = strip line := by
        cases lines with
        | nil => simp [List.intercalate]
        | cons next lines =>
          have hspace := isSpace_of_fullLines_nil hnone
          rw [List.intercalate_cons_cons, List.append_assoc]
          apply strip_append_right
          intro c hc
          rcases List.mem_append.mp hc with hsep | hrest
          · rw [List.mem_singleton.mp hsep]
            rfl
          · exact hspace c hrest
      rw [if_neg hfull, hnone, blank, hstrip, if_neg hfull]

theorem paragraphs_of_length_le_one (h : (paragraphs text).length ≤ 1) :
    paragraphs text = if blank text then [] else [strip text] := by
  have hfew : (fullLines (text.splitOn '\n')).length ≤ 1 := h
  have hlines := fullLines_of_length_le_one hfew
  rw [List.intercalate_splitOn] at hlines
  exact hlines

theorem fullLines_of_isSpace (h : ∀ c ∈ ['\n'].intercalate lines, isSpace c = true) :
    fullLines lines = [] := by
  induction lines with
  | nil => rfl
  | cons line lines ih =>
    cases lines with
    | nil =>
      rw [List.intercalate_singleton] at h
      rw [fullLines_cons, strip_eq_nil_iff.mpr h]
      rfl
    | cons next lines =>
      rw [List.intercalate_cons_cons, List.append_assoc] at h
      have hline : strip line = [] := by
        apply strip_eq_nil_iff.mpr
        intro c hc
        exact h c (List.mem_append_left _ hc)
      rw [fullLines_cons, hline]
      apply ih
      intro c hc
      exact h c (List.mem_append_right _ (List.mem_append_right _ hc))

/-- A blank text has no paragraph. -/
theorem paragraphs_of_blank (h : blank text = true) : paragraphs text = [] := by
  apply fullLines_of_isSpace
  rw [List.intercalate_splitOn]
  exact strip_eq_nil_iff.mp (List.isEmpty_iff.mp h)

end Synthetos.Lib.Text
