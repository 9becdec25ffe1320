import Mathlib.Data.List.Basic
import Mathlib.Data.List.Induction

/-!
# Splitting a text into lines

The universal line breaks, where a carriage return with a line feed is one.  What follows the last
break is a line unless it is empty.
-/

namespace Synthetos.Lib.Lines

def isLineBreak (c : Char) : Bool :=
  ['\n', '\r', '\x0b', '\x0c', '\x1c', '\x1d', '\x1e', '\x85', '\u2028', '\u2029'].contains c

/-- The lines of a text that follows `line`. -/
def splitlinesFrom (line : List Char) : List Char → List (List Char)
  | [] => if line.isEmpty then [] else [line]
  | '\r' :: '\n' :: rest => line :: splitlinesFrom [] rest
  | c :: rest =>
    if isLineBreak c then line :: splitlinesFrom [] rest else splitlinesFrom (line ++ [c]) rest

def splitlines (text : List Char) : List (List Char) := splitlinesFrom [] text

/-- One line, and not an empty one. -/
def IsLine (text : List Char) : Prop := text ≠ [] ∧ ∀ c ∈ text, isLineBreak c = false

instance (text : List Char) : Decidable (IsLine text) :=
  have := List.decidableBAll (fun c => isLineBreak c = false) text
  inferInstanceAs (Decidable (text ≠ [] ∧ ∀ c ∈ text, isLineBreak c = false))

variable {line text rest : List Char} {texts : List (List Char)}

theorem splitlinesFrom_append (h : ∀ c ∈ text, isLineBreak c = false) :
    splitlinesFrom line (text ++ rest) = splitlinesFrom (line ++ text) rest := by
  induction text generalizing line with
  | nil => simp
  | cons c text ih =>
    have hc : isLineBreak c = false := h c (List.mem_cons_self ..)
    have hreturn : c ≠ '\r' := by
      rintro rfl
      exact absurd hc (by decide)
    have hstep : splitlinesFrom line (c :: (text ++ rest)) =
        splitlinesFrom (line ++ [c]) (text ++ rest) := by
      rw [splitlinesFrom.eq_def]
      split <;> simp_all
    rw [List.cons_append, hstep, ih fun d hd => h d (List.mem_cons_of_mem c hd), List.append_assoc]
    rfl

theorem splitlines_append (h : IsLine text) (rest : List Char) :
    splitlines (text ++ '\n' :: rest) = text :: splitlines rest := by
  rw [splitlines, splitlinesFrom_append h.2, List.nil_append]
  rfl

theorem splitlines_line (h : IsLine text) : splitlines text = [text] := by
  have hsplit : splitlinesFrom [] (text ++ []) = splitlinesFrom ([] ++ text) [] :=
    splitlinesFrom_append h.2
  rw [List.append_nil, List.nil_append] at hsplit
  rw [splitlines, hsplit]
  simp [splitlinesFrom, h.1]

/-- Lines that each end with a break. -/
theorem splitlines_flatMap (h : ∀ text ∈ texts, IsLine text) :
    splitlines (texts.flatMap fun text => text ++ ['\n']) = texts := by
  induction texts with
  | nil => rfl
  | cons text texts ih =>
    rw [List.flatMap_cons, List.append_assoc, List.singleton_append,
      splitlines_append (h text (List.mem_cons_self ..)),
      ih fun other hother => h other (List.mem_cons_of_mem text hother)]

/-- Lines with a break between them. -/
theorem splitlines_intercalate (h : ∀ text ∈ texts, IsLine text) :
    splitlines (['\n'].intercalate texts) = texts := by
  induction texts with
  | nil => rfl
  | cons text texts ih =>
    have htext := h text (List.mem_cons_self ..)
    have hrest := ih fun other hother => h other (List.mem_cons_of_mem text hother)
    cases texts with
    | nil => simpa using splitlines_line htext
    | cons next texts =>
      rw [List.intercalate_cons_cons, List.append_assoc, List.singleton_append,
        splitlines_append htext, hrest]

example : splitlines "a\r\nb\r\n\nc".toList = ["a".toList, "b".toList, [], "c".toList] := by
  decide +kernel

end Synthetos.Lib.Lines
