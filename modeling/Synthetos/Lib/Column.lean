import Mathlib.Data.List.Basic

/-!
# Text columns

A text column of the database takes every character but NUL.  One of bounded width cuts blanks
beyond its width and refuses anything else there.
-/

namespace Synthetos.Lib.Column

def nul : Char := Char.ofNat 0

def isText (text : List Char) : Bool := !text.contains nul

/-- `varchar(width)` takes the text. -/
def fits (width : Nat) (text : List Char) : Bool :=
  isText text && (text.drop width).all (· == ' ')

/-- The text a column has stored. -/
def cut (width : Nat) (text : List Char) : List Char := text.take width

variable {width : Nat} {text : List Char}

theorem cut_length : (cut width text).length ≤ width := List.length_take_le ..

theorem cut_eq (h : text.length ≤ width) : cut width text = text := List.take_of_length_le h

theorem fits_of_length (h : isText text = true) (hlength : text.length ≤ width) :
    fits width text = true := by
  rw [fits, h, List.drop_of_length_le hlength]
  rfl

theorem isText_of_fits (h : fits width text = true) : isText text = true :=
  (Bool.and_eq_true_iff.mp h).1

/-- What is stored fits again. -/
theorem fits_cut (h : fits width text = true) : fits width (cut width text) = true := by
  refine fits_of_length ?_ cut_length
  have htext := isText_of_fits h
  simp only [isText, Bool.not_eq_true', List.contains_eq_mem, decide_eq_false_iff_not] at htext ⊢
  exact fun hmem => htext (List.mem_of_mem_take hmem)

end Synthetos.Lib.Column
