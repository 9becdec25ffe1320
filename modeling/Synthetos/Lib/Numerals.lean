import Synthetos.Lib.Text
import Mathlib.Tactic.Cases

/-!
# Numerals

The decimal numeral of an integer is read back as that integer.
-/

namespace Synthetos.Lib.Text

variable {digits text : List Char} {n : Nat}

theorem isDigit_iff {c : Char} : c.isDigit = true ↔ 48 ≤ c.toNat ∧ c.toNat ≤ 57 := by
  simp only [Char.isDigit, Bool.and_eq_true, decide_eq_true_eq, ge_iff_le]
  rfl

theorem isSpace_of_isDigit {c : Char} (h : c.isDigit = true) : isSpace c = false := by
  obtain ⟨hlow, hhigh⟩ := isDigit_iff.mp h
  simp only [isSpace, Bool.or_eq_false_iff, Bool.and_eq_false_iff, decide_eq_false_iff_not,
    beq_eq_false_iff_ne]
  omega

theorem toLower_of_isDigit {c : Char} (h : c.isDigit = true) : c.toLower = c := by
  obtain ⟨-, hhigh⟩ := isDigit_iff.mp h
  refine dif_neg ?_
  rintro ⟨hlow, -⟩
  have hlower : 65 ≤ c.toNat := hlow
  omega

theorem digits?_eq (h : ∀ c ∈ digits, c.isDigit = true) (value : Nat) :
    digits? value digits = some (Nat.ofDigitChars 10 digits value) := by
  induction digits generalizing value with
  | nil => rw [digits?, Nat.ofDigitChars_nil]
  | cons c rest ih =>
    have hc := h c List.mem_cons_self
    rw [digits?, digit?, if_pos hc, Option.bind_some, ih fun d hd => h d (List.mem_cons_of_mem c hd),
      Nat.ofDigitChars_cons, Nat.mul_comm]
    · rfl
    · rintro d rest' rfl -
      exact absurd hc (by decide)

theorem natural?_eq (hne : digits ≠ []) (h : ∀ c ∈ digits, c.isDigit = true) :
    natural? digits = some (Nat.ofDigitChars 10 digits 0) := by
  cases digits with
  | nil => exact absurd rfl hne
  | cons c rest =>
    rw [natural?, digits?_eq h]
    · exact nofun
    · rintro rest' hcons
      obtain ⟨rfl, -⟩ := List.cons_eq_cons.mp hcons
      exact absurd (h _ List.mem_cons_self) (by decide)

theorem isDigit_of_mem_numeral {c : Char} (hc : c ∈ (toString n).toList) : c.isDigit = true := by
  rw [Nat.toString_eq_repr, Nat.toList_repr] at hc
  exact Nat.isDigit_of_mem_toDigits (by decide) (by decide) hc

theorem numeral_ne_nil : (toString n).toList ≠ [] := by
  rw [Nat.toString_eq_repr, Nat.toList_repr]
  exact Nat.toDigits_ne_nil

theorem natural?_numeral : natural? (toString n).toList = some n := by
  rw [natural?_eq numeral_ne_nil fun c hc => isDigit_of_mem_numeral hc, Nat.toString_eq_repr,
    Nat.toList_repr, Nat.ofDigitChars_ten_toDigits]

theorem trimmed_of_not_space (h : ∀ c ∈ text, isSpace c = false) : Trimmed text :=
  ⟨fun c hc => h c (List.mem_of_mem_head? hc), fun c hc => h c (List.mem_of_mem_getLast? hc)⟩

theorem int?_numeral : int? (toString n).toList = some (n : Int) := by
  have hstrip : strip (toString n).toList = (toString n).toList :=
    (trimmed_of_not_space fun c hc => isSpace_of_isDigit (isDigit_of_mem_numeral hc)).strip_eq
  unfold int?
  rw [hstrip]
  split
  · rename_i rest heq
    exact absurd (isDigit_of_mem_numeral (heq ▸ List.mem_cons_self)) (by decide)
  · rename_i rest heq
    exact absurd (isDigit_of_mem_numeral (heq ▸ List.mem_cons_self)) (by decide)
  · rw [natural?_numeral]
    rfl

theorem toString_int (m : Int) : (toString m).toList =
    if 0 ≤ m then (toString m.toNat).toList else '-' :: (toString (-m).toNat).toList := by
  rw [Int.toString_eq_repr, Int.repr_eq_if]
  split
  · rfl
  · rw [String.toList_append]
    rfl

theorem int?_toString (m : Int) : int? (toString m).toList = some m := by
  rw [toString_int]
  split
  · rename_i hpos
    rw [int?_numeral, Int.toNat_of_nonneg hpos]
  · rename_i hneg
    have hstrip : strip ('-' :: (toString (-m).toNat).toList) =
        '-' :: (toString (-m).toNat).toList := by
      apply Trimmed.strip_eq
      apply trimmed_of_not_space
      intro c hc
      rcases List.mem_cons.mp hc with rfl | hc
      · rfl
      · exact isSpace_of_isDigit (isDigit_of_mem_numeral hc)
    have hread : int? ('-' :: (toString (-m).toNat).toList) = some (-((-m).toNat : Int)) := by
      unfold int?
      rw [hstrip]
      split
      · rename_i rest heq
        obtain ⟨-, rfl⟩ := List.cons_eq_cons.mp heq
        rw [natural?_numeral]
        rfl
      · exact absurd ‹_› (by simp)
      · rename_i hminus _
        exact absurd rfl (hminus _)
    rw [hread, Int.toNat_of_nonneg (by omega), Int.neg_neg]

end Synthetos.Lib.Text
