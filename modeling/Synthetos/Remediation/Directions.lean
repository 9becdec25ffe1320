import Synthetos.Remediation.Signal
import Mathlib.Algebra.BigOperators.Group.List.Basic
import Mathlib.Tactic.Linarith
import Mathlib.Tactic.Ring

/-!
# The two directions of a metric

When a breakthrough is one against the historical mean, and what classification makes of a metric
whose values and direction are both reversed.
-/

namespace Synthetos.Remediation

open Synthetos.Core Lib

variable {current prev a b noiseBand : Rat} {history values : List Rat} {direction : String}

/-! ### Breakthroughs -/

/-- Better than the historical mean by more than two sample standard deviations. -/
def Outstanding (current : Rat) (history : List Rat) (direction : String) : Prop :=
  isImprovement current (mean history) direction = true ∧
    4 * variance history < (current - mean history) ^ 2

/-- Better than the previous value, but worse than the historical mean by more than two sample
standard deviations. -/
def PartialRecovery (current : Rat) (history : List Rat) (direction : String) : Prop :=
  3 ≤ history.length ∧ 0 < variance history ∧
    (∃ prev, history.getLast? = some prev ∧ isImprovement current prev direction = true) ∧
    isImprovement (mean history) current direction = true ∧
    4 * variance history < (current - mean history) ^ 2

theorem isImprovement_iff : isImprovement a b direction = true ↔
    if direction = "maximize" then b < a else a < b := by
  rw [isImprovement]
  split <;> exact decide_eq_true_iff

theorem not_isImprovement_swap (h : isImprovement a b direction = true) :
    ¬ isImprovement b a direction = true := by
  rw [isImprovement_iff] at h ⊢
  split_ifs at h ⊢
  · exact not_lt_of_gt h
  · exact not_lt_of_gt h

theorem isImprovement_total (direction : String) (hne : a ≠ b) :
    isImprovement a b direction = true ∨ isImprovement b a direction = true := by
  rw [isImprovement_iff, isImprovement_iff]
  split
  · exact (lt_or_gt_of_ne hne).symm
  · exact lt_or_gt_of_ne hne

theorem improving_eq (direction : String) (current prev : Rat) :
    (if direction = "maximize" then decide (0 < current - prev) else decide (current - prev < 0)) =
      isImprovement current prev direction := by
  rw [isImprovement]
  split <;> simp

theorem breakthrough_iff :
    (classifySignal current history direction noiseBand).signal = .breakthrough ↔
      3 ≤ history.length ∧ 0 < variance history ∧
        (∃ prev, history.getLast? = some prev ∧ isImprovement current prev direction = true) ∧
        4 * variance history < (current - mean history) ^ 2 := by
  unfold classifySignal
  cases hlast : history.getLast? with
  | none => simp
  | some prev =>
    dsimp only
    rw [improving_eq]
    constructor
    · intro h
      split at h
      · rename_i hguard
        simp only [Bool.and_eq_true, decide_eq_true_eq] at hguard
        obtain ⟨⟨⟨hlen, himproving⟩, hspread⟩, hfar⟩ := hguard
        exact ⟨hlen, hspread, ⟨prev, rfl, himproving⟩, hfar⟩
      · split at h
        · exact absurd h nofun
        · split at h
          · exact absurd h nofun
          · split at h
            · exact absurd h nofun
            · split at h <;> exact absurd h nofun
    · rintro ⟨hlen, hspread, ⟨last, hsome, himproving⟩, hfar⟩
      obtain rfl := Option.some.inj hsome
      rw [if_pos]
      simp [hlen, himproving, hspread, hfar]

/-- A breakthrough is one against the historical mean, except in a partial recovery. -/
theorem breakthrough_outstanding_iff (current : Rat) (history : List Rat) (direction : String)
    (noiseBand : Rat) :
    ((classifySignal current history direction noiseBand).signal = .breakthrough →
        Outstanding current history direction) ↔
      ¬ PartialRecovery current history direction := by
  rw [breakthrough_iff]
  constructor
  · rintro h ⟨hlen, hspread, hprev, hworse, hfar⟩
    obtain ⟨hbetter, -⟩ := h ⟨hlen, hspread, hprev, hfar⟩
    exact not_isImprovement_swap hbetter hworse
  · rintro h ⟨hlen, hspread, hprev, hfar⟩
    have hne : current ≠ mean history := by
      rintro heq
      rw [heq, sub_self] at hfar
      linarith
    rcases isImprovement_total direction hne with hbetter | hworse
    · exact ⟨hbetter, hfar⟩
    · exact absurd ⟨hlen, hspread, hprev, hworse, hfar⟩ h

/-- After eight good runs and a failed one, the next bad run is called a breakthrough. -/
theorem partial_recovery_breakthrough :
    (classifySignal (1 / 10) [1, 1, 1, 1, 1, 1, 1, 1, 0] "maximize" (1 / 100)).signal =
        .breakthrough ∧
      ¬ Outstanding (1 / 10) [1, 1, 1, 1, 1, 1, 1, 1, 0] "maximize" := by
  constructor
  · decide +kernel
  · rintro ⟨hbetter, -⟩
    exact absurd hbetter (by decide +kernel)

/-! ### Reversed metrics -/

theorem sum_map_neg (values : List Rat) : (values.map Neg.neg).sum = -values.sum := by
  induction values with
  | nil => rfl
  | cons v rest ih =>
    rw [List.map_cons, List.sum_cons, List.sum_cons, ih, neg_add]

theorem mean_neg (values : List Rat) : mean (values.map Neg.neg) = -mean values := by
  rw [mean, mean, sum_map_neg, List.length_map, neg_div]

theorem variance_neg (values : List Rat) : variance (values.map Neg.neg) = variance values := by
  have hsquare : (fun v : Rat => (v - -mean values) ^ 2) ∘ Neg.neg =
      fun v => (v - mean values) ^ 2 := by
    funext v
    simp only [Function.comp_apply]
    ring
  rw [variance, variance, mean_neg, List.map_map, hsquare, List.length_map]

theorem deltas_neg (values : List Rat) :
    deltas (values.map Neg.neg) = (deltas values).map Neg.neg := by
  rw [deltas, deltas, ← List.map_tail, List.zipWith_map, List.map_zipWith]
  congr 1
  funext v w
  ring

theorem signChanges_neg (values : List Rat) :
    signChanges (values.map Neg.neg) = signChanges values := by
  rw [signChanges, signChanges, deltas_neg, ← List.map_tail, List.zipWith_map]
  simp only [neg_mul_neg]

theorem relativeChange_neg (a b : Rat) : relativeChange (-a) (-b) = relativeChange a b := by
  have hdelta : -b - -a = -(b - a) := by ring
  rw [relativeChange, relativeChange, hdelta, abs_neg, abs_neg]

theorem withinBand_neg (noiseBand : Rat) (values : List Rat) :
    withinBand noiseBand (values.map Neg.neg) = withinBand noiseBand values := by
  rw [withinBand, withinBand, ← List.map_tail, List.zipWith_map]
  simp only [relativeChange_neg]

theorem lastValues_neg (n : Nat) (values : List Rat) :
    lastValues n (values.map Neg.neg) = (lastValues n values).map Neg.neg := by
  rw [lastValues, lastValues, List.length_map, List.map_drop]

theorem lastValues_snoc_neg (n : Nat) (history : List Rat) (current : Rat) :
    lastValues n (history.map Neg.neg) ++ [-current] =
      (lastValues n history ++ [current]).map Neg.neg := by
  rw [lastValues_neg, List.map_append]
  rfl

/-- Maximizing a metric and minimizing its negation give the same signal and opposite deltas. -/
theorem classifySignal_neg (current : Rat) (history : List Rat) (noiseBand : Rat) :
    (classifySignal (-current) (history.map Neg.neg) "minimize" noiseBand).signal =
        (classifySignal current history "maximize" noiseBand).signal ∧
      (classifySignal (-current) (history.map Neg.neg) "minimize" noiseBand).delta =
        (classifySignal current history "maximize" noiseBand).delta.map Neg.neg := by
  have hdelta (prev : Rat) : -current - -prev = -(current - prev) := by ring
  unfold classifySignal
  rw [List.getLast?_map]
  cases history.getLast? with
  | none => exact ⟨rfl, rfl⟩
  | some prev =>
    have hdown : decide (-(current - prev) < 0) = decide (0 < current - prev) :=
      decide_eq_decide.mpr neg_lt_zero
    simp only [Option.map_some, List.length_map, variance_neg, mean_neg, relativeChange_neg,
      lastValues_snoc_neg, signChanges_neg, withinBand_neg, hdelta, hdown, neg_sq,
      String.reduceEq, if_true, if_false]
    split_ifs <;> exact ⟨rfl, rfl⟩

end Synthetos.Remediation
