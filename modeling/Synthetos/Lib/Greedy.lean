import Mathlib.Data.List.MinMax
import Mathlib.Data.List.Nodup

/-!
# Greedy selection

Items are taken from a pool one by one, each time the first of the highest score.  The scores may
depend on what has been taken.
-/

namespace Synthetos.Lib.Greedy

variable {α R : Type*} [DecidableEq α] [LinearOrder R]

/-- At most `n` more items of the pool, after those selected. -/
def greedy (score : List α → α → R) : Nat → List α → List α → List α
  | 0, _, selected => selected
  | n + 1, pool, selected =>
    match pool.argmax (score selected) with
    | none => selected
    | some best => greedy score n (pool.erase best) (selected ++ [best])

/-- Each of the picks has the highest score of the items that are not picked before it. -/
structure IsGreedy (score : List α → α → R) (n : Nat) (pool picks : List α) : Prop where
  nodup : picks.Nodup
  subset : picks ⊆ pool
  length : picks.length = min n pool.length
  best : ∀ before a after, picks = before ++ a :: after → ∀ b ∈ pool, b ∉ before →
    score before b ≤ score before a

variable {score : List α → α → R} {pool pool' picks selected : List α} {a : α} {n : Nat}

omit [DecidableEq α] in
theorem isGreedy_nil (score : List α → α → R) (h : n = 0 ∨ pool = []) :
    IsGreedy score n pool [] := by
  constructor
  · exact List.nodup_nil
  · simp
  · rcases h with rfl | rfl <;> simp
  · intro before a after hsplit
    simp at hsplit

theorem isGreedy_cons (hpool : pool.Nodup) (ha : a ∈ pool)
    (hbest : ∀ b ∈ pool, score [] b ≤ score [] a)
    (h : IsGreedy (fun before => score (a :: before)) n (pool.erase a) picks) :
    IsGreedy score (n + 1) pool (a :: picks) := by
  constructor
  · apply List.nodup_cons.mpr
    refine ⟨?_, h.nodup⟩
    intro hmem
    exact hpool.not_mem_erase (h.subset hmem)
  · intro b hb
    rcases List.mem_cons.mp hb with rfl | hmem
    · exact ha
    · exact List.mem_of_mem_erase (h.subset hmem)
  · have hpos := List.length_pos_of_mem ha
    rw [List.length_cons, h.length, List.length_erase_of_mem ha]
    omega
  · intro before b after hsplit c hc hnew
    cases before with
    | nil =>
      obtain ⟨rfl, -⟩ := List.cons.inj hsplit
      exact hbest c hc
    | cons b' before =>
      obtain ⟨rfl, hrest⟩ := List.cons.inj hsplit
      rw [List.mem_cons, not_or] at hnew
      exact h.best before b after hrest c ((List.mem_erase_of_ne hnew.1).mpr hc) hnew.2

theorem exists_picks (score : List α → α → R) (n : Nat) (h : pool.Nodup) (selected : List α) :
    ∃ picks, greedy score n pool selected = selected ++ picks ∧
      IsGreedy (fun before => score (selected ++ before)) n pool picks := by
  induction n generalizing pool selected with
  | zero => exact ⟨[], by simp [greedy], isGreedy_nil _ (Or.inl rfl)⟩
  | succ n ih =>
    cases hbest : pool.argmax (score selected) with
    | none =>
      refine ⟨[], by simp [greedy, hbest], isGreedy_nil _ (Or.inr ?_)⟩
      exact List.argmax_eq_none.mp hbest
    | some best =>
      obtain ⟨picks, hpicks, hgreedy⟩ := ih (h.erase best) (selected ++ [best])
      refine ⟨best :: picks, ?_, ?_⟩
      · rw [greedy, hbest]
        simpa using hpicks
      · apply isGreedy_cons h (List.argmax_mem hbest)
        · intro b hb
          simpa using List.le_of_mem_argmax hb hbest
        · simpa using hgreedy

theorem greedy_isGreedy (score : List α → α → R) (n : Nat) (h : pool.Nodup) :
    IsGreedy score n pool (greedy score n pool []) := by
  obtain ⟨picks, hpicks, hgreedy⟩ := exists_picks score n h []
  rw [hpicks]
  simpa using hgreedy

omit [DecidableEq α] in
theorem isGreedy_of_perm (h : pool.Perm pool') (hpicks : IsGreedy score n pool picks) :
    IsGreedy score n pool' picks := by
  constructor
  · exact hpicks.nodup
  · intro b hb
    exact h.subset (hpicks.subset hb)
  · rw [hpicks.length, h.length_eq]
  · intro before a after hsplit b hb
    exact hpicks.best before a after hsplit b (h.mem_iff.mpr hb)

omit [DecidableEq α] in
theorem argmax_cons_of_le {f : α → R} (h : ∀ b ∈ pool, f b ≤ f a) :
    (a :: pool).argmax f = some a := by
  rw [List.argmax_cons]
  cases hbest : pool.argmax f with
  | none => rfl
  | some best =>
    have hle := h best (List.argmax_mem hbest)
    simp [hle.not_gt]

/-- Where the scores do not change and fall along the pool, the first items are taken. -/
theorem greedy_of_pairwise {f : α → R} (h : pool.Pairwise fun a b => f b ≤ f a) (n : Nat)
    (selected : List α) : greedy (fun _ => f) n pool selected = selected ++ pool.take n := by
  induction n generalizing pool selected with
  | zero => simp [greedy]
  | succ n ih =>
    cases pool with
    | nil => simp [greedy]
    | cons a pool =>
      obtain ⟨hhead, hrest⟩ := List.pairwise_cons.mp h
      rw [greedy, argmax_cons_of_le hhead]
      dsimp only
      rw [List.erase_cons_head, ih hrest, List.append_assoc]
      rfl

end Synthetos.Lib.Greedy
