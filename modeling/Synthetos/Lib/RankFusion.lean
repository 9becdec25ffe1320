import Mathlib.Algebra.BigOperators.Group.List.Basic
import Mathlib.Algebra.Order.BigOperators.Group.List

/-!
# Fusing rankings

Several rankings of one kind of item are fused by adding, for each item, a weight for each of its
ranks.  Where earlier ranks weigh more, an item that is nowhere behind another scores no less.
-/

namespace Synthetos.Lib.RankFusion

variable {κ R : Type*} [BEq κ] [LawfulBEq κ] [AddCommMonoid R]

/-- What one ranking adds to the score of an item. -/
def share (weight : Nat → R) (d : κ) (ranking : List κ) : R :=
  if d ∈ ranking then weight (ranking.idxOf d) else 0

def fused (weight : Nat → R) (rankings : List (List κ)) (d : κ) : R :=
  (rankings.map (share weight d)).sum

/-- Where `e` is ranked, `d` is ranked at least as well. -/
def Dominates (rankings : List (List κ)) (d e : κ) : Prop :=
  ∀ ranking ∈ rankings, e ∈ ranking → d ∈ ranking ∧ ranking.idxOf d ≤ ranking.idxOf e

variable {weight : Nat → R} {rankings : List (List κ)} {ranking : List κ} {d e : κ}

/-- The weights of the places of an item add up to its share. -/
theorem sum_places (h : ranking.Nodup) (weight : Nat → R) (d : κ) (start : Nat) :
    (((ranking.zipIdx start).filter fun place => place.1 == d).map fun place =>
      weight place.2).sum = share (fun rank => weight (start + rank)) d ranking := by
  induction ranking generalizing start with
  | nil => simp [share]
  | cons a ranking ih =>
    obtain ⟨hnew, hrest⟩ := List.nodup_cons.mp h
    rw [List.zipIdx_cons, List.filter_cons]
    by_cases had : a = d
    · subst had
      have hnone : (ranking.zipIdx (start + 1)).filter (fun place => place.1 == a) = [] := by
        rw [List.filter_eq_nil_iff]
        rintro ⟨b, rank⟩ hplace hb
        apply hnew
        rw [← beq_iff_eq.mp hb]
        exact List.fst_mem_of_mem_zipIdx hplace
      simp [hnone, share]
    · have hbeq : (a == d) = false := by simpa using had
      have hmem : d ∈ a :: ranking ↔ d ∈ ranking := by
        rw [List.mem_cons]
        exact or_iff_right fun heq => had heq.symm
      simp only [hbeq, Bool.false_eq_true, if_false, ih hrest, share, hmem,
        List.idxOf_cons_ne _ had]
      congr 2
      omega

variable [PartialOrder R]

theorem share_le (hpos : ∀ rank, 0 < weight rank) (hanti : StrictAnti weight)
    (h : e ∈ ranking → d ∈ ranking ∧ ranking.idxOf d ≤ ranking.idxOf e) :
    share weight e ranking ≤ share weight d ranking := by
  unfold share
  by_cases he : e ∈ ranking
  · obtain ⟨hd, hle⟩ := h he
    rw [if_pos he, if_pos hd]
    exact hanti.antitone hle
  · rw [if_neg he]
    split
    · exact (hpos _).le
    · exact le_rfl

theorem share_lt (hpos : ∀ rank, 0 < weight rank) (hanti : StrictAnti weight) (hd : d ∈ ranking)
    (h : e ∈ ranking → ranking.idxOf d < ranking.idxOf e) :
    share weight e ranking < share weight d ranking := by
  unfold share
  rw [if_pos hd]
  split
  · rename_i he
    exact hanti (h he)
  · exact hpos _

variable [IsOrderedCancelAddMonoid R]

theorem fused_le (hpos : ∀ rank, 0 < weight rank) (hanti : StrictAnti weight)
    (h : Dominates rankings d e) : fused weight rankings e ≤ fused weight rankings d := by
  apply List.sum_le_sum
  intro ranking hranking
  exact share_le hpos hanti (h ranking hranking)

theorem fused_lt (hpos : ∀ rank, 0 < weight rank) (hanti : StrictAnti weight)
    (h : Dominates rankings d e)
    (hbetter : ∃ ranking ∈ rankings, d ∈ ranking ∧
      (e ∈ ranking → ranking.idxOf d < ranking.idxOf e)) :
    fused weight rankings e < fused weight rankings d := by
  apply List.sum_lt_sum
  · intro ranking hranking
    exact share_le hpos hanti (h ranking hranking)
  · obtain ⟨ranking, hranking, hd, hlt⟩ := hbetter
    exact ⟨ranking, hranking, share_lt hpos hanti hd hlt⟩

/-- An item ranked by more of the rankings is ranked by one that leaves the other out. -/
theorem exists_ranking_without
    (h : (rankings.countP fun ranking => decide (e ∈ ranking)) <
      rankings.countP fun ranking => decide (d ∈ ranking)) :
    ∃ ranking ∈ rankings, d ∈ ranking ∧ e ∉ ranking := by
  by_contra hnone
  push Not at hnone
  apply absurd h
  apply Nat.not_lt.mpr
  apply List.countP_mono_left
  intro ranking hranking hd
  exact decide_eq_true (hnone ranking hranking (of_decide_eq_true hd))

end Synthetos.Lib.RankFusion
