import Synthetos.Discovery.DedupeKeys
import Synthetos.Lib.RankFusion
import Mathlib.Algebra.Order.Ring.Rat
import Mathlib.Tactic.Linarith
import Mathlib.Tactic.Positivity

/-!
# Fused scores

Reciprocal rank fusion is a fusion of rankings whose weights fall from rank to rank.  The min-max
step brings the scores into `[0, 1]` without reordering them.
-/

namespace Synthetos.Discovery

open Lib RankFusion

def reciprocal (k rank : Nat) : Rat := 1 / ((k : Rat) + rank + 1)

/-- What the fused scores say of a document, zero where they say nothing. -/
def fusedScore (rankings : List (List (List Char))) (k : Nat) (d : List Char) : Rat :=
  ((rrfFuse rankings k).lookup d).getD 0

/-- `d` is better than `e` in some ranking, or is ranked by more of them. -/
def Better (rankings : List (List (List Char))) (d e : List Char) : Prop :=
  (∃ ranking ∈ rankings, e ∈ ranking ∧ ranking.idxOf d < ranking.idxOf e) ∨
    (rankings.countP fun ranking => decide (e ∈ ranking)) <
      rankings.countP fun ranking => decide (d ∈ ranking)

variable {rankings : List (List (List Char))} {scores : List (List Char × Rat)} {k : Nat}
  {d e key : List Char} {v w lo hi : Rat}

/-! ### Reciprocal ranks -/

theorem reciprocal_pos (k rank : Nat) : 0 < reciprocal k rank := by
  unfold reciprocal
  positivity

theorem strictAnti_reciprocal (k : Nat) : StrictAnti (reciprocal k) := by
  intro rank rank' hlt
  have hcast : (rank : Rat) < rank' := by exact_mod_cast hlt
  apply one_div_lt_one_div_of_lt
  · positivity
  · linarith

theorem getD_lookup_fuse (k : Nat) (places : List (List Char × Nat))
    (scores : List (List Char × Rat)) (d : List Char) :
    ((places.foldl (fun fused (key, rank) =>
        Collect.put (· + ·) key (1 / ((k : Rat) + rank + 1)) fused) scores).lookup d).getD 0 =
      (scores.lookup d).getD 0 +
        ((places.filter fun place => place.1 == d).map fun place => reciprocal k place.2).sum := by
  induction places generalizing scores with
  | nil => simp
  | cons place places ih =>
    obtain ⟨key, rank⟩ := place
    rw [List.foldl_cons, ih, Collect.lookup_put, List.filter_cons]
    by_cases hkey : d = key
    · subst hkey
      cases hold : scores.lookup d <;> simp [reciprocal, add_assoc]
    · have hbeq : (key == d) = false := by simpa using fun h => hkey h.symm
      simp [hkey, hbeq]

theorem fusedScore_eq (h : ∀ ranking ∈ rankings, ranking.Nodup) (k : Nat) (d : List Char) :
    fusedScore rankings k d = fused (reciprocal k) rankings d := by
  rw [fusedScore, rrfFuse, getD_lookup_fuse, List.lookup_nil, Option.getD_none, zero_add]
  induction rankings with
  | nil => rfl
  | cons ranking rankings ih =>
    have hranking := sum_places (h ranking List.mem_cons_self) (reciprocal k) d 0
    simp only [zero_add] at hranking
    have hrest := ih fun other hother => h other (List.mem_cons_of_mem _ hother)
    rw [List.flatMap_cons, List.filter_append, List.map_append, List.sum_append, hranking, hrest]
    rfl

theorem fusedScore_le (h : ∀ ranking ∈ rankings, ranking.Nodup) (hde : Dominates rankings d e) :
    fusedScore rankings k e ≤ fusedScore rankings k d := by
  rw [fusedScore_eq h, fusedScore_eq h]
  exact fused_le (reciprocal_pos k) (strictAnti_reciprocal k) hde

theorem fusedScore_lt (h : ∀ ranking ∈ rankings, ranking.Nodup) (hde : Dominates rankings d e)
    (hbetter : Better rankings d e) : fusedScore rankings k e < fusedScore rankings k d := by
  rw [fusedScore_eq h, fusedScore_eq h]
  apply fused_lt (reciprocal_pos k) (strictAnti_reciprocal k) hde
  rcases hbetter with ⟨ranking, hranking, he, hlt⟩ | hmore
  · exact ⟨ranking, hranking, (hde ranking hranking he).1, fun _ => hlt⟩
  · obtain ⟨ranking, hranking, hd, he⟩ := exists_ranking_without hmore
    exact ⟨ranking, hranking, hd, fun hmem => absurd hmem he⟩

/-! ### The min-max step -/

/-- Where a value lies between the lowest and the highest one. -/
def rescale (lo hi v : Rat) : Rat :=
  if hi - lo < 1 / 1000000000000 then 1 else (v - lo) / (hi - lo)

theorem rescale_nonneg (h : lo ≤ v) : 0 ≤ rescale lo hi v := by
  unfold rescale
  split
  · exact zero_le_one
  · rename_i hwide
    have hpos : 0 < hi - lo := lt_of_lt_of_le (by norm_num) (not_lt.mp hwide)
    exact div_nonneg (sub_nonneg.mpr h) hpos.le

theorem rescale_le_one (h : v ≤ hi) : rescale lo hi v ≤ 1 := by
  unfold rescale
  split
  · exact le_rfl
  · rename_i hwide
    have hpos : 0 < hi - lo := lt_of_lt_of_le (by norm_num) (not_lt.mp hwide)
    rw [div_le_one hpos]
    linarith

theorem monotone_rescale (lo hi : Rat) : Monotone (rescale lo hi) := by
  intro v w hvw
  unfold rescale
  split
  · exact le_rfl
  · rename_i hwide
    have hpos : 0 < hi - lo := lt_of_lt_of_le (by norm_num) (not_lt.mp hwide)
    apply div_le_div_of_nonneg_right _ hpos.le
    linarith

theorem foldl_min_le (rest : List (List Char × Rat)) (first : Rat) :
    rest.foldl (fun lo entry => min lo entry.2) first ≤ first ∧
      ∀ entry ∈ rest, rest.foldl (fun lo entry => min lo entry.2) first ≤ entry.2 := by
  induction rest generalizing first with
  | nil => simp
  | cons entry rest ih =>
    obtain ⟨hfirst, hrest⟩ := ih (min first entry.2)
    constructor
    · exact hfirst.trans (min_le_left _ _)
    · intro other hother
      rcases List.mem_cons.mp hother with rfl | hmem
      · exact hfirst.trans (min_le_right _ _)
      · exact hrest other hmem

theorem le_foldl_max (rest : List (List Char × Rat)) (first : Rat) :
    first ≤ rest.foldl (fun hi entry => max hi entry.2) first ∧
      ∀ entry ∈ rest, entry.2 ≤ rest.foldl (fun hi entry => max hi entry.2) first := by
  induction rest generalizing first with
  | nil => simp
  | cons entry rest ih =>
    obtain ⟨hfirst, hrest⟩ := ih (max first entry.2)
    constructor
    · exact (le_max_left _ _).trans hfirst
    · intro other hother
      rcases List.mem_cons.mp hother with rfl | hmem
      · exact (le_max_right _ _).trans hfirst
      · exact hrest other hmem

theorem normalizeScores_eq (scores : List (List Char × Rat)) : ∃ lo hi,
    (∀ entry ∈ scores, lo ≤ entry.2 ∧ entry.2 ≤ hi) ∧
      normalizeScores scores = scores.map fun entry => (entry.1, rescale lo hi entry.2) := by
  cases scores with
  | nil => exact ⟨0, 0, by simp, rfl⟩
  | cons entry rest =>
    obtain ⟨hlo, hlos⟩ := foldl_min_le rest entry.2
    obtain ⟨hhi, hhis⟩ := le_foldl_max rest entry.2
    refine ⟨_, _, ?_, rfl⟩
    intro other hother
    rcases List.mem_cons.mp hother with rfl | hmem
    · exact ⟨hlo, hhi⟩
    · exact ⟨hlos other hmem, hhis other hmem⟩

/-- A score map in `[0, 1]` that has a value for each score, in the order of the scores. -/
structure Normalized (scores normalized : List (List Char × Rat)) : Prop where
  keys : normalized.map Prod.fst = scores.map Prod.fst
  unit : ∀ d s, scores.lookup d = some s → ∃ v, normalized.lookup d = some v ∧ 0 ≤ v ∧ v ≤ 1
  monotone : ∀ d e s t v w, scores.lookup d = some s → scores.lookup e = some t →
    normalized.lookup d = some v → normalized.lookup e = some w → s ≤ t → v ≤ w
  equal : ∀ d e s v w, scores.lookup d = some s → scores.lookup e = some s →
    normalized.lookup d = some v → normalized.lookup e = some w → v = w

theorem normalizeScores_normalized (scores : List (List Char × Rat)) :
    Normalized scores (normalizeScores scores) := by
  obtain ⟨lo, hi, hbounds, heq⟩ := normalizeScores_eq scores
  have hlookup (d : List Char) :
      (normalizeScores scores).lookup d = (scores.lookup d).map (rescale lo hi) := by
    rw [heq]
    exact Entries.lookup_map_snd _ _ _
  have hvalue {d : List Char} {s v : Rat} (hs : scores.lookup d = some s)
      (hv : (normalizeScores scores).lookup d = some v) : v = rescale lo hi s := by
    rw [hlookup, hs] at hv
    exact (Option.some.inj hv).symm
  constructor
  case keys => rw [heq, List.map_map]; rfl
  case unit =>
    intro d s hs
    obtain ⟨hlo, hhi⟩ := hbounds (d, s) (Entries.mem_of_lookup hs)
    exact ⟨rescale lo hi s, by rw [hlookup, hs]; rfl, rescale_nonneg hlo, rescale_le_one hhi⟩
  case monotone =>
    intro d e s t v w hs ht hv hw hle
    rw [hvalue hs hv, hvalue ht hw]
    exact monotone_rescale lo hi hle
  case equal =>
    intro d e s v w hs ht hv hw
    rw [hvalue hs hv, hvalue ht hw]

/-- Fusion respects dominance among the documents it scores, and the min-max step keeps the order
of their scores. -/
theorem fusion_respects_dominance (rankings : List (List (List Char))) (k : Nat)
    (h : ∀ ranking ∈ rankings, ranking.Nodup) :
    (∀ d e, Dominates rankings d e →
      fusedScore rankings k e ≤ fusedScore rankings k d ∧
        (Better rankings d e → fusedScore rankings k e < fusedScore rankings k d)) ∧
    (∀ d, ((rrfFuse rankings k).lookup d).isSome = true ↔ ∃ ranking ∈ rankings, d ∈ ranking) ∧
    Normalized (rrfFuse rankings k) (normalizeScores (rrfFuse rankings k)) := by
  refine ⟨?_, ?_, ?_⟩
  · intro d e hde
    exact ⟨fusedScore_le h hde, fusedScore_lt h hde⟩
  · intro d
    exact Entries.isSome_lookup_iff.trans mem_keys_rrfFuse
  · exact normalizeScores_normalized _

/-- Two sources agree on the best of three documents, and only one of them has the last. -/
def twoSources : List (List (List Char)) :=
  [["a".toList, "b".toList, "c".toList], ["a".toList, "c".toList, "b".toList, "d".toList]]

theorem fusion_respects_dominance_two_sources :
    fusedScore twoSources 60 "d".toList < fusedScore twoSources 60 "b".toList ∧
      fusedScore twoSources 60 "b".toList = fusedScore twoSources 60 "c".toList ∧
      (normalizeScores (rrfFuse twoSources 60)).map Prod.fst =
        ["a".toList, "b".toList, "c".toList, "d".toList] ∧
      ∃ v, (normalizeScores (rrfFuse twoSources 60)).lookup "b".toList = some v ∧ 0 ≤ v ∧ v ≤ 1 := by
  obtain ⟨hdominance, hscored, hnormalized⟩ :=
    fusion_respects_dominance twoSources 60 (by unfold twoSources; decide)
  obtain ⟨s, hs⟩ := Option.isSome_iff_exists.mp
    ((hscored "b".toList).mpr ⟨_, List.mem_cons_self, by decide⟩)
  refine ⟨?_, by decide +kernel, ?_, hnormalized.unit _ s hs⟩
  · exact (hdominance "b".toList "d".toList (by unfold Dominates; decide)).2
      (by unfold Better; decide)
  · rw [hnormalized.keys]
    decide +kernel

end Synthetos.Discovery
