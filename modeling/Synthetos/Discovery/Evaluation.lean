import Synthetos.Discovery.Views
import Mathlib.Algebra.Order.Field.Rat
import Mathlib.Data.Finset.Card
import Mathlib.Tactic.FieldSimp
import Mathlib.Tactic.Positivity

/-!
# Recall, precision and reciprocal rank

Labels name papers by either of two ids.  The recall counts cards against distinct labels.
-/

namespace Synthetos.Discovery

def sliceTo {α : Type} (items : List α) (k : Int) : List α :=
  if 0 ≤ k then items.take k.toNat else items.take (items.length - k.natAbs)

def Named (relevant : Finset (List Char)) (card : PaperCard) : Prop :=
  card.externalId ∈ relevant ∨ card.dedupeKey ∈ relevant

instance (relevant : Finset (List Char)) : DecidablePred (Named relevant) := fun card => by
  unfold Named
  infer_instance

def hits (relevant : Finset (List Char)) (top : List PaperCard) : Nat :=
  top.countP fun card => decide (Named relevant card)

def recallAtK (ranked : List PaperCard) (relevant : Finset (List Char)) (k : Int) : Rat :=
  if relevant = ∅ then 0 else hits relevant (sliceTo ranked k) / relevant.card

def precisionAtK (ranked : List PaperCard) (relevant : Finset (List Char)) (k : Int) : Rat :=
  if k ≤ 0 then 0
  else if sliceTo ranked k = [] then 0
  else hits relevant (sliceTo ranked k) / (sliceTo ranked k).length

def mrr (ranked : List PaperCard) (relevant : Finset (List Char)) : Rat :=
  match (ranked.zipIdx 1).find? fun entry => decide (Named relevant entry.1) with
  | some (_, rank) => 1 / rank
  | none => 0

/-- Ground-truth labels; at least one, and any integers. -/
structure EvaluationSubmission where
  relevantIds : List (List Char)
  kValues : List Int := [10, 25]
  nonempty : relevantIds ≠ []

inductive Metric where
  | recallAtK
  | precisionAtK
  | mrr
  deriving DecidableEq

structure DiscoveryEvaluation where
  metric : Metric
  k : Option Int
  value : Rat
  deriving DecidableEq

/-- The rows added for a submission, on the cards of the session by their final scores. -/
def submitEvaluation (ranked : List PaperCard) (submission : EvaluationSubmission) :
    List DiscoveryEvaluation :=
  let relevant := submission.relevantIds.toFinset
  submission.kValues.flatMap (fun k =>
    [⟨.recallAtK, some k, recallAtK ranked relevant k⟩,
      ⟨.precisionAtK, some k, precisionAtK ranked relevant k⟩]) ++
    [⟨.mrr, none, mrr ranked relevant⟩]

/-! ### Papers and their labels -/

structure Paper where
  externalId : List Char
  dedupeKey : List Char
  deriving DecidableEq

def PaperCard.paper (card : PaperCard) : Paper := ⟨card.externalId, card.dedupeKey⟩

def labelled (papers : Finset Paper) (ids : Finset (List Char)) : Finset Paper :=
  papers.filter fun paper => paper.externalId ∈ ids ∨ paper.dedupeKey ∈ ids

def Admissible (papers : Finset Paper) (ids : Finset (List Char)) : Prop :=
  ids.Nonempty ∧ ∀ label ∈ ids, ∃ paper ∈ papers,
    label = paper.externalId ∨ label = paper.dedupeKey

/-- The labelled papers among the first `k` cards. -/
def found (papers : Finset Paper) (ranked : List PaperCard) (ids : Finset (List Char)) (k : Int) :
    Finset Paper :=
  (labelled papers ids).filter fun paper => paper ∈ (ranked.take k.toNat).map PaperCard.paper

def foundFraction (papers : Finset Paper) (ranked : List PaperCard) (ids : Finset (List Char))
    (k : Int) : Rat :=
  (found papers ranked ids k).card / (labelled papers ids).card

/-- For two ways of labelling the same papers, the recall is the fraction of them found. -/
structure RecallExact (papers : Finset Paper) (ranked : List PaperCard)
    (ids ids' : Finset (List Char)) (kValues : List Int) : Prop where
  fraction : ∀ k ∈ kValues, recallAtK ranked ids k = foundFraction papers ranked ids k
  bounds : ∀ k ∈ kValues, 0 ≤ recallAtK ranked ids k ∧ recallAtK ranked ids k ≤ 1
  monotone : ∀ k ∈ kValues, ∀ k' ∈ kValues, k ≤ k' →
    recallAtK ranked ids k ≤ recallAtK ranked ids k'
  labels : ∀ k ∈ kValues, recallAtK ranked ids' k = recallAtK ranked ids k

/-- One label for each labelled paper. -/
def OneEach (papers : Finset Paper) (ids : Finset (List Char)) : Prop :=
  ids.card = (labelled papers ids).card

def Silent (ranked : List PaperCard) (ids : Finset (List Char)) (k : Int) : Prop :=
  ∀ card ∈ sliceTo ranked k, ¬ Named ids card

variable {papers : Finset Paper} {ranked : List PaperCard} {ids ids' : Finset (List Char)}
  {kValues : List Int} {k k' : Int} {card : PaperCard}

/-! ### The fraction found -/

theorem found_subset : found papers ranked ids k ⊆ labelled papers ids := Finset.filter_subset _ _

theorem foundFraction_nonneg : 0 ≤ foundFraction papers ranked ids k := by
  unfold foundFraction
  positivity

theorem foundFraction_le_one : foundFraction papers ranked ids k ≤ 1 := by
  apply div_le_one_of_le₀
  · exact_mod_cast Finset.card_le_card found_subset
  · positivity

theorem foundFraction_mono (h : k ≤ k') :
    foundFraction papers ranked ids k ≤ foundFraction papers ranked ids k' := by
  have hsubset : found papers ranked ids k ⊆ found papers ranked ids k' := by
    intro paper hpaper
    obtain ⟨hlabelled, htop⟩ := Finset.mem_filter.mp hpaper
    apply Finset.mem_filter.mpr
    refine ⟨hlabelled, ?_⟩
    have hlonger := List.take_prefix_take_left (l := ranked) (Int.toNat_le_toNat h)
    exact (hlonger.sublist.map PaperCard.paper).subset htop
  apply div_le_div_of_nonneg_right
  · exact_mod_cast Finset.card_le_card hsubset
  · positivity

theorem labelled_nonempty (h : Admissible papers ids) : (labelled papers ids).Nonempty := by
  obtain ⟨⟨label, hlabel⟩, hids⟩ := h
  obtain ⟨paper, hpaper, hname⟩ := hids label hlabel
  refine ⟨paper, Finset.mem_filter.mpr ⟨hpaper, ?_⟩⟩
  rcases hname with rfl | rfl
  · exact Or.inl hlabel
  · exact Or.inr hlabel

theorem paper_mem_labelled (h : card.paper ∈ papers) :
    card.paper ∈ labelled papers ids ↔ Named ids card := by
  unfold labelled Named
  rw [Finset.mem_filter]
  exact and_iff_right h

theorem card_found (hpapers : ∀ card ∈ ranked, card.paper ∈ papers)
    (hdistinct : (ranked.map PaperCard.dedupeKey).Nodup) :
    (found papers ranked ids k).card = hits ids (ranked.take k.toNat) := by
  have hsublist : ((ranked.take k.toNat).filter fun card => decide (Named ids card)).Sublist ranked :=
    List.filter_sublist.trans (List.take_sublist _ _)
  have hnodup : (((ranked.take k.toNat).filter fun card => decide (Named ids card)).map
      PaperCard.paper).Nodup := by
    apply List.Nodup.of_map Paper.dedupeKey
    rw [List.map_map]
    exact hdistinct.sublist (hsublist.map _)
  have heq : found papers ranked ids k = (((ranked.take k.toNat).filter fun card =>
      decide (Named ids card)).map PaperCard.paper).toFinset := by
    ext paper
    rw [found, Finset.mem_filter, List.mem_toFinset, List.mem_map, List.mem_map]
    constructor
    · rintro ⟨hlabelled, card, hcard, rfl⟩
      have hnamed := (paper_mem_labelled (hpapers card (List.mem_of_mem_take hcard))).mp hlabelled
      exact ⟨card, List.mem_filter.mpr ⟨hcard, decide_eq_true hnamed⟩, rfl⟩
    · rintro ⟨card, hcard, rfl⟩
      obtain ⟨htop, hnamed⟩ := List.mem_filter.mp hcard
      have hpaper := hpapers card (List.mem_of_mem_take htop)
      exact ⟨(paper_mem_labelled hpaper).mpr (of_decide_eq_true hnamed), card, htop, rfl⟩
  rw [heq, List.toFinset_card_of_nodup hnodup, List.length_map, hits, List.countP_eq_length_filter]

/-! ### When the recall is the fraction found -/

theorem sliceTo_subset : sliceTo ranked k ⊆ ranked := by
  intro card hcard
  unfold sliceTo at hcard
  split at hcard <;> exact List.mem_of_mem_take hcard

theorem hits_eq_zero_iff : hits ids (sliceTo ranked k) = 0 ↔ Silent ranked ids k := by
  rw [hits, List.countP_eq_zero]
  simp [Silent]

theorem recallAtK_of_nonempty (h : ids.Nonempty) :
    recallAtK ranked ids k = hits ids (sliceTo ranked k) / ids.card := by
  rw [recallAtK, if_neg h.ne_empty]

theorem div_eq_div_iff_zero_or {n d d' : Nat} (hd : 0 < d) (hd' : 0 < d') :
    (n : Rat) / d = n / d' ↔ n = 0 ∨ d = d' := by
  have hne : (d : Rat) ≠ 0 := by positivity
  have hne' : (d' : Rat) ≠ 0 := by positivity
  rw [div_eq_div_iff hne hne', mul_eq_mul_left_iff]
  constructor
  · rintro (heq | hzero)
    · exact Or.inr (by exact_mod_cast heq.symm)
    · exact Or.inl (by exact_mod_cast hzero)
  · rintro (rfl | rfl)
    · exact Or.inr Nat.cast_zero
    · exact Or.inl rfl

theorem recall_eq_foundFraction_iff (hpapers : ∀ card ∈ ranked, card.paper ∈ papers)
    (hdistinct : (ranked.map PaperCard.dedupeKey).Nodup) (h : Admissible papers ids) :
    recallAtK ranked ids k = foundFraction papers ranked ids k ↔
      Silent ranked ids k ∨ 0 ≤ k ∧ OneEach papers ids := by
  have hids : 0 < ids.card := Finset.card_pos.mpr h.1
  have hpos : 0 < (labelled papers ids).card := Finset.card_pos.mpr (labelled_nonempty h)
  rw [recallAtK_of_nonempty h.1, foundFraction, card_found hpapers hdistinct, ← hits_eq_zero_iff]
  by_cases hk : 0 ≤ k
  · have hslice : sliceTo ranked k = ranked.take k.toNat := if_pos hk
    rw [hslice, div_eq_div_iff_zero_or hids hpos]
    exact or_congr_right (and_iff_right hk).symm
  · have hzero : k.toNat = 0 := Int.toNat_of_nonpos (not_le.mp hk).le
    have hne : (ids.card : Rat) ≠ 0 := by positivity
    simp [hzero, hk, hits, hne]

theorem named_congr (hpapers : ∀ card ∈ ranked, card.paper ∈ papers)
    (hsame : labelled papers ids' = labelled papers ids) (hcard : card ∈ ranked) :
    Named ids' card ↔ Named ids card := by
  rw [← paper_mem_labelled (hpapers card hcard), ← paper_mem_labelled (hpapers card hcard), hsame]

theorem hits_congr (hpapers : ∀ card ∈ ranked, card.paper ∈ papers)
    (hsame : labelled papers ids' = labelled papers ids) :
    hits ids' (sliceTo ranked k) = hits ids (sliceTo ranked k) := by
  apply List.countP_congr
  intro card hcard
  rw [decide_eq_true_iff, decide_eq_true_iff]
  exact named_congr hpapers hsame (sliceTo_subset hcard)

theorem recall_eq_recall_iff (hpapers : ∀ card ∈ ranked, card.paper ∈ papers)
    (h : Admissible papers ids) (h' : Admissible papers ids')
    (hsame : labelled papers ids' = labelled papers ids) :
    recallAtK ranked ids' k = recallAtK ranked ids k ↔
      Silent ranked ids k ∨ ids'.card = ids.card := by
  have hids : 0 < ids.card := Finset.card_pos.mpr h.1
  have hids' : 0 < ids'.card := Finset.card_pos.mpr h'.1
  rw [recallAtK_of_nonempty h.1, recallAtK_of_nonempty h'.1, hits_congr hpapers hsame,
    div_eq_div_iff_zero_or hids' hids, hits_eq_zero_iff]

/-- The recall is exact where the labels name no card, or each labelled paper has one label. -/
theorem recallExact_iff (hpapers : ∀ card ∈ ranked, card.paper ∈ papers)
    (hdistinct : (ranked.map PaperCard.dedupeKey).Nodup)
    (h : Admissible papers ids) (h' : Admissible papers ids')
    (hsame : labelled papers ids' = labelled papers ids) :
    RecallExact papers ranked ids ids' kValues ↔ ∀ k ∈ kValues,
      Silent ranked ids k ∨ 0 ≤ k ∧ OneEach papers ids ∧ OneEach papers ids' := by
  constructor
  · intro hexact k hk
    rcases (recall_eq_foundFraction_iff hpapers hdistinct h).mp (hexact.fraction k hk) with
      hsilent | ⟨hnonneg, hone⟩
    · exact Or.inl hsilent
    · rcases (recall_eq_recall_iff hpapers h h' hsame).mp (hexact.labels k hk) with
        hsilent | hcard
      · exact Or.inl hsilent
      · have hone' : OneEach papers ids' := by
          rw [OneEach, hsame, hcard]
          exact hone
        exact Or.inr ⟨hnonneg, hone, hone'⟩
  · intro hall
    have hfraction (k : Int) (hk : k ∈ kValues) :
        recallAtK ranked ids k = foundFraction papers ranked ids k := by
      apply (recall_eq_foundFraction_iff hpapers hdistinct h).mpr
      rcases hall k hk with hsilent | ⟨hnonneg, hone, -⟩
      · exact Or.inl hsilent
      · exact Or.inr ⟨hnonneg, hone⟩
    constructor
    · exact hfraction
    · intro k hk
      rw [hfraction k hk]
      exact ⟨foundFraction_nonneg, foundFraction_le_one⟩
    · intro k hk k' hk' hle
      rw [hfraction k hk, hfraction k' hk']
      exact foundFraction_mono hle
    · intro k hk
      apply (recall_eq_recall_iff hpapers h h' hsame).mpr
      rcases hall k hk with hsilent | ⟨-, hone, hone'⟩
      · exact Or.inl hsilent
      · right
        rw [hone', hone, hsame]

def onePaper : PaperCard := { id := 1, externalId := "2401.1".toList, dedupeKey := "arxiv:2401.1".toList }

def otherPaper : PaperCard :=
  { id := 2, externalId := "10.1/x".toList, dedupeKey := "doi:10.1/x".toList }

/-- Two papers labelled by their ids and by their keys, at three cut-offs. -/
theorem recallExact_iff_two_papers :
    RecallExact {onePaper.paper, otherPaper.paper} [onePaper, otherPaper]
      {"2401.1".toList, "10.1/x".toList} {"arxiv:2401.1".toList, "doi:10.1/x".toList} [0, 1, 2] := by
  refine (recallExact_iff (by decide) (by decide) ?_ ?_ (by decide)).mpr ?_
  · unfold Admissible
    decide
  · unfold Admissible
    decide
  · intro k hk
    refine .inr ⟨?_, by unfold OneEach; decide, by unfold OneEach; decide⟩
    revert k
    decide

theorem both_labels_halve_recall :
    ¬ RecallExact {onePaper.paper} [onePaper] {"2401.1".toList, "arxiv:2401.1".toList}
      {"2401.1".toList} [1] := by
  intro h
  have hlabels := h.labels 1 (by simp)
  revert hlabels
  decide +kernel

end Synthetos.Discovery
