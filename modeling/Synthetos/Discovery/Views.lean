import Synthetos.Lib.Except
import Synthetos.Lib.Greedy
import Synthetos.Lib.Ranking
import Mathlib.Algebra.Order.Ring.Rat

/-!
# The stable view and the discovery view

The stable view is the best cards by score, ties in the order of their ids.  The discovery view
takes cards one by one by maximal marginal relevance; where only relevance counts, ties stay in the
order in which the cards were given.
-/

namespace Synthetos.Discovery

open Lib Greedy Ranking

/-- A paper of a session.  The ids order as their texts do. -/
structure PaperCard where
  id : Nat
  externalId : List Char := []
  dedupeKey : List Char := []
  title : List Char := []
  abstract : List Char := []
  firstStageScore : Option Rat := none
  rerankScore : Option Rat := none
  finalScore : Option Rat := none
  deriving DecidableEq

/-- `card.final_score or 0.0` -/
def PaperCard.relevance (card : PaperCard) : Rat := card.finalScore.getD 0

/-- The order of the keys `(-(c.final_score or 0.0), str(c.id))`. -/
def StableLE (a b : PaperCard) : Prop :=
  -a.relevance < -b.relevance ∨ -a.relevance = -b.relevance ∧ a.id ≤ b.id

instance : DecidableRel StableLE := fun a b => by
  unfold StableLE
  infer_instance

/-- Top-k by `final_score` descending, deterministic tie-break by id. -/
def buildStableView (cards : List PaperCard) (topK : Nat) : List PaperCard :=
  (cards.insertionSort StableLE).take topK

section Discovery

variable (similarity : PaperCard → PaperCard → Rat)

def penalty (selected : List PaperCard) (cand : PaperCard) : Rat :=
  match selected with
  | [] => 0
  | first :: rest => (rest.map (similarity cand)).foldl max (similarity cand first)

def mmrScore (lambdaParam : Rat) (selected : List PaperCard) (cand : PaperCard) : Rat :=
  lambdaParam * cand.relevance - (1 - lambdaParam) * penalty similarity selected cand

def buildDiscoveryView (cards : List PaperCard) (topK : Nat) (lambdaParam : Rat) : List PaperCard :=
  greedy (mmrScore similarity lambdaParam) topK (ranked PaperCard.relevance cards) []

/-- The comparisons of the selection: in each round every card left with those taken. -/
def compareAll (compare : PaperCard → PaperCard → Except String Rat) (cards view : List PaperCard) :
    Except String Unit :=
  (List.range view.length).forM fun round =>
    (cards.filter (!(view.take round).contains ·)).forM fun cand =>
      (view.take round).forM fun taken => discard (compare cand taken)

/-- `build_discovery_view` where a comparison may raise. -/
def comparedDiscoveryView (compare : PaperCard → PaperCard → Except String Rat)
    (cards : List PaperCard) (topK : Nat) (lambdaParam : Rat) : Except String (List PaperCard) := do
  let view := buildDiscoveryView (fun a b => (compare a b).toOption.getD 0) cards topK lambdaParam
  compareAll compare cards view
  return view

/-- Greedy by maximal marginal relevance, and the stable view where only relevance counts. -/
structure ViewsAgree (cards : List PaperCard) (topK : Nat) : Prop where
  greedy : ∀ lambdaParam, 0 ≤ lambdaParam → lambdaParam ≤ 1 →
    IsGreedy (mmrScore similarity lambdaParam) topK cards
      (buildDiscoveryView similarity cards topK lambdaParam)
  stable : buildDiscoveryView similarity cards topK 1 = buildStableView cards topK

end Discovery

/-- A card that fewer than `topK` cards come before, by score and then as given, has a lower id than
any later card of its score. -/
def TiesById (cards : List PaperCard) (topK : Nat) : Prop :=
  ∀ before card after, cards = before ++ card :: after →
    (before.countP fun other => decide (card.relevance ≤ other.relevance)) +
      (after.countP fun other => decide (card.relevance < other.relevance)) < topK →
    ∀ other ∈ after, other.relevance = card.relevance → card.id < other.id

/-- Comparisons that do not raise give the view of what they answer. -/
theorem comparedDiscoveryView_ok (similarity : PaperCard → PaperCard → Rat) (cards : List PaperCard)
    (topK : Nat) (lambdaParam : Rat) :
    comparedDiscoveryView (fun a b => .ok (similarity a b)) cards topK lambdaParam =
      .ok (buildDiscoveryView similarity cards topK lambdaParam) := by
  have hrounds (view : List PaperCard) :
      compareAll (fun a b => .ok (similarity a b)) cards view = .ok () :=
    forM_ok fun _ _ => forM_ok fun _ _ => forM_ok fun _ _ => rfl
  change (compareAll _ _ _ >>= fun _ => _) = _
  rw [hrounds]
  rfl

variable {similarity : PaperCard → PaperCard → Rat} {cards : List PaperCard} {a b card : PaperCard}
  {topK : Nat} {lambdaParam : Rat}

/-! ### The stable view -/

def StableLT (a b : PaperCard) : Prop :=
  b.relevance < a.relevance ∨ a.relevance = b.relevance ∧ a.id < b.id

theorem stableLE_iff : StableLE a b ↔
    b.relevance < a.relevance ∨ a.relevance = b.relevance ∧ a.id ≤ b.id := by
  unfold StableLE
  rw [neg_lt_neg_iff, neg_inj]

theorem stableLT_asymm (a b : PaperCard) (h : StableLT a b) : ¬ StableLT b a := by
  rintro (hba | ⟨hba, hid⟩)
  · rcases h with hab | ⟨hab, -⟩
    · exact absurd hba hab.not_gt
    · exact absurd hab hba.ne
  · rcases h with hab | ⟨-, hid'⟩
    · exact absurd hba hab.ne
    · exact absurd hid hid'.not_gt

theorem pairwise_stable (h : (cards.map PaperCard.id).Nodup) :
    (cards.insertionSort StableLE).Pairwise StableLT := by
  have htotal : Std.Total StableLE := ⟨fun a b => by
    rw [stableLE_iff, stableLE_iff]
    rcases lt_trichotomy a.relevance b.relevance with hlt | heq | hgt
    · exact Or.inr (Or.inl hlt)
    · rcases Nat.le_total a.id b.id with hid | hid
      · exact Or.inl (Or.inr ⟨heq, hid⟩)
      · exact Or.inr (Or.inr ⟨heq.symm, hid⟩)
    · exact Or.inl (Or.inl hgt)⟩
  have htrans : IsTrans PaperCard StableLE := ⟨fun a b c hab hbc => by
    rw [stableLE_iff] at hab hbc ⊢
    rcases hab with hab | ⟨hab, hid⟩
    · rcases hbc with hbc | ⟨hbc, -⟩
      · exact Or.inl (hbc.trans hab)
      · exact Or.inl (hbc ▸ hab)
    · rcases hbc with hbc | ⟨hbc, hid'⟩
      · exact Or.inl (hab ▸ hbc)
      · exact Or.inr ⟨hab.trans hbc, hid.trans hid'⟩⟩
  have hsorted := List.pairwise_insertionSort StableLE cards
  have hids : ((cards.insertionSort StableLE).map PaperCard.id).Nodup :=
    ((List.perm_insertionSort StableLE cards).map _).nodup_iff.mpr h
  apply (hsorted.and (List.pairwise_map.mp hids)).imp
  rintro a b ⟨hle, hne⟩
  rcases stableLE_iff.mp hle with hlt | ⟨heq, hid⟩
  · exact Or.inl hlt
  · exact Or.inr ⟨heq, lt_of_le_of_ne hid hne⟩

/-! ### The discovery view -/

theorem discoveryView_isGreedy (similarity : PaperCard → PaperCard → Rat) (topK : Nat)
    (lambdaParam : Rat) (h : cards.Nodup) :
    IsGreedy (mmrScore similarity lambdaParam) topK cards
      (buildDiscoveryView similarity cards topK lambdaParam) := by
  have hperm := perm_ranked PaperCard.relevance cards
  exact isGreedy_of_perm hperm (greedy_isGreedy _ topK (hperm.nodup_iff.mpr h))

theorem discoveryView_one (similarity : PaperCard → PaperCard → Rat) (cards : List PaperCard)
    (topK : Nat) : buildDiscoveryView similarity cards topK 1 =
      (ranked PaperCard.relevance cards).take topK := by
  have hscore : mmrScore similarity 1 = fun _ => PaperCard.relevance := by
    funext selected cand
    simp [mmrScore]
  rw [buildDiscoveryView, hscore, greedy_of_pairwise (pairwise_ranked _ _)]
  rfl

theorem take_ranked_eq_iff (h : (cards.map PaperCard.id).Nodup) :
    (ranked PaperCard.relevance cards).take topK = buildStableView cards topK ↔
      TiesById cards topK := by
  have hcards := List.Nodup.of_map _ h
  have hperm : (ranked PaperCard.relevance cards).Perm (cards.insertionSort StableLE) :=
    (perm_ranked _ cards).trans (List.perm_insertionSort _ cards).symm
  rw [buildStableView, take_eq_take_iff stableLT_asymm hperm (pairwise_stable h)]
  constructor
  · rintro hfirst before card after rfl hfew other hother hscore
    have hmem : card ∈ ranked PaperCard.relevance (before ++ card :: after) :=
      (perm_ranked _ _).mem_iff.mpr (by simp)
    obtain ⟨ahead, behind, hranked⟩ := List.append_of_mem hmem
    have hsame := (ofKey_of_ranked hcards hranked).2
    have hbehind : other ∈ ofKey PaperCard.relevance card.relevance behind := by
      rw [hsame]
      exact List.mem_filter.mpr ⟨hother, by simpa using hscore⟩
    rw [← length_of_ranked hcards hranked] at hfew
    rcases hfirst ahead card behind hranked hfew other (List.mem_of_mem_filter hbehind) with
      hlt | ⟨-, hid⟩
    · exact absurd hscore hlt.ne
    · exact hid
  · intro hties ahead card behind hranked hfew other hother
    have hmem : card ∈ cards := by
      rw [← (perm_ranked PaperCard.relevance cards).mem_iff, hranked]
      simp
    obtain ⟨before, after, rfl⟩ := List.append_of_mem hmem
    have hle : other.relevance ≤ card.relevance := by
      have hsorted := pairwise_ranked PaperCard.relevance (before ++ card :: after)
      rw [hranked] at hsorted
      exact List.rel_of_pairwise_cons (List.pairwise_append.mp hsorted).2.1 hother
    rcases hle.lt_or_eq with hlt | heq
    · exact Or.inl hlt
    · have hsame := (ofKey_of_ranked hcards hranked).2
      have hafter : other ∈ ofKey PaperCard.relevance card.relevance after := by
        rw [← hsame]
        exact List.mem_filter.mpr ⟨hother, by simpa using heq⟩
      rw [length_of_ranked hcards hranked] at hfew
      exact Or.inr ⟨heq.symm,
        hties before card after rfl hfew other (List.mem_of_mem_filter hafter) heq⟩

/-- The views agree exactly where tied cards are given in the order of their ids. -/
theorem viewsAgree_iff (similarity : PaperCard → PaperCard → Rat) (topK : Nat)
    (h : (cards.map PaperCard.id).Nodup) :
    ViewsAgree similarity cards topK ↔ TiesById cards topK := by
  rw [← take_ranked_eq_iff h]
  constructor
  · intro hagree
    rw [← discoveryView_one similarity, hagree.stable]
  · intro htake
    constructor
    · intro lambdaParam _ _
      exact discoveryView_isGreedy similarity topK lambdaParam (List.Nodup.of_map _ h)
    · rw [discoveryView_one, htake]

def tied (id : Nat) : PaperCard := { id := id, finalScore := some (1 / 2) }

def leading : PaperCard := { id := 3, finalScore := some (9 / 10) }

/-- The lower id of the two tied cards is given first. -/
theorem viewsAgree_iff_lower_id_first :
    ViewsAgree (fun a b => if a.id = b.id then 1 else 1 / 2) [tied 1, leading, tied 2] 2 := by
  refine (viewsAgree_iff _ 2 (by decide)).mpr ((take_ranked_eq_iff (by decide)).mp ?_)
  decide +kernel

theorem tie_given_by_score_only : ¬ ViewsAgree (fun _ _ => 0) [tied 2, tied 1] 1 := by
  intro h
  have hstable := h.stable
  revert hstable
  decide +kernel

end Synthetos.Discovery
