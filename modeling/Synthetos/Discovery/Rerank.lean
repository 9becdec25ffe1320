import Synthetos.Discovery.Views
import Synthetos.Lib.Collect
import Synthetos.Lib.Text
import Mathlib.Order.WithBot

/-!
# Reranking

The cards of a session are reranked by a cross-encoder, or by nothing where it cannot run.  Cards
outside the pool keep the scores they have, whatever the scores of the cross-encoder mean.
-/

namespace Synthetos.Discovery

open Lib Ranking

structure RerankDoc where
  id : Nat
  text : List Char
  firstStageScore : Option Rat

structure RerankResult where
  id : Nat
  rerankScore : Rat
  rank : Nat
  deriving DecidableEq

/-- What a reranker raises; the last is no error of a reranker. -/
inductive RerankFailure where
  | unavailable (message : String)
  | budgetExceeded (message : String)
  | rerankerError (message : String)
  | other (message : String)
  deriving DecidableEq

structure RerankPolicy where
  enabled : Bool := true
  topN : Nat := 100
  budgetSeconds : Rat := 30
  model : Option String := none
  topN_pos : 0 < topN := by decide

/-- The cross-encoder: its scores for a query and some texts, and the texts of its numbers. -/
structure CrossEncoder where
  predict : Option String → List Char → List (List Char) → Except RerankFailure (List Rat)
  floatText : Rat → String

def numbered (scored : List (Nat × Rat)) : List RerankResult :=
  scored.zipIdx.map fun entry => ⟨entry.1.1, entry.1.2, entry.2⟩

def noOpRerank (docs : List RerankDoc) (topK : Nat) : List RerankResult :=
  let ordered := ranked (fun doc : RerankDoc => doc.firstStageScore.getD 0) docs
  numbered ((ordered.take topK).map fun doc => (doc.id, doc.firstStageScore.getD 0))

structure RerankOutcome where
  results : List RerankResult
  usedReranker : String
  fallbackReason : Option String := none
  deriving DecidableEq

namespace CrossEncoder

variable (encoder : CrossEncoder)

def score (policy : RerankPolicy) (query : List Char) (docs : List RerankDoc) :
    Except RerankFailure (List Rat) :=
  if docs.isEmpty then .ok []
  else if policy.budgetSeconds ≤ 0 then
    .error (.budgetExceeded ("rerank budget exhausted before scoring (budget=" ++
      encoder.floatText policy.budgetSeconds ++ "s)"))
  else
    match encoder.predict policy.model query (docs.map RerankDoc.text) with
    | .error failure => .error failure
    | .ok scores =>
      if scores.length = docs.length then .ok scores
      else .error (.other "zip() arguments are of different lengths")

/-- `LocalCrossEncoderReranker.rerank` -/
def rerank (policy : RerankPolicy) (query : List Char) (docs : List RerankDoc) (topK : Nat) :
    Except RerankFailure (List RerankResult) := do
  let scores ← encoder.score policy query docs
  let scored := ranked Prod.snd (docs.zip scores)
  return numbered ((scored.take topK).map fun entry => (entry.1.id, entry.2))

def runRerank (policy : RerankPolicy) (query : List Char) (docs : List RerankDoc) (topK : Nat) :
    Except String RerankOutcome :=
  if policy.enabled then
    match encoder.rerank policy query docs topK with
    | .ok results => .ok ⟨results, "local_cross_encoder", none⟩
    | .error (.unavailable message) =>
      .ok ⟨noOpRerank docs topK, "no_op", some ("unavailable:" ++ message)⟩
    | .error (.budgetExceeded message) =>
      .ok ⟨noOpRerank docs topK, "no_op", some ("budget_exceeded:" ++ message)⟩
    | .error (.rerankerError message) =>
      .ok ⟨noOpRerank docs topK, "no_op", some ("error:" ++ message)⟩
    | .error (.other message) => .error message
  else .ok ⟨noOpRerank docs topK, "no_op", some "policy_disabled"⟩

end CrossEncoder

/-! ### The operator -/

/-- Cards by first-stage score, highest first, those without one last. -/
def byFirstStage (rows : List PaperCard) : List PaperCard :=
  ranked (κ := WithBot Rat) PaperCard.firstStageScore rows

/-- A card without a final score is given its first-stage score. -/
def PaperCard.snapshot (card : PaperCard) : PaperCard :=
  { card with finalScore := card.finalScore.or card.firstStageScore }

def PaperCard.docText (card : PaperCard) : List Char :=
  Text.strip (card.title ++ "\n\n".toList ++ card.abstract)

def PaperCard.doc (card : PaperCard) : RerankDoc where
  id := card.id
  text := card.docText
  firstStageScore := card.firstStageScore

/-- `{res.id: res.rerank_score for res in results}`: a later result replaces an earlier one. -/
def scoreOf (results : List RerankResult) (id : Nat) : Option Rat :=
  (results.map fun result => (result.id, result.rerankScore)).reverse.lookup id

def PaperCard.applyScore (results : List RerankResult) (card : PaperCard) : PaperCard :=
  match scoreOf results card.id with
  | some score => { card with rerankScore := some score, finalScore := some score }
  | none => card

def rerankPool (policy : RerankPolicy) (rows : List PaperCard) : List PaperCard :=
  ((byFirstStage rows).map PaperCard.snapshot).take policy.topN

def outsidePool (policy : RerankPolicy) (rows : List PaperCard) : List PaperCard :=
  ((byFirstStage rows).map PaperCard.snapshot).drop policy.topN

/-- The cards of the pool and the others, as the operator leaves them. -/
structure Reranked where
  pool : List PaperCard
  outside : List PaperCard
  outcome : RerankOutcome
  deriving DecidableEq

def discoveryRerank (encoder : CrossEncoder) (policy : RerankPolicy) (query : List Char)
    (rows : List PaperCard) : Except String Reranked :=
  match encoder.runRerank policy query ((rerankPool policy rows).map PaperCard.doc) policy.topN with
  | .ok outcome => .ok
      { pool := (rerankPool policy rows).map (PaperCard.applyScore outcome.results)
        outside := outsidePool policy rows
        outcome := outcome }
  | .error message => .error ("discovery_rerank failed: " ++ message)

/-! ### Comparable scores -/

def PaperCard.firstStage (card : PaperCard) : Rat := card.firstStageScore.getD 0

structure Comparable (done : Reranked) : Prop where
  fallback : done.outcome.fallbackReason ≠ none → ∀ a ∈ done.pool ++ done.outside,
    ∀ b ∈ done.pool ++ done.outside, a.firstStage ≤ b.firstStage ↔ a.relevance ≤ b.relevance
  scored : done.outcome.fallbackReason = none → ∀ a ∈ done.pool,
    scoreOf done.outcome.results a.id = some a.relevance
  outside : done.outcome.fallbackReason = none → ∀ a ∈ done.pool, ∀ b ∈ done.outside,
    b.relevance ≤ a.relevance

/-- The cards outside the pool stand, by the final scores they have already, where their first-stage
scores would put them. -/
def StandsAsRanked (policy : RerankPolicy) (rows : List PaperCard) : Prop :=
  ∀ b ∈ outsidePool policy rows,
    (∀ a ∈ rerankPool policy rows, (a.firstStage ≤ b.firstStage ↔ a.firstStage ≤ b.relevance) ∧
      (b.firstStage ≤ a.firstStage ↔ b.relevance ≤ a.firstStage)) ∧
    ∀ c ∈ outsidePool policy rows, b.firstStage ≤ c.firstStage ↔ b.relevance ≤ c.relevance

/-- The scores of the cross-encoder are no lower than those of the cards outside the pool, or there
are none and these stand as ranked. -/
def ScoresAgree (encoder : CrossEncoder) (policy : RerankPolicy) (query : List Char)
    (rows : List PaperCard) : Prop :=
  match policy.enabled, encoder.score policy query ((rerankPool policy rows).map PaperCard.doc) with
  | true, .ok scores => ∀ score ∈ scores, ∀ b ∈ outsidePool policy rows, b.relevance ≤ score
  | _, _ => StandsAsRanked policy rows

variable {encoder : CrossEncoder} {policy : RerankPolicy} {query : List Char}
  {rows : List PaperCard} {docs : List RerankDoc} {scored : List (Nat × Rat)} {scores : List Rat}
  {results : List RerankResult} {outcome : RerankOutcome} {done : Reranked} {a b card : PaperCard}
  {doc : RerankDoc} {topK id : Nat} {s : Rat}

/-! ### What the rerankers return -/

theorem scoreOf_numbered (h : (scored.map Prod.fst).Nodup) (hmem : (id, s) ∈ scored) :
    scoreOf (numbered scored) id = some s := by
  have hscored : (numbered scored).map (fun result => (result.id, result.rerankScore)) = scored := by
    rw [numbered, List.map_map]
    exact List.zipIdx_map_fst 0 scored
  have hreverse : (scored.reverse.map Prod.fst).Nodup := by
    rw [List.map_reverse]
    exact List.nodup_reverse.mpr h
  rw [scoreOf, hscored]
  exact (Entries.mem_iff_lookup hreverse).mp (List.mem_reverse.mpr hmem)

theorem scoreOf_noOpRerank (h : (docs.map RerankDoc.id).Nodup) (hfit : docs.length ≤ topK)
    (hdoc : doc ∈ docs) :
    scoreOf (noOpRerank docs topK) doc.id = some (doc.firstStageScore.getD 0) := by
  have hperm := perm_ranked (fun doc : RerankDoc => doc.firstStageScore.getD 0) docs
  unfold noOpRerank
  dsimp only
  rw [List.take_of_length_le (hperm.length_eq.trans_le hfit)]
  apply scoreOf_numbered
  · rw [List.map_map]
    exact (hperm.map RerankDoc.id).nodup_iff.mpr h
  · exact List.mem_map.mpr ⟨doc, hperm.mem_iff.mpr hdoc, rfl⟩

namespace CrossEncoder

theorem length_of_score (h : encoder.score policy query docs = .ok scores) :
    scores.length = docs.length := by
  unfold score at h
  split at h
  · rename_i hempty
    cases h
    rw [List.isEmpty_iff.mp hempty]
    rfl
  · split at h
    · cases h
    · split at h
      · cases h
      · split at h
        · rename_i hlength
          cases h
          exact hlength
        · cases h

def resultsOf (docs : List RerankDoc) (scores : List Rat) (topK : Nat) : List RerankResult :=
  numbered (((ranked Prod.snd (docs.zip scores)).take topK).map fun entry => (entry.1.id, entry.2))

theorem scoreOf_resultsOf (h : (docs.map RerankDoc.id).Nodup) (hlength : scores.length = docs.length)
    (hfit : docs.length ≤ topK) (hmem : (doc, s) ∈ docs.zip scores) :
    scoreOf (resultsOf docs scores topK) doc.id = some s := by
  have hperm := perm_ranked Prod.snd (docs.zip scores)
  have hzip : (docs.zip scores).map Prod.fst = docs := List.map_fst_zip hlength.ge
  have hshort : (ranked Prod.snd (docs.zip scores)).length ≤ topK := by
    rw [hperm.length_eq, List.length_zip, hlength, Nat.min_self]
    exact hfit
  rw [resultsOf, List.take_of_length_le hshort]
  apply scoreOf_numbered
  · rw [List.map_map]
    apply (hperm.map _).nodup_iff.mpr
    rw [← hzip, List.map_map] at h
    exact h
  · exact List.mem_map.mpr ⟨(doc, s), hperm.mem_iff.mpr hmem, rfl⟩

theorem runRerank_cases (h : encoder.runRerank policy query docs topK = .ok outcome) :
    (∃ scores, policy.enabled = true ∧ encoder.score policy query docs = .ok scores ∧
      outcome = ⟨resultsOf docs scores topK, "local_cross_encoder", none⟩) ∨
    (policy.enabled = false ∨ ∃ failure, encoder.score policy query docs = .error failure) ∧
      outcome.results = noOpRerank docs topK ∧ outcome.fallbackReason ≠ none := by
  unfold runRerank at h
  cases henabled : policy.enabled with
  | false =>
    rw [henabled] at h
    cases h
    exact Or.inr ⟨Or.inl rfl, rfl, by simp⟩
  | true =>
    cases hscore : encoder.score policy query docs with
    | ok scores =>
      have hrerank : encoder.rerank policy query docs topK = .ok (resultsOf docs scores topK) := by
        rw [rerank, hscore]
        rfl
      rw [henabled, hrerank] at h
      cases h
      exact Or.inl ⟨scores, rfl, rfl, rfl⟩
    | error failure =>
      have hrerank : encoder.rerank policy query docs topK = .error failure := by
        rw [rerank, hscore]
        rfl
      rw [henabled, hrerank] at h
      cases failure with
      | other message => cases h
      | _ message =>
        cases h
        exact Or.inr ⟨Or.inr ⟨_, rfl⟩, rfl, by simp⟩

end CrossEncoder

/-! ### The cards of a session -/

@[simp] theorem applyScore_id : (card.applyScore results).id = card.id := by
  unfold PaperCard.applyScore
  split <;> rfl

@[simp] theorem applyScore_firstStage : (card.applyScore results).firstStage = card.firstStage := by
  unfold PaperCard.applyScore
  split <;> rfl

theorem relevance_applyScore (h : scoreOf results card.id = some s) :
    (card.applyScore results).relevance = s := by
  rw [PaperCard.applyScore, h]
  rfl

theorem nodup_docs (h : (rows.map PaperCard.id).Nodup) :
    (((rerankPool policy rows).map PaperCard.doc).map RerankDoc.id).Nodup := by
  have hcards : (((byFirstStage rows).map PaperCard.snapshot).map PaperCard.id).Nodup := by
    rw [List.map_map]
    exact ((perm_ranked (κ := WithBot Rat) PaperCard.firstStageScore rows).map _).nodup_iff.mpr h
  rw [List.map_map]
  exact hcards.sublist ((List.take_sublist _ _).map _)

theorem length_docs_le : ((rerankPool policy rows).map PaperCard.doc).length ≤ policy.topN := by
  rw [List.length_map]
  exact List.length_take_le _ _

theorem scoreOf_pool (h : (rows.map PaperCard.id).Nodup) (hlength : scores.length =
      ((rerankPool policy rows).map PaperCard.doc).length)
    (hmem : (card.doc, s) ∈ ((rerankPool policy rows).map PaperCard.doc).zip scores) :
    scoreOf (CrossEncoder.resultsOf ((rerankPool policy rows).map PaperCard.doc) scores policy.topN)
      card.id = some s :=
  CrossEncoder.scoreOf_resultsOf (nodup_docs h) hlength length_docs_le hmem

theorem exists_scoreOf (h : (rows.map PaperCard.id).Nodup) (hlength : scores.length =
      ((rerankPool policy rows).map PaperCard.doc).length) (hcard : card ∈ rerankPool policy rows) :
    ∃ s ∈ scores, scoreOf (CrossEncoder.resultsOf ((rerankPool policy rows).map PaperCard.doc)
      scores policy.topN) card.id = some s := by
  have hdoc : card.doc ∈ (((rerankPool policy rows).map PaperCard.doc).zip scores).map Prod.fst := by
    rw [List.map_fst_zip hlength.ge]
    exact List.mem_map_of_mem hcard
  obtain ⟨⟨doc, s⟩, hmem, rfl⟩ := List.mem_map.mp hdoc
  exact ⟨s, (List.of_mem_zip hmem).2, scoreOf_pool h hlength hmem⟩

theorem discoveryRerank_eq (h : discoveryRerank encoder policy query rows = .ok done) :
    ∃ outcome, encoder.runRerank policy query ((rerankPool policy rows).map PaperCard.doc)
        policy.topN = .ok outcome ∧
      done = ⟨(rerankPool policy rows).map (PaperCard.applyScore outcome.results),
        outsidePool policy rows, outcome⟩ := by
  unfold discoveryRerank at h
  split at h
  · rename_i outcome hrun
    cases h
    exact ⟨outcome, hrun, rfl⟩
  · cases h

/-! ### The cross-encoder -/

theorem comparable_scored_iff (h : (rows.map PaperCard.id).Nodup)
    (hscore : encoder.score policy query ((rerankPool policy rows).map PaperCard.doc) = .ok scores)
    (hresults : results = CrossEncoder.resultsOf ((rerankPool policy rows).map PaperCard.doc) scores
      policy.topN) {used : String} :
    Comparable ⟨(rerankPool policy rows).map (PaperCard.applyScore results),
        outsidePool policy rows, ⟨results, used, none⟩⟩ ↔
      ∀ score ∈ scores, ∀ b ∈ outsidePool policy rows, b.relevance ≤ score := by
  have hlength := CrossEncoder.length_of_score hscore
  subst hresults
  constructor
  · intro hcomparable score hscores b hb
    rw [← List.map_snd_zip hlength.le] at hscores
    obtain ⟨⟨doc, s⟩, hmem, rfl⟩ := List.mem_map.mp hscores
    obtain ⟨card, hpool, rfl⟩ := List.mem_map.mp (List.of_mem_zip hmem).1
    have hle := hcomparable.outside rfl _ (List.mem_map_of_mem hpool) b hb
    rwa [relevance_applyScore (scoreOf_pool h hlength hmem)] at hle
  · intro hall
    constructor
    · intro hfallback
      exact absurd rfl hfallback
    · intro _ a ha
      obtain ⟨card, hpool, rfl⟩ := List.mem_map.mp ha
      obtain ⟨s, -, hs⟩ := exists_scoreOf h hlength hpool
      rw [relevance_applyScore hs, applyScore_id]
      exact hs
    · intro _ a ha b hb
      obtain ⟨card, hpool, rfl⟩ := List.mem_map.mp ha
      obtain ⟨s, hmem, hs⟩ := exists_scoreOf h hlength hpool
      rw [relevance_applyScore hs]
      exact hall s hmem b hb

/-! ### The fallback -/

theorem comparable_fallback_iff (h : (rows.map PaperCard.id).Nodup)
    (hresults : outcome.results = noOpRerank ((rerankPool policy rows).map PaperCard.doc) policy.topN)
    (hfallback : outcome.fallbackReason ≠ none) :
    Comparable ⟨(rerankPool policy rows).map (PaperCard.applyScore outcome.results),
        outsidePool policy rows, outcome⟩ ↔ StandsAsRanked policy rows := by
  have hpool {card : PaperCard} (hcard : card ∈ rerankPool policy rows) :
      (card.applyScore outcome.results).relevance = card.firstStage := by
    apply relevance_applyScore
    rw [hresults]
    exact scoreOf_noOpRerank (nodup_docs h) length_docs_le (List.mem_map_of_mem hcard)
  constructor
  · intro hcomparable b hb
    have hkept := hcomparable.fallback hfallback
    refine ⟨fun a ha => ?_, fun c hc => ?_⟩
    · have ha' := List.mem_append_left (outsidePool policy rows)
        (List.mem_map_of_mem (f := PaperCard.applyScore outcome.results) ha)
      have hab := hkept _ ha' b (List.mem_append_right _ hb)
      have hba := hkept b (List.mem_append_right _ hb) _ ha'
      rw [hpool ha, applyScore_firstStage] at hab hba
      exact ⟨hab, hba⟩
    · exact hkept b (List.mem_append_right _ hb) c (List.mem_append_right _ hc)
  · intro hstands
    constructor
    · intro _ a ha b hb
      rcases List.mem_append.mp ha with ha | ha
      · obtain ⟨card, hcard, rfl⟩ := List.mem_map.mp ha
        rw [hpool hcard, applyScore_firstStage]
        rcases List.mem_append.mp hb with hb | hb
        · obtain ⟨other, hother, rfl⟩ := List.mem_map.mp hb
          rw [hpool hother, applyScore_firstStage]
        · exact ((hstands b hb).1 card hcard).1
      · rcases List.mem_append.mp hb with hb | hb
        · obtain ⟨other, hother, rfl⟩ := List.mem_map.mp hb
          rw [hpool hother, applyScore_firstStage]
          exact ((hstands a ha).1 other hother).2
        · exact (hstands a ha).2 b hb
    · intro hnone
      exact absurd hnone hfallback
    · intro hnone
      exact absurd hnone hfallback

/-- Reranked scores are comparable exactly where they agree with those outside the pool. -/
theorem comparable_iff (h : (rows.map PaperCard.id).Nodup)
    (hdone : discoveryRerank encoder policy query rows = .ok done) :
    Comparable done ↔ ScoresAgree encoder policy query rows := by
  obtain ⟨outcome, hrun, rfl⟩ := discoveryRerank_eq hdone
  rcases CrossEncoder.runRerank_cases hrun with
    ⟨scores, henabled, hscore, rfl⟩ | ⟨hfailed, hresults, hfallback⟩
  · rw [comparable_scored_iff h hscore rfl]
    unfold ScoresAgree
    rw [henabled, hscore]
  · rw [comparable_fallback_iff h hresults hfallback]
    unfold ScoresAgree
    rcases hfailed with hdisabled | ⟨failure, hfailure⟩
    · rw [hdisabled]
    · rw [hfailure]
      cases policy.enabled <;> rfl

/-- Logits of a relevance model are often negative. -/
def logits : CrossEncoder where
  predict _ _ texts := .ok (texts.map fun _ => -3)
  floatText _ := "30.0"

def fresh (id : Nat) (score : Rat) : PaperCard :=
  { id := id, firstStageScore := some score, finalScore := some score }

def cutAtOne : RerankPolicy := { topN := 1 }

/-- The pool, the rest and the outcome of a rerank of one card out of two. -/
def oneOfTwo : Reranked :=
  { pool := [{ fresh 1 1 with rerankScore := some (-3), finalScore := some (-3) }]
    outside := [fresh 2 (1 / 2)]
    outcome := ⟨[⟨1, -3, 0⟩], "local_cross_encoder", none⟩ }

def scaled : CrossEncoder where
  predict _ _ texts := .ok (texts.zipIdx.map fun (_, i) => 3 - (i : Rat))
  floatText _ := "3.0"

def cutAtTwo : RerankPolicy := { topN := 2 }

/-- Both logits are above the first-stage score of the card outside the pool. -/
theorem comparable_iff_two_of_three : ∃ done,
    discoveryRerank scaled cutAtTwo [] [fresh 1 (1 / 4), fresh 2 1, fresh 3 (1 / 2)] = .ok done ∧
      done.pool.length = 2 ∧ Comparable done := by
  have htest : (discoveryRerank scaled cutAtTwo []
      [fresh 1 (1 / 4), fresh 2 1, fresh 3 (1 / 2)]).toOption.any (fun done => done.pool.length == 2) =
        true := by decide +kernel
  obtain ⟨done, hdone, hpool⟩ := (Option.any_eq_true _ _).mp htest
  have hok := toOption_eq_some.mp hdone
  refine ⟨done, hok, beq_iff_eq.mp hpool, (comparable_iff (by decide) hok).mpr ?_⟩
  have hscores : scaled.score cutAtTwo [] ((rerankPool cutAtTwo
      [fresh 1 (1 / 4), fresh 2 1, fresh 3 (1 / 2)]).map PaperCard.doc) = .ok [3, 2] := by
    decide +kernel
  unfold ScoresAgree
  rw [hscores]
  show ∀ score ∈ [3, 2], ∀ b ∈ outsidePool cutAtTwo [fresh 1 (1 / 4), fresh 2 1, fresh 3 (1 / 2)],
    b.relevance ≤ score
  decide +kernel

/-- A card outside the pool is ranked above the only card inside it. -/
theorem rest_above_pool :
    discoveryRerank logits cutAtOne [] [fresh 1 1, fresh 2 (1 / 2)] = .ok oneOfTwo ∧
      ¬ Comparable oneOfTwo := by
  refine ⟨by decide +kernel, ?_⟩
  intro h
  have houtside := h.outside rfl _ List.mem_cons_self _ List.mem_cons_self
  revert houtside
  decide +kernel

/-- Cards that have their first-stage scores as final scores stand as ranked. -/
theorem standsAsRanked_of_fresh (h : ∀ card ∈ rows, card.finalScore = card.firstStageScore) :
    StandsAsRanked policy rows := by
  have hsame (card : PaperCard) (hcard : card ∈ outsidePool policy rows) :
      card.relevance = card.firstStage := by
    obtain ⟨row, hrow, rfl⟩ := List.mem_map.mp (List.mem_of_mem_drop hcard)
    have hmem := (perm_ranked (κ := WithBot Rat) PaperCard.firstStageScore rows).mem_iff.mp hrow
    unfold PaperCard.relevance PaperCard.firstStage PaperCard.snapshot
    rw [h row hmem]
    cases row.firstStageScore <;> rfl
  intro b hb
  rw [hsame b hb]
  refine ⟨fun a _ => ⟨Iff.rfl, Iff.rfl⟩, fun c hc => ?_⟩
  rw [hsame c hc]

end Synthetos.Discovery
