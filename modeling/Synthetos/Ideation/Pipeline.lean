import Synthetos.Ideation.Operators
import Synthetos.Lib.Except
import Synthetos.Skills.Influence

/-!
# The ideation pipeline

Generation never gets past the text it embeds.  The critiques reach the cards they were written
for, and the ranks follow the composite scores.
-/

namespace Synthetos.Ideation

open Synthetos.Core Lib
open Storage (SessionId CardId)
open Skills (GenerateInput)

/-- A job for a session with a charter and evidence. -/
structure Ready (db : IdeationDb) (input : OperatorInput) (s : SessionId)
    (hs : HypothesisSession) : Prop where
  payload : input.payload.hypothesisSessionId = some s
  session : db.sessions[s]? = some hs
  charter : ∃ charter, db.charters[hs.charterId]? = some charter
  evidence : ∃ row ∈ db.evidence, row.cycleId = hs.cycleId

/-- Generation completes with as many candidate cards as the budget admits, and one critique job. -/
def Generates (db : IdeationDb) (input : OperatorInput) (world : IdeationWorld) (s : SessionId)
    (hs : HypothesisSession) (hypotheses : List GeneratedHypothesis) : Prop :=
  ∃ out created job maxHypotheses, hypothesisGenerateOperator db input world = .ok out ∧
    out.result.success = true ∧ hs.maxHypotheses = .ok maxHypotheses ∧
    out.db.cards = db.cards ++ created ∧
    (created.length : Int) = min maxHypotheses hypotheses.length ∧
    (∀ card ∈ created, card.hypothesisSessionId = s ∧ card.status = .candidate) ∧
    out.db.jobs = db.jobs ++ [job] ∧ job.jobType = .hypothesisCritique ∧
    job.payload.hypothesisSessionId = some s

/-- The card in each place of the prompt gets the scores of the critique in that place. -/
def CritiquesInOrder (db : IdeationDb) (input : OperatorInput) (world : IdeationWorld)
    (s : SessionId) (critiques : List CritiqueResult) : Prop :=
  ∃ out, hypothesisCritiqueOperator db input world = .ok out ∧ out.result.success = true ∧
    ∀ (i : Nat) row critique, (db.candidatesByAge s world)[i]? = some row → critiques[i]? = some critique →
      ∃ card, out.db.cards[row.2]? = some card ∧
        card.noveltyScore = some critique.noveltyScore.1 ∧
        card.feasibilityScore = some critique.feasibilityScore.1 ∧
        card.impactScore = some critique.impactScore.1

def rankOf (db : IdeationDb) (id : CardId) : Option Nat := db.cards[id]?.bind HypothesisCard.rank

/-- The candidates get the ranks from 1 on, a higher composite score a smaller one. -/
def RanksByScore (db : IdeationDb) (input : OperatorInput) (world : IdeationWorld)
    (s : SessionId) : Prop :=
  let out := hypothesisRankOperator db input world
  let rows := db.candidates s world
  out.result.success = true ∧
    (rows.map fun row => rankOf out.db row.2).Perm ((List.range' 1 rows.length).map some) ∧
    ∀ a ∈ rows, ∀ b ∈ rows, compositeScore world.round b.1 < compositeScore world.round a.1 →
      ∃ i j, rankOf out.db a.2 = some i ∧ rankOf out.db b.2 = some j ∧ i < j

variable {db : IdeationDb} {input : OperatorInput} {world : IdeationWorld} {s : SessionId}
  {hs : HypothesisSession} {critiques : List CritiqueResult} {rows : List CardRow} {row : CardRow}

/-! ### Candidates -/

theorem mem_candidates : row ∈ db.candidates s world ↔ db.cards[row.2]? = some row.1 ∧
    row.1.hypothesisSessionId = s ∧ row.1.status = .candidate := by
  rw [IdeationDb.candidates, (world.arrange_perm _).mem_iff, List.mem_filter,
    List.mem_zipIdx_iff_getElem?]
  simp

theorem candidates_nodup (db : IdeationDb) (s : SessionId) (world : IdeationWorld) :
    ((db.candidates s world).map Prod.snd).Nodup := by
  rw [IdeationDb.candidates, ((world.arrange_perm _).map Prod.snd).nodup_iff]
  refine (List.filter_sublist.map Prod.snd).nodup ?_
  rw [List.zipIdx_map_snd]
  exact List.nodup_range'

theorem candidatesByAge_perm (db : IdeationDb) (s : SessionId) (world : IdeationWorld) :
    (db.candidatesByAge s world).Perm (db.candidates s world) :=
  List.perm_insertionSort _ _

/-! ### Generation -/

/-- The entries of the evidence have no key `summary`, so building the text to embed raises. -/
theorem hypothesisGenerate_raises (gen : GenerateInput) (hevidence : gen.evidence ≠ [])
    (store : Skills.SkillStore) (cycle : Skills.CyclePolicy) (jobId : Skills.Id) :
    ∃ error, Skills.hypothesisGenerate gen store cycle jobId = .error error := by
  have hsome : gen.evidence.isEmpty = false := by simpa using hevidence
  have huser := gen.user_raises
  rw [hsome, Bool.not_false, Bool.true_and] at huser
  cases hgen : gen.user with
  | ok text =>
    rw [hgen] at huser
    exact absurd huser nofun
  | error error =>
    rw [Skills.hypothesisGenerate, hsome]
    rcases Skills.recordPrompt_cases store cycle "hypothesis_generate" jobId none
      "ideation.hypothesis_generation" {} with ⟨-, session, hrecord⟩ | ⟨-, e, hrecord⟩
    · exact ⟨error, by simp [hrecord, hgen, Bind.bind, Except.bind]⟩
    · exact ⟨e, by simp [hrecord, Bind.bind, Except.bind]⟩

theorem generateFrom_raises {charter : ResearchCharter} {evidence : List Skills.EvidenceCard}
    (hevidence : evidence ≠ []) (db : IdeationDb) (input : OperatorInput) (world : IdeationWorld)
    (s : SessionId) (hs : HypothesisSession) :
    ∃ error, generateFrom db input world s hs charter evidence = .error error := by
  unfold generateFrom
  rw [if_neg (by simpa using hevidence)]
  cases hs.maxHypotheses with
  | error error => exact ⟨error, rfl⟩
  | ok maxHypotheses =>
    obtain ⟨error, hraise⟩ := hypothesisGenerate_raises
      ⟨charter.title, charter.problemStatement, evidence, maxHypotheses, world.patternHints⟩
      hevidence world.skills world.cycle input.jobId
    refine ⟨error, ?_⟩
    change (Skills.hypothesisGenerate _ _ _ _ >>= _) = _
    rw [hraise]
    rfl

theorem generate_raises (hready : Ready db input s hs) (world : IdeationWorld) :
    ∃ error, hypothesisGenerateOperator db input world = .error error := by
  obtain ⟨charter, hcharter⟩ := hready.charter
  obtain ⟨row, hrow, hcycle⟩ := hready.evidence
  have hevidence : db.evidenceOf hs.cycleId ≠ [] :=
    List.ne_nil_of_mem (List.mem_map_of_mem (List.mem_filter.mpr ⟨hrow, beq_iff_eq.mpr hcycle⟩))
  unfold hypothesisGenerateOperator
  rw [hready.payload]
  dsimp only
  rw [hready.session]
  dsimp only
  rw [HypothesisSession.startGenerating_charterId, hcharter]
  exact generateFrom_raises hevidence db input world s _

/-! ### Critiques -/

theorem hypothesisCritique_asks {store : Skills.SkillStore} {cycle : Skills.CyclePolicy}
    (hskill : store.stops cycle "hypothesis_critique" "ideation.hypothesis_generation" = false)
    (asked : Skills.CritiqueInput) (hcards : asked.cards ≠ []) (jobId : Skills.Id) :
    ∃ answer, Skills.hypothesisCritique asked store cycle jobId = .ok answer := by
  have hsome : asked.cards.isEmpty = false := by simpa using hcards
  unfold Skills.hypothesisCritique
  rw [hsome]
  rcases Skills.recordPrompt_cases store cycle "hypothesis_critique" jobId
    (some [("mode", .str "critique")]) "ideation.hypothesis_generation" {}
    with ⟨-, session, hrecord⟩ | ⟨hstops, -⟩
  · exact ⟨_, bind_eq_ok.mpr ⟨session, hrecord, rfl⟩⟩
  · exact absurd (hskill.symm.trans hstops) nofun

theorem critiqued_distinct (critiques : List CritiqueResult) (now : Storage.Timestamp)
    (hdistinct : (rows.map Prod.snd).Nodup) :
    ((critiqued now rows critiques).map Prod.fst).Nodup := by
  have hleading : (rows.zip critiques).map Prod.fst <+: rows := by
    rw [List.zip_eq_zip_take_min, List.map_fst_zip (by simp)]
    exact List.take_prefix ..
  have hids : (critiqued now rows critiques).map Prod.fst =
      ((rows.zip critiques).map Prod.fst).map Prod.snd := by
    rw [critiqued, List.map_map, List.map_map]
    rfl
  rw [hids]
  exact (hleading.sublist.map Prod.snd).nodup hdistinct

theorem critique_in_order (hinput : input.payload.hypothesisSessionId = some s)
    (hsession : db.sessions[s]? = some hs)
    (hskill : world.skills.stops world.cycle "hypothesis_critique" "ideation.hypothesis_generation"
      = false)
    (hcritiques : world.critiques = .ok critiques) (hcards : db.candidates s world ≠ []) :
    CritiquesInOrder db input world s critiques := by
  have hperm := candidatesByAge_perm db s world
  have hshown : db.candidatesByAge s world ≠ [] := by
    intro hnil
    rw [hnil, List.nil_perm] at hperm
    exact hcards hperm
  obtain ⟨answer, hasked⟩ := hypothesisCritique_asks hskill
    ⟨(db.candidatesByAge s world).map fun row => row.1.forPrompt,
      (db.charters[hs.charterId]?.map ResearchCharter.problemStatement).getD []⟩
    (by simpa using hshown) input.jobId
  refine ⟨persistCritiques db s { hs with status := .critiquing } (db.candidatesByAge s world)
    critiques answer.1, ?_, rfl, ?_⟩
  · unfold hypothesisCritiqueOperator
    rw [hinput]
    dsimp only
    rw [hsession]
    dsimp only
    rw [if_neg (by simpa using hshown)]
    rw [hasked, hcritiques]
    rfl
  · intro i row critique hrow hcritique
    have hchange : (row.2, applyCritique db.now critique) ∈
        critiqued db.now (db.candidatesByAge s world) critiques :=
      List.mem_map.mpr ⟨(row, critique),
        List.mem_of_getElem? (List.getElem?_zip_eq_some.mpr ⟨hrow, hcritique⟩), rfl⟩
    have hdistinct := critiqued_distinct critiques db.now
      ((hperm.map Prod.snd).nodup_iff.mpr (candidates_nodup db s world))
    have hcard := (mem_candidates.mp (hperm.mem_iff.mp (List.mem_of_getElem? hrow))).1
    refine ⟨applyCritique db.now critique row.1, ?_, rfl, rfl, rfl⟩
    change (Table.updateEach db.cards _)[row.2]? = _
    rw [Table.getElem?_updateEach_of_mem hdistinct hchange, hcard]
    rfl

/-! ### Ranks -/

theorem ranked_distinct (now : Storage.Timestamp) (hdistinct : (rows.map Prod.snd).Nodup) :
    ((rankedChanges now rows).map Prod.fst).Nodup := by
  have hids : (rankedChanges now rows).map Prod.fst = rows.map Prod.snd := by
    rw [rankedChanges, List.map_map, ← List.zipIdx_map_fst 1 rows, List.map_map]
    simp
  rw [hids]
  exact hdistinct

/-- The candidates of a session, the highest composite score first. -/
def rankedRows (db : IdeationDb) (s : SessionId) (world : IdeationWorld) : List CardRow :=
  Ranking.ranked (fun row => compositeScore world.round row.1) (db.candidates s world)

theorem rankedRows_perm (db : IdeationDb) (s : SessionId) (world : IdeationWorld) :
    (rankedRows db s world).Perm (db.candidates s world) :=
  Ranking.perm_ranked _ _

theorem rank_completes (hinput : input.payload.hypothesisSessionId = some s)
    (hsession : db.sessions[s]? = some hs) (hcards : db.candidates s world ≠ []) :
    (hypothesisRankOperator db input world).result.success = true ∧
      (hypothesisRankOperator db input world).db.cards =
        Table.updateEach db.cards (rankedChanges db.now (rankedRows db s world)) := by
  unfold hypothesisRankOperator
  rw [hinput]
  dsimp only
  rw [hsession]
  dsimp only
  rw [← rankedRows]
  cases hranked : rankedRows db s world with
  | nil =>
    have hperm := rankedRows_perm db s world
    rw [hranked, List.nil_perm] at hperm
    exact absurd hperm hcards
  | cons top rest => exact ⟨rfl, rfl⟩

theorem rankOf_ranked {out : IdeationDb}
    (hout : out.cards = Table.updateEach db.cards (rankedChanges db.now (rankedRows db s world)))
    (entry : CardRow × Nat) (hentry : entry ∈ (rankedRows db s world).zipIdx 1) :
    rankOf out entry.1.2 = some entry.2 := by
  have hdistinct := ranked_distinct db.now
    (((rankedRows_perm db s world).map Prod.snd).nodup_iff.mpr (candidates_nodup db s world))
  have hchange : (entry.1.2, assignRank db.now entry.2) ∈
      rankedChanges db.now (rankedRows db s world) := List.mem_map_of_mem hentry
  have hrow : entry.1 ∈ rankedRows db s world := by
    rw [← List.zipIdx_map_fst 1 (rankedRows db s world)]
    exact List.mem_map_of_mem hentry
  have hcard := (mem_candidates.mp ((rankedRows_perm db s world).mem_iff.mp hrow)).1
  rw [rankOf, hout, Table.getElem?_updateEach_of_mem hdistinct hchange, hcard]
  rfl

theorem rank_by_score (hinput : input.payload.hypothesisSessionId = some s)
    (hsession : db.sessions[s]? = some hs) (hcards : db.candidates s world ≠ []) :
    RanksByScore db input world s := by
  obtain ⟨hsuccess, hout⟩ := rank_completes hinput hsession hcards
  have hperm := rankedRows_perm db s world
  refine ⟨hsuccess, ?_, ?_⟩
  · have hranks : (rankedRows db s world).map (fun row =>
        rankOf (hypothesisRankOperator db input world).db row.2) =
          (List.range' 1 (db.candidates s world).length).map some := by
      rw [← hperm.length_eq, ← List.zipIdx_map_snd, List.map_map,
        ← List.zipIdx_map_fst 1 (rankedRows db s world), List.map_map, List.zipIdx_map_fst]
      exact List.map_congr_left fun entry hentry => rankOf_ranked hout entry hentry
    rw [← hranks]
    exact (hperm.map _).symm
  · intro a ha b hb hscore
    obtain ⟨i, hi⟩ := List.mem_iff_getElem?.mp (hperm.mem_iff.mpr ha)
    obtain ⟨j, hj⟩ := List.mem_iff_getElem?.mp (hperm.mem_iff.mpr hb)
    have ranked (row : CardRow) (k : Nat) (hk : (rankedRows db s world)[k]? = some row) :
        rankOf (hypothesisRankOperator db input world).db row.2 = some (1 + k) := by
      refine rankOf_ranked hout (row, 1 + k) ?_
      rw [List.mk_mem_zipIdx_iff_le_and_getElem?_sub, Nat.add_sub_cancel_left]
      exact ⟨Nat.le_add_right 1 k, hk⟩
    refine ⟨1 + i, 1 + j, ranked a i hi, ranked b j hj, Nat.add_lt_add_left ?_ 1⟩
    by_contra hji
    rcases Nat.eq_or_lt_of_le (Nat.le_of_not_lt hji) with rfl | hlt
    · obtain rfl := Option.some.inj (hi.symm.trans hj)
      exact lt_irrefl _ hscore
    · obtain ⟨hjlt, rfl⟩ := List.getElem?_eq_some_iff.mp hj
      obtain ⟨hilt, rfl⟩ := List.getElem?_eq_some_iff.mp hi
      have hsorted := Ranking.pairwise_ranked
        (fun row : CardRow => compositeScore world.round row.1) (db.candidates s world)
      exact absurd (List.pairwise_iff_getElem.mp hsorted j i hjlt hilt hlt) (not_le_of_gt hscore)

/-! ### The pipeline -/

/-- Generation completes for no session that has a charter and evidence.  Critique and ranking do
their part in every state. -/
theorem pipeline_never_generates {db : IdeationDb} {input : OperatorInput} {s : SessionId}
    {hs : HypothesisSession} (hready : Ready db input s hs) (world : IdeationWorld)
    (hypotheses : List GeneratedHypothesis) :
    ¬ Generates db input world s hs hypotheses ∧
      (∀ later request answers critiques, request.payload.hypothesisSessionId = some s →
        later.sessions[s]? ≠ none → later.candidates s answers ≠ [] →
        answers.skills.stops answers.cycle "hypothesis_critique" "ideation.hypothesis_generation"
          = false → answers.critiques = .ok critiques →
        CritiquesInOrder later request answers s critiques) ∧
      ∀ later request answers, request.payload.hypothesisSessionId = some s →
        later.sessions[s]? ≠ none → later.candidates s answers ≠ [] →
        RanksByScore later request answers s := by
  refine ⟨?_, ?_, ?_⟩
  · rintro ⟨out, -, -, -, hout, -⟩
    obtain ⟨error, hraise⟩ := generate_raises hready world
    exact absurd (hraise.symm.trans hout) nofun
  · intro later request answers critiques hrequest hsession hcards hskill hcritiques
    obtain ⟨row, hrow⟩ := Option.ne_none_iff_exists'.mp hsession
    exact critique_in_order hrequest hrow hskill hcritiques hcards
  · intro later request answers hrequest hsession hcards
    obtain ⟨row, hrow⟩ := Option.ne_none_iff_exists'.mp hsession
    exact rank_by_score hrequest hrow hcards

/-- A session of a cycle with one evidence card. -/
def oneEvidence : IdeationDb :=
  { charters := [⟨"sparsity".toList, "Is attention sparse?".toList⟩]
    sessions := [{ charterId := 0, cycleId := 0 }]
    evidence := [⟨0, ⟨"e1".toList, "Heads specialise.".toList, "finding".toList, .float (4 / 5)⟩⟩] }

def generateJob : OperatorInput := ⟨some 0, 0, .hypothesisGenerate, { hypothesisSessionId := some 0 }⟩

def oneHypothesis : GeneratedHypothesis :=
  { title := "Prune heads".toList, statement := "Half the heads can go.".toList
    rationale := "They repeat each other.".toList, title_le := by decide }

/-- The language model would answer with one hypothesis. -/
def willingModel : IdeationWorld :=
  { skills := ⟨[], List.nodup_nil⟩, cycle := ⟨0, none⟩, patternHints := fun _ => []
    hypotheses := .ok [oneHypothesis], critiques := .ok [], arrange := id, round := id
    arrange_perm := fun _ => .refl _ }

theorem oneEvidence_ready : Ready oneEvidence generateJob 0 { charterId := 0, cycleId := 0 } :=
  ⟨rfl, rfl, ⟨_, rfl⟩, _, List.mem_singleton_self _, rfl⟩

/-- One evidence card and one drafted hypothesis: the job raises, and no card is created. -/
theorem summary_key_missing :
    hypothesisGenerateOperator oneEvidence generateJob willingModel =
        .error "KeyError: 'summary'" ∧
      ¬ Generates oneEvidence generateJob willingModel 0 { charterId := 0, cycleId := 0 }
        [oneHypothesis] := by
  have hraise : hypothesisGenerateOperator oneEvidence generateJob willingModel =
      .error "KeyError: 'summary'" := rfl
  refine ⟨hraise, ?_⟩
  rintro ⟨out, -, -, -, hout, -⟩
  exact absurd (hraise.symm.trans hout) nofun

theorem pipeline_never_generates_oneEvidence :
    ¬ Generates oneEvidence generateJob willingModel 0 { charterId := 0, cycleId := 0 }
      [oneHypothesis] :=
  (pipeline_never_generates oneEvidence_ready willingModel [oneHypothesis]).1

end Synthetos.Ideation
