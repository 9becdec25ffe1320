import Synthetos.Lib.Distinct
import Mathlib.Algebra.Field.Rat
import Mathlib.Data.List.Nodup
import Mathlib.Logic.Relation

/-!
# Redundancy groups of evidence

A new card that a model judges redundant with an existing one takes the group of the existing card,
or its id where it has none.  The existing card is left as it is.
-/

namespace Synthetos.Analysis

open Lib

/-- The judgement of a model on two claims. -/
structure ContradictionResult where
  relationship : String
  reason : List Char := []
  modelConfidence : Rat := 1 / 2

structure ContradictionFlag where
  evidenceId : Nat
  reason : List Char
  modelConfidence : Rat

structure EvidenceCard where
  id : Nat
  claim : List Char := []
  redundancyGroup : Option (List Char) := none
  contradictionFlags : List ContradictionFlag := []

structure EvidenceHost where
  idText : Nat → List Char
  idText_ne : ∀ id, idText id ≠ []

/-- An evidence claim from a paper, and the judgements on it and existing cards in the order they
came in; there is none where the model failed. -/
structure Candidate where
  id : Nat
  claim : List Char := []
  judgements : List (Nat × Option ContradictionResult) := []

def rowOf (existing : List EvidenceCard) (id : Nat) : Option EvidenceCard :=
  existing.find? fun card => card.id == id

/-- `existing.redundancy_group or str(existing.id)` -/
def groupOf (host : EvidenceHost) (existing : EvidenceCard) : List Char :=
  match existing.redundancyGroup with
  | some group => if group.isEmpty then host.idText existing.id else group
  | none => host.idText existing.id

/-- `_classify`, for one candidate row and what the model said. -/
def classify (host : EvidenceHost) (existing : List EvidenceCard) (current : EvidenceCard)
    (judgement : Nat × Option ContradictionResult) : EvidenceCard :=
  match rowOf existing judgement.1, judgement.2 with
  | some row, some result =>
    if result.relationship = "contradictory" then
      { current with contradictionFlags := current.contradictionFlags ++
          [⟨row.id, result.reason, result.modelConfidence⟩] }
    else if result.relationship = "redundant" then
      { current with redundancyGroup := some (groupOf host row) }
    else current
  | _, _ => current

/-- The card of a claim after `_detect_contradictions`. -/
def detect (host : EvidenceHost) (existing : List EvidenceCard) (candidate : Candidate) :
    EvidenceCard :=
  candidate.judgements.foldl (classify host existing)
    { id := candidate.id, claim := candidate.claim }

/-- The evidence of a cycle after that of one paper: the new cards are compared with the existing
ones, and then added. -/
def extractEvidence (host : EvidenceHost) (existing : List EvidenceCard)
    (candidates : List Candidate) : List EvidenceCard :=
  existing ++ candidates.map (detect host existing)

/-- The evidence of a cycle after that of some papers, one after the other. -/
def evidenceAfter (host : EvidenceHost) (start : List EvidenceCard)
    (papers : List (List Candidate)) : List EvidenceCard :=
  papers.foldl (extractEvidence host) start

/-! ### Groups as classes -/

def redundantRow (existing : List EvidenceCard) (judgement : Nat × Option ContradictionResult) :
    Option EvidenceCard :=
  match judgement.2 with
  | some result => if result.relationship = "redundant" then rowOf existing judgement.1 else none
  | none => none

/-- The existing cards a new one is judged redundant with, in the order of the judgements. -/
def redundantWith (existing : List EvidenceCard) (candidate : Candidate) : List EvidenceCard :=
  candidate.judgements.filterMap (redundantRow existing)

/-- Of two cards of the start that share a group, or of a new card and one it is judged redundant
with. -/
inductive Judged (host : EvidenceHost) (start : List EvidenceCard)
    (papers : List (List Candidate)) : Nat → Nat → Prop where
  | shared {a b : EvidenceCard} (ha : a ∈ start) (hb : b ∈ start)
      (hgroup : a.redundancyGroup ≠ none) (hsame : a.redundancyGroup = b.redundancyGroup) :
      Judged host start papers a.id b.id
  | redundant {before after : List (List Candidate)} {paper : List Candidate}
      {candidate : Candidate} {row : EvidenceCard} (hpapers : papers = before ++ paper :: after)
      (hcandidate : candidate ∈ paper)
      (hrow : row ∈ redundantWith (evidenceAfter host start before) candidate) :
      Judged host start papers candidate.id row.id

/-- Cards judged redundant end in one group, and cards end in one group only by judgements. -/
structure GroupsAreClasses (host : EvidenceHost) (start : List EvidenceCard)
    (papers : List (List Candidate)) : Prop where
  together : ∀ before paper after, papers = before ++ paper :: after → ∀ candidate ∈ paper,
    ∀ row ∈ redundantWith (evidenceAfter host start before) candidate,
    ∀ new ∈ evidenceAfter host start papers, new.id = candidate.id →
    ∀ old ∈ evidenceAfter host start papers, old.id = row.id →
      new.redundancyGroup = old.redundancyGroup ∧ new.redundancyGroup ≠ none
  linked : ∀ a ∈ evidenceAfter host start papers, ∀ b ∈ evidenceAfter host start papers,
    a.redundancyGroup ≠ none → a.redundancyGroup = b.redundancyGroup →
    Relation.EqvGen (Judged host start papers) a.id b.id

/-- The existing cards a new one is judged redundant with have one group. -/
def OneGroup (existing : List EvidenceCard) (candidate : Candidate) : Prop :=
  ∃ group ≠ [], ∀ row ∈ redundantWith existing candidate, row.redundancyGroup = some group

def GroupedBefore (host : EvidenceHost) (start : List EvidenceCard)
    (papers : List (List Candidate)) : Prop :=
  ∀ before paper after, papers = before ++ paper :: after → ∀ candidate ∈ paper,
    OneGroup (evidenceAfter host start before) candidate

def DistinctIds (start : List EvidenceCard) (papers : List (List Candidate)) : Prop :=
  (start.map EvidenceCard.id ++ papers.flatten.map Candidate.id).Nodup

variable {host : EvidenceHost} {start existing : List EvidenceCard}
  {papers before after : List (List Candidate)} {paper : List Candidate} {candidate : Candidate}
  {row new a b : EvidenceCard}

/-! ### One card -/

theorem groupOf_ne (host : EvidenceHost) (row : EvidenceCard) : groupOf host row ≠ [] := by
  unfold groupOf
  split
  · split
    · exact host.idText_ne _
    · rename_i hfull
      exact fun h => hfull (List.isEmpty_iff.mpr h)
  · exact host.idText_ne _

theorem groupOf_of_group {group : List Char} (h : row.redundancyGroup = some group)
    (hne : group ≠ []) : groupOf host row = group := by
  have hempty : group.isEmpty = false := by simpa using hne
  simp [groupOf, h, hempty]

theorem classify_eq (host : EvidenceHost) (existing : List EvidenceCard) (current : EvidenceCard)
    (judgement : Nat × Option ContradictionResult) :
    (classify host existing current judgement).id = current.id ∧
      (classify host existing current judgement).redundancyGroup =
        ((redundantRow existing judgement).map (groupOf host)).or current.redundancyGroup := by
  obtain ⟨id, result⟩ := judgement
  unfold classify redundantRow
  cases result with
  | none => cases rowOf existing id <;> exact ⟨rfl, rfl⟩
  | some result =>
    cases hrow : rowOf existing id with
    | none => simp
    | some row =>
      dsimp only
      split
      · rename_i hcontradictory
        simp [hcontradictory]
      · split
        · exact ⟨rfl, rfl⟩
        · exact ⟨rfl, rfl⟩

/-- A new card takes its group from the last card it is judged redundant with. -/
theorem detect_eq (host : EvidenceHost) (existing : List EvidenceCard) (candidate : Candidate) :
    (detect host existing candidate).id = candidate.id ∧
      (detect host existing candidate).redundancyGroup =
        (redundantWith existing candidate).getLast?.map (groupOf host) := by
  have hfold (judgements : List (Nat × Option ContradictionResult)) (current : EvidenceCard) :
      (judgements.foldl (classify host existing) current).id = current.id ∧
        (judgements.foldl (classify host existing) current).redundancyGroup =
          ((judgements.filterMap (redundantRow existing)).getLast?.map (groupOf host)).or
            current.redundancyGroup := by
    induction judgements using List.reverseRecOn with
    | nil => exact ⟨rfl, rfl⟩
    | append_singleton judgements judgement ih =>
      obtain ⟨hid, hgroup⟩ := classify_eq host existing
        (judgements.foldl (classify host existing) current) judgement
      rw [List.foldl_append, List.foldl_cons, List.foldl_nil, hid, hgroup, ih.1, ih.2,
        List.filterMap_append]
      refine ⟨rfl, ?_⟩
      cases hrow : redundantRow existing judgement with
      | none => simp [hrow]
      | some row => simp [hrow]
  obtain ⟨hid, hgroup⟩ := hfold candidate.judgements
    { id := candidate.id, claim := candidate.claim }
  refine ⟨hid, ?_⟩
  rw [detect, hgroup, Option.or_none]
  rfl

theorem mem_of_redundantWith (h : row ∈ redundantWith existing candidate) : row ∈ existing := by
  obtain ⟨judgement, -, hrow⟩ := List.mem_filterMap.mp h
  unfold redundantRow at hrow
  split at hrow
  · split at hrow
    · exact List.mem_of_find?_eq_some hrow
    · cases hrow
  · cases hrow

theorem detect_group (host : EvidenceHost) (h : OneGroup existing candidate)
    (hrow : row ∈ redundantWith existing candidate) :
    (detect host existing candidate).redundancyGroup = row.redundancyGroup ∧
      row.redundancyGroup ≠ none := by
  obtain ⟨group, hne, hall⟩ := h
  rw [(detect_eq host existing candidate).2, hall row hrow]
  obtain ⟨last, hlast⟩ := Option.isSome_iff_exists.mp
    (List.getLast?_isSome.mpr (List.ne_nil_of_mem hrow))
  rw [hlast, Option.map_some, groupOf_of_group (hall last (List.mem_of_getLast? hlast)) hne]
  exact ⟨rfl, by simp⟩

theorem exists_redundant (h : (detect host existing candidate).redundancyGroup ≠ none) :
    ∃ row, row ∈ redundantWith existing candidate := by
  rw [(detect_eq host existing candidate).2] at h
  cases hrows : redundantWith existing candidate with
  | nil => simp [hrows] at h
  | cons row rest => exact ⟨row, List.mem_cons_self⟩

/-! ### Over the papers -/

theorem evidenceAfter_snoc : evidenceAfter host start (before ++ [paper]) =
    extractEvidence host (evidenceAfter host start before) paper := by
  simp [evidenceAfter]

/-- A card keeps its row, and with it its group. -/
theorem mem_evidenceAfter_append (h : row ∈ evidenceAfter host start before) :
    row ∈ evidenceAfter host start (before ++ after) := by
  induction after using List.reverseRecOn with
  | nil => rwa [List.append_nil]
  | append_singleton after paper ih =>
    rw [← List.append_assoc, evidenceAfter_snoc]
    exact List.mem_append_left _ ih

theorem detect_mem_evidenceAfter (hpapers : papers = before ++ paper :: after)
    (hcandidate : candidate ∈ paper) :
    detect host (evidenceAfter host start before) candidate ∈ evidenceAfter host start papers := by
  have hnew : detect host (evidenceAfter host start before) candidate ∈
      evidenceAfter host start (before ++ [paper]) := by
    rw [evidenceAfter_snoc]
    exact List.mem_append_right _ (List.mem_map_of_mem hcandidate)
  have hsplit : papers = before ++ [paper] ++ after := by simp [hpapers]
  rw [hsplit]
  exact mem_evidenceAfter_append hnew

theorem row_mem_evidenceAfter (hpapers : papers = before ++ paper :: after)
    (hrow : row ∈ redundantWith (evidenceAfter host start before) candidate) :
    row ∈ evidenceAfter host start papers := by
  rw [hpapers]
  exact mem_evidenceAfter_append (mem_of_redundantWith hrow)

theorem map_id_evidenceAfter : (evidenceAfter host start papers).map EvidenceCard.id =
    start.map EvidenceCard.id ++ papers.flatten.map Candidate.id := by
  induction papers using List.reverseRecOn with
  | nil => simp [evidenceAfter]
  | append_singleton papers paper ih =>
    have hids : (paper.map (detect host (evidenceAfter host start papers))).map EvidenceCard.id =
        paper.map Candidate.id := by
      rw [List.map_map]
      apply List.map_congr_left
      intro candidate _
      exact (detect_eq host _ candidate).1
    rw [evidenceAfter_snoc, extractEvidence, List.map_append, ih, hids, List.flatten_append,
      List.map_append, List.append_assoc]
    simp

theorem eq_of_id_eq (h : DistinctIds start papers) (ha : a ∈ evidenceAfter host start papers)
    (hb : b ∈ evidenceAfter host start papers) (hid : a.id = b.id) : a = b := by
  have hnodup : ((evidenceAfter host start papers).map EvidenceCard.id).Nodup := by
    rw [map_id_evidenceAfter]
    exact h
  exact List.inj_on_of_nodup_map hnodup ha hb hid

/-- A card with a group is linked to one that was there before the paper. -/
theorem exists_linked_before (h : GroupedBefore host start papers)
    (hpapers : papers = before ++ paper :: after)
    (ha : a ∈ extractEvidence host (evidenceAfter host start before) paper)
    (hgroup : a.redundancyGroup ≠ none) :
    ∃ row ∈ evidenceAfter host start before, row.redundancyGroup = a.redundancyGroup ∧
      Relation.EqvGen (Judged host start papers) a.id row.id := by
  rcases List.mem_append.mp ha with hold | hnew
  · exact ⟨a, hold, rfl, .refl _⟩
  · obtain ⟨candidate, hcandidate, rfl⟩ := List.mem_map.mp hnew
    obtain ⟨row, hrow⟩ := exists_redundant hgroup
    have hone := h before paper after hpapers candidate hcandidate
    refine ⟨row, mem_of_redundantWith hrow, (detect_group host hone hrow).1.symm, ?_⟩
    rw [(detect_eq host _ candidate).1]
    exact .rel _ _ (.redundant hpapers hcandidate hrow)

theorem linked_of_groupedBefore (h : GroupedBefore host start papers)
    (hpapers : papers = before ++ after) (ha : a ∈ evidenceAfter host start before)
    (hb : b ∈ evidenceAfter host start before) (hgroup : a.redundancyGroup ≠ none)
    (hsame : a.redundancyGroup = b.redundancyGroup) :
    Relation.EqvGen (Judged host start papers) a.id b.id := by
  induction before using List.reverseRecOn generalizing after a b with
  | nil => exact .rel _ _ (.shared ha hb hgroup hsame)
  | append_singleton before paper ih =>
    rw [List.append_assoc] at hpapers
    rw [evidenceAfter_snoc] at ha hb
    obtain ⟨rowA, hrowA, hgroupA, hlinkA⟩ := exists_linked_before h hpapers ha hgroup
    obtain ⟨rowB, hrowB, hgroupB, hlinkB⟩ := exists_linked_before h hpapers hb (hsame ▸ hgroup)
    have hrows := ih hpapers hrowA hrowB (hgroupA ▸ hgroup)
      (hgroupA.trans (hsame.trans hgroupB.symm))
    exact .trans _ _ _ hlinkA (.trans _ _ _ hrows (.symm _ _ hlinkB))

theorem groupedBefore_snoc : GroupedBefore host start (papers ++ [paper]) ↔
    GroupedBefore host start papers ∧
      ∀ candidate ∈ paper, OneGroup (evidenceAfter host start papers) candidate :=
  Distinct.forall_split_snoc
    (Q := fun before paper => ∀ candidate ∈ paper, OneGroup (evidenceAfter host start before) candidate)

/-- From a store without groups the condition is that nothing is ever judged redundant. -/
theorem groupedBefore_iff_of_ungrouped (h : ∀ card ∈ start, card.redundancyGroup = none) :
    GroupedBefore host start papers ↔ ∀ before paper after, papers = before ++ paper :: after →
      ∀ candidate ∈ paper, redundantWith (evidenceAfter host start before) candidate = [] := by
  constructor
  · intro hgrouped
    have hnone (before after : List (List Candidate)) (hpapers : papers = before ++ after) :
        ∀ card ∈ evidenceAfter host start before, card.redundancyGroup = none := by
      induction before using List.reverseRecOn generalizing after with
      | nil => exact h
      | append_singleton before paper ih =>
        rw [List.append_assoc] at hpapers
        intro card hcard
        rw [evidenceAfter_snoc] at hcard
        by_contra hgroup
        obtain ⟨row, hrow, hsame, -⟩ := exists_linked_before hgrouped hpapers hcard hgroup
        exact hgroup (hsame ▸ ih _ hpapers row hrow)
    intro before paper after hpapers candidate hcandidate
    obtain ⟨group, -, hall⟩ := hgrouped before paper after hpapers candidate hcandidate
    apply List.eq_nil_iff_forall_not_mem.mpr
    intro row hrow
    have hsome := hall row hrow
    rw [hnone before _ hpapers row (mem_of_redundantWith hrow)] at hsome
    cases hsome
  · intro hempty before paper after hpapers candidate hcandidate
    refine ⟨['-'], by simp, fun row hrow => ?_⟩
    rw [hempty before paper after hpapers candidate hcandidate] at hrow
    cases hrow

/-- The groups are the classes of the judgements exactly where the existing cards that a new one is
judged redundant with always have one group already. -/
theorem groupsAreClasses_iff (h : DistinctIds start papers) :
    GroupsAreClasses host start papers ↔ GroupedBefore host start papers := by
  constructor
  · intro hclasses before paper after hpapers candidate hcandidate
    have hnew : detect host (evidenceAfter host start before) candidate ∈
        evidenceAfter host start papers := detect_mem_evidenceAfter hpapers hcandidate
    obtain ⟨hid, hgroup⟩ := detect_eq host (evidenceAfter host start before) candidate
    cases hlast : (redundantWith (evidenceAfter host start before) candidate).getLast? with
    | none =>
      refine ⟨['-'], by simp, fun row hrow => ?_⟩
      rw [List.getLast?_eq_none_iff.mp hlast] at hrow
      cases hrow
    | some last =>
      refine ⟨groupOf host last, groupOf_ne host last, fun row hrow => ?_⟩
      have hsame := (hclasses.together before paper after hpapers candidate hcandidate row hrow
        _ hnew hid row (row_mem_evidenceAfter hpapers hrow) rfl).1
      rw [← hsame, hgroup, hlast]
      rfl
  · intro hgrouped
    refine ⟨?_, ?_⟩
    · intro before paper after hpapers candidate hcandidate row hrow new hnew hnewId old hold holdId
      have hid : (detect host (evidenceAfter host start before) candidate).id = candidate.id :=
        (detect_eq host _ candidate).1
      obtain rfl := eq_of_id_eq h hnew (detect_mem_evidenceAfter hpapers hcandidate)
        (hnewId.trans hid.symm)
      obtain rfl := eq_of_id_eq h hold (row_mem_evidenceAfter hpapers hrow) holdId
      obtain ⟨hsame, hsome⟩ :=
        detect_group host (hgrouped before paper after hpapers candidate hcandidate) hrow
      exact ⟨hsame, hsame ▸ hsome⟩
    · intro a ha b hb hgroup hsame
      exact linked_of_groupedBefore hgrouped (List.append_nil papers).symm ha hb hgroup hsame

def tallies : EvidenceHost where
  idText id := List.replicate (id + 1) '|'
  idText_ne id := by simp

theorem groupsAreClasses_iff_one_group :
    GroupsAreClasses tallies [{ id := 0, redundancyGroup := some ['g'] },
        { id := 1, redundancyGroup := some ['g'] }]
      [[{ id := 2, judgements := [(1, some { relationship := "redundant" }),
        (0, some { relationship := "redundant" })] }]] := by
  apply (groupsAreClasses_iff (by unfold DistinctIds; decide)).mpr
  change GroupedBefore _ _ ([] ++ [_])
  refine groupedBefore_snoc.mpr ⟨by simp [GroupedBefore], ?_⟩
  intro candidate hcandidate
  obtain rfl := List.mem_singleton.mp hcandidate
  refine ⟨['g'], by decide, ?_⟩
  have hrows : redundantWith (evidenceAfter tallies
      [{ id := 0, redundancyGroup := some ['g'] }, { id := 1, redundancyGroup := some ['g'] }] [])
      { id := 2, judgements := [(1, some { relationship := "redundant" }),
        (0, some { relationship := "redundant" })] } =
      [{ id := 1, redundancyGroup := some ['g'] }, { id := 0, redundancyGroup := some ['g'] }] := by
    rfl
  rw [hrows]
  intro row hrow
  rcases List.mem_cons.mp hrow with rfl | hrow
  · rfl
  · rw [List.mem_singleton.mp hrow]

/-- The card that a new one repeats is left without a group. -/
theorem repeated_card_ungrouped : ¬ GroupsAreClasses tallies []
    [[{ id := 0 }], [{ id := 1, judgements := [(0, some { relationship := "redundant" })] }]] := by
  intro h
  have htogether := h.together [[{ id := 0 }]] _ [] rfl _ List.mem_cons_self { id := 0 }
    (by exact List.mem_singleton.mpr rfl) { id := 1, redundancyGroup := some ['|'] }
    (by exact List.mem_cons_of_mem _ (List.mem_singleton.mpr rfl)) rfl { id := 0 }
    List.mem_cons_self rfl
  exact absurd htogether.1 (by simp)

end Synthetos.Analysis
