import Synthetos.Loop.Advance
import Synthetos.Cycles.Moves

/-!
# What operators write to hypothesis cards

A transaction is a list of status assignments; the status changes are those that assign another
status than the card has.  The loop updates the card of its run and may then take it out of the
race; the compiler marks the cards it selects and compiles.
-/

namespace Synthetos.Loop

open Synthetos.Core Storage Lib Worker Autonomy Protocols

structure CardChange where
  card : CardId
  before : CardStatus
  after : CardStatus
  deriving DecidableEq, Repr

def changeOf (cards : List HypothesisCard) (write : CardId × CardStatus) : List CardChange :=
  match cards[write.1]? with
  | some card => if card.status = write.2 then [] else [⟨write.1, card.status, write.2⟩]
  | none => []

def statusChanges : List HypothesisCard → List (CardId × CardStatus) → List CardChange
  | _, [] => []
  | cards, write :: rest => changeOf cards write ++ statusChanges (Db.setCardStatuses cards [write]) rest

/-- The change is a pair of the transition table. -/
def CardChange.Valid (change : CardChange) : Prop := change.after ∈ validTransitions change.before

/-- What the lifecycle update of an iteration writes. -/
inductive Updated (db : Db) (it : Iteration) : List (CardId × CardStatus) → Prop where
  | cardless (hcard : ∀ id, it.cardId = some id → db.cards[id]? = none) : Updated db it []
  | kept (id : CardId) (card : HypothesisCard) (next : Option CardStatus)
      (hid : it.cardId = some id) (hcard : db.cards[id]? = some card)
      (hnext : potentialStatus db it card = .ok next)
      (hsame : next.getD card.status = card.status) : Updated db it []
  | moved (id : CardId) (card : HypothesisCard) (status : CardStatus)
      (hid : it.cardId = some id) (hcard : db.cards[id]? = some card)
      (hnext : potentialStatus db it card = .ok (some status)) (hne : status ≠ card.status) :
      Updated db it [(id, status)]

/-- A fresh iteration gets past its budget and its gates. -/
def Proceeds (db : Db) (it : Iteration) : Prop :=
  gateDecisionsOf db it.runId = [] →
    exhaustedBudget (countRun db it) = none ∧ freshGate db (countRun db it) = .ok none

inductive LoopWrites (db : Db) (it : Iteration) : List (CardId × CardStatus) → Prop where
  | nothing : LoopWrites db it []
  | updated (writes : List (CardId × CardStatus)) (h : Updated db it writes) : LoopWrites db it writes
  | pivoted (writes : List (CardId × CardStatus)) (h : Updated db it writes)
      (hreached : Proceeds db it)
      (hpivot : it.recommendation.recommendationType = .hypothesisPivot) :
      LoopWrites db it
        (writes ++ deprioritizeCurrent (Db.setCardStatuses db.cards writes) it.cardId)

/-- The iterations are about the same run and have written the same. -/
structure SameCard (it it' : Iteration) : Prop where
  runId : it'.runId = it.runId
  run : it'.run = it.run
  recommendation : it'.recommendation = it.recommendation
  spec : it'.spec = it.spec
  writes : it'.txn.cardStatuses = it.txn.cardStatuses

variable {db : Db} {input : OperatorInput} {phase : Phase} {world : External} {txn : Txn}
  {next : Core.Next} {it it' : Iteration} {spec : ExperimentSpec} {cards : List HypothesisCard}
  {writes : List (CardId × CardStatus)} {id : CardId} {card : HypothesisCard}

/-! ### Changes -/

theorem setCardStatuses_append (cards : List HypothesisCard) (a b : List (CardId × CardStatus)) :
    Db.setCardStatuses cards (a ++ b) = Db.setCardStatuses (Db.setCardStatuses cards a) b :=
  List.foldl_append

theorem setCardStatuses_single (cards : List HypothesisCard) (write : CardId × CardStatus)
    (k : CardId) :
    (Db.setCardStatuses cards [write])[k]? = if write.1 = k then
      cards[k]?.map fun card => { card with status := write.2 } else cards[k]? := by
  change (Table.update cards write.1 _)[k]? = _
  rw [Table.getElem?_update]

theorem statusChanges_append (cards : List HypothesisCard) (a b : List (CardId × CardStatus)) :
    statusChanges cards (a ++ b) =
      statusChanges cards a ++ statusChanges (Db.setCardStatuses cards a) b := by
  induction a generalizing cards with
  | nil => rfl
  | cons write rest ih =>
    simp only [List.cons_append, statusChanges, ih, List.append_assoc]
    rfl

theorem statusChanges_chain {old new : HypothesisCard} (hold : cards[id]? = some old)
    (hnew : (Db.setCardStatuses cards writes)[id]? = some new) :
    Relation.ReflTransGen (fun a b => ⟨id, a, b⟩ ∈ statusChanges cards writes)
      old.status new.status := by
  induction writes generalizing cards old with
  | nil =>
    obtain rfl := Option.some.inj (hold.symm.trans hnew)
    exact .refl
  | cons write rest ih =>
    have hrest (mid : HypothesisCard)
        (hmid : (Db.setCardStatuses cards [write])[id]? = some mid) :
        Relation.ReflTransGen (fun a b => ⟨id, a, b⟩ ∈ statusChanges cards (write :: rest))
          mid.status new.status := by
      exact Relation.ReflTransGen.mono (fun a b hab => List.mem_append_right _ hab) _ _ (ih hmid hnew)
    have hone := setCardStatuses_single cards write id
    by_cases hid : write.1 = id
    · rw [if_pos hid, hold] at hone
      have htail := hrest _ hone
      by_cases hsame : old.status = write.2
      · rwa [← hsame] at htail
      · refine .head ?_ htail
        apply List.mem_append_left
        rw [changeOf, hid, hold]
        simp [hsame]
    · rw [if_neg hid, hold] at hone
      exact hrest old hone

theorem statusChanges_stay
    (h : ∀ write ∈ writes, write.1 = id → ∀ card, cards[id]? = some card → write.2 = card.status) :
    ∀ change ∈ statusChanges cards writes, change.card ≠ id := by
  induction writes generalizing cards with
  | nil => exact fun change hchange => absurd hchange List.not_mem_nil
  | cons write rest ih =>
    intro change hchange
    rcases List.mem_append.mp hchange with hone | hrest
    · unfold changeOf at hone
      split at hone
      · rename_i card hcard
        split at hone
        · exact absurd hone List.not_mem_nil
        · rename_i hne
          obtain rfl := List.mem_singleton.mp hone
          intro (hid : write.1 = id)
          rw [hid] at hcard
          exact hne (h write List.mem_cons_self hid card hcard).symm
      · exact absurd hone List.not_mem_nil
    · refine ih (fun later hlater hid card hcard => ?_) change hrest
      rw [setCardStatuses_single] at hcard
      split at hcard
      · rename_i hwrite
        obtain ⟨old, hold, rfl⟩ := Option.map_eq_some_iff.mp hcard
        rw [h later (List.mem_cons_of_mem _ hlater) hid old hold]
        exact (h write List.mem_cons_self hwrite old hold).symm
      · exact h later (List.mem_cons_of_mem _ hlater) hid card hcard

/-! ### The loop -/

theorem SameCard.refl (it : Iteration) : SameCard it it := ⟨rfl, rfl, rfl, rfl, rfl⟩

theorem SameCard.trans {a b c : Iteration} (hab : SameCard a b) (hbc : SameCard b c) :
    SameCard a c :=
  ⟨hbc.runId.trans hab.runId, hbc.run.trans hab.run, hbc.recommendation.trans hab.recommendation,
    hbc.spec.trans hab.spec, hbc.writes.trans hab.writes⟩

theorem SameCard.cardId (h : SameCard it it') : it'.cardId = it.cardId := by
  rw [Iteration.cardId, h.spec]
  rfl

theorem SameCard.potential (h : SameCard it it') (db : Db) (card : HypothesisCard) :
    potentialStatus db it' card = potentialStatus db it card := by
  unfold potentialStatus
  rw [h.cardId, h.run, h.runId, h.recommendation, h.spec]

theorem SameCard.updated (h : SameCard it it') (hupdated : Updated db it' writes) :
    Updated db it writes := by
  cases hupdated with
  | cardless hcard => exact .cardless fun id hid => hcard id (h.cardId.trans hid)
  | kept id card next hid hcard hnext hsame =>
    exact .kept id card next (h.cardId.symm.trans hid) hcard ((h.potential db card).symm.trans hnext)
      hsame
  | moved id card status hid hcard hnext hne =>
    exact .moved id card status (h.cardId.symm.trans hid) hcard
      ((h.potential db card).symm.trans hnext) hne

theorem countRun_card (db : Db) (it : Iteration) : SameCard it (countRun db it) := by
  unfold countRun
  split <;> exact ⟨rfl, rfl, rfl, rfl, rfl⟩

theorem summarizeContext_card (h : summarizeContext it world = .ok it') : SameCard it it' := by
  rcases summarizeContext_cases h with rfl | ⟨path, rfl⟩
  · exact .refl it'
  · exact ⟨rfl, rfl, rfl, rfl, rfl⟩

theorem updateHypothesisStatus_writes (h : updateHypothesisStatus db it = .ok it')
    (hnone : it.txn.cardStatuses = []) :
    Updated db it it'.txn.cardStatuses ∧ it'.cardId = it.cardId ∧
      it'.recommendation = it.recommendation := by
  unfold updateHypothesisStatus at h
  split at h
  · rename_i hid
    obtain rfl := Except.ok.inj h
    rw [hnone]
    exact ⟨.cardless fun id hsome => absurd (hid.symm.trans hsome) nofun, rfl, rfl⟩
  · rename_i id hid
    split at h
    · rename_i hcard
      obtain rfl := Except.ok.inj h
      rw [hnone]
      refine ⟨.cardless fun id' hid' => ?_, rfl, rfl⟩
      obtain rfl := Option.some.inj (hid.symm.trans hid')
      exact hcard
    · rename_i card hcard
      obtain ⟨status, hstatus, h⟩ := bind_eq_ok.mp h
      split at h
      · obtain rfl := pure_eq_ok.mp h
        rw [hnone]
        exact ⟨.kept id card none hid hcard hstatus rfl, rfl, rfl⟩
      · rename_i status
        split at h
        · rename_i hsame
          obtain rfl := pure_eq_ok.mp h
          rw [hnone]
          exact ⟨.kept id card (some status) hid hcard hstatus hsame, rfl, rfl⟩
        · rename_i hne
          obtain rfl := pure_eq_ok.mp h
          dsimp only
          rw [hnone]
          exact ⟨.moved id card status hid hcard hstatus hne, rfl, rfl⟩

/-- What acting on the recommendation adds to the writes. -/
inductive Acted (db : Db) (it : Iteration) (txn : Txn) : Prop where
  | rejected (h : txn.cardStatuses = [])
  | kept (h : txn.cardStatuses = it.txn.cardStatuses)
  | dropped (hpivot : it.recommendation.recommendationType = .hypothesisPivot)
      (h : txn.cardStatuses = it.txn.cardStatuses ++
        deprioritizeCurrent (Db.setCardStatuses db.cards it.txn.cardStatuses) it.cardId)

theorem varyParameters_acted (h : varyParameters db it' spec = (txn, next))
    (hsame : it'.txn.cardStatuses = it.txn.cardStatuses) : Acted db it txn := by
  unfold varyParameters at h
  split at h
  · obtain ⟨rfl, -⟩ := Prod.mk.inj h
    exact .rejected rfl
  · obtain ⟨rfl, -⟩ := Prod.mk.inj h
    exact .kept hsame

theorem pivotHypothesis_acted (hpivot : it.recommendation.recommendationType = .hypothesisPivot)
    (h : pivotHypothesis db it = .ok (txn, next)) : Acted db it txn := by
  cases pivotHypothesis_path h with
  | exhausted reasoning _ hstep | paused card k spec s gate _ _ _ hstep
  | launched card k spec s _ _ _ hstep | sessionless card k reasoning _ _ hstep
  | compiled card k session _ _ hstep =>
    obtain ⟨rfl, -⟩ := Prod.mk.inj hstep
    exact .dropped hpivot rfl

theorem actOnRecommendation_acted (h : actOnRecommendation db it = .ok (txn, next)) :
    Acted db it txn := by
  cases actOnRecommendation_path h with
  | stopped reasoning _ hstep | paused spec gate _ _ _ hstep | continued spec _ _ _ hstep =>
    obtain ⟨rfl, -⟩ := Prod.mk.inj hstep
    exact .kept rfl
  | repeated spec _ _ _ hvary => exact varyParameters_acted hvary rfl
  | pivoted htype hpivot => exact pivotHypothesis_acted htype hpivot
  | varied spec _ _ hvary => exact varyParameters_acted hvary rfl

theorem proceed_writes (h : proceed db it' world = .ok (txn, next)) (hsame : SameCard it it')
    (hnone : it.txn.cardStatuses = []) (hreached : Proceeds db it) :
    LoopWrites db it txn.cardStatuses := by
  obtain ⟨summarized, updated, hsummarized, hupdated, h⟩ := proceed_eq_ok.mp h
  have hsame' := hsame.trans (summarizeContext_card hsummarized)
  obtain ⟨hwrites, hcard, hrec⟩ :=
    updateHypothesisStatus_writes hupdated (hsame'.writes.trans hnone)
  have hown := hsame'.updated hwrites
  cases actOnRecommendation_acted h with
  | rejected h =>
    rw [h]
    exact .nothing
  | kept h =>
    rw [h]
    exact .updated _ hown
  | dropped hpivot h =>
    rw [h, hcard, hsame'.cardId]
    rw [hrec, hsame'.recommendation] at hpivot
    exact .pivoted _ hown hreached hpivot

theorem loopDecide_writes (h : loopDecideOperator db input world = .ok (txn, next)) :
    txn.cardStatuses = [] ∨ input.payload.preparedRunRecordId = none ∧
      ∃ it, iterationOf db input = some it ∧ LoopWrites db it txn.cardStatuses := by
  cases loopDecide_path h with
  | rejected _ hstep | prepared _ _ _ _ hstep =>
    obtain ⟨rfl, -⟩ := Prod.mk.inj hstep
    exact .inl rfl
  | fresh it hopens _ hstep =>
    refine .inr ⟨hopens.fresh, it, iterationOf_opens hopens, ?_⟩
    have hnone : it.txn.cardStatuses = [] := by rw [hopens.txn_eq]
    have hcounted : (countRun db it).txn.cardStatuses = [] :=
      (countRun_card db it).writes.trans hnone
    cases decideFresh_path hstep with
    | exhausted exceeded _ hstop =>
      obtain ⟨rfl, -⟩ := Prod.mk.inj hstop
      change LoopWrites db it (countRun db it).txn.cardStatuses
      rw [hcounted]
      exact .nothing
    | paused gate _ _ hpause =>
      obtain ⟨rfl, -⟩ := Prod.mk.inj hpause
      change LoopWrites db it (countRun db it).txn.cardStatuses
      rw [hcounted]
      exact .nothing
    | proceeds hbudget hgate hproceed =>
      exact proceed_writes hproceed (countRun_card db it) hnone fun _ => ⟨hbudget, hgate⟩
  | resumed it gateDecision hopens hone hstep =>
    refine .inr ⟨hopens.fresh, it, iterationOf_opens hopens, ?_⟩
    have hnone : it.txn.cardStatuses = [] := by rw [hopens.txn_eq]
    refine proceed_writes hstep ⟨rfl, rfl, rfl, rfl, rfl⟩ hnone fun hnil => ?_
    rw [hone] at hnil
    exact absurd hnil (List.cons_ne_nil _ _)

end Synthetos.Loop
