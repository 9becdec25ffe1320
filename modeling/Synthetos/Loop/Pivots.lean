import Synthetos.Loop.GateIntervals
import Synthetos.Loop.Scope

/-!
# Pivots make progress

A pivot puts its card out of the race and selects another one.  Unless the compiler brings such a
card back, or a run of it is pivoted away from once more, every pivot of a cycle uses up a card.
-/

namespace Synthetos.Loop

open Synthetos.Core Storage Lib Worker Api Autonomy Protocols Jobs

/-- Out of the race. -/
def Out (status : CardStatus) : Prop := status = .deprioritized ∨ status = .rejected

/-- A pivot away from the card is on file. -/
def Left (db : Db) (id : CardId) : Prop :=
  ∃ row ∈ db.decisions, row.decision = .pivotHypothesis ∧ row.hypothesisCardId = some id

/-- A viable card of the cycle, other than that of the run. -/
structure Alternative (db : Db) (it : Iteration) (k : CardId) (card : HypothesisCard) : Prop where
  other : it.cardId ≠ some k
  row : db.cards[k]? = some card
  viable : viable it.cycleId card = true

/-- The label carries out a pivot recommendation, past the budget and the gates. -/
structure CarriesPivot (sys : Runtime) (l : Label) (it : Iteration) : Prop where
  job : ∃ j job phase world, Executes sys l j job phase world ∧ job.jobType = .loopDecide ∧
    job.payload.preparedRunRecordId = none ∧ iterationOf sys.db (operatorInput j job) = some it
  pivot : it.recommendation.recommendationType = .hypothesisPivot
  proceeds : Proceeds sys.db it

/-- No card a pivot has left is pivoted away from to another, or compiled, again. -/
structure LeavesOnce (sys : Runtime) (l : Label) : Prop where
  pivot : ∀ it id k card, CarriesPivot sys l it → it.cardId = some id →
    Alternative sys.db it k card → ¬ Left sys.db id
  compile : ∀ j (job : Job) phase world sessionId session cards drafted,
    Executes sys l j job phase world → job.jobType = .protocolCompile →
      (∀ specId, phase ≠ .compiled specId) → job.payload.hypothesisSessionId = some sessionId →
        sys.db.sessions[sessionId]? = some session →
          selectCards sys.db job.payload sessionId session = .ok cards →
            world.compiledSpecs = .ok drafted →
              ∀ row ∈ cards.zip drafted, validateSpec row.2 = [] → ¬ Left sys.db row.1.2

/-- The decision pivots from card `id` to `next`, a viable card of the least rank. -/
structure PivotsTo (db : Db) (row : LoopDecision) (id nextId : CardId) (next : HypothesisCard) :
    Prop where
  current : row.hypothesisCardId = some id
  selected : row.nextHypothesisCardId = some nextId
  different : nextId ≠ id
  found : db.cards[nextId]? = some next
  eligible : viable row.cycleId next = true
  least : ∀ (k : CardId) card, k ≠ id → db.cards[k]? = some card →
    viable row.cycleId card = true → rankLe next.rank card.rank = true
  fresh : ¬ Left db nextId

/-- What carrying out a pivot comes to. -/
inductive Pivoted (db : Db) (it : Iteration) (txn : Txn) (next : Core.Next) : Prop where
  | exhausted (hfiles : ∃ row, txn.newDecisions = [row] ∧ row.decision = .stopExhausted)
      (hnext : next = done (some .reporting))
  | paused (card : HypothesisCard) (k : CardId)
      (hcard : nextViableCard (otherCards db it) it.cycleId = some (card, k))
      (hfiles : ∃ row, txn.newDecisions = [row] ∧ row.decision = .stopGate)
  | selected (card : HypothesisCard) (k : CardId)
      (hcard : nextViableCard (otherCards db it) it.cycleId = some (card, k))
      (hwrites : ∃ before, txn.cardStatuses =
        before ++ deprioritizeCurrent (Db.setCardStatuses db.cards before) it.cardId)
      (hfiles : ∃ row, txn.newDecisions = [row] ∧ row.decision = .pivotHypothesis ∧
        row.hypothesisCardId = it.cardId ∧ row.nextHypothesisCardId = some k ∧
        row.cycleId = it.cycleId)

/-- The transaction files no pivot. -/
def Unpivoted (txn : Txn) : Prop := ∀ row ∈ txn.newDecisions, row.decision ≠ .pivotHypothesis

/-- The cards pivots have left are out of the race, and each was left once. -/
structure Abandons (db : Db) : Prop where
  out : ∀ row ∈ db.decisions, row.decision = .pivotHypothesis →
    ∃ id card, row.hypothesisCardId = some id ∧ db.cards[id]? = some card ∧
      card.cycleId = row.cycleId ∧ Out card.status
  once : ((db.decisions.filter fun row => row.decision == .pivotHypothesis).map
    LoopDecision.hypothesisCardId).Nodup

variable {settings : Settings} {start sys sys' : Runtime} {l : Label} {db : Db}
  {input : OperatorInput} {phase : Phase} {world : External} {txn : Txn} {next : Core.Next}
  {it it' : Iteration} {spec : ExperimentSpec} {card old : HypothesisCard}
  {cards : List HypothesisCard} {writes : List (CardId × CardStatus)} {id k : CardId}
  {c : CycleId} {row : LoopDecision} {rows : List LoopDecision}

/-! ### The card selected -/

theorem otherCards_viable :
    ((otherCards db it)[k]? = some card ∧ viable it.cycleId card = true) ↔
      Alternative db it k card := by
  unfold otherCards
  cases hid : it.cardId with
  | none => exact ⟨fun h => ⟨by rw [hid]; nofun, h.1, h.2⟩, fun h => ⟨h.row, h.viable⟩⟩
  | some id =>
    change ((Db.setCardStatuses db.cards [(id, .deprioritized)])[k]? = some card ∧ _) ↔ _
    rw [setCardStatuses_single]
    by_cases hk : id = k
    · rw [if_pos hk]
      constructor
      · rintro ⟨hcard, hviable⟩
        obtain ⟨old, -, rfl⟩ := Option.map_eq_some_iff.mp hcard
        simp [viable] at hviable
      · intro h
        exact absurd (hid.trans (congrArg some hk)) h.other
    · rw [if_neg hk]
      constructor
      · rintro ⟨hcard, hviable⟩
        refine ⟨fun h => hk ?_, hcard, hviable⟩
        exact Option.some.inj (hid.symm.trans h)
      · exact fun h => ⟨h.row, h.viable⟩

theorem alternative_selected (h : nextViableCard (otherCards db it) it.cycleId = some (card, k)) :
    Alternative db it k card ∧ ∀ k' other, Alternative db it k' other →
      rankLe card.rank other.rank = true := by
  refine ⟨otherCards_viable.mp (nextViableCard_row h), fun k' other hother => ?_⟩
  obtain ⟨hrow, hviable⟩ := otherCards_viable.mpr hother
  exact nextViableCard_least h hrow hviable

/-! ### The operator -/

theorem pivotHypothesis_pivots (hown : OwnWrites it)
    (h : pivotHypothesis db it = .ok (txn, next)) : Pivoted db it txn next := by
  have hselects : nextViableCard (pivotCards db it) it.cycleId =
      nextViableCard (otherCards db it) it.cycleId := nextViableCard_pivot db hown
  cases pivotHypothesis_path h with
  | exhausted reasoning _ hstep | sessionless card k reasoning _ _ hstep =>
    obtain ⟨rfl, rfl⟩ := Prod.mk.inj hstep
    exact .exhausted ⟨_, rfl, rfl⟩ rfl
  | paused card k spec s gate hcard _ _ hstep =>
    obtain ⟨rfl, -⟩ := Prod.mk.inj hstep
    exact .paused card k (hselects.symm.trans hcard) ⟨_, rfl, rfl⟩
  | launched card k spec s hcard _ _ hstep | compiled card k session hcard _ hstep =>
    obtain ⟨rfl, -⟩ := Prod.mk.inj hstep
    exact .selected card k (hselects.symm.trans hcard) ⟨_, rfl⟩ ⟨_, rfl, rfl, rfl, rfl, rfl⟩

theorem Pivoted.of_same (hcard : it'.cardId = it.cardId) (hcycle : it'.cycleId = it.cycleId)
    (h : Pivoted db it' txn next) : Pivoted db it txn next := by
  have hothers : otherCards db it' = otherCards db it := by rw [otherCards, hcard]; rfl
  cases h with
  | exhausted hfiles hnext => exact .exhausted hfiles hnext
  | paused card k hselects hfiles =>
    rw [hothers, hcycle] at hselects
    exact .paused card k hselects hfiles
  | selected card k hselects hwrites hfiles =>
    rw [hothers, hcycle] at hselects
    rw [hcard] at hwrites hfiles
    rw [hcycle] at hfiles
    exact .selected card k hselects hwrites hfiles

theorem unpivoted_nil (h : txn.newDecisions = []) : Unpivoted txn := by
  intro row hrow
  rw [h] at hrow
  exact absurd hrow List.not_mem_nil

theorem unpivoted_single (h : txn.newDecisions = [row]) (hdecision : row.decision ≠ .pivotHypothesis) :
    Unpivoted txn := by
  intro row' hrow
  rw [h] at hrow
  obtain rfl := List.mem_singleton.mp hrow
  exact hdecision

theorem unpivoted_rejects {error : String} (h : rejectWith error = (txn, next)) : Unpivoted txn := by
  obtain ⟨rfl, -⟩ := Prod.mk.inj h
  exact unpivoted_nil rfl

theorem varyParameters_unpivoted (h : varyParameters db it spec = (txn, next)) : Unpivoted txn := by
  unfold varyParameters at h
  split at h
  · exact unpivoted_rejects h
  · obtain ⟨rfl, -⟩ := Prod.mk.inj h
    exact unpivoted_single rfl (show Decision.varyParameters ≠ .pivotHypothesis by decide)

theorem stopLoopWith_unpivoted {decision : Decision} {reasoning : String}
    (hdecision : decision ≠ .pivotHypothesis)
    (h : stopLoopWith db it decision reasoning = (txn, next)) : Unpivoted txn := by
  obtain ⟨rfl, -⟩ := Prod.mk.inj h
  exact unpivoted_single rfl hdecision

theorem pauseForGate_unpivoted {gate : GateResult} (h : pauseForGate it gate = (txn, next)) :
    Unpivoted txn := by
  obtain ⟨rfl, -⟩ := Prod.mk.inj h
  exact unpivoted_single rfl (show Decision.stopGate ≠ .pivotHypothesis by decide)

/-- The decision carries out a pivot, or no pivot was recommended and none is filed. -/
def PivotOrNot (db : Db) (it : Iteration) (txn : Txn) (next : Core.Next) : Prop :=
  (it.recommendation.recommendationType = .hypothesisPivot ∧ Pivoted db it txn next) ∨
    (it.recommendation.recommendationType ≠ .hypothesisPivot ∧ Unpivoted txn)

theorem actOnRecommendation_pivots (hown : OwnWrites it)
    (h : actOnRecommendation db it = .ok (txn, next)) : PivotOrNot db it txn next := by
  cases actOnRecommendation_path h with
  | stopped reasoning htype hstop =>
    exact .inr ⟨htype, stopLoopWith_unpivoted (by decide) hstop⟩
  | repeated spec htype _ _ hvary =>
    exact .inr ⟨by rw [htype]; decide, varyParameters_unpivoted hvary⟩
  | paused spec gate htype _ _ hpause =>
    exact .inr ⟨by rw [htype]; decide, pauseForGate_unpivoted hpause⟩
  | continued spec htype _ _ hlaunch =>
    obtain ⟨rfl, -⟩ := Prod.mk.inj hlaunch
    exact .inr ⟨by rw [htype]; decide,
      unpivoted_single rfl (show Decision.continueCurrent ≠ .pivotHypothesis by decide)⟩
  | pivoted htype hpivot => exact .inl ⟨htype, pivotHypothesis_pivots hown hpivot⟩
  | varied spec htype _ hvary =>
    exact .inr ⟨by rw [htype]; decide, varyParameters_unpivoted hvary⟩

theorem SameDecision.pivotOrNot (h : SameDecision it it') (hpivots : PivotOrNot db it' txn next) :
    PivotOrNot db it txn next := by
  obtain ⟨number, path, written, rfl⟩ := h
  exact hpivots.imp_left fun h => ⟨h.1, .of_same (by rfl) (by rfl) h.2⟩

theorem proceed_pivots (hown : OwnWrites it) (h : proceed db it world = .ok (txn, next)) :
    PivotOrNot db it txn next := by
  obtain ⟨summarized, updated, hsummarized, hupdated, h⟩ := proceed_eq_ok.mp h
  obtain ⟨hsame, hown'⟩ := summarizeContext_keeps hsummarized hown
  obtain ⟨hsame', hown'⟩ := updateHypothesisStatus_keeps hupdated hown'
  exact hsame.pivotOrNot (hsame'.pivotOrNot (actOnRecommendation_pivots hown' h))

theorem loopDecide_pivots (hfresh : input.payload.preparedRunRecordId = none)
    (hit : iterationOf db input = some it)
    (h : loopDecideOperator db input world = .ok (txn, next)) :
    (it.recommendation.recommendationType = .hypothesisPivot ∧ Proceeds db it ∧
        Pivoted db it txn next) ∨
      (¬ (it.recommendation.recommendationType = .hypothesisPivot ∧ Proceeds db it) ∧
        Unpivoted txn) := by
  have hown := iterationOf_own hit
  have proceeds (hproceeds : Proceeds db it) (hpivots : PivotOrNot db it txn next) :
      (it.recommendation.recommendationType = .hypothesisPivot ∧ Proceeds db it ∧
          Pivoted db it txn next) ∨
        (¬ (it.recommendation.recommendationType = .hypothesisPivot ∧ Proceeds db it) ∧
          Unpivoted txn) := by
    rcases hpivots with ⟨htype, hpivoted⟩ | ⟨htype, hrest⟩
    · exact .inl ⟨htype, hproceeds, hpivoted⟩
    · exact .inr ⟨fun h => htype h.1, hrest⟩
  rw [loopDecide_iteration hfresh hit] at h
  split at h
  · rename_i hnone
    have hcounted := countRun_card db it
    cases decideFresh_path h with
    | exhausted exceeded hbudget hstop =>
      refine .inr ⟨fun hcarried => ?_, stopLoopWith_unpivoted (by decide) hstop⟩
      rw [(hcarried.2 hnone).1] at hbudget
      cases hbudget
    | paused gate _ hgate hpause =>
      refine .inr ⟨fun hcarried => ?_, pauseForGate_unpivoted hpause⟩
      cases hgate.symm.trans (hcarried.2 hnone).2
    | proceeds hbudget hgate hproceed =>
      refine proceeds (fun _ => ⟨hbudget, hgate⟩) ?_
      have hpivots := proceed_pivots (countRun_keeps db hown).2 hproceed
      unfold PivotOrNot at hpivots
      rw [hcounted.recommendation] at hpivots
      exact hpivots.imp_left fun h => ⟨h.1, h.2.of_same hcounted.cardId (countRun_cycle db it)⟩
  · rename_i gateDecision hone
    refine proceeds (fun hnone => ?_) ?_
    · rw [hone] at hnone
      exact absurd hnone (List.cons_ne_nil _ _)
    · have hown' : OwnWrites (resumed it gateDecision) := ⟨hown.pause, hown.cards⟩
      have hpivots : PivotOrNot db (resumed it gateDecision) txn next := proceed_pivots hown' h
      exact hpivots.imp_left fun h => ⟨h.1, .of_same (by rfl) (by rfl) h.2⟩
  · cases h

theorem prepareRun_unpivoted {s : SpecId} (h : prepareRun db input s = .ok (txn, next)) :
    Unpivoted txn := by
  cases prepareRun_path h with
  | missing error hreject => exact unpivoted_rejects hreject
  | gated spec gate _ _ hstep =>
    obtain ⟨rfl, -⟩ := Prod.mk.inj hstep
    intro row hrow
    dsimp only at hrow
    unfold loopGateDecision at hrow
    split at hrow
    · obtain rfl := List.mem_singleton.mp hrow
      exact (by decide : Decision.stopGate ≠ .pivotHypothesis)
    · exact absurd hrow List.not_mem_nil
  | launched spec _ _ hstep =>
    obtain ⟨rfl, -⟩ := Prod.mk.inj hstep
    exact unpivoted_nil rfl

/-! ### Steps -/

theorem execute_calm (h : execute db input phase world = (txn, next)) :
    (Phase.guarded phase = false → world.raised = none) ∨ txn = {} := by
  unfold execute at h
  cases hguarded : Phase.guarded phase with
  | true => exact .inl nofun
  | false =>
    cases hraised : world.raised with
    | none => exact .inl fun _ => rfl
    | some error =>
      rw [hguarded, hraised] at h
      exact .inr (Prod.mk.inj h).1.symm

theorem execute_pivots (h : execute db input phase world = (txn, next)) :
    Unpivoted txn ∨ input.jobType = .loopDecide ∧ input.payload.preparedRunRecordId = none ∧
      ∃ it, iterationOf db input = some it ∧
        it.recommendation.recommendationType = .hypothesisPivot ∧ Proceeds db it ∧
          Pivoted db it txn next := by
  rcases execute_cases h with hok | ⟨error, hreject⟩
  case inr => exact .inl (unpivoted_rejects hreject)
  rcases handler_plain hok with hplain | ⟨htype, h⟩ | ⟨s, -, -, h⟩ | ⟨-, -, h⟩
  · exact .inl (unpivoted_nil hplain.undecided)
  · cases loopDecide_path h with
    | rejected error hreject => exact .inl (unpivoted_rejects hreject)
    | prepared prepared run _ _ hlaunch =>
      obtain ⟨rfl, -⟩ := Prod.mk.inj hlaunch
      exact .inl (unpivoted_nil rfl)
    | fresh it hopens _ _ | resumed it _ hopens _ _ =>
      have hit := iterationOf_opens hopens
      rcases loopDecide_pivots hopens.fresh hit h with ⟨hpivot, hproceeds, hpivoted⟩ | ⟨-, hrest⟩
      · exact .inr ⟨htype, hopens.fresh, it, hit, hpivot, hproceeds, hpivoted⟩
      · exact .inl hrest
  · exact .inl (prepareRun_unpivoted h)
  · exact .inl (unpivoted_nil (compileSpecs_bare h).undecided)

theorem step_pivots (h : Step settings sys l sys') :
    (∃ rows, sys'.db.decisions = sys.db.decisions ++ rows ∧
        ∀ row ∈ rows, row.decision ≠ .pivotHypothesis) ∨
      ∃ it txn next, CarriesPivot sys l it ∧ sys'.db = sys.db.commit txn ∧
        Pivoted sys.db it txn next := by
  have hwrites := step_writes h
  generalize sys'.db = db at hwrites
  cases hwrites with
  | unfiled _ db hsame =>
    refine .inl ⟨[], by rw [hsame.decisions, List.append_nil], fun row hrow => ?_⟩
    exact absurd hrow List.not_mem_nil
  | manual q c charter seen db hpc hsame hdecisions =>
    refine .inl ⟨_, hdecisions, fun row hrow => ?_⟩
    rw [manualDecision_stops _ _ _ row hrow]
    decide
  | operator w world j phase job txn next hpc hj hout =>
    rcases execute_pivots hout with hrest | ⟨htype, hfresh, it, hit, hpivot, hproceeds, hpivoted⟩
    · exact .inl ⟨txn.newDecisions, rfl, hrest⟩
    · rcases execute_calm hout with hcalm | hnone
      · refine .inr ⟨it, txn, next, ⟨⟨j, job, phase, world, ?_, htype, hfresh, hit⟩, hpivot,
          hproceeds⟩, rfl, hpivoted⟩
        exact ⟨⟨w, rfl, hpc⟩, hj, hcalm⟩
      · exact .inl ⟨txn.newDecisions, rfl, unpivoted_nil (by rw [hnone])⟩

/-! ### Cards out of the race -/

theorem out_not_viable (h : Out card.status) (c : CycleId) : viable c card = false := by
  unfold viable
  rcases h with h | h <;> simp [h]

theorem out_setCardStatuses (h : ∀ write ∈ writes, write.1 = id → Out write.2)
    (hold : cards[id]? = some old) (hout : Out old.status)
    (hcard : (Db.setCardStatuses cards writes)[id]? = some card) : Out card.status := by
  induction writes generalizing cards old with
  | nil =>
    obtain rfl := Option.some.inj (hold.symm.trans hcard)
    exact hout
  | cons write rest ih =>
    have hrest : ∀ write ∈ rest, write.1 = id → Out write.2 :=
      fun later hlater => h later (List.mem_cons_of_mem _ hlater)
    have hone := setCardStatuses_single cards write id
    by_cases hid : write.1 = id
    · rw [if_pos hid, hold] at hone
      exact ih hrest hone (h write List.mem_cons_self hid) hcard
    · rw [if_neg hid, hold] at hone
      exact ih hrest hone hout hcard

theorem updated_out (h : Updated db it writes) (hold : db.cards[id]? = some old)
    (hout : Out old.status) : ∀ write ∈ writes, write.1 = id → Out write.2 := by
  cases h with
  | cardless | kept => exact fun write hwrite => absurd hwrite List.not_mem_nil
  | moved id' card status hid hcard hnext =>
    intro write hwrite hsame
    obtain rfl := List.mem_singleton.mp hwrite
    obtain rfl : id' = id := hsame
    obtain rfl := Option.some.inj (hcard.symm.trans hold)
    have hvalid := computeLifecycleStatus_valid hnext
    rcases hout with hout | hout <;> rw [hout] at hvalid <;> cases hvalid

theorem deprioritizeCurrent_out (current : Option CardId) :
    ∀ write ∈ deprioritizeCurrent cards current, Out write.2 := by
  intro write hwrite
  unfold deprioritizeCurrent at hwrite
  split at hwrite
  · exact absurd hwrite List.not_mem_nil
  · split at hwrite
    · exact absurd hwrite List.not_mem_nil
    · split at hwrite
      · exact absurd hwrite List.not_mem_nil
      · obtain rfl := List.mem_singleton.mp hwrite
        exact .inl rfl

theorem loopWrites_out (h : LoopWrites db it writes) (hold : db.cards[id]? = some old)
    (hout : Out old.status) : ∀ write ∈ writes, write.1 = id → Out write.2 := by
  cases h with
  | nothing => exact fun write hwrite => absurd hwrite List.not_mem_nil
  | updated _ h => exact updated_out h hold hout
  | pivoted before h =>
    intro write hwrite hid
    rcases List.mem_append.mp hwrite with hwrite | hwrite
    · exact updated_out h hold hout write hwrite hid
    · exact deprioritizeCurrent_out it.cardId write hwrite

theorem step_out (hok : LeavesOnce sys l) (h : Step settings sys l sys') (hleft : Left sys.db id)
    (hold : sys.db.cards[id]? = some old) (hout : Out old.status)
    (hcard : sys'.db.cards[id]? = some card) : Out card.status := by
  rcases step_cards h with ⟨hcards, -⟩ |
    ⟨w, world, j, phase, job, txn, next, rfl, hpc, hj, hexec, hdb, -⟩
  · rw [hcards] at hcard
    obtain rfl := Option.some.inj (hold.symm.trans hcard)
    exact hout
  rw [hdb] at hcard
  refine out_setCardStatuses ?_ hold hout hcard
  have unwritten (hnone : txn.cardStatuses = []) :
      ∀ write ∈ txn.cardStatuses, write.1 = id → Out write.2 := by
    rw [hnone]
    exact fun write hwrite => absurd hwrite List.not_mem_nil
  rcases execute_calm hexec with hcalm | hnone
  case inr => exact unwritten (by rw [hnone])
  rcases execute_cases hexec with hok' | ⟨error, hreject⟩
  case inr =>
    obtain ⟨rfl, -⟩ := Prod.mk.inj hreject
    exact unwritten rfl
  rcases handler_plain hok' with hplain | ⟨-, h⟩ | ⟨s, -, -, h⟩ | ⟨hphase, htype, h⟩
  · exact unwritten hplain.unmoved
  · rcases loopDecide_writes h with hnone | ⟨-, it, -, hwrites⟩
    · exact unwritten hnone
    · exact loopWrites_out hwrites hold hout
  · exact unwritten (prepareRun_unwritten h)
  · rcases compileSpecs_writes h with hnone | ⟨sessionId, session, cards, drafted, hsessionId,
      hsession, hcards, hdrafted, hwrites⟩
    · exact unwritten hnone
    have huncompiled := hok.compile j job phase world sessionId session cards drafted
      ⟨⟨w, rfl, hpc⟩, hj, hcalm⟩ htype hphase hsessionId hsession hcards hdrafted
    intro write hwrite hid
    rcases hwrites write hwrite with ⟨row, hrow, hstatus, rfl⟩ | ⟨row, hrow, hvalid, rfl⟩
    · have hcandidate := selectCards_rows hcards row hrow
      rw [show row.2 = id from hid] at hcandidate
      obtain rfl := Option.some.inj (hcandidate.symm.trans hold)
      rw [hstatus] at hout
      rcases hout with hout | hout <;> cases hout
    · exact absurd hleft (hid ▸ huncompiled row hrow hvalid)

/-! ### Runs -/

theorem pivots_append (h : ∀ row ∈ rows, row.decision ≠ .pivotHypothesis)
    (decisions : List LoopDecision) :
    ((decisions ++ rows).filter fun row => row.decision == .pivotHypothesis) =
      decisions.filter fun row => row.decision == .pivotHypothesis := by
  have hnone : (rows.filter fun row => row.decision == .pivotHypothesis) = [] := by
    apply List.filter_eq_nil_iff.mpr
    intro row hrow hpivot
    exact h row hrow (beq_iff_eq.mp hpivot)
  rw [List.filter_append, hnone, List.append_nil]

theorem left_of_mem (hid : some id ∈ (db.decisions.filter fun row =>
    row.decision == .pivotHypothesis).map LoopDecision.hypothesisCardId) : Left db id := by
  obtain ⟨row, hrow, hcard⟩ := List.mem_map.mp hid
  obtain ⟨hmem, hpivot⟩ := List.mem_filter.mp hrow
  exact ⟨row, hmem, beq_iff_eq.mp hpivot, hcard⟩

theorem abandons_old (hok : LeavesOnce sys l) (habandons : Abandons sys.db)
    (h : Step settings sys l sys') (hrow : row ∈ sys.db.decisions)
    (hpivot : row.decision = .pivotHypothesis) :
    ∃ id card, row.hypothesisCardId = some id ∧ sys'.db.cards[id]? = some card ∧
      card.cycleId = row.cycleId ∧ Out card.status := by
  obtain ⟨id, old, hid, hold, hcycle, hout⟩ := habandons.out row hrow hpivot
  obtain ⟨card, hcard, hkeeps⟩ := (step_carries h).cards id old hold
  refine ⟨id, card, hid, hcard, ?_, step_out hok h ⟨row, hrow, hpivot, hid⟩ hold hout hcard⟩
  rw [hkeeps]
  exact hcycle

theorem abandons_step (hok : LeavesOnce sys l) (hscoped : Scoped sys.db)
    (habandons : Abandons sys.db) (h : Step settings sys l sys') : Abandons sys'.db := by
  have kept (rows : List LoopDecision) (hrows : sys'.db.decisions = sys.db.decisions ++ rows)
      (hrest : ∀ row ∈ rows, row.decision ≠ .pivotHypothesis) : Abandons sys'.db := by
    constructor
    · intro row hrow hpivot
      rw [hrows] at hrow
      rcases List.mem_append.mp hrow with hrow | hrow
      · exact abandons_old hok habandons h hrow hpivot
      · exact absurd hpivot (hrest row hrow)
    · rw [hrows, pivots_append hrest]
      exact habandons.once
  rcases step_pivots h with ⟨rows, hrows, hrest⟩ | ⟨it, txn, next, hcarries, hdb, hpivoted⟩
  · exact kept rows hrows hrest
  have hrows : sys'.db.decisions = sys.db.decisions ++ txn.newDecisions := by rw [hdb]; rfl
  cases hpivoted with
  | exhausted hfiles =>
    obtain ⟨row, hone, hdecision⟩ := hfiles
    refine kept _ hrows (unpivoted_single hone ?_)
    rw [hdecision]
    decide
  | paused card k hcard hfiles =>
    obtain ⟨row, hone, hdecision⟩ := hfiles
    refine kept _ hrows (unpivoted_single hone ?_)
    rw [hdecision]
    decide
  | selected card k hselects hwrites hfiles =>
    obtain ⟨row, hone, hdecision, hid, -, hcycle⟩ := hfiles
    obtain ⟨before, hwrites⟩ := hwrites
    obtain ⟨j, job, phase, world, -, -, -, hit⟩ := hcarries.job
    obtain ⟨id, old, hcurrent, hold, hown⟩ := iteration_card hscoped hit
    rw [hone] at hrows
    constructor
    · intro row' hrow hpivot
      rw [hrows] at hrow
      rcases List.mem_append.mp hrow with hrow | hrow
      · exact abandons_old hok habandons h hrow hpivot
      · obtain rfl := List.mem_singleton.mp hrow
        obtain ⟨now, hnow, hkeeps⟩ := (step_carries h).cards id old hold
        refine ⟨id, now, hid.trans hcurrent, hnow, ?_, ?_⟩
        · rw [hkeeps, hcycle]
          exact hown
        · rw [hdb] at hnow
          change (Db.setCardStatuses sys.db.cards txn.cardStatuses)[id]? = some now at hnow
          rw [hwrites, setCardStatuses_append, hcurrent] at hnow
          exact deprioritizeCurrent_status _ hnow
    · have hfresh := hok.pivot it id k card hcarries hcurrent (alternative_selected hselects).1
      rw [hrows, List.filter_append, List.map_append]
      refine List.nodup_append.mpr ⟨habandons.once, ?_, ?_⟩
      · simp [hdecision]
      · rintro a ha b hb rfl
        simp only [hdecision, List.filter_cons, beq_self_eq_true, if_true, List.filter_nil,
          List.map_cons, List.map_nil, List.mem_singleton, hid, hcurrent] at hb
        rw [hb] at ha
        exact hfresh (left_of_mem ha)

theorem abandons_run (hstart : start.Initial) (hscoped : Scoped start.db)
    (hrun : Reaches LeavesOnce (Runtime.step settings) start sys) :
    Scoped sys.db ∧ Abandons sys.db := by
  have hempty : Abandons start.db := by
    constructor
    · rw [hstart.decisions]
      exact fun row hrow => absurd hrow List.not_mem_nil
    · rw [hstart.decisions]
      exact List.nodup_nil
  have hpast : ReadsPast start := fun q body seen hpc => by cases (hstart.requests q).symm.trans hpc
  refine (hrun.invariant (fun sys => ReadsPast sys ∧ Scoped sys.db ∧ Abandons sys.db) ?_
    ⟨hpast, hscoped, hempty⟩).2
  rintro sys l sys' ⟨hpast, hscoped, habandons⟩ hok htaken
  have hstep := step_cases htaken
  exact ⟨readsPast_step hpast hstep, scoped_step hpast hscoped hstep,
    abandons_step hok hscoped habandons hstep⟩

theorem pivots_le_cards (h : Abandons db) (c : CycleId) :
    (db.decisions.countP fun row => row.cycleId == c && row.decision == .pivotHypothesis) ≤
      db.cards.countP fun card => card.cycleId == c := by
  let left := (db.decisions.filter fun row =>
    row.cycleId == c && row.decision == .pivotHypothesis).map LoopDecision.hypothesisCardId
  let own := (db.cards.zipIdx.filter fun row => row.1.cycleId == c).map fun row => some row.2
  have hnodup : left.Nodup := by
    refine h.once.sublist (List.Sublist.map _ ?_)
    rw [← List.filter_filter]
    exact List.filter_sublist
  have hsubset : left ⊆ own := by
    intro a ha
    obtain ⟨row, hrow, rfl⟩ := List.mem_map.mp ha
    obtain ⟨hmem, hpivot⟩ := List.mem_filter.mp hrow
    obtain ⟨hcycle, hpivot⟩ := (Bool.and_eq_true _ _).mp hpivot
    obtain ⟨id, card, hid, hcard, hown, -⟩ := h.out row hmem (beq_iff_eq.mp hpivot)
    refine List.mem_map.mpr ⟨(card, id), List.mem_filter.mpr ⟨?_, ?_⟩, hid.symm⟩
    · exact List.mem_zipIdx_iff_getElem?.mpr hcard
    · rw [hown]
      exact hcycle
  have hlength := (List.subperm_of_subset hnodup hsubset).length_le
  rw [List.length_map, List.length_map, ← List.countP_eq_length_filter,
    ← List.countP_eq_length_filter] at hlength
  calc
    _ ≤ db.cards.zipIdx.countP fun row => row.1.cycleId == c := hlength
    _ = (db.cards.zipIdx.map Prod.fst).countP fun card => card.cycleId == c := by
      rw [List.countP_map]
      rfl
    _ = _ := by rw [List.zipIdx_map_fst]

theorem step_pivotsTo (hscoped : Scoped sys.db) (habandons : Abandons sys.db)
    (h : Step settings sys l sys') (hrow : row ∈ newDecisions sys.db sys'.db)
    (hpivot : row.decision = .pivotHypothesis) :
    ∃ id nextId next, PivotsTo sys.db row id nextId next := by
  rcases step_pivots h with ⟨rows, hrows, hrest⟩ | ⟨it, txn, next, hcarries, hdb, hpivoted⟩
  · rw [newDecisions_eq hrows] at hrow
    exact absurd hpivot (hrest row hrow)
  have hrows : sys'.db.decisions = sys.db.decisions ++ txn.newDecisions := by rw [hdb]; rfl
  rw [newDecisions_eq hrows] at hrow
  cases hpivoted with
  | exhausted hfiles | paused card k hcard hfiles =>
    obtain ⟨row', hone, hdecision⟩ := hfiles
    rw [hone] at hrow
    obtain rfl := List.mem_singleton.mp hrow
    cases hpivot.symm.trans hdecision
  | selected card k hselects hwrites hfiles =>
    obtain ⟨row', hone, -, hid, hnext, hcycle⟩ := hfiles
    rw [hone] at hrow
    obtain rfl := List.mem_singleton.mp hrow
    obtain ⟨j, job, phase, world, -, -, -, hit⟩ := hcarries.job
    obtain ⟨id, old, hcurrent, -, -⟩ := iteration_card hscoped hit
    obtain ⟨⟨hother, hfound, hviable⟩, hleast⟩ := alternative_selected hselects
    refine ⟨id, k, card, hid.trans hcurrent, hnext, ?_, hfound, by rw [hcycle]; exact hviable,
      fun k' other hne hother' hviable' => ?_, ?_⟩
    · rintro rfl
      exact hother hcurrent
    · rw [hcycle] at hviable'
      refine hleast k' other ⟨fun hsame => hne ?_, hother', hviable'⟩
      exact Option.some.inj (hsame.symm.trans hcurrent)
    · rintro ⟨row', hrow', hpivot', hid'⟩
      obtain ⟨id', card', hsame, hcard', -, hout⟩ := habandons.out row' hrow' hpivot'
      obtain rfl := Option.some.inj (hid'.symm.trans hsame)
      obtain rfl := Option.some.inj (hcard'.symm.trans hfound)
      rw [out_not_viable hout] at hviable
      cases hviable

theorem step_exhausts (hcarries : CarriesPivot sys l it)
    (hnone : ∀ k card, ¬ Alternative sys.db it k card) (h : Step settings sys l sys') :
    (∃ w j error, sys'.workers w = .returned j (.failure error) ∧
        sys'.db.decisions = sys.db.decisions ∧ sys'.db.cards = sys.db.cards) ∨
      ∃ row w j, newDecisions sys.db sys'.db = [row] ∧ row.decision = .stopExhausted ∧
        sys'.workers w = .returned j { success := true, statePatch := some .reporting } := by
  obtain ⟨j, job, phase, world, ⟨⟨w, rfl, hpc⟩, hj, -⟩, htype, hfresh, hit⟩ := hcarries.job
  have rejected (error : String)
      (hreject : execute sys.db (operatorInput j job) phase world = rejectWith error) :
      ∃ w j error, sys'.workers w = .returned j (.failure error) ∧
        sys'.db.decisions = sys.db.decisions ∧ sys'.db.cards = sys.db.cards := by
    obtain rfl := step_exec h hpc hj hreject
    refine ⟨w, j, error, ?_, List.append_nil _, rfl⟩
    simp [Runtime.moveWorker, Runtime.afterExec]
  cases hout : execute sys.db (operatorInput j job) phase world with
  | mk txn next =>
    rcases execute_cases hout with hok | ⟨error, hreject⟩
    case inr => exact .inl (rejected error (hout.trans hreject.symm))
    obtain rfl := step_exec h hpc hj hout
    unfold handler at hok
    rw [show (operatorInput j job).jobType = .loopDecide from htype] at hok
    rcases loopDecide_pivots hfresh hit hok with ⟨-, -, hpivoted⟩ | ⟨hnot, -⟩
    case inr => exact absurd ⟨hcarries.pivot, hcarries.proceeds⟩ hnot
    cases hpivoted with
    | exhausted hfiles hnext =>
      obtain ⟨row, hone, hdecision⟩ := hfiles
      refine .inr ⟨row, w, j, ?_, hdecision, ?_⟩
      · rw [← hone]
        exact newDecisions_eq (Db.commit_decisions _ _)
      · rw [hnext]
        simp [Runtime.moveWorker, Runtime.afterExec, done]
    | paused card k hselects | selected card k hselects =>
      exact absurd (alternative_selected hselects).1 (hnone k card)

/-- In a run that leaves no card twice, the pivots of a cycle are no more than its cards: each puts
its card out of the race for good and selects the viable card of the least rank, and without one
the loop ends. -/
theorem pivots_progress {settings : Settings} {start sys : Runtime} (hstart : start.Initial)
    (hscoped : Scoped start.db)
    (hrun : Reaches LeavesOnce (Runtime.step settings) start sys) :
    (∀ row ∈ sys.db.decisions, row.decision = .pivotHypothesis →
      ∃ id card, row.hypothesisCardId = some id ∧ sys.db.cards[id]? = some card ∧
        card.cycleId = row.cycleId ∧ Out card.status) ∧
    (∀ c, (sys.db.decisions.countP fun row =>
        row.cycleId == c && row.decision == .pivotHypothesis) ≤
      sys.db.cards.countP fun card => card.cycleId == c) ∧
    ∀ l after, Runtime.step settings sys l = some after →
      (∀ row ∈ newDecisions sys.db after.db, row.decision = .pivotHypothesis →
        ∃ id nextId next, PivotsTo sys.db row id nextId next) ∧
      ∀ it, CarriesPivot sys l it → (∀ k card, ¬ Alternative sys.db it k card) →
        (∃ w j error, after.workers w = .returned j (.failure error) ∧
          after.db.decisions = sys.db.decisions ∧ after.db.cards = sys.db.cards) ∨
          ∃ row w j, newDecisions sys.db after.db = [row] ∧ row.decision = .stopExhausted ∧
            after.workers w = .returned j { success := true, statePatch := some .reporting } := by
  obtain ⟨hscoped, habandons⟩ := abandons_run hstart hscoped hrun
  refine ⟨habandons.out, pivots_le_cards habandons, fun l after htaken => ⟨?_, ?_⟩⟩
  · intro row hrow hpivot
    exact step_pivotsTo hscoped habandons (step_cases htaken) hrow hpivot
  · intro it hcarries hnone
    exact step_exhausts hcarries hnone (step_cases htaken)

/-! ### Two cards -/

open Synthetos.Runtime (work)

def pairCycle : Runtime :=
  { db := { (gatedCycle {}).db with
      cards := [
        { hypothesisSessionId := 0, charterId := 0, cycleId := 0, status := .compiled
          rank := some 1 },
        { hypothesisSessionId := 0, charterId := 0, cycleId := 0, status := .compiled
          rank := some 2 }]
      specs := [Runtime.compiledSpec, { Runtime.compiledSpec with hypothesisCardId := 1 }] } }

theorem pairCycle_initial : pairCycle.Initial := { gatedCycle_initial {} with }

theorem pairCycle_scoped : Scoped pairCycle.db where
  cards id card h := by
    match id, h with
    | 0, h | 1, h =>
      obtain rfl := Option.some.inj h
      exact ⟨_, rfl, rfl⟩
  specs s spec h := by
    match s, h with
    | 0, h | 1, h =>
      obtain rfl := Option.some.inj h
      exact ⟨_, rfl, rfl⟩
  runs r run h := by cases h

/-- A run whose container is killed, and its verification. -/
def killedRun : List Label :=
  work [{}] ++ work [{}, {}, {}, { observation := .ok (.exited 137) }, {}] ++
    work [{ verdict := .failed }] ++ work [{}]

/-- The first card fails, again after three remediations, and the loop pivots to the second. -/
def firstPivot : List Label :=
  [.receive 0 (.startRun 0), .respond 0] ++ killedRun ++ killedRun ++ killedRun ++ killedRun ++
    work [{}] ++ work [{}] ++ [.claim 0 [], .start 0, .exec 0 {}]

def leftCard (db : Db) (id : CardId) : Bool :=
  db.decisions.any fun row => row.decision == .pivotHypothesis && row.hypothesisCardId == some id

/-- After a pivot nothing is compiled, and no run of a card that was left is decided on. -/
def leavesOnce (sys : Runtime) (l : Label) : Bool :=
  (sys.db.decisions.all fun row => row.decision != .pivotHypothesis) ||
    match l with
    | .exec w _ =>
      match sys.workers w with
      | .executing j _ => sys.db.jobs[j]?.all fun job =>
          job.jobType != .protocolCompile &&
            (job.jobType != .loopDecide || (iterationOf sys.db (operatorInput j job)).all fun it =>
              it.cardId.all fun id => !leftCard sys.db id)
      | _ => true
    | _ => true

theorem leftCard_of_left {db : Db} {id : CardId} (h : Left db id) : leftCard db id = true := by
  obtain ⟨row, hrow, hpivot, hid⟩ := h
  refine List.any_eq_true.mpr ⟨row, hrow, ?_⟩
  rw [hpivot, hid, beq_self_eq_true, beq_self_eq_true, Bool.and_true]

theorem leavesOnce_of_test (h : leavesOnce sys l = true) : LeavesOnce sys l := by
  unfold leavesOnce at h
  rw [Bool.or_eq_true] at h
  rcases h with hunpivoted | h
  · have hnone (id : CardId) : ¬ Left sys.db id := by
      rintro ⟨row, hrow, hpivot, -⟩
      have hother := List.all_eq_true.mp hunpivoted row hrow
      rw [hpivot] at hother
      cases hother
    constructor
    · exact fun _ _ _ _ _ _ _ => hnone _
    · exact fun _ _ _ _ _ _ _ _ _ _ _ _ _ _ _ _ _ _ => hnone _
  · constructor
    · intro it id k card hcarries hid _ hleft
      obtain ⟨j, job, phase, world, ⟨⟨w, rfl, hpc⟩, hj, -⟩, htype, -, hit⟩ := hcarries.job
      simp only [hpc, hj, Option.all_some, htype, hit, hid, leftCard_of_left hleft] at h
      exact absurd h (by decide)
    · rintro j job phase world sessionId session cards drafted ⟨⟨w, rfl, hpc⟩, hj, -⟩ htype
      simp only [hpc, hj, Option.all_some, htype, bne_self_eq_false, Bool.false_and,
        Bool.false_eq_true] at h


/-- Worker 0 is about to pivot, and no other card is viable. -/
def pivotsInVain (sys : Runtime) : Bool :=
  match sys.workers 0 with
  | .executing j _ => sys.db.jobs[j]?.any fun job =>
      job.jobType == .loopDecide && job.payload.preparedRunRecordId == none &&
        (iterationOf sys.db (operatorInput j job)).any fun it =>
          it.recommendation.recommendationType == .hypothesisPivot &&
            decide (exhaustedBudget (countRun sys.db it) = none) &&
            (match freshGate sys.db (countRun sys.db it) with | .ok none => true | _ => false) &&
            sys.db.cards.zipIdx.all fun (card, k) =>
              it.cardId == some k || !viable it.cycleId card
  | _ => false

theorem carriesPivot_of_test (h : pivotsInVain sys = true) : ∃ it,
    CarriesPivot sys (.exec 0 {}) it ∧ ∀ k card, ¬ Alternative sys.db it k card := by
  unfold pivotsInVain at h
  split at h
  case h_2 => cases h
  rename_i j phase hpc
  obtain ⟨job, hj, h⟩ := (Option.any_eq_true _ _).mp h
  rw [Bool.and_eq_true, Option.any_eq_true] at h
  obtain ⟨hjob, it, hit, h⟩ := h
  simp only [Bool.and_eq_true, beq_iff_eq, decide_eq_true_eq] at hjob h
  obtain ⟨⟨⟨hpivot, hbudget⟩, hgate⟩, hcards⟩ := h
  have hfree : freshGate sys.db (countRun sys.db it) = .ok none := by
    split at hgate
    · assumption
    · cases hgate
  refine ⟨it, ⟨⟨j, job, phase, {}, ⟨⟨0, rfl, hpc⟩, hj, fun _ => rfl⟩, hjob.1, hjob.2, hit⟩,
    hpivot, fun _ => ⟨hbudget, hfree⟩⟩, ?_⟩
  intro k card halternative
  have hmem := List.mk_mem_zipIdx_iff_getElem?.mpr halternative.row
  have hother := List.all_eq_true.mp hcards (card, k) hmem
  rw [halternative.viable, Bool.not_true, Bool.or_false, beq_iff_eq] at hother
  exact halternative.other hother

/-- The second card fails as the first one did. -/
def secondPivot : List Label :=
  firstPivot ++ [.readOutcome 0, .readTarget 0, .writeOutcome 0] ++ killedRun ++ killedRun ++
    killedRun ++ killedRun ++ work [{}] ++ work [{}] ++ [.claim 0 [], .start 0]

/-- The loop pivots to the second card and stops when no card is left. -/
theorem pivots_progress_exhausted : ∃ sys after : Runtime, ∃ row last,
    Reaches LeavesOnce (Runtime.step {}) pairCycle sys ∧ row ∈ sys.db.decisions ∧
      row.nextHypothesisCardId = some 1 ∧
      (∃ id card, row.hypothesisCardId = some id ∧ sys.db.cards[id]? = some card ∧
        card.cycleId = row.cycleId ∧ Out card.status) ∧
      Runtime.step {} sys (.exec 0 {}) = some after ∧
      newDecisions sys.db after.db = [last] ∧ last.decision = .stopExhausted := by
  obtain ⟨sys, hrun, -, htest⟩ := Reaches.of_perform_any (fun _ => True)
    (fun _ _ _ h => leavesOnce_of_test h) (fun _ _ _ _ _ _ => trivial) trivial
    (show (perform leavesOnce (Runtime.step {}) pairCycle secondPivot).any (fun sys =>
      pivotsInVain sys &&
        ((sys.db.decisions.any fun row =>
            row.decision == .pivotHypothesis && row.nextHypothesisCardId == some 1) &&
          (Runtime.step {} sys (.exec 0 {})).any fun after =>
            after.db.decisions.length == sys.db.decisions.length + 1)) = true
      by decide +kernel)
  rw [Bool.and_eq_true, Bool.and_eq_true, List.any_eq_true, Option.any_eq_true] at htest
  obtain ⟨hvain, ⟨row, hrow, hpivot⟩, after, hstep, hfiled⟩ := htest
  obtain ⟨hpivot, hnext⟩ := (Bool.and_eq_true _ _).mp hpivot
  obtain ⟨hout, -, hsteps⟩ := pivots_progress pairCycle_initial pairCycle_scoped hrun
  obtain ⟨it, hcarries, hnone⟩ := carriesPivot_of_test hvain
  rcases (hsteps _ after hstep).2 it hcarries hnone with
    ⟨-, -, -, -, hsame, -⟩ | ⟨last, -, -, hlast, hexhausted, -⟩
  · rw [beq_iff_eq, hsame] at hfiled
    exact absurd hfiled (Nat.succ_ne_self _).symm
  · exact ⟨sys, after, row, last, hrun, hrow, beq_iff_eq.mp hnext,
      hout row hrow (beq_iff_eq.mp hpivot), hstep, hlast, hexhausted⟩

/-- A job whose claim the run of the second card is not in the way of. -/
def aside (worlds : List External) : List Label :=
  [.claim 0 [19], .start 0] ++ worlds.map (.exec 0) ++
    [.readOutcome 0, .readTarget 0, .writeOutcome 0]

/-- The first card is retried after the pivot, and its parameters are varied. -/
def retriedCard : List Label :=
  firstPivot ++ [.readOutcome 0, .readTarget 0, .writeOutcome 0] ++
    [.receive 0 (.controlRun 0 .retry), .respond 0] ++ aside [{}] ++ aside [{}, {}, {}, {}, {}] ++
    aside [{ metrics := [("accuracy", 1)] }] ++ aside [{}] ++ aside [{}] ++ aside [{}] ++
    aside [{}] ++ [.claim 0 [19], .start 0]

/-- The compiler makes a card viable again that a pivot has left. -/
theorem pivot_undone : ∃ sys after : Runtime, ∃ l, pairCycle.Initial ∧ Scoped pairCycle.db ∧
    Reaches Unguarded (Runtime.step {}) pairCycle sys ∧ Left sys.db 0 ∧
      (∃ card, sys.db.cards[0]? = some card ∧ card.status = .deprioritized) ∧
      Runtime.step {} sys l = some after ∧
      ∃ card, after.db.cards[0]? = some card ∧ viable 0 card = true := by
  obtain ⟨sys, hrun, htest⟩ := Runtime.run_of_anyone
    (show (perform Runtime.anyone (Runtime.step {}) pairCycle retriedCard).any (fun sys =>
      (sys.db.decisions.any fun row =>
          row.decision == .pivotHypothesis && row.hypothesisCardId == some 0) &&
        (sys.db.cards[0]?.any fun card => card.status == .deprioritized) &&
        (Runtime.step {} sys (.exec 0 { compiledSpecs := .ok [draftedSpec] })).any fun after =>
          after.db.cards[0]?.any fun card => viable 0 card) = true by decide +kernel)
  simp only [Bool.and_eq_true, List.any_eq_true, Option.any_eq_true, beq_iff_eq] at htest
  obtain ⟨⟨⟨row, hrow, hpivot, hleft⟩, hout⟩, after, hstep, hviable⟩ := htest
  exact ⟨sys, after, _, pairCycle_initial, pairCycle_scoped, hrun, ⟨row, hrow, hpivot, hleft⟩, hout,
    hstep, hviable⟩

end Synthetos.Loop
