import Synthetos.Loop.Approvals
import Synthetos.Loop.CardWrites

/-!
# The lifecycle of a hypothesis

The transition table is consulted by the lifecycle update alone.  A pivot takes any card out of
the race, and the compiler marks every card it compiles; where neither does so against the table,
the cards of the loop follow it.
-/

namespace Synthetos.Loop

open Synthetos.Core Storage Lib Worker Api Autonomy Protocols

/-- A loop decision about one of its runs is on file. -/
def InLoop (db : Db) (id : CardId) : Prop :=
  ∃ row ∈ db.decisions, row.hypothesisCardId = some id

/-- The label executes a step of job `j`, which nothing interrupts. -/
structure Executes (sys : Runtime) (l : Label) (j : JobId) (job : Job) (phase : Phase)
    (world : External) : Prop where
  worker : ∃ w, l = .exec w world ∧ sys.workers w = .executing j phase
  row : sys.db.jobs[j]? = some job
  calm : Phase.guarded phase = false → world.raised = none

/-- A pivot may leave a card of this status behind. -/
def Droppable (status : CardStatus) : Prop :=
  status = .active ∨ status = .stalled ∨ status = .deprioritized ∨ status = .rejected

/-- No pivot drops, and no compilation resets, a card against the transition table. -/
structure KeepsLifecycle (sys : Runtime) (l : Label) : Prop where
  pivot : ∀ j (job : Job) phase world it id card next, Executes sys l j job phase world →
    job.jobType = .loopDecide → job.payload.preparedRunRecordId = none →
      iterationOf sys.db (operatorInput j job) = some it →
        it.recommendation.recommendationType = .hypothesisPivot → Proceeds sys.db it →
          it.cardId = some id → sys.db.cards[id]? = some card →
            potentialStatus sys.db it card = .ok next → Droppable (next.getD card.status)
  compile : ∀ j (job : Job) phase world sessionId session cards drafted,
    Executes sys l j job phase world → job.jobType = .protocolCompile →
      (∀ specId, phase ≠ .compiled specId) → job.payload.hypothesisSessionId = some sessionId →
        sys.db.sessions[sessionId]? = some session →
          selectCards sys.db job.payload sessionId session = .ok cards →
            world.compiledSpecs = .ok drafted →
              (∀ row ∈ cards, InLoop sys.db row.2 → row.1.status ≠ .candidate) ∧
                ∀ row ∈ cards.zip drafted, InLoop sys.db row.1.2 → validateSpec row.2 = [] →
                  row.1.1.status = .compiled

def cardChanges (sys : Runtime) : Label → List CardChange
  | .exec w world =>
    match sys.workers w with
    | .executing j phase =>
      match sys.db.jobs[j]? with
      | some job =>
        statusChanges sys.db.cards
          (execute sys.db (operatorInput j job) phase world).1.cardStatuses
      | none => []
    | _ => []
  | _ => []

variable {settings : Settings} {start sys sys' : Runtime} {l : Label} {db : Db}
  {input : OperatorInput} {phase : Phase} {world : External} {txn : Txn} {next : Core.Next}
  {it : Iteration} {writes : List (CardId × CardStatus)} {id : CardId}

/-! ### The loop -/

theorem computeLifecycleStatus_valid {current status : CardStatus} {signal : Option Signal}
    {frontier : Option MetricFrontier} {recommendationType : RecommendationType}
    {spec : Option ExperimentSpec}
    (h : computeLifecycleStatus current signal frontier recommendationType spec
      = .ok (some status)) : status ∈ validTransitions current := by
  have guarded {p : Prop} [Decidable p] {target : CardStatus}
      {otherwise : Except String (Option CardStatus)}
      (h : (if p ∧ target ∈ validTransitions current then pure (some target) else otherwise)
        = .ok (some status)) :
      status ∈ validTransitions current ∨ otherwise = .ok (some status) := by
    split at h
    · rename_i hmem
      obtain rfl := Option.some.inj (pure_eq_ok.mp h)
      exact .inl hmem.2
    · exact .inr h
  have stalls {p q : Prop} [Decidable p] [Decidable q]
      (h : (if p ∧ CardStatus.promising ∈ validTransitions current then
          (pure (some .promising) : Except String (Option CardStatus))
        else if q ∧ CardStatus.stalled ∈ validTransitions current then pure (some .stalled)
        else pure none) = .ok (some status)) : status ∈ validTransitions current := by
    rcases guarded h with hmem | h
    · exact hmem
    · rcases guarded h with hmem | h
      · exact hmem
      · exact absurd (pure_eq_ok.mp h) nofun
  unfold computeLifecycleStatus at h
  dsimp only at h
  split at h
  · exact absurd (pure_eq_ok.mp h) nofun
  rcases guarded h with hmem | h
  · exact hmem
  rcases guarded h with hmem | h
  · exact hmem
  split at h
  · rename_i hvalidated
    split at h
    · split at h
      · obtain ⟨met, -, h⟩ := bind_eq_ok.mp h
        split at h
        · obtain rfl := Option.some.inj (pure_eq_ok.mp h)
          exact hvalidated.2
        · exact stalls h
      · exact stalls h
    · exact stalls h
  · exact stalls h

theorem changeOf_valid {card : HypothesisCard} {status : CardStatus}
    (hcard : db.cards[id]? = some card) (h : status ∈ validTransitions card.status) :
    ∀ change ∈ changeOf db.cards (id, status), change.Valid := by
  intro change hchange
  unfold changeOf at hchange
  rw [hcard] at hchange
  dsimp only at hchange
  split at hchange
  · exact absurd hchange List.not_mem_nil
  · obtain rfl := List.mem_singleton.mp hchange
    exact h

theorem updated_valid (h : Updated db it writes) :
    ∀ change ∈ statusChanges db.cards writes, change.Valid := by
  cases h with
  | cardless | kept => exact fun change hchange => absurd hchange List.not_mem_nil
  | moved id card status hid hcard hnext hne =>
    unfold statusChanges
    rw [statusChanges, List.append_nil]
    exact changeOf_valid hcard (computeLifecycleStatus_valid hnext)

theorem updated_status (h : Updated db it writes) (hid : it.cardId = some id)
    {now : HypothesisCard} (hnow : (Db.setCardStatuses db.cards writes)[id]? = some now) :
    ∃ card next, db.cards[id]? = some card ∧ potentialStatus db it card = .ok next ∧
      now.status = next.getD card.status := by
  cases h with
  | cardless hcard => exact absurd ((hcard id hid).symm.trans hnow) nofun
  | kept id' card next hid' hcard hnext hsame =>
    obtain rfl := Option.some.inj (hid'.symm.trans hid)
    obtain rfl := Option.some.inj (hcard.symm.trans hnow)
    exact ⟨card, next, hcard, hnext, hsame.symm⟩
  | moved id' card status hid' hcard hnext hne =>
    obtain rfl := Option.some.inj (hid'.symm.trans hid)
    rw [setCardStatuses_single, if_pos rfl, hcard] at hnow
    obtain rfl := Option.some.inj hnow
    exact ⟨card, some status, hcard, hnext, rfl⟩

theorem loopWrites_valid (h : LoopWrites db it writes)
    (hdrop : it.recommendation.recommendationType = .hypothesisPivot → Proceeds db it →
      ∀ id card next, it.cardId = some id → db.cards[id]? = some card →
        potentialStatus db it card = .ok next → Droppable (next.getD card.status)) :
    ∀ change ∈ statusChanges db.cards writes, change.Valid := by
  cases h with
  | nothing => exact fun change hchange => absurd hchange List.not_mem_nil
  | updated _ h => exact updated_valid h
  | pivoted before h hreached hpivot =>
    intro change hchange
    rw [statusChanges_append] at hchange
    rcases List.mem_append.mp hchange with hold | hnew
    · exact updated_valid h change hold
    unfold deprioritizeCurrent at hnew
    split at hnew
    · exact absurd hnew List.not_mem_nil
    · rename_i id hid
      split at hnew
      · exact absurd hnew List.not_mem_nil
      · rename_i now hnow
        split at hnew
        · exact absurd hnew List.not_mem_nil
        · rename_i hin
          obtain ⟨card, next, hcard, hnext, hstatus⟩ := updated_status h hid hnow
          have hdroppable := hdrop hpivot hreached id card next hid hcard hnext
          rw [← hstatus] at hdroppable
          rw [statusChanges, statusChanges, List.append_nil, changeOf, hnow] at hnew
          dsimp only at hnew
          split at hnew
          · exact absurd hnew List.not_mem_nil
          · obtain rfl := List.mem_singleton.mp hnew
            change CardStatus.deprioritized ∈ validTransitions now.status
            rcases hdroppable with hactive | hstalled | hout | hout
            · rw [hactive]
              decide
            · rw [hstalled]
              decide
            · exact absurd (.inl hout) hin
            · exact absurd (.inr hout) hin

/-! ### The compiler -/

theorem selectCards_rows {sessionId : SessionId} {session : HypothesisSession} {payload : Payload}
    {cards : List (HypothesisCard × CardId)}
    (h : selectCards db payload sessionId session = .ok cards) :
    ∀ row ∈ cards, db.cards[row.2]? = some row.1 := by
  have listed {p : HypothesisCard × Nat → Bool} {row : HypothesisCard × Nat}
      (hrow : row ∈ db.cards.zipIdx.filter p) : db.cards[row.2]? = some row.1 :=
    List.mem_zipIdx_iff_getElem?.mp (List.mem_of_mem_filter hrow)
  intro row hrow
  unfold selectCards at h
  split at h
  · obtain rfl := Except.ok.inj h
    exact listed ((List.mem_insertionSort _).mp (List.mem_of_mem_take hrow))
  · dsimp only at h
    split at h
    · obtain rfl := Except.ok.inj h
      exact listed hrow
    · exact absurd h nofun

theorem compileSpecs_writes (h : compileSpecs db input world = .ok (txn, next)) :
    txn.cardStatuses = [] ∨ ∃ sessionId session cards drafted,
      input.payload.hypothesisSessionId = some sessionId ∧
        db.sessions[sessionId]? = some session ∧
          selectCards db input.payload sessionId session = .ok cards ∧
            world.compiledSpecs = .ok drafted ∧
              ∀ write ∈ txn.cardStatuses,
                (∃ row ∈ cards, row.1.status = .candidate ∧ write = (row.2, .selected)) ∨
                  ∃ row ∈ cards.zip drafted, validateSpec row.2 = [] ∧
                    write = (row.1.2, .compiled) := by
  cases compileSpecs_path h with
  | rejected error hreject =>
    obtain ⟨rfl, -⟩ := Prod.mk.inj hreject
    exact .inl rfl
  | drafted sessionId session cards drafted hsessionId hsession hcards hdrafted hstep =>
    obtain ⟨rfl, -⟩ := Prod.mk.inj hstep
    refine .inr ⟨sessionId, session, cards, drafted, hsessionId, hsession, hcards, hdrafted, ?_⟩
    intro write hwrite
    rcases List.mem_append.mp hwrite with hselected | hcompiled
    · obtain ⟨row, hrow, rfl⟩ := List.mem_map.mp hselected
      obtain ⟨hmem, hstatus⟩ := List.mem_filter.mp hrow
      exact .inl ⟨row, hmem, beq_iff_eq.mp hstatus, rfl⟩
    · obtain ⟨entry, hentry, rfl⟩ := List.mem_map.mp hcompiled
      obtain ⟨hmem, hstatus⟩ := List.mem_filter.mp hentry
      have hspec := List.mem_of_getElem? (List.mem_zipIdx_iff_getElem?.mp hmem)
      obtain ⟨row, hrow, hentry⟩ := List.mem_map.mp hspec
      rw [beq_iff_eq, ← hentry] at hstatus
      refine .inr ⟨row, hrow, ?_, by rw [← hentry]; rfl⟩
      unfold specRow at hstatus
      dsimp only at hstatus
      split at hstatus
      · exact List.isEmpty_iff.mp ‹_›
      · exact absurd hstatus (by decide)

theorem prepareRun_unwritten {specId : SpecId} (h : prepareRun db input specId = .ok (txn, next)) :
    txn.cardStatuses = [] := by
  cases prepareRun_path h with
  | missing error hstep | gated spec gate _ _ hstep | launched spec _ _ hstep =>
    obtain ⟨rfl, -⟩ := Prod.mk.inj hstep
    rfl

/-! ### Steps -/

theorem step_cards (h : Step settings sys l sys') :
    (sys'.db.cards = sys.db.cards ∧ cardChanges sys l = []) ∨
      ∃ w world j phase job txn next, l = .exec w world ∧
        sys.workers w = .executing j phase ∧ sys.db.jobs[j]? = some job ∧
        execute sys.db (operatorInput j job) phase world = (txn, next) ∧
        sys'.db = sys.db.commit txn ∧
        cardChanges sys l = statusChanges sys.db.cards txn.cardStatuses := by
  cases h with
  | exec w world j phase job txn next hpc hj hout =>
    refine .inr ⟨w, world, j, phase, job, txn, next, rfl, hpc, hj, hout, rfl, ?_⟩
    simp only [cardChanges, hpc, hj, hout]
  | writeOutcome w j result seen cycleSeen runSeen job =>
    exact .inl ⟨(Unfiled.of_administers (writeOutcome_administers ..)).cards, rfl⟩
  | writeStale w stale =>
    exact .inl ⟨(Unfiled.of_administers (reclaimStaleJobs_administers ..)).cards, rfl⟩
  | respond q body seen db hpc hanswer =>
    rcases respond_ledger hanswer with hsame | ⟨c, charter, -, hsame, -⟩
    · exact .inl ⟨hsame.cards, rfl⟩
    · exact .inl ⟨hsame.cards, rfl⟩
  | _ => exact .inl ⟨rfl, rfl⟩

theorem step_valid (hok : KeepsLifecycle sys l) (h : Step settings sys l sys') :
    ∀ change ∈ cardChanges sys l, InLoop sys'.db change.card → change.Valid := by
  rcases step_cards h with ⟨-, hnone⟩ |
    ⟨w, world, j, phase, job, txn, next, rfl, hpc, hj, hout, hdb, hchanges⟩
  · rw [hnone]
    exact fun change hchange => absurd hchange List.not_mem_nil
  rw [hchanges, hdb]
  have unwritten (hnone : txn.cardStatuses = []) :
      ∀ change ∈ statusChanges sys.db.cards txn.cardStatuses,
        InLoop (sys.db.commit txn) change.card → change.Valid := by
    rw [hnone]
    exact fun change hchange => absurd hchange List.not_mem_nil
  by_cases hcalm : Phase.guarded phase = false → world.raised = none
  case neg =>
    obtain ⟨hguarded, hraised⟩ := Classical.not_imp.mp hcalm
    obtain ⟨error, herror⟩ := Option.ne_none_iff_exists'.mp hraised
    unfold execute at hout
    rw [hguarded, herror] at hout
    obtain ⟨rfl, -⟩ := Prod.mk.inj hout
    exact unwritten rfl
  have hexec : Executes sys (.exec w world) j job phase world := ⟨⟨w, rfl, hpc⟩, hj, hcalm⟩
  rcases execute_cases hout with hok' | ⟨error, hreject⟩
  · rcases handler_plain hok' with hplain | ⟨htype, h⟩ | ⟨specId, rfl, htype, h⟩ | ⟨hphase, htype, h⟩
    · exact unwritten hplain.unmoved
    · rcases loopDecide_writes h with hnone | ⟨hfresh, it, hit, hwrites⟩
      · exact unwritten hnone
      · refine fun change hchange _ => loopWrites_valid hwrites ?_ change hchange
        intro hpivot hreached id card next hid hcard hnext
        exact hok.pivot j job phase world it id card next hexec htype hfresh hit hpivot hreached hid
          hcard hnext
    · exact unwritten (prepareRun_unwritten h)
    · rcases compileSpecs_writes h with hnone | ⟨sessionId, session, cards, drafted, hsessionId,
        hsession, hcards, hdrafted, hwrites⟩
      · exact unwritten hnone
      obtain ⟨hselected, hcompiled⟩ := hok.compile j job phase world sessionId session cards drafted
        hexec htype hphase hsessionId hsession hcards hdrafted
      have hrows := selectCards_rows hcards
      intro change hchange hin
      have hin : InLoop sys.db change.card := by
        obtain ⟨row, hrow, hcard⟩ := hin
        have hundecided : txn.newDecisions = [] := (compileSpecs_bare h).undecided
        rw [Db.commit_decisions, hundecided, List.append_nil] at hrow
        exact ⟨row, hrow, hcard⟩
      refine absurd rfl (statusChanges_stay (fun write hwrite hid card hcard => ?_) change hchange)
      rw [← hid] at hin hcard
      rcases hwrites write hwrite with ⟨row, hrow, hstatus, rfl⟩ | ⟨row, hrow, hvalid, rfl⟩
      · exact absurd hstatus (hselected row hrow hin)
      · have hrow' := hrows row.1 (List.of_mem_zip hrow).1
        obtain rfl := Option.some.inj (hrow'.symm.trans hcard)
        exact (hcompiled row hrow hin hvalid).symm
  · obtain ⟨rfl, -⟩ := Prod.mk.inj hreject
    exact unwritten rfl

theorem inLoop_step (h : Step settings sys l sys') (hin : InLoop sys.db id) : InLoop sys'.db id := by
  obtain ⟨row, hrow, hcard⟩ := hin
  obtain ⟨rows, hrows⟩ := step_decisions h
  exact ⟨row, by rw [hrows]; exact List.mem_append_left _ hrow, hcard⟩

theorem step_chain (h : Step settings sys l sys') {old new : HypothesisCard}
    (hold : sys.db.cards[id]? = some old) (hnew : sys'.db.cards[id]? = some new) :
    Relation.ReflTransGen (fun a b => ⟨id, a, b⟩ ∈ cardChanges sys l) old.status new.status := by
  rcases step_cards h with ⟨hcards, -⟩ | ⟨w, world, j, phase, job, txn, next, -, -, -, -, hdb, hchanges⟩
  · rw [hcards] at hnew
    obtain rfl := Option.some.inj (hold.symm.trans hnew)
    exact .refl
  · rw [hdb] at hnew
    rw [hchanges]
    exact statusChanges_chain hold hnew

theorem step_card (h : Step settings sys l sys') {new : HypothesisCard}
    (hnew : sys'.db.cards[id]? = some new) : ∃ old, sys.db.cards[id]? = some old := by
  have hlength : sys'.db.cards.length = sys.db.cards.length := by
    rcases step_cards h with ⟨hcards, -⟩ | ⟨w, world, j, phase, job, txn, next, -, -, -, -, hdb, -⟩
    · rw [hcards]
    · rw [hdb]
      exact length_setCardStatuses
  have hlt := Table.lt_length_of_getElem? hnew
  rw [hlength] at hlt
  exact ⟨_, List.getElem?_eq_getElem hlt⟩

/-! ### Runs -/

/-- `b` follows `a` in the transition table. -/
def Follows (a b : CardStatus) : Prop := b ∈ validTransitions a

theorem follows_terminal {a b : CardStatus} (h : Relation.ReflTransGen Follows a b)
    (hterminal : validTransitions a = []) : b = a := by
  induction h using Relation.ReflTransGen.head_induction_on with
  | refl => rfl
  | head hstep =>
    rw [Follows, hterminal] at hstep
    exact absurd hstep List.not_mem_nil

theorem follows_not_compiled {a b : CardStatus} (h : Relation.ReflTransGen Follows a b)
    (hne : a ≠ .compiled) : b ≠ .compiled := by
  induction h with
  | refl => exact hne
  | @tail mid last _ hstep =>
    rintro rfl
    unfold Follows at hstep
    revert hstep
    cases mid <;> decide

theorem run_follows {old new : HypothesisCard}
    (hrun : Reaches KeepsLifecycle (Runtime.step settings) start sys)
    (hin : InLoop start.db id) (hold : start.db.cards[id]? = some old)
    (hnew : sys.db.cards[id]? = some new) :
    Relation.ReflTransGen Follows old.status new.status := by
  have hrun' : InLoop sys.db id ∧ ∀ new, sys.db.cards[id]? = some new →
      Relation.ReflTransGen Follows old.status new.status := by
    clear hnew
    induction hrun with
    | refl =>
      refine ⟨hin, fun new hnew => ?_⟩
      obtain rfl := Option.some.inj (hold.symm.trans hnew)
      exact .refl
    | @tail mid last _ hstep ih =>
      obtain ⟨l, hok, htaken⟩ := hstep
      obtain ⟨hinMid, hchain⟩ := ih
      have hinLast := inLoop_step (step_cases htaken) hinMid
      refine ⟨hinLast, fun new hnew => ?_⟩
      obtain ⟨between, hbetween⟩ := step_card (step_cases htaken) hnew
      refine (hchain between hbetween).trans ?_
      refine Relation.ReflTransGen.mono (fun a b hab => ?_) _ _
        (step_chain (step_cases htaken) hbetween hnew)
      exact step_valid hok (step_cases htaken) _ hab hinLast
  exact hrun'.2 new hnew

/-- In a run whose pivots and compilations keep to the table, every status change of a card of the
loop is one of its pairs: such a card never becomes compiled again, and where the table has no
successor its status stays. -/
theorem lifecycle_followed {settings : Settings} {start sys : Runtime}
    (hrun : Reaches KeepsLifecycle (Runtime.step settings) start sys) :
    (∀ l after, KeepsLifecycle sys l → Runtime.step settings sys l = some after →
      ∀ change ∈ cardChanges sys l, InLoop after.db change.card →
        change.after ∈ validTransitions change.before) ∧
      ∀ id old new, InLoop start.db id → start.db.cards[id]? = some old →
        sys.db.cards[id]? = some new →
          Relation.ReflTransGen Follows old.status new.status ∧
            (old.status ≠ .compiled → new.status ≠ .compiled) ∧
            (old.status = .rejected ∨ old.status = .validated ∨ old.status = .deprioritized →
              new.status = old.status) := by
  constructor
  · intro l after hok htaken change hchange hin
    exact step_valid hok (step_cases htaken) change hchange hin
  · intro id old new hin hold hnew
    have hchain := run_follows hrun hin hold hnew
    refine ⟨hchain, follows_not_compiled hchain, fun hout => follows_terminal hchain ?_⟩
    rcases hout with hout | hout | hout <;> rw [hout] <;> rfl

/-! ### A parameter variation -/

open Synthetos.Runtime (work)

/-- Neither a pivot is recommended nor a compilation queued. -/
def tame (sys : Runtime) (_ : Label) : Bool :=
  sys.db.recommendations.all (fun row => row.recommendationType != .hypothesisPivot) &&
    sys.db.jobs.all fun job => job.jobType != .protocolCompile

theorem keepsLifecycle_of_tame (h : tame sys l = true) : KeepsLifecycle sys l := by
  obtain ⟨hrecs, hjobs⟩ := (Bool.and_eq_true _ _).mp h
  constructor
  · intro j job phase world it id card next _ _ _ hit hpivot
    obtain ⟨recId, runId, recommendation, run, cycle, -, -, hrec, -, -, rfl⟩ := iterationOf_cases hit
    have hrow := List.all_eq_true.mp hrecs recommendation (List.mem_of_getElem? hrec)
    exact absurd hpivot (by simpa using hrow)
  · intro j job phase world sessionId session cards drafted hexec htype
    have hrow := List.all_eq_true.mp hjobs job (List.mem_of_getElem? hexec.row)
    exact absurd htype (by simpa using hrow)

/-- The next run of the loop, up to the decision about it. -/
def secondRun : List Label :=
  work [{}] ++ work [{}, {}, {}, {}, {}] ++ work [{ metrics := [("accuracy", 2)] }] ++ work [{}] ++
    work [{}] ++ work [{}] ++ work [{}]

def activeCard (sys : Runtime) : Bool :=
  sys.db.decisions.any (fun row => row.hypothesisCardId == some 0) &&
    sys.db.cards.map HypothesisCard.status == [.active]

/-- A second run that improves on the first makes its card promising. -/
theorem lifecycle_followed_promising : ∃ mid sys : Runtime, ∃ old new : HypothesisCard,
    mid.db.cards[0]? = some old ∧ sys.db.cards[0]? = some new ∧ old.status = .active ∧
      new.status = .promising ∧ Relation.ReflTransGen Follows old.status new.status := by
  have hruns : ((perform Runtime.anyone (Runtime.step {}) (gatedCycle {})
      (firstRun ++ work [{}])).any fun mid => activeCard mid &&
        (perform tame (Runtime.step {}) mid secondRun).any fun sys =>
          sys.db.cards.map HypothesisCard.status == [.promising]) = true := by decide +kernel
  obtain ⟨mid, -, hmid⟩ := (Option.any_eq_true _ _).mp hruns
  obtain ⟨hactive, hrest⟩ := (Bool.and_eq_true _ _).mp hmid
  obtain ⟨hdecided, hold⟩ := (Bool.and_eq_true _ _).mp hactive
  obtain ⟨sys, hrun, -, hnew⟩ := Reaches.of_perform_any (fun _ => True)
    (fun _ _ _ h => keepsLifecycle_of_tame h) (fun _ _ _ _ _ _ => trivial) trivial hrest
  obtain ⟨old, hcards, hactive⟩ := List.map_eq_singleton_iff.mp (beq_iff_eq.mp hold)
  obtain ⟨new, hcards', hpromising⟩ := List.map_eq_singleton_iff.mp (beq_iff_eq.mp hnew)
  have hin : InLoop mid.db 0 := by
    obtain ⟨row, hrow, hcard⟩ := List.any_eq_true.mp hdecided
    exact ⟨row, hrow, beq_iff_eq.mp hcard⟩
  have hfirst : mid.db.cards[0]? = some old := by rw [hcards]; rfl
  have hlast : sys.db.cards[0]? = some new := by rw [hcards']; rfl
  exact ⟨mid, sys, old, new, hfirst, hlast, hactive, hpromising,
    ((lifecycle_followed hrun).2 0 old new hin hfirst hlast).1⟩

/-- A cycle with two identical specs: the loop varies the parameters after its first run. -/
def twinCycle : Runtime :=
  { gatedCycle {} with db := { (gatedCycle {}).db with
      specs := (gatedCycle {}).db.specs ++ (gatedCycle {}).db.specs } }

def draftedSpec : CompiledSpec :=
  { baseline := [("description", .str "baseline")]
    metrics := [[("name", .str "accuracy"), ("direction", .str "maximize")]]
    codePlan := [("entry_point", .str "main.py"), ("files", .obj [("main.py", .str "")])] }

/-- The variation of an active card is compiled, and the card is reset. -/
theorem variation_resets_card : ∃ sys after : Runtime, ∃ l,
    twinCycle.Initial ∧ Reaches Unguarded (Runtime.step {}) twinCycle sys ∧
      Runtime.step {} sys l = some after ∧ InLoop after.db 0 ∧
      cardChanges sys l = [⟨0, .active, .compiled⟩] ∧
      CardStatus.compiled ∉ validTransitions .active := by
  obtain ⟨sys, hrun, htest⟩ := Runtime.run_of_anyone
    (show (perform Runtime.anyone (Runtime.step {}) twinCycle
      (firstRun ++ work [{}] ++ [.claim 0 [], .start 0])).any (fun sys =>
        cardChanges sys (.exec 0 { compiledSpecs := .ok [draftedSpec] }) ==
            [⟨0, .active, .compiled⟩] &&
          (Runtime.step {} sys (.exec 0 { compiledSpecs := .ok [draftedSpec] })).any fun after =>
            after.db.decisions.any fun row => row.hypothesisCardId == some 0) = true
        by decide +kernel)
  obtain ⟨hchanges, hstep⟩ := (Bool.and_eq_true _ _).mp htest
  obtain ⟨after, hstep, hin⟩ := (Option.any_eq_true _ _).mp hstep
  obtain ⟨row, hrow, hcard⟩ := List.any_eq_true.mp hin
  have hinitial : twinCycle.Initial :=
    { gatedCycle_initial {} with }
  exact ⟨sys, after, _, hinitial, hrun, hstep, ⟨row, hrow, beq_iff_eq.mp hcard⟩,
    beq_iff_eq.mp hchanges, by decide⟩

end Synthetos.Loop
