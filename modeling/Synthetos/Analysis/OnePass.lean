import Synthetos.Analysis.Sequential
import Synthetos.Analysis.Waiting

/-!
# Sessions whose operators commit once

A job can be executed again after its operator committed, when its worker dies or stalls before it
records the outcome.  While that does not happen, the rows of every session are those of one pass
over its paper, however the operators of different sessions interleave.
-/

namespace Synthetos.Analysis

open Synthetos.Core Lib Storage Worker Jobs

/-- No operator is executed for a job it has committed for. -/
def PerformsOnce (sys : System) (act : Act) : Prop :=
  ∀ w world j stage, act = .operate w world → sys.executing? w = some (j, stage) →
    j ∉ sys.performed

/-- The place of the first card of a session in the table of evidence. -/
def firstCard (store : AnalysisDb) (s : SessionId) : Nat :=
  store.evidence.findIdx fun row => row.sessionId == s

/-- The evidence was compared with rows of its cycle that were filed before its first card. -/
def Compared (store : AnalysisDb) (s : SessionId) (cycle : CycleId) : Prop :=
  ∃ (visible : Nat) (candidates : List Candidate), visible ≤ firstCard store s ∧
    store.cardsOf s = candidates.map (detect idTexts (store.existing cycle visible))

/-- The session is over, and what its operators stored is one pass or the start of one. -/
def Over (store : AnalysisDb) (s : SessionId) (rows : SessionRows) : Prop :=
  Ended rows ∧ store.cardsOf s = [] ∨ RanThrough rows ∧ Compared store s rows.analysis.cycleId

/-- One job of the session is left and its operator starts from the rows of one pass, or none is
left. -/
inductive Pass (sys : System) (s : SessionId) (rows : SessionRows) : Prop where
  | ready (j : JobId) (stage : Stage) (hsession : sys.sessionOf j = some s)
      (hstage : sys.stageOf j = some stage) (hfresh : j ∉ sys.performed)
      (hothers : ∀ k, sys.sessionOf k = some s → k ≠ j → k ∈ sys.performed)
      (hrows : Ready rows stage) (hcards : sys.store.cardsOf s = []) : Pass sys s rows
  | finished (hdone : ∀ k, sys.sessionOf k = some s → k ∈ sys.performed)
      (hover : Over sys.store s rows) : Pass sys s rows

structure Passes (sys : System) : Prop where
  sessions : ∀ s rows, sys.store.sessions[s]? = some rows → Pass sys s rows
  evidence : ∀ row ∈ sys.store.evidence, row.sessionId < sys.store.sessions.length

variable {settings : Settings} {start sys sys' : System} {act : Act} {s t : SessionId}
  {j k : JobId} {stage next : Stage} {w : WorkerId} {rows old : SessionRows}
  {db db' : AnalysisDb} {world : AnalysisWorld} {out : Outcome}

/-! ### The evidence table -/

theorem cardsOf_other (h : Operated db s stage world db' rows out) (hne : s ≠ t) :
    db'.cardsOf t = db.cardsOf t := by
  unfold AnalysisDb.cardsOf
  rw [h.evidence, List.filter_append, List.map_append]
  have hnone : (out.cards.map fun card =>
      (⟨s, rows.analysis.cycleId, card⟩ : EvidenceRow)).filter
        (fun row => row.sessionId == t) = [] := by
    rw [List.filter_eq_nil_iff]
    intro row hrow
    obtain ⟨card, -, rfl⟩ := List.mem_map.mp hrow
    simpa using hne
  rw [hnone, List.map_nil, List.append_nil]

theorem cardsOf_self (h : Operated db s stage world db' rows out) :
    db'.cardsOf s = db.cardsOf s ++ out.cards := by
  unfold AnalysisDb.cardsOf
  rw [h.evidence, List.filter_append, List.map_append]
  congr 1
  rw [List.filter_eq_self.mpr, List.map_map]
  · exact List.map_id' _
  · intro row hrow
    obtain ⟨card, -, rfl⟩ := List.mem_map.mp hrow
    simp

theorem cardsOf_new (h : ∀ row ∈ db.evidence, row.sessionId < db.sessions.length) :
    db.cardsOf db.sessions.length = [] := by
  unfold AnalysisDb.cardsOf
  rw [List.filter_eq_nil_iff.mpr, List.map_nil]
  intro row hrow
  simpa using Nat.ne_of_lt (h row hrow)

/-- Evidence that was visible is found again among the same first rows. -/
theorem existing_mono (h : db.evidence <+: db'.evidence) (cycle : CycleId) {visible : Nat}
    (hvisible : visible ≤ db.evidence.length) :
    db'.existing cycle visible = db.existing cycle visible := by
  obtain ⟨more, hmore⟩ := h
  unfold AnalysisDb.existing
  rw [← hmore, List.take_append_of_le_length hvisible]

theorem existing_min (db : AnalysisDb) (cycle : CycleId) (visible : Nat) :
    db.existing cycle (min visible db.evidence.length) = db.existing cycle visible := by
  unfold AnalysisDb.existing
  rw [← List.take_take, List.take_length]

theorem firstCard_le : firstCard db s ≤ db.evidence.length := List.findIdx_le_length

theorem firstCard_mono (h : db.evidence <+: db'.evidence) : firstCard db s ≤ firstCard db' s :=
  h.findIdx_le

/-- A session without evidence files its first card after all rows. -/
theorem firstCard_none (h : db.cardsOf s = []) : firstCard db s = db.evidence.length := by
  have hnone := List.filter_eq_nil_iff.mp (List.map_eq_nil_iff.mp h)
  exact List.findIdx_eq_length_of_false fun row hrow => by simpa using hnone row hrow

theorem Compared.mono {cycle : CycleId} (h : Compared db s cycle)
    (hevidence : db.evidence <+: db'.evidence) (hcards : db'.cardsOf s = db.cardsOf s) :
    Compared db' s cycle := by
  obtain ⟨visible, candidates, hvisible, hcompared⟩ := h
  refine ⟨visible, candidates, hvisible.trans (firstCard_mono hevidence), ?_⟩
  rw [hcards, hcompared, existing_mono hevidence cycle (hvisible.trans firstCard_le)]

theorem Over.mono (h : Over db s rows) (hevidence : db.evidence <+: db'.evidence)
    (hcards : db'.cardsOf s = db.cardsOf s) : Over db' s rows :=
  h.imp (fun h => ⟨h.1, hcards.trans h.2⟩) fun h => ⟨h.1, h.2.mono hevidence hcards⟩

theorem Operated.evidence_prefix (h : Operated db s stage world db' rows out) :
    db.evidence <+: db'.evidence := by
  rw [h.evidence]
  exact List.prefix_append _ _

/-! ### Rows a worker marks -/

/-- A failure recorded for another attempt leaves the session ready for this one. -/
theorem Ready.marked {new : SessionRows} (h : Ready old stage) (hcontent : new.content = old.content)
    (hbudget : new.analysis.budget = old.analysis.budget)
    (hstatus : new.analysis.status = .failed ∨ new.analysis.status = old.analysis.status) :
    Ready new stage := by
  obtain ⟨hdue, inputs, hinputs⟩ := h
  refine ⟨?_, inputs, by rw [hcontent, hbudget, hinputs]⟩
  rcases hstatus with hfailed | hsame
  · exact .inr hfailed
  · rwa [hsame]

theorem Ended.marked {new : SessionRows} (h : Ended old) (hcontent : new.content = old.content)
    (hbudget : new.analysis.budget = old.analysis.budget)
    (hstatus : new.analysis.status = .failed ∨ new.analysis.status = old.analysis.status) :
    Ended new := by
  obtain ⟨hfailed, inputs, hstops⟩ := h
  refine ⟨?_, inputs, by rwa [hcontent, hbudget]⟩
  rcases hstatus with hnew | hsame
  · exact hnew
  · exact hsame.trans hfailed

theorem RanThrough.marked {new : SessionRows} (h : RanThrough old)
    (hcontent : new.content = old.content)
    (hbudget : new.analysis.budget = old.analysis.budget)
    (hstatus : new.analysis.status = .failed ∨ new.analysis.status = old.analysis.status) :
    RanThrough new := by
  obtain ⟨hover, inputs, hinputs⟩ := h
  refine ⟨?_, inputs, by rw [hcontent, hbudget, hinputs]⟩
  rcases hstatus with hfailed | hsame
  · exact .inr hfailed
  · rwa [hsame]

/-! ### Steps -/

/-- The session of a job whose operator is executed for the first time is ready for it. -/
theorem Pass.ready_of_fresh (h : Pass sys s rows) (hsession : sys.sessionOf k = some s)
    (hstage : sys.stageOf k = some stage) (hfresh : k ∉ sys.performed) :
    Ready rows stage ∧ sys.store.cardsOf s = [] ∧
      ∀ m, sys.sessionOf m = some s → m ≠ k → m ∈ sys.performed := by
  cases h with
  | finished hdone => exact absurd (hdone k hsession) hfresh
  | ready j found hj hfound hnew hothers hrows hcards =>
    by_cases hjk : k = j
    · subst hjk
      obtain rfl := Option.some.inj (hfound.symm.trans hstage)
      exact ⟨hrows, hcards, hothers⟩
    · exact absurd (hothers k hsession hjk) hfresh

/-- What a step keeps of a session it does not work on. -/
theorem Pass.keep (h : Pass sys s rows)
    (hstages : ∀ j stage, sys.stageOf j = some stage → sys'.stageOf j = some stage)
    (hsessions : ∀ j, sys'.sessionOf j = some s ↔ sys.sessionOf j = some s)
    (hmono : ∀ j ∈ sys.performed, j ∈ sys'.performed)
    (hfresh : ∀ j, sys.sessionOf j = some s → j ∈ sys'.performed → j ∈ sys.performed)
    (hevidence : sys.store.evidence <+: sys'.store.evidence)
    (hcards : sys'.store.cardsOf s = sys.store.cardsOf s) : Pass sys' s rows := by
  cases h with
  | ready j stage hsession hstage hnew hothers hrows hnone =>
    exact .ready j stage ((hsessions j).mpr hsession) (hstages j stage hstage)
      (fun hj => hnew (hfresh j hsession hj))
      (fun k hk hne => hmono k (hothers k ((hsessions k).mp hk) hne)) hrows (hcards.trans hnone)
  | finished hdone hover =>
    exact .finished (fun k hk => hmono k (hdone k ((hsessions k).mp hk))) (hover.mono hevidence hcards)

theorem Pass.still {l : Label} (h : Pass sys s rows)
    (hstep : Step settings sys.runtime l sys'.runtime)
    (hsessions : sys'.sessionOf = sys.sessionOf) (hperformed : sys'.performed = sys.performed)
    (hevidence : sys'.store.evidence = sys.store.evidence) : Pass sys' s rows := by
  refine h.keep (fun j stage => stageOf_step hstep) (fun j => by rw [hsessions])
    (fun j hj => by rwa [hperformed]) (fun j _ hj => by rwa [hperformed] at hj)
    (by rw [hevidence]) ?_
  unfold AnalysisDb.cardsOf
  rw [hevidence]

theorem Pass.marked {new : SessionRows} (h : Pass sys s old)
    (hcontent : new.content = old.content)
    (hbudget : new.analysis.budget = old.analysis.budget)
    (hcycle : new.analysis.cycleId = old.analysis.cycleId)
    (hstatus : new.analysis.status = .failed ∨ new.analysis.status = old.analysis.status) :
    Pass sys s new := by
  cases h with
  | ready j stage hsession hstage hfresh hothers hrows hcards =>
    exact .ready j stage hsession hstage hfresh hothers
      (hrows.marked hcontent hbudget hstatus) hcards
  | finished hdone hover =>
    refine .finished hdone ?_
    rcases hover with ⟨hended, hcards⟩ | ⟨hran, hcompared⟩
    · exact .inl ⟨hended.marked hcontent hbudget hstatus, hcards⟩
    · refine .inr ⟨hran.marked hcontent hbudget hstatus, ?_⟩
      rwa [hcycle]

/-- The operator of a job that had not committed before moves its session on. -/
theorem advances_of_fresh (hpasses : Passes sys) (hexec : sys.executing? w = some (k, stage))
    (hk : sys.sessionOf k = some s) (hfresh : k ∉ sys.performed)
    (hout : Operated sys.store s stage world db' rows out) :
    Advances (sys.store.existing rows.analysis.cycleId world.visible) rows stage out ∧
      sys.store.cardsOf s = [] ∧ ∀ m, sys.sessionOf m = some s → m ≠ k → m ∈ sys.performed := by
  obtain ⟨-, hstage⟩ := executing?_eq_some.mp hexec
  obtain ⟨hready, hcards, hothers⟩ :=
    (hpasses.sessions s rows hout.found).ready_of_fresh hk hstage hfresh
  exact ⟨runOperator_advances hready hout.ran, hcards, hothers⟩

theorem performed_all (hothers : ∀ m, sys.sessionOf m = some s → m ≠ k → m ∈ sys.performed) :
    ∀ m, sys.sessionOf m = some s → m ∈ sys.performed ++ [k] := by
  intro m hm
  by_cases hmk : m = k
  · subst hmk
    exact List.mem_append_right _ (List.mem_singleton_self m)
  · exact List.mem_append_left _ (hothers m hm hmk)

/-- Another session is kept by an operator, whatever job the operator enqueues. -/
theorem Pass.beside {l : Label} (hinv : Coherent IsAnalysis sys.relay) (h : Pass sys t old)
    (hne : s ≠ t) (hstep : Step settings sys.runtime l sys'.runtime) (hk : sys.sessionOf k = some s)
    (hsessions : sys'.sessionOf = sys.sessionOf ∨
      sys'.sessionOf = Function.update sys.sessionOf sys.runtime.db.jobs.length (some s))
    (hperformed : sys'.performed = sys.performed ++ [k])
    (hout : Operated sys.store s stage world sys'.store rows out) : Pass sys' t old := by
  refine h.keep (fun j stage => stageOf_step hstep) (fun j => ?_)
    (fun j hj => by rw [hperformed]; exact List.mem_append_left _ hj) (fun j hj hmem => ?_)
    hout.evidence_prefix (cardsOf_other hout hne)
  · rcases hsessions with hsame | hborn
    · rw [hsame]
    · rw [hborn, Function.update_apply]
      split
      · rename_i hlast
        refine ⟨fun h => absurd (Option.some.inj h) hne, fun h => ?_⟩
        exact absurd hlast (Nat.ne_of_lt (job_lt hinv h))
      · rfl
  · rw [hperformed] at hmem
    rcases List.mem_append.mp hmem with hold | hlast
    · exact hold
    · obtain rfl := List.mem_singleton.mp hlast
      exact absurd (Option.some.inj (hk.symm.trans hj)) hne

theorem filed_operated (hfiled : ∀ row ∈ db.evidence, row.sessionId < db.sessions.length)
    (hout : Operated db s stage world db' rows out) :
    ∀ row ∈ db'.evidence, row.sessionId < db'.sessions.length := by
  intro row hrow
  rw [hout.evidence] at hrow
  rw [hout.length]
  rcases List.mem_append.mp hrow with hold | hnew
  · exact hfiled row hold
  · obtain ⟨card, -, rfl⟩ := List.mem_map.mp hnew
    exact Table.lt_length_of_getElem? hout.found

theorem passes_marked {seen : AnalysisSession} {error : String} (hpasses : Passes sys)
    {l : Label} (hstep : Step settings sys.runtime l sys'.runtime)
    (hstore : sys'.store = sys.store.writeFailure s seen error)
    (hsessions : sys'.sessionOf = sys.sessionOf) (hperformed : sys'.performed = sys.performed) :
    Passes sys' := by
  have hevidence : sys'.store.evidence = sys.store.evidence := by rw [hstore]; rfl
  refine ⟨fun t new ht => ?_, fun row hrow => ?_⟩
  · by_cases hne : s = t
    · subst hne
      rw [hstore] at ht
      obtain ⟨old, hold, hcontent, hbudget, hcycle, hstatus⟩ := writeFailure_self ht
      exact ((hpasses.sessions s old hold).marked hcontent hbudget hcycle
        (hstatus.imp_right And.right)).still hstep hsessions hperformed hevidence
    · rw [hstore, writeFailure_other hne] at ht
      exact (hpasses.sessions t new ht).still hstep hsessions hperformed hevidence
  · rw [hstore, writeFailure_length]
    rw [hevidence] at hrow
    exact hpasses.evidence row hrow

theorem passes_over {l : Label} (hinv : Coherent IsAnalysis sys.relay) (hpasses : Passes sys)
    (hstep : Step settings sys.runtime l sys'.runtime)
    (hexec : sys.executing? w = some (k, stage)) (hk : sys.sessionOf k = some s)
    (hfresh : k ∉ sys.performed) (hout : Operated sys.store s stage world sys'.store rows out)
    (hend : out.error ≠ none ∨ stage.done.due = none)
    (hsessions : sys'.sessionOf = sys.sessionOf)
    (hperformed : sys'.performed = sys.performed ++ [k]) : Passes sys' := by
  refine ⟨fun t new ht => ?_, filed_operated hpasses.evidence hout⟩
  by_cases hne : s = t
  · subst hne
    obtain rfl := Option.some.inj (hout.self.symm.trans ht)
    obtain ⟨hadvances, hnone, hothers⟩ := advances_of_fresh hpasses hexec hk hfresh hout
    refine .finished ?_ ?_
    · rw [hsessions, hperformed]
      exact performed_all hothers
    · unfold Over
      rw [cardsOf_self hout, hnone, List.nil_append]
      by_cases herror : out.error = none
      · have hdone := hend.resolve_left (not_not_intro herror)
        obtain ⟨-, hran, candidates, hcards⟩ := hadvances.finished herror hdone
        have hfirst : sys.store.evidence.length ≤ firstCard sys'.store s := by
          rw [← firstCard_none hnone]
          exact firstCard_mono hout.evidence_prefix
        refine .inr ⟨hran, min world.visible sys.store.evidence.length, candidates,
          (Nat.min_le_right ..).trans hfirst, ?_⟩
        rw [cardsOf_self hout, hnone, List.nil_append, hcards,
          existing_mono hout.evidence_prefix _ (Nat.min_le_right ..), existing_min,
          hadvances.cycle]
      · exact .inl (hadvances.ended herror)
  · rw [hout.other hne] at ht
    exact (hpasses.sessions t new ht).beside hinv hne hstep hk (.inl hsessions) hperformed hout

theorem passes_passed {l : Label} (hinv : Coherent IsAnalysis sys.relay) (hpasses : Passes sys)
    (hstep : Step settings sys.runtime l sys'.runtime)
    (hexec : sys.executing? w = some (k, stage)) (hk : sys.sessionOf k = some s)
    (hfresh : k ∉ sys.performed) (hout : Operated sys.store s stage world sys'.store rows out)
    (herror : out.error = none) (hnext : stage.done.due = some next)
    (hborn : sys'.stageOf sys.runtime.db.jobs.length = some next)
    (hsessions : sys'.sessionOf =
      Function.update sys.sessionOf sys.runtime.db.jobs.length (some s))
    (hperformed : sys'.performed = sys.performed ++ [k]) : Passes sys' := by
  refine ⟨fun t new ht => ?_, filed_operated hpasses.evidence hout⟩
  by_cases hne : s = t
  · subst hne
    obtain rfl := Option.some.inj (hout.self.symm.trans ht)
    obtain ⟨hadvances, hnone, hothers⟩ := advances_of_fresh hpasses hexec hk hfresh hout
    obtain ⟨-, hready, hcards⟩ := hadvances.moved herror next hnext
    refine .ready sys.runtime.db.jobs.length next ?_ hborn ?_ ?_ hready ?_
    · rw [hsessions, Function.update_self]
    · rw [hperformed]
      intro hmem
      rcases List.mem_append.mp hmem with hold | hlast
      · exact absurd (hinv.performed _ hold) (lt_irrefl _)
      · obtain ⟨-, hstage⟩ := executing?_eq_some.mp hexec
        exact absurd (List.mem_singleton.mp hlast).symm (Nat.ne_of_lt (stageOf_lt hstage))
    · intro m hm hlast
      rw [hsessions, Function.update_of_ne hlast] at hm
      rw [hperformed]
      exact performed_all hothers m hm
    · rw [cardsOf_self hout, hnone, hcards, List.nil_append]
  · rw [hout.other hne] at ht
    exact (hpasses.sessions t new ht).beside hinv hne hstep hk (.inr hsessions) hperformed hout

theorem ready_created {analysis : AnalysisSession} (h : analysis.status = .created) :
    Ready { analysis } .ingest :=
  ⟨.inl (by rw [h]; rfl),
    ⟨⟨"", "", {}, 0⟩, ⟨id, id⟩, ⟨[], .nil⟩, id, .asStored, [], .asStored, {}⟩, rfl⟩

theorem passes_started {l : Label} {analysis : AnalysisSession} (hinv : Coherent IsAnalysis sys.relay)
    (hpasses : Passes sys) (hcreated : analysis.status = .created)
    (hstep : Step settings sys.runtime l sys'.runtime)
    (hborn : sys'.stageOf sys.runtime.db.jobs.length = some .ingest)
    (hstore : sys'.store = sys.store.create analysis)
    (hsessions : sys'.sessionOf = Function.update sys.sessionOf sys.runtime.db.jobs.length
      (some sys.store.sessions.length))
    (hperformed : sys'.performed = sys.performed) : Passes sys' := by
  have hevidence : sys'.store.evidence = sys.store.evidence := by rw [hstore]; rfl
  refine ⟨fun t rows ht => ?_, fun row hrow => ?_⟩
  · rw [hstore] at ht
    rcases Table.getElem?_append_singleton ht with hold | ⟨rfl, rfl⟩
    · refine (hpasses.sessions t rows hold).keep (fun j stage => stageOf_step hstep) (fun j => ?_)
        (fun j hj => by rwa [hperformed]) (fun j _ hj => by rwa [hperformed] at hj)
        (by rw [hevidence]) (by unfold AnalysisDb.cardsOf; rw [hevidence])
      rw [hsessions, Function.update_apply]
      split
      · rename_i hlast
        refine ⟨fun h => ?_, fun h => ?_⟩
        · exact absurd (Option.some.inj h) (Nat.ne_of_gt (Table.lt_length_of_getElem? hold))
        · exact absurd hlast (Nat.ne_of_lt (job_lt hinv h))
      · rfl
    · refine .ready sys.runtime.db.jobs.length .ingest ?_ hborn ?_ ?_ (ready_created hcreated) ?_
      · rw [hsessions, Function.update_self]
      · rw [hperformed]
        exact fun hmem => absurd (hinv.performed _ hmem) (lt_irrefl _)
      · intro m hm hlast
        rw [hsessions, Function.update_of_ne hlast] at hm
        exact absurd (session_lt hinv hm) (lt_irrefl _)
      · rw [hstore]
        exact cardsOf_new hpasses.evidence
  · rw [hevidence] at hrow
    rw [hstore]
    simp only [AnalysisDb.create, List.length_append, List.length_singleton]
    exact Nat.lt_succ_of_lt (hpasses.evidence row hrow)

theorem passes_step (hinv : Coherent IsAnalysis sys.relay) (hpasses : Passes sys)
    (honce : PerformsOnce sys act) (h : Moves settings sys act sys') : Passes sys' := by
  have still {rt : Runtime} {l : Label} (hstep : Step settings sys.runtime l rt)
      (hruntime : sys'.runtime = rt) (hstore : sys'.store = sys.store)
      (hsessions : sys'.sessionOf = sys.sessionOf)
      (hperformed : sys'.performed = sys.performed) : Passes sys' := by
    subst hruntime
    refine ⟨fun t rows ht => ?_, fun row hrow => ?_⟩
    · rw [hstore] at ht
      exact (hpasses.sessions t rows ht).still hstep hsessions hperformed (by rw [hstore])
    · rw [hstore] at hrow ⊢
      exact hpasses.evidence row hrow
  cases h with
  | quiet l rt hstep => exact still hstep rfl rfl rfl rfl
  | read w rt hstep => exact still hstep rfl rfl rfl rfl
  | raised w world k stage e rt errors hexec hstep => exact still hstep rfl rfl rfl rfl
  | refused q body => exact still (.drop q) rfl rfl rfl rfl
  | mark w k result seen cycleSeen runSeen s row rt hstep =>
    exact passes_marked hpasses hstep rfl rfl rfl
  | failed w world k stage s e rt store errors hexec hk hout hstep =>
    obtain ⟨rows, out, hoperated, herror⟩ := operate_cases hout
    exact passes_over hinv hpasses hstep hexec hk (honce w world k stage rfl hexec) hoperated
      (.inl (by rw [herror]; exact Option.some_ne_none e)) rfl rfl
  | finished w world k stage s rt store hexec hk hend hout hstep =>
    obtain ⟨rows, out, hoperated, herror⟩ := operate_cases hout
    exact passes_over hinv hpasses hstep hexec hk (honce w world k stage rfl hexec) hoperated
      (.inr hend) rfl rfl
  | passed w world k stage next s rt store job hexec hk hnext hout hstep hjob hreturned =>
    obtain ⟨rows, out, hoperated, herror⟩ := operate_cases hout
    refine passes_passed hinv hpasses hstep hexec hk (honce w world k stage rfl hexec) hoperated
      herror hnext ?_ rfl rfl
    exact stageOf_eq_some.mpr
      ⟨job, by rw [hreturned.jobs, List.getElem?_concat_length], hjob.1⟩
  | started q body c seen rt job hpc hstep hjobs hjob =>
    refine passes_started hinv hpasses rfl hstep ?_ rfl rfl rfl
    exact stageOf_eq_some.mpr ⟨job, by rw [hjobs, List.getElem?_concat_length], hjob.1⟩

theorem passes_initial (h : start.Initial) : Passes start where
  sessions s rows hs := by
    rw [h.store] at hs
    exact absurd hs nofun
  evidence row hrow := by
    rw [h.store] at hrow
    exact absurd hrow nofun

theorem passes_run (h₀ : start.Initial)
    (h : Reaches PerformsOnce (System.step settings) start sys) : Passes sys :=
  (h.invariant (fun sys => Coherent IsAnalysis sys.relay ∧ Passes sys)
    (fun _ _ _ hinv honce hstep =>
      have hmoves := moves_of_step hstep
      ⟨coherent_step hinv.1 (relays_of_moves hmoves), passes_step hinv.1 hinv.2 honce hmoves⟩)
    ⟨coherent_initial (relay_initial h₀), passes_initial h₀⟩).2

/-- The rows of a session are computed in one pass from what its operators took from outside: all
that the status says is there and nothing else, or what was there when the session failed. -/
structure OnePass (store : AnalysisDb) (s : SessionId) (rows : SessionRows) (inputs : Inputs) :
    Prop where
  content : rows.analysis.status ≠ .failed →
    rows.content = inputs.content rows.analysis.budget.maxChunks rows.analysis.status.due
  stops : rows.analysis.status = .failed →
    inputs.Stops rows.analysis.budget.maxChunks rows.content
  compared : rows.analysis.status = .completed → Compared store s rows.analysis.cycleId
  unfiled : rows.analysis.status.due ≠ none → store.cardsOf s = []

theorem Pass.onePass (h : Pass sys s rows) : ∃ inputs, OnePass sys.store s rows inputs := by
  cases h with
  | ready j stage hsession hstage hfresh hothers hrows hcards =>
    obtain ⟨hdue, inputs, hcontent⟩ := hrows
    refine ⟨inputs, fun hnot => ?_, fun _ => .inl ⟨some stage, hcontent⟩, fun hcompleted => ?_,
      fun _ => hcards⟩
    · rw [hdue.resolve_right hnot, hcontent]
    · rw [hcompleted] at hdue
      exact absurd hdue nofun
  | finished hdone hover =>
    rcases hover with ⟨⟨hfailed, inputs, hstops⟩, hcards⟩ | ⟨⟨hstatus, inputs, hcontent⟩, hcompared⟩
    · refine ⟨inputs, fun hnot => absurd hfailed hnot, fun _ => hstops, fun hcompleted => ?_,
        fun _ => hcards⟩
      exact absurd (hfailed.symm.trans hcompleted) nofun
    · refine ⟨inputs, fun hnot => ?_, fun _ => .inl ⟨none, hcontent⟩, fun _ => hcompared,
        fun hdue => ?_⟩
      · rw [hstatus.resolve_right hnot, hcontent]
        rfl
      · rcases hstatus with hcompleted | hfailed
        · exact absurd (by rw [hcompleted]; rfl) hdue
        · exact absurd (by rw [hfailed]; rfl) hdue

/-- While no operator runs again for a job it has committed for, every session holds one pass over
its paper, at every point of every run. -/
theorem sessions_hold_one_pass {settings : Settings} {start sys : System} {s : SessionId}
    {rows : SessionRows} (h₀ : start.Initial)
    (h : Reaches PerformsOnce (System.step settings) start sys)
    (hs : sys.store.sessions[s]? = some rows) :
    ∃ inputs, OnePass sys.store s rows inputs :=
  ((passes_run h₀ h).sessions s rows hs).onePass

/-! ### A session that runs through -/

def performsOnce (sys : System) : Act → Bool
  | .operate w _ => (sys.executing? w).all fun entry => !sys.performed.contains entry.1
  | _ => true

theorem performsOnce_of_test (sys : System) (act : Act) (h : performsOnce sys act = true) :
    PerformsOnce sys act := by
  rintro w world j stage rfl hexec
  simpa [performsOnce, hexec] using h

/-- A worker takes the next job, executes it and records the outcome. -/
def workOn (world : AnalysisWorld) : List Act :=
  [.runtime (.claim 0 []), .runtime (.start 0), .operate 0 world, .runtime (.readOutcome 0),
    .runtime (.readTarget 0), .runtime (.writeOutcome 0)]

def analyzePaper : List Act :=
  [.runtime (.receive 0 (.startAnalysis 0)), .start 0 ⟨0, 0, some "shortlisted", .usual⟩] ++
    (List.replicate 6 (workOn { html := .ok shortPaper, claims := .ok [{ id := 0 }] })).flatten

theorem sessions_hold_one_pass_completed : ∃ (start sys : System) (rows : SessionRows),
    start.Initial ∧ Reaches PerformsOnce (System.step {}) start sys ∧
      sys.store.sessions[0]? = some rows ∧ rows.analysis.status = .completed ∧
      ∃ inputs, OnePass sys.store 0 rows inputs := by
  have hperform : (perform performsOnce (System.step {}) screenedCycle analyzePaper).any
      (statusIs .completed) = true := by decide +kernel
  obtain ⟨sys, hrun, -, htest⟩ := Reaches.of_perform_any (fun _ => True)
    (fun sys act _ => performsOnce_of_test sys act) (fun _ _ _ _ _ _ => trivial) trivial hperform
  obtain ⟨rows, hrows, hstatus⟩ := (Option.any_eq_true _ _).mp htest
  exact ⟨screenedCycle, sys, rows, screenedCycle_initial, hrun, hrows, beq_iff_eq.mp hstatus,
    sessions_hold_one_pass screenedCycle_initial hrun hrows⟩

end Synthetos.Analysis
