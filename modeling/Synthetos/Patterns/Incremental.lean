import Synthetos.Lib.Distinct
import Synthetos.Patterns.Rerun
import Synthetos.Patterns.Scopes
import Mathlib.Data.List.Dedup

/-!
# Runs over one charter after another

For each key the row after a sequence of runs is a fold over what the runs mined of the key.  The
fold takes the maximum of the evidence counts, keeps the first observation of the first run and
overwrites the number of charters with that of the last, so it agrees with one global run only
under a condition on the first and the last run that mined the key.  A run commits unless it raises:
where it is scoped by an attribute that is not there, or mines again what has times without a zone.
-/

namespace Synthetos.Patterns

open Lib

variable {host : Host} {artifacts : Artifacts} {store : Store} {agg : AggregatedPattern}
  {now : Timestamp} {row : CanonicalPattern} {key : Key} {items whole : List PatternCandidate}

def mergeRow (now : Timestamp) (row? : Option CanonicalPattern) (agg : AggregatedPattern) :
    CanonicalPattern :=
  match row? with
  | none => agg.create now
  | some row => agg.reinforce now row

theorem find?_modify {rows : List CanonicalPattern} {f : CanonicalPattern → CanonicalPattern}
    (same : ∀ row, (f row).key = row.key) {k : Nat} (first : rows.findIdx? (·.key == key) = some k)
    (other : Key) :
    (rows.modify k f).find? (·.key == other) =
      if other = key then (rows.find? (·.key == other)).map f else rows.find? (·.key == other) := by
  induction rows generalizing k with
  | nil => simp at first
  | cons row rest ih =>
    rw [List.findIdx?_cons] at first
    split at first
    · rename_i here
      obtain rfl := Option.some.inj first
      have here : row.key = key := by simpa using here
      split
      · rename_i it
        simp [same, here, it]
      · rename_i apart
        have away : ¬row.key = other := fun h => apart (h.symm.trans here)
        simp [same, away]
    · rename_i away
      have away : row.key ≠ key := by simpa using away
      obtain ⟨j, found, rfl⟩ := Option.map_eq_some_iff.mp first
      rw [List.modify_succ_cons, List.find?_cons, List.find?_cons, ih found]
      cases it : row.key == other with
      | true =>
        have apart : other ≠ key := (beq_iff_eq.mp it) ▸ away
        simp [apart]
      | false => rfl

theorem pattern?_upsert (store : Store) (agg : AggregatedPattern) (now : Timestamp) (key : Key) :
    (upsert now store agg).pattern? key =
      if key = agg.key then some (mergeRow now (store.pattern? key) agg) else store.pattern? key := by
  obtain ⟨fresh, wrote⟩ | ⟨k, row, position, inside, same, wrote⟩ :=
    upsertPattern_cases store agg now
  · have absent : store.pattern? agg.key = none :=
      List.find?_eq_none.mpr (by simpa using List.findIdx?_eq_none_iff.mp fresh)
    have key_ : (agg.create now).key = agg.key := rfl
    rw [upsert, wrote]
    simp only [Store.pattern?, upsertObservations, List.find?_append] at absent ⊢
    split
    · rename_i it
      rw [it, absent]
      simp [mergeRow, key_]
    · rename_i apart
      have away : ¬agg.key = key := fun h => apart h.symm
      simp [key_, away]
  · rw [upsert, wrote]
    simp only [Store.pattern?, upsertObservations]
    rw [find?_modify (f := agg.reinforce now) (fun _ => rfl) position key]
    split
    · rename_i it
      have here : (row.key == key) = true := by rw [same, it]; exact beq_self_eq_true _
      have stored : (store.patterns.find? (·.key == key)).isSome :=
        List.find?_isSome.mpr ⟨row, List.mem_of_getElem? inside, here⟩
      obtain ⟨old, found⟩ := Option.isSome_iff_exists.mp stored
      rw [found]
      rfl
    · rfl

def charterCount (items : List PatternCandidate) : Nat :=
  (items.map PatternCandidate.charterId).eraseDups.length

def times (items : List PatternCandidate) : Set Timestamp :=
  {t | ∃ c ∈ items, c.observedAt = t}

/-- What the group of a key holds of its candidates. -/
structure Summarizes (agg : AggregatedPattern) (key : Key) (items : List PatternCandidate) :
    Prop where
  key : agg.key = key
  evidence : agg.evidenceCount = items.length
  charters : agg.charterIds = (items.map PatternCandidate.charterId).eraseDups
  count : agg.structuredBody.get? "charter_count" = some (.int (charterCount items))
  first : IsLeast (times items) agg.firstObservedAt
  last : IsGreatest (times items) agg.lastObservedAt

theorem summarize_nil : summarize key [] = none := rfl

theorem sorted_observations (items : List PatternCandidate) :
    (items.insertionSort fun a b => a.observedAt ≤ b.observedAt).Pairwise
      fun a b => a.observedAt ≤ b.observedAt := by
  have total : Std.Total fun a b : PatternCandidate => a.observedAt ≤ b.observedAt :=
    ⟨fun _ _ => Nat.le_total ..⟩
  have trans : IsTrans PatternCandidate fun a b => a.observedAt ≤ b.observedAt :=
    ⟨fun _ _ _ => Nat.le_trans⟩
  exact List.pairwise_insertionSort _ items

theorem summarize_some (key : Key) (nonempty : items ≠ []) :
    ∃ agg, summarize key items = some agg ∧ Summarizes agg key items := by
  have same := List.perm_insertionSort
    (fun a b : PatternCandidate => a.observedAt ≤ b.observedAt) items
  have ordered := sorted_observations items
  rw [summarize]
  cases sorted : items.insertionSort fun a b => a.observedAt ≤ b.observedAt with
  | nil =>
    rw [sorted] at same
    exact absurd same.symm.eq_nil nonempty
  | cons first rest =>
    rw [sorted] at same ordered
    obtain ⟨last, isLast⟩ := Option.isSome_iff_exists.mp
      (List.getLast?_isSome.mpr (List.cons_ne_nil first rest))
    simp only [List.head?_cons, isLast]
    have lastIn : last ∈ items := same.mem_iff.mp (List.mem_of_getLast? isLast)
    have firstIn : first ∈ items := same.mem_iff.mp List.mem_cons_self
    refine ⟨_, rfl, rfl, rfl, rfl, Dict.get?_set, ⟨⟨first, firstIn, rfl⟩, ?_⟩, ⟨last, lastIn, rfl⟩, ?_⟩
    · rintro _ ⟨c, inside, rfl⟩
      rcases List.mem_cons.mp (same.mem_iff.mpr inside) with rfl | later
      · exact Nat.le_refl _
      · exact (List.pairwise_cons.mp ordered).1 c later
    · rintro _ ⟨c, inside, rfl⟩
      obtain ⟨front, whole⟩ := List.getLast?_eq_some_iff.mp isLast
      rw [whole, List.pairwise_append] at ordered
      have there := same.mem_iff.mpr inside
      rw [whole] at there
      rcases List.mem_append.mp there with earlier | it
      · exact ordered.2.2 c earlier last (List.mem_singleton_self _)
      · rw [List.mem_singleton.mp it]

theorem pattern?_keys {candidates : List PatternCandidate} {keys : List Key} (distinct : keys.Nodup)
    (store : Store) (now : Timestamp) (key : Key) :
    ((keys.filterMap fun k => summarize k (evidence candidates k)).foldl (upsert now) store).pattern?
        key =
      if key ∈ keys then
        match summarize key (evidence candidates key) with
        | none => store.pattern? key
        | some agg => some (mergeRow now (store.pattern? key) agg)
      else store.pattern? key := by
  induction keys generalizing store with
  | nil => rfl
  | cons first rest ih =>
    obtain ⟨fresh, distinct⟩ := List.nodup_cons.mp distinct
    by_cases empty : evidence candidates first = []
    · rw [List.filterMap_cons_none (by rw [empty]; rfl), ih distinct]
      by_cases it : key = first
      · simp [it, fresh, empty, summarize_nil]
      · simp [it]
    · obtain ⟨agg, found, summary⟩ := summarize_some first empty
      rw [List.filterMap_cons]
      simp only [found]
      rw [List.foldl_cons, ih distinct, pattern?_upsert, summary.key]
      by_cases it : key = first
      · simp [it, fresh, found]
      · simp [it]

theorem pattern?_aggregate (candidates : List PatternCandidate) (store : Store) (now : Timestamp)
    (key : Key) :
    ((aggregate candidates).foldl (upsert now) store).pattern? key =
      match summarize key (evidence candidates key) with
      | none => store.pattern? key
      | some agg => some (mergeRow now (store.pattern? key) agg) := by
  rw [aggregate, pattern?_keys (Distinct.nodup_eraseDups _)]
  split
  · rfl
  · rename_i absent
    have empty : evidence candidates key = [] := by
      refine List.filter_eq_nil_iff.mpr fun c inside same => absent ?_
      rw [← beq_iff_eq.mp same]
      exact List.mem_eraseDups.mpr (List.mem_map_of_mem inside)
    rw [empty, summarize_nil]

/-- A run over all pattern types, scoped to one charter or global. -/
structure MiningRun where
  charterId : Option Id
  cycleId : Option Id
  now : Timestamp

namespace MiningRun

def request (run : MiningRun) : Request where
  charterId := run.charterId
  cycleId := run.cycleId
  now := run.now

/-- What a run mines of a key; a scoped run raises unless the mapped class has the attribute it is
filtered by. -/
def mined (host : Host) (artifacts : Artifacts) (key : Key) (run : MiningRun) :
    List PatternCandidate :=
  if run.charterId.isNone || host.charterHasCharterId then
    inScope run.charterId (evidence (allCandidates host artifacts) key)
  else []

end MiningRun

namespace MiningRun

/-- The run mines a key whose times have no zone, and so does one of the runs before. -/
def clashes (host : Host) (artifacts : Artifacts) (before : List MiningRun) (run : MiningRun) :
    Bool :=
  (inScope run.charterId (allCandidates host artifacts)).any fun c =>
    !host.zoned c.patternType &&
      before.any fun earlier => !(earlier.mined host artifacts c.key).isEmpty

def commits (host : Host) (artifacts : Artifacts) (before : List MiningRun) (run : MiningRun) :
    Bool :=
  (run.charterId.isNone || host.charterHasCharterId) && !run.clashes host artifacts before

end MiningRun

/-- The runs that commit, each judged by those before it. -/
def committed (host : Host) (artifacts : Artifacts) (runs : List MiningRun) : List MiningRun :=
  runs.foldl (fun before run => if run.commits host artifacts before then before ++ [run] else before)
    []

theorem committed_snoc {runs : List MiningRun} {run : MiningRun} :
    committed host artifacts (runs ++ [run]) =
      if run.commits host artifacts (committed host artifacts runs) then
        committed host artifacts runs ++ [run]
      else committed host artifacts runs := by
  rw [committed, List.foldl_append]
  rfl

/-- One run after the other; what a run that raises has not committed is lost. -/
def runAll (host : Host) (artifacts : Artifacts) (runs : List MiningRun) (store : Store) : Store :=
  runs.foldl (fun store run => (consolidate host artifacts run.request store).getD store) store

theorem runAll_snoc {runs : List MiningRun} {run : MiningRun} :
    runAll host artifacts (runs ++ [run]) store =
      (consolidate host artifacts run.request (runAll host artifacts runs store)).getD
        (runAll host artifacts runs store) := by
  rw [runAll, List.foldl_append]
  rfl

theorem evidence_inScope {scope : Option Id} {candidates : List PatternCandidate} :
    evidence (inScope scope candidates) key = inScope scope (evidence candidates key) := by
  cases scope with
  | none => rfl
  | some charter => exact List.filter_comm _ _ _

theorem candidates_request (run : MiningRun) :
    run.request.candidates host artifacts defaultTypes =
      inScope run.charterId (allCandidates host artifacts) := by
  have each : candidatesOf host artifacts run.charterId run.cycleId =
      fun type => inScope run.charterId (candidatesOf host artifacts none none type) :=
    funext candidatesOf_scope
  rw [Request.candidates, allCandidates]
  dsimp only [MiningRun.request]
  rw [each]
  cases run.charterId with
  | none => rfl
  | some charter => simp only [inScope, filterCharter, List.filter_flatMap]

theorem groups_request (run : MiningRun) : groups host artifacts run.request =
    aggregate (inScope run.charterId (allCandidates host artifacts)) := by
  rw [groups, ← candidates_request]
  rfl

theorem mem_keys_aggregate {candidates : List PatternCandidate} :
    (∃ agg ∈ aggregate candidates, agg.key = key) ↔ ∃ c ∈ candidates, c.key = key := by
  constructor
  · rintro ⟨agg, inside, rfl⟩
    obtain ⟨key, there, found⟩ := List.mem_filterMap.mp inside
    rw [summarize_key found]
    exact List.mem_map.mp (List.mem_eraseDups.mp there)
  · rintro ⟨c, inside, rfl⟩
    have some_ : evidence candidates c.key ≠ [] :=
      List.ne_nil_of_mem (List.mem_filter.mpr ⟨inside, beq_self_eq_true c.key⟩)
    obtain ⟨agg, found, summary⟩ := summarize_some c.key some_
    exact ⟨agg, List.mem_filterMap.mpr
      ⟨c.key, List.mem_eraseDups.mpr (List.mem_map_of_mem inside), found⟩, summary.key⟩

/-- Over the rows of some runs, a run raises where it clashes with them. -/
theorem raises_iff_clashes {before : List MiningRun}
    (rows : ∀ key, (store.pattern? key).isSome = true ↔
      ∃ earlier ∈ before, earlier.mined host artifacts key ≠ []) (run : MiningRun) :
    (groups host artifacts run.request).any (AggregatedPattern.raises host store) =
      run.clashes host artifacts before := by
  have position (key : Key) : (store.position? key).isSome = (store.pattern? key).isSome := by
    rw [Bool.eq_iff_iff, Store.position?, List.findIdx?_isSome, Store.pattern?, List.find?_isSome,
      List.any_eq_true]
  have raises (agg : AggregatedPattern) : agg.raises host store = true ↔
      host.zoned agg.key.1 = false ∧
        ∃ earlier ∈ before, earlier.mined host artifacts agg.key ≠ [] := by
    rw [AggregatedPattern.raises, Bool.and_eq_true, Bool.not_eq_true', position, rows]
    rfl
  rw [groups_request, Bool.eq_iff_iff, MiningRun.clashes, List.any_eq_true, List.any_eq_true]
  have clash (c : PatternCandidate) : (!host.zoned c.patternType &&
      before.any fun earlier => !(earlier.mined host artifacts c.key).isEmpty) = true ↔
        host.zoned c.key.1 = false ∧
          ∃ earlier ∈ before, earlier.mined host artifacts c.key ≠ [] := by
    simp [PatternCandidate.key, List.any_eq_true]
  simp only [raises, clash]
  constructor
  · rintro ⟨agg, inside, there⟩
    obtain ⟨c, mine, same⟩ := mem_keys_aggregate.mp ⟨agg, inside, rfl⟩
    exact ⟨c, mine, by rwa [same]⟩
  · rintro ⟨c, mine, there⟩
    obtain ⟨agg, inside, same⟩ := mem_keys_aggregate.mpr ⟨c, mine, rfl⟩
    exact ⟨agg, inside, by rwa [same]⟩

theorem consolidate_run {before : List MiningRun}
    (rows : ∀ key, (store.pattern? key).isSome = true ↔
      ∃ earlier ∈ before, earlier.mined host artifacts key ≠ []) (run : MiningRun) :
    consolidate host artifacts run.request store =
      if run.commits host artifacts before then
        some ((groups host artifacts run.request).foldl (upsert run.now) store)
      else none := by
  have raises := raises_iff_clashes rows run
  split
  · rename_i commits
    obtain ⟨allowed, free⟩ := Bool.and_eq_true_iff.mp commits
    exact consolidate_eq_some.mpr ⟨rfl, allowed, raises.trans (by simpa using free), rfl⟩
  · rename_i stops
    refine Option.eq_none_iff_forall_ne_some.mpr fun after ran => stops ?_
    obtain ⟨-, allowed, quiet, -⟩ := consolidate_eq_some.mp ran
    exact Bool.and_eq_true_iff.mpr ⟨allowed, by rw [← raises, quiet]; rfl⟩

theorem pattern?_run {before : List MiningRun} {run : MiningRun}
    (commits : run.commits host artifacts before = true) (store : Store) (key : Key) :
    ((groups host artifacts run.request).foldl (upsert run.now) store).pattern? key =
      match summarize key (run.mined host artifacts key) with
      | none => store.pattern? key
      | some agg => some (mergeRow run.now (store.pattern? key) agg) := by
  have allowed := (Bool.and_eq_true_iff.mp commits).1
  rw [groups_request, pattern?_aggregate, evidence_inScope, MiningRun.mined, if_pos allowed]

/-- `compute_confidence` on a number of artifacts and whether they come from several charters. -/
def confidence (n : Nat) (cross : Bool) : Rat :=
  let base := min (35 / 100 + 10 / 100 * ((n : Rat) - 1)) (80 / 100)
  round3 (if cross then min (base + 10 / 100) (95 / 100) else base)

def confidenceOf (items : List PatternCandidate) : Rat :=
  confidence items.length (1 < charterCount items)

theorem Summarizes.confidence (h : Summarizes agg key items) :
    computeConfidence agg = confidenceOf items := by
  rw [computeConfidence, confidenceOf, Patterns.confidence, AggregatedPattern.crossCharter,
    h.evidence, h.charters]
  rfl

theorem round3_mono {x y : Rat} (h : x ≤ y) : round3 x ≤ round3 y := by
  rw [round3, round3]
  gcongr

theorem confidence_mono {n m : Nat} {cross cross' : Bool} (more : n ≤ m)
    (wider : cross = true → cross' = true) : confidence n cross ≤ confidence m cross' := by
  have count : (n : Rat) ≤ m := by exact_mod_cast more
  have base : min (35 / 100 + 10 / 100 * ((n : Rat) - 1)) (80 / 100) ≤
      min (35 / 100 + 10 / 100 * ((m : Rat) - 1)) (80 / 100) := by
    gcongr
  apply round3_mono
  cases cross with
  | true =>
    simp only [wider rfl, if_true]
    gcongr
  | false =>
    cases cross' with
    | false => simpa using base
    | true =>
      have capped : min (35 / 100 + 10 / 100 * ((n : Rat) - 1)) (80 / 100) ≤ 80 / 100 :=
        min_le_right ..
      simp only [Bool.false_eq_true, if_false, if_true]
      apply le_min
      · linarith
      · linarith

/-- The row of a key after the runs `T` have mined it. -/
structure Gathered (mined : MiningRun → List PatternCandidate) (T : List MiningRun)
    (row : CanonicalPattern) : Prop where
  evidence : IsGreatest {n | ∃ run ∈ T, n = (mined run).length} row.evidenceCount
  charters : ∀ charter, charter ∈ row.sourceCharterIds ↔
    ∃ run ∈ T, charter ∈ (mined run).map PatternCandidate.charterId
  count : ∀ run ∈ T.getLast?,
    row.structuredBody.get? "charter_count" = some (.int (charterCount (mined run)))
  first : ∀ run ∈ T.head?, IsLeast (times (mined run)) row.firstObservedAt
  last : IsGreatest {t | ∃ run ∈ T, t ∈ times (mined run)} row.lastObservedAt
  confidence : IsGreatest {x | ∃ run ∈ T, x = confidenceOf (mined run)} row.confidence

variable {mined : MiningRun → List PatternCandidate} {T : List MiningRun} {run : MiningRun}

theorem Summarizes.create (h : Summarizes agg key (mined run)) :
    Gathered mined [run] (agg.create now) where
  evidence := by
    simp [AggregatedPattern.create, h.evidence]
  charters charter := by
    simp [AggregatedPattern.create, h.charters]
  count only inside := by
    obtain rfl := Option.some.inj inside
    exact h.count
  first only inside := by
    obtain rfl := Option.some.inj inside
    exact h.first
  last := by
    simpa [AggregatedPattern.create] using h.last
  confidence := by
    simp [AggregatedPattern.create, h.confidence]

theorem isGreatest_snoc {α : Type} [LinearOrder α] (value : MiningRun → Set α) {x y : α}
    (old : IsGreatest {v | ∃ r ∈ T, v ∈ value r} x) (new : IsGreatest (value run) y) :
    IsGreatest {v | ∃ r ∈ T ++ [run], v ∈ value r} (max x y) := by
  constructor
  · rcases le_total x y with le | le
    · rw [max_eq_right le]
      exact ⟨run, List.mem_append_right _ (List.mem_singleton_self _), new.1⟩
    · rw [max_eq_left le]
      obtain ⟨r, inside, there⟩ := old.1
      exact ⟨r, List.mem_append_left _ inside, there⟩
  · rintro v ⟨r, inside, there⟩
    rcases List.mem_append.mp inside with before | it
    · exact le_max_of_le_left (old.2 ⟨r, before, there⟩)
    · obtain rfl := List.mem_singleton.mp it
      exact le_max_of_le_right (new.2 there)

theorem Gathered.reinforce (h : Gathered mined T row) (some_ : T ≠ [])
    (new : Summarizes agg key (mined run)) :
    Gathered mined (T ++ [run]) (agg.reinforce now row) where
  evidence := by
    have next := isGreatest_snoc (fun r => {(mined r).length}) h.evidence
      (isGreatest_singleton (a := (mined run).length))
    rw [← new.evidence] at next
    exact next
  charters charter := by
    simp only [AggregatedPattern.reinforce, List.mem_eraseDups, List.mem_append, h.charters,
      new.charters, List.mem_singleton]
    constructor
    · rintro (⟨r, inside, there⟩ | there)
      · exact ⟨r, .inl inside, there⟩
      · exact ⟨run, .inr rfl, there⟩
    · rintro ⟨r, inside | rfl, there⟩
      · exact .inl ⟨r, inside, there⟩
      · exact .inr there
  count only inside := by
    rw [List.getLast?_concat] at inside
    obtain rfl := Option.some.inj inside
    exact Dict.get?_update new.count
  first only inside := by
    rw [List.head?_append_of_ne_nil _ some_] at inside
    exact h.first only inside
  last := isGreatest_snoc (fun r => times (mined r)) h.last new.last
  confidence := by
    have next := isGreatest_snoc (fun r => {confidenceOf (mined r)}) h.confidence
      (isGreatest_singleton (a := confidenceOf (mined run)))
    have highest : (agg.reinforce now row).confidence =
        max row.confidence (confidenceOf (mined run)) := by
      simp only [AggregatedPattern.reinforce, new.confidence]
      split
      · rename_i low
        exact (max_eq_right (le_of_lt low)).symm
      · rename_i high
        exact (max_eq_left (not_lt.mp high)).symm
    rw [highest]
    exact next

/-- The runs that mine something of a key. -/
def mining (mined : MiningRun → List PatternCandidate) (runs : List MiningRun) : List MiningRun :=
  runs.filter fun run => !(mined run).isEmpty

theorem gathered_runs (host : Host) (artifacts : Artifacts) (runs : List MiningRun) : ∀ key,
    (mining (MiningRun.mined host artifacts key) (committed host artifacts runs) = [] ∧
        (runAll host artifacts runs {}).pattern? key = none) ∨
      mining (MiningRun.mined host artifacts key) (committed host artifacts runs) ≠ [] ∧
        ∃ row, (runAll host artifacts runs {}).pattern? key = some row ∧
          Gathered (MiningRun.mined host artifacts key)
            (mining (MiningRun.mined host artifacts key) (committed host artifacts runs)) row := by
  induction runs using List.reverseRecOn with
  | nil => exact fun _ => .inl ⟨rfl, rfl⟩
  | append_singleton runs run ih =>
    have rows (key : Key) : ((runAll host artifacts runs {}).pattern? key).isSome = true ↔
        ∃ earlier ∈ committed host artifacts runs, earlier.mined host artifacts key ≠ [] := by
      obtain ⟨none_, fresh⟩ | ⟨some_, row, there, -⟩ := ih key
      · have away := List.filter_eq_nil_iff.mp none_
        simpa [fresh] using away
      · obtain ⟨earlier, inside⟩ := List.exists_mem_of_ne_nil _ some_
        obtain ⟨done, mines⟩ := List.mem_filter.mp inside
        simp only [there, Option.isSome_some, true_iff]
        exact ⟨earlier, done, by simpa [List.isEmpty_iff] using mines⟩
    intro key
    rw [runAll_snoc, consolidate_run rows, committed_snoc]
    split
    · rename_i commits
      rw [Option.getD_some, pattern?_run commits, mining, List.filter_append, ← mining]
      by_cases empty : run.mined host artifacts key = []
      · simp only [empty, summarize_nil, List.filter_cons, List.isEmpty_nil, Bool.not_true,
          Bool.false_eq_true, if_false, List.filter_nil, List.append_nil]
        exact ih key
      · obtain ⟨agg, found, summary⟩ := summarize_some key empty
        right
        have kept : (!(run.mined host artifacts key).isEmpty) = true := by
          simpa [List.isEmpty_iff] using empty
        simp only [found, List.filter_cons, kept, if_true, List.filter_nil]
        refine ⟨by simp, _, rfl, ?_⟩
        obtain ⟨none_, fresh⟩ | ⟨some_, row, there, gathered⟩ := ih key
        · rw [none_, fresh]
          exact summary.create
        · rw [there]
          exact gathered.reinforce some_ summary
    · exact ih key

/-- The totals of a key over all of its candidates, one for each artifact. -/
structure Agrees (whole : List PatternCandidate) (row : CanonicalPattern) : Prop where
  evidence : row.evidenceCount = (whole.map PatternCandidate.artifact).dedup.length
  charters : ∀ charter, charter ∈ row.sourceCharterIds ↔
    charter ∈ whole.map PatternCandidate.charterId
  count : row.structuredBody.get? "charter_count" = some (.int (charterCount whole))
  first : IsLeast (times whole) row.firstObservedAt
  last : IsGreatest (times whole) row.lastObservedAt
  confidence : row.confidence = confidenceOf whole

/-- The row of a key is the one a single global run writes: none when there is no evidence. -/
def AgreesAt (store : Store) (whole : List PatternCandidate) (key : Key) : Prop :=
  match store.pattern? key with
  | none => whole = []
  | some row => whole ≠ [] ∧ Agrees whole row

def OneCharter (items : List PatternCandidate) : Prop :=
  ∀ c ∈ items, ∀ d ∈ items, c.charterId = d.charterId

theorem charterCount_le_one : charterCount items ≤ 1 ↔ OneCharter items := by
  have distinct := Distinct.nodup_eraseDups (items.map PatternCandidate.charterId)
  have members : ∀ charter, charter ∈ (items.map PatternCandidate.charterId).eraseDups ↔
      ∃ c ∈ items, c.charterId = charter := by simp
  rw [charterCount]
  constructor
  · intro few c left d right
    have c_ := (members c.charterId).mpr ⟨c, left, rfl⟩
    have d_ := (members d.charterId).mpr ⟨d, right, rfl⟩
    match all : (items.map PatternCandidate.charterId).eraseDups with
    | [] => simp [all] at c_
    | [only] =>
      rw [all] at c_ d_
      rw [List.mem_singleton.mp c_, List.mem_singleton.mp d_]
    | _ :: _ :: _ => simp [all] at few
  · intro same
    match all : (items.map PatternCandidate.charterId).eraseDups with
    | [] => simp
    | [_] => simp
    | a :: b :: rest =>
      rw [all] at distinct members
      obtain ⟨c, left, rfl⟩ := (members a).mp List.mem_cons_self
      obtain ⟨d, right, rfl⟩ := (members b).mp (List.mem_cons_of_mem _ List.mem_cons_self)
      exact absurd (same c left d right) (fun it => by simp [it] at distinct)

/-- Runs that mine parts of the evidence, the last of them all of it and the first an earliest
part, gather the totals. -/
theorem Gathered.agrees {last : MiningRun} (h : Gathered mined T row)
    (parts : ∀ run ∈ T, (mined run).Sublist whole) (isLast : T.getLast? = some last)
    (all : mined last = whole) (distinct : (whole.map PatternCandidate.artifact).Nodup)
    (earliest : ∀ run ∈ T.head?, ∃ c ∈ mined run, ∀ d ∈ whole, c.observedAt ≤ d.observedAt) :
    Agrees whole row where
  evidence := by
    rw [List.dedup_eq_self.mpr distinct, List.length_map]
    apply h.evidence.unique
    refine ⟨⟨last, List.mem_of_getLast? isLast, by rw [all]⟩, ?_⟩
    rintro _ ⟨run, inside, rfl⟩
    exact (parts run inside).length_le
  charters charter := by
    rw [h.charters]
    constructor
    · rintro ⟨run, inside, there⟩
      exact ((parts run inside).map _).subset there
    · intro there
      exact ⟨last, List.mem_of_getLast? isLast, by rwa [all]⟩
  count := by
    rw [h.count last isLast, all]
  first := by
    obtain ⟨run, first⟩ := Option.isSome_iff_exists.mp
      (List.isSome_head?.mpr (List.ne_nil_of_mem (List.mem_of_getLast? isLast)))
    obtain ⟨c, mine, early⟩ := earliest run first
    have least := h.first run first
    have inside : run ∈ T := List.mem_of_mem_head? first
    obtain ⟨d, there, same⟩ := least.1
    refine ⟨⟨d, (parts run inside).subset there, same⟩, ?_⟩
    rintro _ ⟨e, member, rfl⟩
    exact Nat.le_trans (least.2 ⟨c, mine, rfl⟩) (early e member)
  last := by
    constructor
    · obtain ⟨run, inside, c, there, same⟩ := h.last.1
      exact ⟨c, (parts run inside).subset there, same⟩
    · rintro t there
      exact h.last.2 ⟨last, List.mem_of_getLast? isLast, by rwa [all]⟩
  confidence := by
    apply h.confidence.unique
    refine ⟨⟨last, List.mem_of_getLast? isLast, by rw [all]⟩, ?_⟩
    rintro _ ⟨run, inside, rfl⟩
    refine confidence_mono (parts run inside).length_le fun cross => ?_
    simp only [decide_eq_true_eq] at cross ⊢
    by_contra few
    have one := charterCount_le_one.mp (Nat.le_of_not_lt few)
    have part : OneCharter (mined run) := fun c left d right =>
      one c ((parts run inside).subset left) d ((parts run inside).subset right)
    exact Nat.not_lt.mpr (charterCount_le_one.mpr part) cross

theorem mined_sublist (run : MiningRun) :
    (run.mined host artifacts key).Sublist (evidence (allCandidates host artifacts) key) := by
  rw [MiningRun.mined]
  split
  · cases run.charterId with
    | none => exact .refl _
    | some charter => exact List.filter_sublist
  · exact List.nil_sublist _

theorem mined_charter {run : MiningRun} {charter : Id} (scope : run.charterId = some charter) :
    ∀ c ∈ run.mined host artifacts key, c.charterId = charter := by
  intro c inside
  rw [MiningRun.mined, scope] at inside
  split at inside
  · simpa using (List.mem_filter.mp inside).2
  · exact absurd inside List.not_mem_nil

theorem mined_whole {run : MiningRun} (some_ : run.mined host artifacts key ≠ [])
    (all : run.charterId = none ∨ OneCharter (evidence (allCandidates host artifacts) key)) :
    run.mined host artifacts key = evidence (allCandidates host artifacts) key := by
  cases scope : run.charterId with
  | none => simp [MiningRun.mined, scope, inScope, filterCharter]
  | some charter =>
    have one := all.resolve_left (by rw [scope]; exact (fun h => by cases h))
    obtain ⟨c, mine⟩ := List.exists_mem_of_ne_nil _ some_
    have home := mined_charter scope c mine
    have there := (mined_sublist run).subset mine
    rw [MiningRun.mined, scope] at some_ ⊢
    split
    · refine List.filter_eq_self.mpr fun d inside => ?_
      rw [one d inside c there, home]
      exact beq_self_eq_true charter
    · rename_i refused
      rw [if_neg refused] at some_
      exact absurd rfl some_

/-- When a sequence of runs is as good as one global run, for a key: nothing is to be mined, or
some run mines it, and either its evidence lies in one charter or the last run that mines it is
global and the first has seen an earliest observation. -/
def InOrder (host : Host) (artifacts : Artifacts) (runs : List MiningRun) (key : Key) : Prop :=
  let whole := evidence (allCandidates host artifacts) key
  let mining := mining (MiningRun.mined host artifacts key) runs
  whole = [] ∨ ∃ first last, mining.head? = some first ∧ mining.getLast? = some last ∧
    (OneCharter whole ∨ last.charterId = none ∧
      ∃ c ∈ first.mined host artifacts key, ∀ d ∈ whole, c.observedAt ≤ d.observedAt)

theorem earliest_seen {items whole : List PatternCandidate} {t : Timestamp}
    (least : IsLeast (times items) t) (bound : t ∈ lowerBounds (times whole)) :
    ∃ c ∈ items, ∀ d ∈ whole, c.observedAt ≤ d.observedAt := by
  obtain ⟨c, mine, at_⟩ := least.1
  refine ⟨c, mine, fun d inside => ?_⟩
  rw [at_]
  exact bound ⟨d, inside, rfl⟩

theorem oneCharter_of_scoped {host : Host} {artifacts : Artifacts} {key : Key} {run : MiningRun}
    {charter : Id} {whole : List PatternCandidate} (scope : run.charterId = some charter)
    (equal : charterCount (run.mined host artifacts key) = charterCount whole) :
    OneCharter whole := by
  have single : OneCharter (run.mined host artifacts key) := fun c left d right => by
    rw [mined_charter scope c left, mined_charter scope d right]
  exact charterCount_le_one.mp (equal ▸ charterCount_le_one.mpr single)

def sharedKey : Key := (extractRemediation plainHost (moreMemory 1 1 10)).key

def charterRuns : List MiningRun := [⟨some 1, none, 30⟩, ⟨some 2, none, 40⟩]

theorem charterRuns_disagree (charterHasCharterId : Bool) :
    ¬AgreesAt (runAll { plainHost with charterHasCharterId } sharedRemedy charterRuns {})
      (evidence (allCandidates { plainHost with charterHasCharterId } sharedRemedy) sharedKey)
      sharedKey := by
  have both : ((evidence (allCandidates { plainHost with charterHasCharterId } sharedRemedy)
      sharedKey).map PatternCandidate.artifact).dedup.length = 2 := by
    cases charterHasCharterId <;> decide +kernel
  have fewer : ((runAll { plainHost with charterHasCharterId } sharedRemedy charterRuns
      {}).pattern? sharedKey).all (·.evidenceCount < 2) = true := by
    cases charterHasCharterId <;> decide +kernel
  rw [AgreesAt]
  split
  · intro empty
    rw [empty] at both
    exact absurd both (by decide)
  · rename_i row found
    rintro ⟨_, agrees⟩
    rw [found, Option.all_some, decide_eq_true_eq] at fewer
    have two := agrees.evidence
    omega

end Synthetos.Patterns
