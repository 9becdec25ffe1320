import Synthetos.Patterns.Consolidation
import Synthetos.Lib.Distinct
import Synthetos.Lib.Table
import Mathlib.Data.List.Induction

/-!
# Running consolidation again

A row that has absorbed a group keeps its evidence, charters and confidence when the group is
merged again, and no observation is added.  Only the tier can move: a deprecated row is lifted
whenever its group spans several charters, whether or not the evidence grew.  A group whose times
have no zone cannot be merged again: the run raises and commits nothing.
-/

namespace Synthetos.Patterns

open Lib

variable {host : Host} {artifacts : Artifacts} {req : Request} {store store' : Store}
  {agg other : AggregatedPattern} {now : Timestamp} {row : CanonicalPattern} {key : Key} {k : Nat}
  {c : PatternCandidate} {aggs : List AggregatedPattern}

/-- A row with at least the evidence, charters and confidence of a group. -/
structure CanonicalPattern.Covers (row : CanonicalPattern) (agg : AggregatedPattern) : Prop where
  evidence : agg.evidenceCount ≤ row.evidenceCount
  charters : ∀ charter ∈ agg.charterIds, charter ∈ row.sourceCharterIds
  confidence : computeConfidence agg ≤ row.confidence

/-- The store has absorbed a group: its row covers the group and is linked to its artifacts. -/
structure Absorbs (store : Store) (agg : AggregatedPattern) (k : Nat) (row : CanonicalPattern) :
    Prop where
  position : store.position? agg.key = some k
  found : store.patterns[k]? = some row
  covers : row.Covers agg
  linked : ∀ c ∈ agg.candidates, store.linked k c = true

theorem covers_create : (agg.create now).Covers agg := ⟨Nat.le_refl _, fun _ h => h, le_refl _⟩

theorem covers_reinforce : (agg.reinforce now row).Covers agg where
  evidence := Nat.le_max_right ..
  charters charter inside := by simp [AggregatedPattern.reinforce, inside]
  confidence := by
    simp only [AggregatedPattern.reinforce]
    split
    · exact le_refl _
    · rename_i high
      exact not_lt.mp high

theorem CanonicalPattern.Covers.reinforce (h : row.Covers agg) :
    (other.reinforce now row).Covers agg where
  evidence := Nat.le_trans h.evidence (Nat.le_max_left ..)
  charters charter inside := by
    simp [AggregatedPattern.reinforce, h.charters charter inside]
  confidence := by
    simp only [AggregatedPattern.reinforce]
    split
    · rename_i low
      exact le_of_lt (lt_of_le_of_lt h.confidence low)
    · exact h.confidence

theorem upsertPattern_cases (store : Store) (agg : AggregatedPattern) (now : Timestamp) :
    (store.position? agg.key = none ∧ upsertPattern store agg now =
        ({ store with patterns := store.patterns ++ [agg.create now] }, store.patterns.length)) ∨
      ∃ k row, store.position? agg.key = some k ∧ store.patterns[k]? = some row ∧
        row.key = agg.key ∧ upsertPattern store agg now =
          ({ store with patterns := store.patterns.modify k (agg.reinforce now) }, k) := by
  rw [upsertPattern]
  cases found : store.position? agg.key with
  | none => exact .inl ⟨rfl, rfl⟩
  | some k =>
    obtain ⟨inside, same, _⟩ := List.findIdx?_eq_some_iff_getElem.mp found
    exact .inr ⟨k, store.patterns[k], rfl, List.getElem?_eq_getElem inside, by simpa using same, rfl⟩

theorem findIdx?_modify {rows : List CanonicalPattern} {f : CanonicalPattern → CanonicalPattern}
    (same : ∀ row, (f row).key = row.key) (j : Nat) :
    (rows.modify j f).findIdx? (·.key == key) = rows.findIdx? (·.key == key) := by
  induction rows generalizing j with
  | nil => cases j <;> rfl
  | cons row rest ih =>
    cases j with
    | zero => simp [List.findIdx?_cons, same]
    | succ j => simp [List.findIdx?_cons, ih]

theorem position?_upsert (h : store.position? key = some k) :
    (upsert now store other).position? key = some k := by
  obtain ⟨_, wrote⟩ | ⟨_, _, _, _, _, wrote⟩ := upsertPattern_cases store other now
  · rw [upsert, wrote]
    simp only [Store.position?, upsertObservations] at h ⊢
    rw [List.findIdx?_append, h]
    rfl
  · rw [upsert, wrote]
    simp only [Store.position?, upsertObservations] at h ⊢
    rw [findIdx?_modify (f := other.reinforce now) fun _ => rfl, h]

theorem getElem?_upsert (now : Timestamp) (other : AggregatedPattern)
    (h : store.patterns[k]? = some row) :
    (upsert now store other).patterns[k]? = some row ∨
      (upsert now store other).patterns[k]? = some (other.reinforce now row) := by
  obtain ⟨_, wrote⟩ | ⟨j, _, _, _, _, wrote⟩ := upsertPattern_cases store other now
  · left
    rw [upsert, wrote]
    exact Table.getElem?_append_old h
  · rw [upsert, wrote]
    by_cases same : j = k
    · right
      simp [upsertObservations, same, h]
    · left
      simp only [upsertObservations, List.getElem?_modify, same, if_false, h]
      rfl

theorem linked_append {extra : List PatternObservation} (h : store.linked k c = true) :
    Store.linked { store with observations := store.observations ++ extra } k c = true := by
  simp only [Store.linked, List.any_append, Bool.or_eq_true] at h ⊢
  exact .inl h

theorem linked_upsert (h : store.linked k c = true) :
    (upsert now store other).linked k c = true := by
  obtain ⟨_, wrote⟩ | ⟨_, _, _, _, _, wrote⟩ := upsertPattern_cases store other now
  · rw [upsert, wrote]
    exact linked_append h
  · rw [upsert, wrote]
    exact linked_append h

theorem linked_upsertObservations (inside : c ∈ agg.candidates) :
    (upsertObservations store k agg).linked k c = true := by
  by_cases old : store.linked k c = true
  · exact linked_append old
  · rw [Store.linked, upsertObservations, List.any_append, Bool.or_eq_true]
    right
    rw [List.any_eq_true]
    refine ⟨observation k c, List.mem_map_of_mem (List.mem_filter.mpr ⟨inside, by simp [old]⟩), ?_⟩
    simp [observation]

theorem upsert_absorbs (store : Store) (agg : AggregatedPattern) (now : Timestamp) :
    ∃ k row, Absorbs (upsert now store agg) agg k row := by
  obtain ⟨fresh, wrote⟩ | ⟨k, row, position, found, _, wrote⟩ := upsertPattern_cases store agg now
  · refine ⟨store.patterns.length, agg.create now, ?_, ?_, covers_create, ?_⟩
    · rw [upsert, wrote]
      simp only [Store.position?, upsertObservations] at fresh ⊢
      rw [List.findIdx?_append, fresh]
      simp [AggregatedPattern.create, CanonicalPattern.key, AggregatedPattern.key]
    · rw [upsert, wrote]
      exact List.getElem?_concat_length
    · intro c inside
      rw [upsert, wrote]
      exact linked_upsertObservations inside
  · refine ⟨k, agg.reinforce now row, position?_upsert position, ?_, covers_reinforce, ?_⟩
    · rw [upsert, wrote]
      simp [upsertObservations, found]
    · intro c inside
      rw [upsert, wrote]
      exact linked_upsertObservations inside

theorem Absorbs.merge (now : Timestamp) (other : AggregatedPattern) (h : Absorbs store agg k row) :
    ∃ row', Absorbs (upsert now store other) agg k row' := by
  obtain kept | reinforced := getElem?_upsert now other h.found
  · exact ⟨row, position?_upsert h.position, kept, h.covers, fun c inside =>
      linked_upsert (h.linked c inside)⟩
  · exact ⟨_, position?_upsert h.position, reinforced, h.covers.reinforce, fun c inside =>
      linked_upsert (h.linked c inside)⟩

/-- A run over some groups leaves all of them absorbed. -/
theorem absorbs_run (aggs : List AggregatedPattern) (now : Timestamp) (store : Store) :
    ∀ agg ∈ aggs, ∃ k row, Absorbs (aggs.foldl (upsert now) store) agg k row := by
  induction aggs using List.reverseRecOn with
  | nil => exact fun _ inside => absurd inside List.not_mem_nil
  | append_singleton aggs last ih =>
    intro agg inside
    rw [List.foldl_append]
    rcases List.mem_append.mp inside with old | new
    · obtain ⟨k, row, absorbed⟩ := ih agg old
      obtain ⟨row', still⟩ := absorbed.merge now last
      exact ⟨k, row', still⟩
    · obtain rfl := List.mem_singleton.mp new
      exact upsert_absorbs _ agg now

/-- What a repeated run must leave alone in a row. -/
structure SameEvidence (a b : CanonicalPattern) : Prop where
  key : b.key = a.key
  evidence : b.evidenceCount = a.evidenceCount
  charters : ∀ charter, charter ∈ b.sourceCharterIds ↔ charter ∈ a.sourceCharterIds
  confidence : b.confidence = a.confidence
  tier : b.trustTier = a.trustTier

/-- No pattern and no observation is added, and no row changes in more than its reinforcement. -/
structure Steady (store store' : Store) : Prop where
  patterns : List.Forall₂ SameEvidence store.patterns store'.patterns
  observations : store'.observations = store.observations

/-- Decay and users change the tier and the staleness of rows, nothing else. -/
structure Retiered (store store' : Store) : Prop where
  patterns : List.Forall₂
    (fun a b => ∃ tier staleness, b = { a with trustTier := tier, stalenessScore := staleness })
    store.patterns store'.patterns
  observations : store'.observations = store.observations

theorem SameEvidence.refl (a : CanonicalPattern) : SameEvidence a a :=
  ⟨rfl, rfl, fun _ => Iff.rfl, rfl, rfl⟩

theorem SameEvidence.trans {a b c : CanonicalPattern} (h : SameEvidence a b)
    (h' : SameEvidence b c) : SameEvidence a c :=
  ⟨h'.key.trans h.key, h'.evidence.trans h.evidence,
    fun charter => (h'.charters charter).trans (h.charters charter),
    h'.confidence.trans h.confidence, h'.tier.trans h.tier⟩

theorem Steady.refl (store : Store) : Steady store store :=
  ⟨List.forall₂_same.mpr fun a _ => .refl a, rfl⟩

theorem forall₂_getElem? {R : CanonicalPattern → CanonicalPattern → Prop}
    {rows rows' : List CanonicalPattern} :
    List.Forall₂ R rows rows' ↔ rows.length = rows'.length ∧
      ∀ (k : Nat) a b, rows[k]? = some a → rows'[k]? = some b → R a b := by
  rw [List.forall₂_iff_get]
  refine and_congr_right fun same => ⟨fun h k a b left right => ?_, fun h k left right => ?_⟩
  · obtain ⟨inside, rfl⟩ := List.getElem?_eq_some_iff.mp left
    obtain ⟨inside', rfl⟩ := List.getElem?_eq_some_iff.mp right
    exact h k inside inside'
  · exact h k _ _ (List.getElem?_eq_getElem left) (List.getElem?_eq_getElem right)

theorem forall₂_row {R : CanonicalPattern → CanonicalPattern → Prop}
    {rows rows' : List CanonicalPattern} (h : List.Forall₂ R rows rows')
    (found : rows[k]? = some row) : ∃ row', rows'[k]? = some row' ∧ R row row' := by
  obtain ⟨same, related⟩ := forall₂_getElem?.mp h
  have inside := Table.lt_length_of_getElem? found
  rw [same] at inside
  exact ⟨_, List.getElem?_eq_getElem inside, related k _ _ found (List.getElem?_eq_getElem inside)⟩

theorem Steady.trans {middle : Store} (h : Steady store middle) (h' : Steady middle store') :
    Steady store store' := by
  refine ⟨?_, h'.observations.trans h.observations⟩
  obtain ⟨same, related⟩ := forall₂_getElem?.mp h.patterns
  obtain ⟨same', related'⟩ := forall₂_getElem?.mp h'.patterns
  refine forall₂_getElem?.mpr ⟨same.trans same', fun k a b left right => ?_⟩
  obtain ⟨row, found, first⟩ := forall₂_row h.patterns left
  exact first.trans (related' k row b found right)

theorem findIdx?_congr {rows rows' : List CanonicalPattern}
    (h : List.Forall₂ (fun a b => b.key = a.key) rows rows') :
    rows'.findIdx? (·.key == key) = rows.findIdx? (·.key == key) := by
  induction h with
  | nil => rfl
  | cons same _ ih => simp [List.findIdx?_cons, same, ih]

theorem Absorbs.retiered (h : Absorbs store agg k row) (change : Retiered store store') :
    ∃ row', Absorbs store' agg k row' := by
  obtain ⟨row', found, tier, staleness, rfl⟩ := forall₂_row change.patterns h.found
  refine ⟨_, ?_, found, ⟨h.covers.evidence, h.covers.charters, h.covers.confidence⟩, ?_⟩
  · rw [Store.position?, findIdx?_congr (change.patterns.imp ?_)]
    · exact h.position
    · rintro a b ⟨tier, staleness, rfl⟩
      rfl
  · intro c inside
    rw [Store.linked, change.observations]
    exact h.linked c inside

theorem Absorbs.steady (h : Absorbs store agg k row) (change : Steady store store') :
    ∃ row', Absorbs store' agg k row' := by
  obtain ⟨row', found, same⟩ := forall₂_row change.patterns h.found
  refine ⟨row', ?_, found, ⟨?_, ?_, ?_⟩, ?_⟩
  · rw [Store.position?, findIdx?_congr (change.patterns.imp fun _ _ same => same.key)]
    exact h.position
  · rw [same.evidence]
    exact h.covers.evidence
  · exact fun charter inside => (same.charters charter).mpr (h.covers.charters charter inside)
  · rw [same.confidence]
    exact h.covers.confidence
  · intro c inside
    rw [Store.linked, change.observations]
    exact h.linked c inside

theorem Absorbs.upsert_eq (h : Absorbs store agg k row) :
    upsert now store agg =
      { store with patterns := store.patterns.modify k (agg.reinforce now) } := by
  have none_new : ∀ c ∈ agg.candidates, (!Store.linked
      { store with patterns := store.patterns.modify k (agg.reinforce now) } k c) = false := by
    intro c inside
    have linked := h.linked c inside
    simp only [Store.linked] at linked ⊢
    rw [linked]
    rfl
  rw [upsert, upsertPattern, h.position]
  simp only [upsertObservations]
  rw [List.filter_eq_nil_iff.mpr fun c inside => by rw [none_new c inside]; decide]
  simp

/-- No group of several charters finds its row deprecated. -/
def NoLift (store : Store) (aggs : List AggregatedPattern) : Prop :=
  ∀ agg ∈ aggs, agg.crossCharter = true → ∀ k row, store.position? agg.key = some k →
    store.patterns[k]? = some row → row.trustTier ≠ .deprecated

theorem NoLift.steady (h : NoLift store aggs) (change : Steady store store') :
    NoLift store' aggs := by
  intro agg inside cross k row position found
  obtain ⟨same, related⟩ := forall₂_getElem?.mp change.patterns
  have bound := Table.lt_length_of_getElem? found
  rw [← same] at bound
  have before := List.getElem?_eq_getElem bound
  rw [(related k _ _ before found).tier]
  refine h agg inside cross k _ ?_ before
  rw [Store.position?, ← findIdx?_congr (change.patterns.imp fun _ _ same => same.key)]
  exact position

theorem Absorbs.steady_upsert (h : Absorbs store agg k row)
    (low : agg.crossCharter = true → row.trustTier ≠ .deprecated) :
    Steady store (upsert now store agg) := by
  rw [h.upsert_eq]
  refine ⟨forall₂_getElem?.mpr ⟨by simp, fun j a b left right => ?_⟩, rfl⟩
  rw [List.getElem?_modify, left] at right
  obtain rfl := Option.some.inj right
  by_cases here : k = j
  · subst here
    rw [h.found] at left
    obtain rfl := Option.some.inj left
    have notAbove : ¬row.confidence < computeConfidence agg := not_lt.mpr h.covers.confidence
    have tier : ¬(row.trustTier = .deprecated ∧ agg.crossCharter = true) :=
      fun both => low both.2 both.1
    refine ⟨by simp [AggregatedPattern.reinforce, CanonicalPattern.key], ?_, ?_, ?_, ?_⟩
    · simp [AggregatedPattern.reinforce, h.covers.evidence]
    · intro charter
      simp only [if_true, AggregatedPattern.reinforce, List.mem_eraseDups, List.mem_append]
      exact ⟨fun either => either.elim (fun old => old) (h.covers.charters charter), .inl⟩
    · simp [AggregatedPattern.reinforce, notAbove]
    · simp [AggregatedPattern.reinforce, tier]
  · simp only [here, if_false]
    exact .refl a

/-- A run over groups that are all absorbed is steady when no row is lifted. -/
theorem steady_run (now : Timestamp) (absorbed : ∀ agg ∈ aggs, ∃ k row, Absorbs store agg k row)
    (low : NoLift store aggs) : Steady store (aggs.foldl (upsert now) store) := by
  induction aggs generalizing store with
  | nil => exact .refl store
  | cons agg aggs ih =>
    obtain ⟨k, row, here⟩ := absorbed agg List.mem_cons_self
    have first : Steady store (upsert now store agg) := here.steady_upsert fun cross =>
      low agg List.mem_cons_self cross k row here.position here.found
    refine first.trans (ih (fun other inside => ?_) ?_)
    · obtain ⟨j, old, there⟩ := absorbed other (List.mem_cons_of_mem _ inside)
      obtain ⟨new, still⟩ := there.steady first
      exact ⟨j, new, still⟩
    · exact NoLift.steady (fun other inside => low other (List.mem_cons_of_mem _ inside)) first

/-- No run makes a row deprecated. -/
theorem tier_run (aggs : List AggregatedPattern) (now : Timestamp)
    (found : store.patterns[k]? = some row) (low : row.trustTier ≠ .deprecated) :
    ∃ row', (aggs.foldl (upsert now) store).patterns[k]? = some row' ∧
      row'.trustTier ≠ .deprecated := by
  induction aggs generalizing store row with
  | nil => exact ⟨row, found, low⟩
  | cons agg aggs ih =>
    obtain kept | reinforced := getElem?_upsert now agg found
    · exact ih kept low
    · refine ih reinforced ?_
      simp only [AggregatedPattern.reinforce]
      split
      · decide
      · exact low

/-- A deprecated row is lifted by a group of several charters. -/
theorem lifted_run (now : Timestamp) (inside : agg ∈ aggs) (cross : agg.crossCharter = true)
    (position : store.position? agg.key = some k) (found : store.patterns[k]? = some row) :
    ∃ row', (aggs.foldl (upsert now) store).patterns[k]? = some row' ∧
      row'.trustTier ≠ .deprecated := by
  induction aggs generalizing store row with
  | nil => exact absurd inside List.not_mem_nil
  | cons first aggs ih =>
    rcases List.mem_cons.mp inside with rfl | later
    · have here : (upsert now store agg).patterns[k]? = some (agg.reinforce now row) := by
        rw [upsert, upsertPattern, position]
        simp [upsertObservations, found]
      rw [List.foldl_cons]
      refine tier_run _ now here ?_
      simp only [AggregatedPattern.reinforce, cross, and_true]
      split
      · decide
      · assumption
    · obtain kept | reinforced := getElem?_upsert now first found
      · exact ih later (position?_upsert position) kept
      · exact ih later (position?_upsert position) reinforced

/-! ### Runs that raise -/

theorem summarize_key {items : List PatternCandidate} (h : summarize key items = some agg) :
    agg.key = key := by
  simp only [summarize] at h
  split at h
  · cases h
    rfl
  · cases h

theorem keys_aggregate (candidates : List PatternCandidate) :
    ((aggregate candidates).map AggregatedPattern.key).Nodup := by
  have hkeys : ∀ keys : List Key,
      ((keys.filterMap fun key => summarize key (evidence candidates key)).map
        AggregatedPattern.key).Sublist keys := by
    intro keys
    induction keys with
    | nil => exact .slnil
    | cons key keys ih =>
      rw [List.filterMap_cons]
      split
      · exact ih.cons key
      · rename_i agg found
        rw [List.map_cons, summarize_key found]
        exact ih.cons_cons key
  exact (Distinct.nodup_eraseDups _).sublist (hkeys _)

theorem raises_upsert (apart : other.key ≠ agg.key) :
    other.raises host (upsert now store agg) = other.raises host store := by
  have same : ((upsert now store agg).position? other.key).isSome =
      (store.position? other.key).isSome := by
    obtain ⟨_, wrote⟩ | ⟨k, _, _, _, _, wrote⟩ := upsertPattern_cases store agg now
    · rw [upsert, wrote]
      simp only [Store.position?, upsertObservations, List.findIdx?_append]
      have away : ((agg.create now).key == other.key) = false := by
        simpa [AggregatedPattern.create, CanonicalPattern.key] using fun h => apart h.symm
      simp [List.findIdx?_cons, away]
    · rw [upsert, wrote]
      simp only [Store.position?, upsertObservations]
      rw [findIdx?_modify (f := agg.reinforce now) fun _ => rfl]
  rw [AggregatedPattern.raises, same, AggregatedPattern.raises]

/-- Groups of distinct keys are merged together unless one of them raises at the start. -/
theorem foldlM_upsert? (distinct : (aggs.map AggregatedPattern.key).Nodup) (store : Store) :
    aggs.foldlM (upsert? host now) store =
      if aggs.any (AggregatedPattern.raises host store) then none
      else some (aggs.foldl (upsert now) store) := by
  induction aggs generalizing store with
  | nil => rfl
  | cons agg aggs ih =>
    obtain ⟨fresh, distinct⟩ := List.nodup_cons.mp distinct
    have same : aggs.any (AggregatedPattern.raises host (upsert now store agg)) =
        aggs.any (AggregatedPattern.raises host store) := by
      rw [Bool.eq_iff_iff, List.any_eq_true, List.any_eq_true]
      refine exists_congr fun other => and_congr_right fun inside => ?_
      rw [raises_upsert fun equal => fresh (equal ▸ List.mem_map_of_mem inside)]
    rw [List.foldlM_cons, upsert?, List.any_cons]
    cases raised : agg.raises host store with
    | true => rfl
    | false =>
      simp only [Bool.false_eq_true, if_false, Option.bind_eq_bind, Option.bind_some, Bool.false_or]
      rw [ih distinct, same]
      rfl

def groups (host : Host) (artifacts : Artifacts) (req : Request) : List AggregatedPattern :=
  aggregate (req.candidates host artifacts (req.types.getD []))

/-- Run the same request again at another time; a run that raises commits nothing. -/
def rerun (host : Host) (artifacts : Artifacts) (req : Request) (store : Store) (now : Timestamp) :
    Store :=
  (consolidate host artifacts { req with now := now } store).getD store

/-- A store the request has been run on, whatever it held before and whatever decay and users have
done to its tiers since. -/
def Consolidated (host : Host) (artifacts : Artifacts) (req : Request) (store : Store) : Prop :=
  ∃ before after now, consolidate host artifacts { req with now := now } before = some after ∧
    Retiered after store

/-- The run mines a pattern whose artifacts have times without a zone. -/
def MinesNaive (host : Host) (artifacts : Artifacts) (req : Request) : Prop :=
  ∃ agg ∈ groups host artifacts req, host.zoned agg.patternType = false

theorem consolidate_eq_some : consolidate host artifacts req store = some store' ↔
    req.types.isSome = true ∧ (req.charterId.isNone || host.charterHasCharterId) = true ∧
      (groups host artifacts req).any (AggregatedPattern.raises host store) = false ∧
      (groups host artifacts req).foldl (upsert req.now) store = store' := by
  unfold consolidate groups
  cases req.types with
  | none => simp
  | some types =>
    simp only [Option.bind_eq_bind, Option.bind_some, Option.isSome_some, Option.getD_some,
      true_and, foldlM_upsert? (keys_aggregate _)]
    cases allowed : (req.charterId.isNone || host.charterHasCharterId) with
    | false => simp [guard]
    | true => simp [guard]

theorem rerun_eq {after : Store}
    (h : consolidate host artifacts { req with now := now } store = some after)
    (later : Timestamp) (other : Store) :
    rerun host artifacts req other later =
      if (groups host artifacts req).any (AggregatedPattern.raises host other) then other
      else (groups host artifacts req).foldl (upsert later) other := by
  obtain ⟨known, allowed, -, -⟩ := consolidate_eq_some.mp h
  rw [rerun]
  split
  · rename_i raised
    cases again : consolidate host artifacts { req with now := later } other with
    | none => rfl
    | some committed =>
      have none_ := (consolidate_eq_some.mp again).2.2.1
      exact absurd (raised.symm.trans none_) (by decide)
  · rename_i quiet
    have again : consolidate host artifacts { req with now := later } other =
        some ((groups host artifacts req).foldl (upsert later) other) :=
      consolidate_eq_some.mpr ⟨known, allowed, eq_false_of_ne_true quiet, rfl⟩
    rw [again]
    rfl

theorem Consolidated.absorbed (h : Consolidated host artifacts req store) :
    ∀ agg ∈ groups host artifacts req, ∃ k row, Absorbs store agg k row := by
  obtain ⟨before, after, first, ran, change⟩ := h
  intro agg inside
  obtain ⟨-, -, -, same⟩ := consolidate_eq_some.mp ran
  obtain ⟨k, row, there⟩ := absorbs_run (groups host artifacts req) first before agg inside
  obtain ⟨row', still⟩ := (same ▸ there : Absorbs after agg k row).retiered change
  exact ⟨k, row', still⟩

/-- A run over absorbed groups raises exactly where one of them has times without a zone. -/
theorem raises_absorbed
    (absorbed : ∀ agg ∈ groups host artifacts req, ∃ k row, Absorbs store agg k row) :
    (groups host artifacts req).any (AggregatedPattern.raises host store) = true ↔
      MinesNaive host artifacts req := by
  rw [List.any_eq_true]
  refine exists_congr fun agg => and_congr_right fun inside => ?_
  obtain ⟨k, row, there⟩ := absorbed agg inside
  simp [AggregatedPattern.raises, there.position]

theorem Consolidated.naive_reruns (h : Consolidated host artifacts req store)
    (naive : MinesNaive host artifacts req) (times : List Timestamp) :
    times.foldl (rerun host artifacts req) store = store := by
  obtain ⟨before, after, first, ran, -⟩ := id h
  induction times with
  | nil => rfl
  | cons now times ih =>
    rw [List.foldl_cons, rerun_eq ran, if_pos ((raises_absorbed h.absorbed).mpr naive), ih]

theorem Consolidated.rerun_merges (h : Consolidated host artifacts req store)
    (zoned : ¬MinesNaive host artifacts req)
    (absorbed : ∀ agg ∈ groups host artifacts req, ∃ k row, Absorbs store' agg k row)
    (now : Timestamp) :
    rerun host artifacts req store' now = (groups host artifacts req).foldl (upsert now) store' := by
  obtain ⟨before, after, first, ran, -⟩ := h
  rw [rerun_eq ran, if_neg fun raised => zoned ((raises_absorbed absorbed).mp raised)]

theorem Consolidated.steady_reruns (h : Consolidated host artifacts req store)
    (zoned : ¬MinesNaive host artifacts req)
    (absorbed : ∀ agg ∈ groups host artifacts req, ∃ k row, Absorbs store' agg k row)
    (low : NoLift store' (groups host artifacts req)) (times : List Timestamp) :
    Steady store' (times.foldl (rerun host artifacts req) store') := by
  induction times generalizing store' with
  | nil => exact .refl store'
  | cons now times ih =>
    rw [List.foldl_cons, h.rerun_merges zoned absorbed]
    have first := steady_run now absorbed low
    refine first.trans (ih (fun agg inside => ?_) (low.steady first))
    obtain ⟨k, row, there⟩ := absorbed agg inside
    obtain ⟨row', still⟩ := there.steady first
    exact ⟨k, row', still⟩

theorem Consolidated.tier_reruns (h : Consolidated host artifacts req store)
    (found : store'.patterns[k]? = some row) (low : row.trustTier ≠ .deprecated)
    (times : List Timestamp) :
    ∃ row', (times.foldl (rerun host artifacts req) store').patterns[k]? = some row' ∧
      row'.trustTier ≠ .deprecated := by
  obtain ⟨before, after, first, ran, -⟩ := h
  induction times generalizing store' row with
  | nil => exact ⟨row, found, low⟩
  | cons now times ih =>
    rw [List.foldl_cons, rerun_eq ran]
    split
    · exact ih found low
    · obtain ⟨next, there, still⟩ := tier_run (groups host artifacts req) now found low
      exact ih there still

/-- A host whose hash keeps the text, and the tables as they are migrated. -/
def plainHost : Host where
  sha256 := fun s => s
  dumps := fun _ => []
  charterHasCharterId := false
  zoned := fun type => type != .failure

def outOfMemory (id charterId createdAt : Nat) : FailurePostmortem where
  id := id
  charterId := charterId
  cycleId := charterId
  failureClass := "oom".toList
  rootCause := "batch too large".toList
  contributingFactors := []
  lessons := []
  nextStepRecommendation := .null
  createdAt := createdAt

def moreMemory (id charterId createdAt : Nat) : RemediationAction where
  id := id
  charterId := charterId
  cycleId := charterId
  failureClass := "oom".toList
  strategy := "increase_memory".toList
  strategyTier := "targeted".toList
  outcome := "retry_enqueued".toList
  reasoning := []
  attemptNumber := 1
  actionDetail := .null
  createdAt := createdAt

def artifactsOf (postmortems : List FailurePostmortem) (actions : List RemediationAction)
    (uniquePostmortems : (postmortems.map FailurePostmortem.id).Nodup)
    (uniqueActions : (actions.map RemediationAction.id).Nodup) : Artifacts where
  charters := []
  cycles := []
  cards := []
  specs := []
  postmortems := postmortems
  actions := actions
  signals := []
  frontiers := []
  decisions := []
  uniqueCharters := List.nodup_nil
  uniqueCycles := List.nodup_nil
  uniqueCards := List.nodup_nil
  uniqueSpecs := List.nodup_nil
  uniquePostmortems := uniquePostmortems
  uniqueActions := uniqueActions
  uniqueSignals := List.nodup_nil
  uniqueFrontiers := List.nodup_nil
  uniqueDecisions := List.nodup_nil
  cardCycle := nofun
  specCard := nofun
  signalSpec := nofun
  frontierCard := nofun

/-- A failure in two charters. -/
def sharedFailure : Artifacts :=
  artifactsOf [outOfMemory 1 1 10, outOfMemory 2 2 20] [] (by decide) List.nodup_nil

example : ((consolidate plainHost sharedFailure { now := 30 } {}).bind
    (consolidate plainHost sharedFailure { now := 40 })).isNone = true := by decide +kernel

/-- The same remedy in two charters, and another one in a single charter. -/
def sharedRemedy : Artifacts :=
  artifactsOf [] [moreMemory 1 1 10, moreMemory 2 2 20,
    { moreMemory 3 1 15 with strategy := "reduce_batch_size".toList }] List.nodup_nil (by decide)

/-- The store after one global run. -/
def mined : Store := (consolidate plainHost sharedRemedy { now := 30 } {}).getD {}

theorem mined_eq : consolidate plainHost sharedRemedy { now := 30 } {} = some mined := by
  obtain ⟨store, ran⟩ : ∃ store, consolidate plainHost sharedRemedy { now := 30 } {} = some store :=
    Option.isSome_iff_exists.mp (by decide +kernel)
  rw [mined, ran]
  rfl

/-- Decay has deprecated the rows that `which` selects. -/
def Store.decayed (store : Store) (which : CanonicalPattern → Bool) : Store :=
  { store with patterns := store.patterns.map fun row =>
      { row with trustTier := if which row then .deprecated else row.trustTier } }

theorem consolidated_decayed (which : CanonicalPattern → Bool) :
    Consolidated plainHost sharedRemedy { now := 30 } (mined.decayed which) := by
  refine ⟨{}, mined, 30, mined_eq, forall₂_getElem?.mpr ⟨by simp [Store.decayed], ?_⟩, rfl⟩
  intro k a b left right
  rw [Store.decayed, List.getElem?_map, left] at right
  exact ⟨_, a.stalenessScore, (Option.some.inj right).symm⟩

end Synthetos.Patterns
