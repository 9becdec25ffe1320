import Synthetos.Lib.Distinct
import Synthetos.Lib.Except
import Synthetos.Lib.Ranking
import Synthetos.Patterns.Approvals
import Synthetos.Patterns.Decay
import Synthetos.Patterns.Rerun
import Mathlib.Data.Prod.Lex
import Mathlib.Algebra.Order.Field.Rat

/-!
# Injecting patterns into prompts

`find_relevant_patterns` ranks a bounded number of rows, and `inject_patterns` takes those the
policy lets through.
-/

namespace Synthetos.Patterns

open Lib Ranking

/-- A row of `canonical_patterns` with its embedding. -/
structure StoredPattern where
  id : Nat
  pattern : CanonicalPattern
  embedding : Option (List Rat)

/-- A row is known by its id, and consolidation writes every charter of a pattern once. -/
structure PatternTable where
  rows : List StoredPattern
  observations : List PatternObservation
  ids : (rows.map StoredPattern.id).Nodup
  charters : ∀ row ∈ rows, row.pattern.sourceCharterIds.Nodup

theorem aggregate_charters {candidates : List PatternCandidate} {agg : AggregatedPattern}
    (h : agg ∈ aggregate candidates) : agg.charterIds.Nodup := by
  obtain ⟨key, -, hsummary⟩ := List.mem_filterMap.mp h
  simp only [summarize] at hsummary
  split at hsummary
  · cases hsummary
    exact Distinct.nodup_eraseDups _
  · cases hsummary

theorem upsertPattern_charters {store : Store} {agg : AggregatedPattern} {now : Timestamp}
    (hagg : agg.charterIds.Nodup) (h : ∀ p ∈ store.patterns, p.sourceCharterIds.Nodup) :
    ∀ p ∈ (upsertPattern store agg now).1.patterns, p.sourceCharterIds.Nodup := by
  intro p hp
  unfold upsertPattern at hp
  split at hp
  · rcases List.mem_append.mp hp with hold | hnew
    · exact h p hold
    · rw [List.mem_singleton.mp hnew]
      exact hagg
  · rename_i k _
    obtain ⟨i, hi⟩ := List.mem_iff_getElem?.mp hp
    rw [List.getElem?_modify] at hi
    obtain ⟨q, hq, rfl⟩ := Option.map_eq_some_iff.mp hi
    split
    · exact Distinct.nodup_eraseDups _
    · exact h q (List.mem_of_getElem? hq)

theorem charters_run {aggs : List AggregatedPattern} {now : Timestamp} {store : Store}
    (haggs : ∀ agg ∈ aggs, agg.charterIds.Nodup)
    (hstore : ∀ p ∈ store.patterns, p.sourceCharterIds.Nodup) :
    ∀ p ∈ (aggs.foldl (upsert now) store).patterns, p.sourceCharterIds.Nodup := by
  induction aggs generalizing store with
  | nil => exact hstore
  | cons agg aggs ih =>
    obtain ⟨hagg, hrest⟩ := List.forall_mem_cons.mp haggs
    exact ih hrest (upsertPattern_charters hagg hstore)

/-- Consolidation writes every charter of a pattern once. -/
theorem consolidate_charters {host : Host} {artifacts : Artifacts} {req : Request}
    {store store' : Store} (h : consolidate host artifacts req store = some store')
    (hstore : ∀ p ∈ store.patterns, p.sourceCharterIds.Nodup) :
    ∀ p ∈ store'.patterns, p.sourceCharterIds.Nodup := by
  obtain ⟨-, -, -, rfl⟩ := consolidate_eq_some.mp h
  exact charters_run (fun agg hagg => aggregate_charters hagg) hstore

/-- What floats and the database driver give: the square root, and the truth value of a vector that
was read.  A list is true where it has an item; an array of several items has no truth value. -/
structure Vectors where
  sqrt : Rat → Rat
  truth : List Rat → Option Bool
  sqrt_zero : sqrt 0 = 0
  zero_of_false : ∀ {v}, truth v = some false → v = [] ∨ v = [0]

structure PatternMatch where
  id : Nat
  pattern : CanonicalPattern
  similarity : Option Rat
  effectiveConfidence : Rat
  crossCharter : Bool
  sourceCharterIds : List Id

def effectiveConfidence (pattern : CanonicalPattern) (maxStalenessDays : Int) (now : Timestamp) :
    Rat :=
  if maxStalenessDays ≤ 0 then pattern.confidence
  else
    let decay := min (ageDays pattern now / (maxStalenessDays : Rat)) 1
    max 0 (pattern.confidence * (1 - decay))

namespace Vectors

variable (vectors : Vectors)

def norm (v : List Rat) : Rat := vectors.sqrt (v.map fun x => x * x).sum

def cosine (a b : Option (List Rat)) : Option Rat := do
  let a ← a
  let b ← b
  if a.length ≠ b.length then none
  else if vectors.norm a = 0 ∨ vectors.norm b = 0 then none
  else some ((List.zipWith (· * ·) a b).sum / (vectors.norm a * vectors.norm b))

/-- `list(p.embedding) if p.embedding else None` -/
def load : Option (List Rat) → Except String (Option (List Rat))
  | none => .ok none
  | some v => match vectors.truth v with
    | some true => .ok (some v)
    | some false => .ok none
    | none => .error "The truth value of an array with more than one element is ambiguous"

end Vectors

/-- The arguments of `find_relevant_patterns`. -/
structure Retrieval where
  currentCycleId : Option Id
  embedding : Option (List Rat)
  patternTypes : List String
  minConfidence : Rat
  maxStalenessDays : Int
  crossCharterOnly : Bool
  crossCharterWeightBoost : Rat
  limit : Int

namespace Retrieval

def selects (request : Retrieval) (observations : List PatternObservation) (row : StoredPattern) :
    Bool :=
  row.pattern.trustTier != .deprecated &&
    (request.patternTypes.isEmpty || request.patternTypes.contains row.pattern.patternType.value) &&
    (decide (request.minConfidence ≤ 0) || decide (request.minConfidence ≤ row.pattern.confidence)) &&
    (request.currentCycleId.all fun cycle => observations.any fun o =>
      o.patternId == row.id && o.cycleId.any (· != cycle)) &&
    (!request.crossCharterOnly || decide (1 < row.pattern.sourceCharterIds.length))

/-- `stmt.limit` -/
def statementLimit (request : Retrieval) : Int := max (request.limit * 5) request.limit

def matchOf (vectors : Vectors) (now : Timestamp) (request : Retrieval) (row : StoredPattern)
    (embedding : Option (List Rat)) : PatternMatch :=
  let eff := effectiveConfidence row.pattern request.maxStalenessDays now
  let crossCharter := decide (1 < row.pattern.sourceCharterIds.eraseDups.length)
  { id := row.id
    pattern := row.pattern
    similarity := vectors.cosine request.embedding embedding
    effectiveConfidence :=
      round4 (eff * if crossCharter then request.crossCharterWeightBoost else 1)
    crossCharter
    sourceCharterIds := row.pattern.sourceCharterIds }

end Retrieval

def sortKey (m : PatternMatch) : Lex (Rat × Rat) := toLex (m.similarity.getD 0, m.effectiveConfidence)

/-- `rows` are those the statement selects, in the order the database finds them. -/
def findRelevantPatterns (vectors : Vectors) (now : Timestamp) (request : Retrieval)
    (rows : List StoredPattern) : Except String (List PatternMatch) := do
  if request.statementLimit < 0 then .error "LIMIT must not be negative"
  else
    let found ← (rows.take request.statementLimit.toNat).mapM fun row =>
      request.matchOf vectors now row <$> vectors.load row.embedding
    pure ((ranked sortKey found).take request.limit.toNat)

structure InjectionPolicy where
  minConfidenceAuto : Rat := 7 / 10
  maxStalenessDays : Int := 90
  crossCharterWeightBoost : Rat := 115 / 100
  crossCharterOnly : Bool := false
  limit : Int := 10

namespace InjectionPolicy

/-- The policy on one match; `approved` are the patterns with a valid approval. -/
def passes (policy : InjectionPolicy) (approved : Nat → Bool) (m : PatternMatch) : Bool :=
  match m.pattern.trustTier with
  | .auto => decide (policy.minConfidenceAuto ≤ m.effectiveConfidence)
  | .curated => approved m.id
  | .deprecated => false

def applyLoop (policy : InjectionPolicy) (approved : Nat → Bool) :
    List PatternMatch → List PatternMatch → List PatternMatch
  | applied, [] => applied
  | applied, m :: rest =>
    if policy.passes approved m then
      if policy.limit ≤ (applied ++ [m]).length then applied ++ [m]
      else applyLoop policy approved (applied ++ [m]) rest
    else applyLoop policy approved applied rest

end InjectionPolicy

/-- A call of `inject_patterns`, with the answers of the approvals query for each pattern. -/
structure Injection where
  now : Timestamp
  currentCycleId : Option Id
  types : List String
  policy : InjectionPolicy
  embedding : Option (List Rat)
  approvalRows : Nat → List PatternApproval

namespace Injection

/-- No floor of confidence, and three times the limit. -/
def request (call : Injection) : Retrieval where
  currentCycleId := call.currentCycleId
  embedding := call.embedding
  patternTypes := call.types
  minConfidence := 0
  maxStalenessDays := call.policy.maxStalenessDays
  crossCharterOnly := call.policy.crossCharterOnly
  crossCharterWeightBoost := call.policy.crossCharterWeightBoost
  limit := call.policy.limit * 3

def approved (call : Injection) (patternId : Nat) : Bool :=
  hasValidApproval call.now (call.approvalRows patternId)

def injectPatterns (vectors : Vectors) (call : Injection) (rows : List StoredPattern) :
    Except String (List PatternMatch) := do
  let candidates ← findRelevantPatterns vectors call.now call.request rows
  pure (call.policy.applyLoop call.approved [] candidates)

/-- The match of a row, whatever the truth value of its embedding. -/
def candidate (vectors : Vectors) (call : Injection) (row : StoredPattern) : PatternMatch :=
  call.request.matchOf vectors call.now row row.embedding

def passes (call : Injection) (m : PatternMatch) : Bool := call.policy.passes call.approved m

/-- Requested, observed in another cycle, of several charters if it must be, and let through. -/
def eligible (call : Injection) (observations : List PatternObservation) (m : PatternMatch) : Bool :=
  (call.types.isEmpty || call.types.contains m.pattern.patternType.value) &&
    (call.currentCycleId.all fun cycle => observations.any fun o =>
      o.patternId == m.id && o.cycleId.any (· != cycle)) &&
    (!call.policy.crossCharterOnly || m.crossCharter) && call.passes m

/-- The result is the first patterns of all that are eligible. -/
def ReturnsTop (vectors : Vectors) (table : PatternTable) (call : Injection)
    (result : Except String (List PatternMatch)) : Prop :=
  ∃ top, result = .ok top ∧ IsTop sortKey (call.eligible table.observations)
    call.policy.limit.toNat (table.rows.map (call.candidate vectors)) top

end Injection

variable {vectors : Vectors} {table : PatternTable} {call : Injection} {rows : List StoredPattern}
  {embedding query loaded : Option (List Rat)}

/-! ### Retrieval -/

theorem Vectors.norm_eq_zero {v : List Rat} (h : vectors.truth v = some false) :
    vectors.norm v = 0 := by
  rcases vectors.zero_of_false h with rfl | rfl
  · exact vectors.sqrt_zero
  · simpa [norm] using vectors.sqrt_zero

theorem Vectors.cosine_load (h : vectors.load embedding = .ok loaded) :
    vectors.cosine query loaded = vectors.cosine query embedding := by
  cases embedding with
  | none =>
    cases h
    rfl
  | some v =>
    rw [load] at h
    cases htruth : vectors.truth v with
    | none =>
      rw [htruth] at h
      cases h
    | some b =>
      rw [htruth] at h
      cases b with
      | true =>
        cases h
        rfl
      | false =>
        cases h
        cases query with
        | none => rfl
        | some q => simp [cosine, norm_eq_zero htruth]

theorem Vectors.exists_load_ok :
    (∃ loaded, vectors.load embedding = .ok loaded) ↔
      ∀ v, embedding = some v → (vectors.truth v).isSome = true := by
  cases embedding with
  | none => simp [load]
  | some v =>
    rw [load]
    cases htruth : vectors.truth v with
    | none => simp [htruth]
    | some b => cases b <;> simp [htruth]

theorem mapM_eq_map {α β : Type} {f : α → Except String β} {g : α → β} {items : List α}
    (h : ∀ a ∈ items, f a = .ok (g a)) : items.mapM f = .ok (items.map g) := by
  rw [mapM_eq_ok, List.forall₂_map_right_iff, List.forall₂_same]
  exact h

theorem Injection.matchOf_load {row : StoredPattern}
    (h : ∃ loaded, vectors.load row.embedding = .ok loaded) :
    (call.request.matchOf vectors call.now row <$> vectors.load row.embedding) =
      .ok (call.candidate vectors row) := by
  obtain ⟨loaded, hloaded⟩ := h
  rw [hloaded]
  simp [Injection.candidate, Retrieval.matchOf, Vectors.cosine_load hloaded]

/-! ### The loop over the candidates -/

theorem InjectionPolicy.applyLoop_eq (policy : InjectionPolicy) (approved : Nat → Bool)
    (candidates : List PatternMatch) {applied : List PatternMatch}
    (h : (applied.length : Int) < policy.limit) :
    policy.applyLoop approved applied candidates =
      applied ++ (candidates.filter (policy.passes approved)).take
        (policy.limit.toNat - applied.length) := by
  induction candidates generalizing applied with
  | nil => simp [applyLoop]
  | cons m rest ih =>
    rw [applyLoop, List.filter_cons]
    split
    · rename_i hpasses
      obtain ⟨left, hleft⟩ : ∃ left, policy.limit.toNat - applied.length = left + 1 :=
        ⟨policy.limit.toNat - applied.length - 1, by omega⟩
      rw [hleft, List.take_succ_cons]
      split
      · rename_i hfull
        rw [List.length_append, List.length_singleton] at hfull
        have hzero : left = 0 := by omega
        rw [hzero, List.take_zero]
      · rename_i hfull
        rw [ih (by omega), List.append_assoc, List.singleton_append]
        have hlength : policy.limit.toNat - (applied ++ [m]).length = left := by
          rw [List.length_append, List.length_singleton]
          omega
        rw [hlength]
    · exact ih h

/-! ### All patterns that are eligible -/

theorem Injection.statementLimit_request (hlimit : 0 ≤ call.policy.limit) :
    call.request.statementLimit = 15 * call.policy.limit := by
  unfold Retrieval.statementLimit request
  dsimp only
  omega

theorem Injection.eligible_candidate {row : StoredPattern} (h : row ∈ table.rows) :
    call.eligible table.observations (call.candidate vectors row) =
      (call.passes (call.candidate vectors row) &&
        call.request.selects table.observations row) := by
  have hcharters : row.pattern.sourceCharterIds.eraseDups = row.pattern.sourceCharterIds :=
    Distinct.eraseDups_of_nodup (table.charters row h)
  have hid : (call.candidate vectors row).id = row.id := rfl
  have hpattern : (call.candidate vectors row).pattern = row.pattern := rfl
  have hcross : (call.candidate vectors row).crossCharter =
      decide (1 < row.pattern.sourceCharterIds.length) := by
    rw [← hcharters]
    rfl
  cases hpasses : call.passes (call.candidate vectors row) with
  | false => simp [eligible, hpasses]
  | true =>
    have htier : (row.pattern.trustTier != .deprecated) = true := by
      cases htier : row.pattern.trustTier with
      | deprecated => simp [passes, InjectionPolicy.passes, hpattern, htier] at hpasses
      | _ => rfl
    simp [eligible, Retrieval.selects, request, hpasses, hid, hpattern, hcross, htier]

theorem Injection.filter_eligible_perm (vectors : Vectors) (call : Injection)
    (hrows : rows.Perm (table.rows.filter (call.request.selects table.observations))) :
    ((table.rows.map (call.candidate vectors)).filter (call.eligible table.observations)).Perm
      ((rows.map (call.candidate vectors)).filter call.passes) := by
  rw [List.filter_map, List.filter_map]
  apply List.Perm.map
  apply ((hrows.filter _).trans ?_).symm
  rw [List.filter_filter]
  apply List.Perm.of_eq
  apply List.filter_congr
  intro row hrow
  exact (eligible_candidate hrow).symm

theorem Injection.nodup_candidates (vectors : Vectors) (call : Injection)
    (hrows : rows.Perm (table.rows.filter (call.request.selects table.observations))) :
    (rows.map (call.candidate vectors)).Nodup := by
  have hids : (rows.map StoredPattern.id).Nodup := by
    rw [(hrows.map StoredPattern.id).nodup_iff]
    exact table.ids.sublist (List.filter_sublist.map _)
  apply List.Nodup.of_map PatternMatch.id
  rw [List.map_map]
  exact hids

theorem Injection.injectPatterns_eq (hlimit : 0 ≤ call.policy.limit)
    (hloads : ∀ row ∈ rows.take (15 * call.policy.limit).toNat,
      ∃ loaded, vectors.load row.embedding = .ok loaded) :
    call.injectPatterns vectors rows = .ok (cutTop sortKey call.passes
      (15 * call.policy.limit).toNat (3 * call.policy.limit).toNat call.policy.limit.toNat
        (rows.map (call.candidate vectors))) := by
  have hfound := mapM_eq_map fun row hrow => call.matchOf_load (hloads row hrow)
  have hrequest : call.request.limit = 3 * call.policy.limit := Int.mul_comm ..
  have hlimits : ¬ 15 * call.policy.limit < 0 := by omega
  have hrelevant : findRelevantPatterns vectors call.now call.request rows = .ok
      ((ranked sortKey ((rows.map (call.candidate vectors)).take
        (15 * call.policy.limit).toNat)).take (3 * call.policy.limit).toNat) := by
    rw [findRelevantPatterns, statementLimit_request hlimit, if_neg hlimits, hfound, hrequest,
      ← List.map_take]
    rfl
  rw [injectPatterns, hrelevant, cutTop]
  apply congrArg Except.ok
  rcases hlimit.lt_or_eq with hpos | hzero
  · have hempty : (([] : List PatternMatch).length : Int) < call.policy.limit := by simpa using hpos
    rw [call.policy.applyLoop_eq call.approved _ hempty]
    rfl
  · simp [← hzero, InjectionPolicy.applyLoop]

theorem Injection.loads_of_ok {top : List PatternMatch}
    (h : call.injectPatterns vectors rows = .ok top) :
    0 ≤ call.policy.limit ∧ ∀ row ∈ rows.take (15 * call.policy.limit).toNat,
      ∃ loaded, vectors.load row.embedding = .ok loaded := by
  obtain ⟨candidates, hcandidates, -⟩ := bind_eq_ok.mp h
  rw [findRelevantPatterns] at hcandidates
  split at hcandidates
  · cases hcandidates
  · rename_i hstatement
    have hlimit : 0 ≤ call.policy.limit := by
      unfold Retrieval.statementLimit request at hstatement
      dsimp only at hstatement
      omega
    refine ⟨hlimit, fun row hrow => ?_⟩
    rw [statementLimit_request hlimit] at hcandidates
    obtain ⟨found, hfound, -⟩ := bind_eq_ok.mp hcandidates
    exact exists_map_ok.mp (exists_mapM_ok.mp ⟨found, hfound⟩ row hrow)

/-- Injection returns the first patterns of all that are eligible exactly where its limit is not
negative, every embedding it reads has a truth value, and each of those patterns is among the rows
of the statement, with fewer than three times the limit ranked before it. -/
theorem injectPatterns_top_iff (vectors : Vectors) (call : Injection)
    (hrows : rows.Perm (table.rows.filter (call.request.selects table.observations))) :
    call.ReturnsTop vectors table (call.injectPatterns vectors rows) ↔
      0 ≤ call.policy.limit ∧
      (∀ row ∈ rows.take (15 * call.policy.limit).toNat, ∀ v, row.embedding = some v →
        (vectors.truth v).isSome = true) ∧
      ∀ m, Within sortKey call.policy.limit.toNat
          ((rows.map (call.candidate vectors)).filter call.passes) m →
        Within sortKey (3 * call.policy.limit).toNat
          ((rows.map (call.candidate vectors)).take (15 * call.policy.limit).toNat) m := by
  have hperm := call.filter_eligible_perm vectors hrows
  have hnodup := call.nodup_candidates vectors hrows
  rw [← cutTop_isTop_iff hnodup]
  constructor
  · rintro ⟨top, htop, hfirst⟩
    obtain ⟨hlimit, hloads⟩ := call.loads_of_ok htop
    rw [call.injectPatterns_eq hlimit hloads] at htop
    refine ⟨hlimit, fun row hrow => Vectors.exists_load_ok.mp (hloads row hrow), ?_⟩
    cases htop
    exact (isTop_congr hperm).mp hfirst
  · rintro ⟨hlimit, htruth, htop⟩
    have hloads : ∀ row ∈ rows.take (15 * call.policy.limit).toNat,
        ∃ loaded, vectors.load row.embedding = .ok loaded :=
      fun row hrow => Vectors.exists_load_ok.mpr (htruth row hrow)
    exact ⟨_, call.injectPatterns_eq hlimit hloads, (isTop_congr hperm).mpr htop⟩

def listVectors : Vectors where
  sqrt q := (Nat.sqrt q.num.toNat : Rat) / (Nat.sqrt q.den : Rat)
  truth v := some !v.isEmpty
  sqrt_zero := by simp
  zero_of_false h := .inl (by simpa using h)

def reinforced (id : Nat) (tier : TrustTier) (confidence : Rat) : StoredPattern where
  id := id
  pattern := { unreinforced with trustTier := tier, confidence := confidence }
  embedding := none

def unapprovedCall (limit : Int) : Injection where
  now := 0
  currentCycleId := none
  types := ["failure"]
  policy := { limit := limit }
  embedding := none
  approvalRows := fun _ => []

/-- Three curated patterns of higher confidence before one that is eligible. -/
def curatedTable : PatternTable where
  rows := [reinforced 0 .curated (95 / 100), reinforced 1 .curated (95 / 100),
    reinforced 2 .curated (95 / 100), reinforced 3 .auto (9 / 10)]
  observations := []
  ids := by decide
  charters := by decide

/-- Patterns with and without an embedding, one without approval and one below the floor. -/
def mixedTable : PatternTable where
  rows := [reinforced 0 .auto (9 / 10),
    { reinforced 1 .auto (8 / 10) with embedding := some [1, 0] }, reinforced 2 .curated (99 / 100),
    reinforced 3 .auto (3 / 10), { reinforced 4 .curated (95 / 100) with embedding := some [3, 4] }]
  observations := []
  ids := by decide
  charters := by decide

def approvedCall : Injection where
  now := 0
  currentCycleId := none
  types := ["failure"]
  policy := { limit := 2 }
  embedding := some [1, 0]
  approvalRows id := if id = 4 then [approvePattern 0 4 none none] else []

theorem injectPatterns_top_mixed : approvedCall.ReturnsTop listVectors mixedTable
    (approvedCall.injectPatterns listVectors mixedTable.rows) := by
  have hrows : mixedTable.rows.Perm
      (mixedTable.rows.filter (approvedCall.request.selects mixedTable.observations)) := by
    rw [List.filter_eq_self.mpr (by decide +kernel)]
  apply (injectPatterns_top_iff listVectors approvedCall hrows).mpr
  refine ⟨by decide, fun _ _ _ _ => rfl, ?_⟩
  rintro m ⟨before, after, heq, -⟩
  have hmem : m ∈ before ++ m :: after := by simp
  rw [← heq] at hmem
  exact within_of_length (by decide) (List.mem_of_mem_filter hmem)

theorem unapproved_hide_auto :
    (curatedTable.rows.filter ((unapprovedCall 1).request.selects curatedTable.observations) =
        curatedTable.rows) ∧
      (unapprovedCall 1).injectPatterns listVectors curatedTable.rows = .ok [] ∧
      ¬ (unapprovedCall 1).ReturnsTop listVectors curatedTable
        ((unapprovedCall 1).injectPatterns listVectors curatedTable.rows) := by
  have hnone : (unapprovedCall 1).injectPatterns listVectors curatedTable.rows = .ok [] := by
    rw [(unapprovedCall 1).injectPatterns_eq (by decide)]
    · apply congrArg Except.ok
      apply List.eq_nil_of_length_eq_zero
      decide +kernel
    · intro row hrow
      have hplain : ∀ row ∈ curatedTable.rows, row.embedding = none := by decide
      rw [hplain row (List.mem_of_mem_take hrow)]
      exact ⟨none, rfl⟩
  refine ⟨List.filter_eq_self.mpr (by decide +kernel), hnone, ?_⟩
  rintro ⟨top, htop, ranking, hperm, -, hfirst⟩
  rw [hnone] at htop
  cases htop
  have hone : ((curatedTable.rows.map ((unapprovedCall 1).candidate listVectors)).filter
      ((unapprovedCall 1).eligible curatedTable.observations)).length = 1 := by decide +kernel
  rw [← hperm.length_eq] at hone
  cases ranking with
  | nil => cases hone
  | cons m rest => cases hfirst

end Synthetos.Patterns
