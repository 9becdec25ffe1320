import Synthetos.Patterns.Consolidation
import Mathlib.Tactic.NormNum

/-!
# Pattern staleness decay

A pass demotes what has not been reinforced for too long: `auto` to `curated` at one stale window,
`curated` to `deprecated` at two.
-/

namespace Synthetos.Patterns

structure DecayOutcome where
  previousTier : TrustTier
  newTier : TrustTier
  previousStaleness : Rat
  newStaleness : Rat
  demoted : Bool
  deprecated : Bool

/-- `(now - last).total_seconds() / 86400.0`, at least zero; timestamps count microseconds. -/
def ageDays (pattern : CanonicalPattern) (now : Timestamp) : Rat :=
  max 0 (((now : Rat) - (pattern.lastReinforcedAt : Rat)) / 86400000000)

def stalenessScore (pattern : CanonicalPattern) (now : Timestamp) (maxStalenessDays : Int) : Rat :=
  if maxStalenessDays ≤ 0 then 0 else ageDays pattern now / (maxStalenessDays : Rat)

/-- `round(x, 4)`: to the nearest, ties to even. -/
def round4 (x : Rat) : Rat :=
  let low := ⌊x * 10000⌋
  let rest := x * 10000 - low
  (if rest < 1 / 2 then low else if 1 / 2 < rest then low + 1
    else if low % 2 = 0 then low else low + 1 : Int) / 10000

def decayedTier (pattern : CanonicalPattern) (score : Rat) (force : Bool) : TrustTier :=
  let newTier := if pattern.trustTier = .auto ∧ 1 ≤ score then .curated else pattern.trustTier
  let newTier := if pattern.trustTier = .curated ∧ 2 ≤ score then .deprecated else newTier
  if force && pattern.evidenceCount == 0 then .deprecated else newTier

def evaluate (pattern : CanonicalPattern) (now : Timestamp) (maxStalenessDays : Int)
    (force : Bool) : DecayOutcome :=
  let score := stalenessScore pattern now maxStalenessDays
  let newTier := decayedTier pattern score force
  { previousTier := pattern.trustTier
    newTier
    previousStaleness := pattern.stalenessScore
    newStaleness := round4 (min score 2)
    demoted := pattern.trustTier == .auto && newTier == .curated
    deprecated := newTier == .deprecated && pattern.trustTier != .deprecated }

def DecayOutcome.apply (outcome : DecayOutcome) (pattern : CanonicalPattern) : CanonicalPattern :=
  { pattern with
    stalenessScore := outcome.newStaleness
    trustTier := outcome.newTier }

/-- What a pass of `decay_patterns` leaves in the table, with the numbers of its summary. -/
structure DecayPass where
  patterns : List CanonicalPattern
  evaluated : Nat
  demoted : Nat
  deprecated : Nat

def decayPatterns (patterns : List CanonicalPattern) (now : Timestamp) (maxStalenessDays : Int)
    (force : Bool) : DecayPass :=
  let outcomes := patterns.map fun pattern => evaluate pattern now maxStalenessDays force
  { patterns := patterns.map fun pattern =>
      (evaluate pattern now maxStalenessDays force).apply pattern
    evaluated := patterns.length
    demoted := outcomes.countP DecayOutcome.demoted
    deprecated := outcomes.countP DecayOutcome.deprecated }

/-- Two stale windows old, but still to be curated. -/
def TwoWindowsBehind (now : Timestamp) (maxStalenessDays : Int) (force : Bool)
    (pattern : CanonicalPattern) : Prop :=
  pattern.trustTier = .auto ∧ 2 ≤ stalenessScore pattern now maxStalenessDays ∧
    ¬ (force = true ∧ pattern.evidenceCount = 0)

/-- A second pass at the same time leaves every row as the first left it, and none moves in both. -/
def DecaySettles (now : Timestamp) (maxStalenessDays : Int) (force : Bool)
    (patterns : List CanonicalPattern) : Prop :=
  let first := (decayPatterns patterns now maxStalenessDays force).patterns
  let second := (decayPatterns first now maxStalenessDays force).patterns
  second = first ∧ ∀ (i : Nat) (before once twice : CanonicalPattern), patterns[i]? = some before →
    first[i]? = some once → second[i]? = some twice →
      once.trustTier = before.trustTier ∨ twice.trustTier = once.trustTier

variable {pattern : CanonicalPattern} {patterns : List CanonicalPattern} {now : Timestamp}
  {maxStalenessDays : Int} {force : Bool} {score : Rat} {tier : TrustTier}

theorem decayedTier_again (htier : decayedTier pattern score force = tier) (staleness : Rat) :
    decayedTier { pattern with stalenessScore := staleness, trustTier := tier } score force = tier ↔
      ¬ (pattern.trustTier = .auto ∧ 2 ≤ score ∧ ¬ (force = true ∧ pattern.evidenceCount = 0)) := by
  subst htier
  by_cases hforced : force = true ∧ pattern.evidenceCount = 0
  · simp [decayedTier, hforced]
  · have hforced' : (force && pattern.evidenceCount == 0) = false := by simpa using hforced
    simp only [decayedTier, hforced', Bool.false_eq_true, if_false, hforced, not_false_eq_true,
      and_true]
    cases hprevious : pattern.trustTier with
    | auto =>
      by_cases hold : 2 ≤ score
      · have hstale : 1 ≤ score := le_trans (by norm_num) hold
        simp [hold, hstale]
      · by_cases hstale : 1 ≤ score <;> simp [hold, hstale]
    | curated => by_cases hold : 2 ≤ score <;> simp [hold]
    | deprecated => simp

theorem evaluate_again :
    (evaluate ((evaluate pattern now maxStalenessDays force).apply pattern) now maxStalenessDays
        force).apply ((evaluate pattern now maxStalenessDays force).apply pattern) =
      (evaluate pattern now maxStalenessDays force).apply pattern ↔
    ¬ TwoWindowsBehind now maxStalenessDays force pattern := by
  rw [TwoWindowsBehind, ← decayedTier_again rfl (round4 (min (stalenessScore pattern now
    maxStalenessDays) 2))]
  constructor
  · intro h
    exact congrArg CanonicalPattern.trustTier h
  · intro h
    have hscore : stalenessScore ((evaluate pattern now maxStalenessDays force).apply pattern) now
        maxStalenessDays = stalenessScore pattern now maxStalenessDays := rfl
    unfold DecayOutcome.apply evaluate at hscore ⊢
    simp only [hscore, h]

/-- Decay settles in one pass exactly where no row is two windows behind. -/
theorem decay_settles_iff (patterns : List CanonicalPattern) (now : Timestamp)
    (maxStalenessDays : Int) (force : Bool) :
    DecaySettles now maxStalenessDays force patterns ↔
      ∀ pattern ∈ patterns, ¬ TwoWindowsBehind now maxStalenessDays force pattern := by
  constructor
  · rintro ⟨hsame, -⟩ pattern hmem
    rw [decayPatterns, decayPatterns, List.map_map, List.map_inj_left] at hsame
    exact evaluate_again.mp (hsame pattern hmem)
  · intro hnone
    have hsame : (decayPatterns (decayPatterns patterns now maxStalenessDays force).patterns now
        maxStalenessDays force).patterns =
          (decayPatterns patterns now maxStalenessDays force).patterns := by
      rw [decayPatterns, decayPatterns, List.map_map, List.map_inj_left]
      exact fun pattern hmem => evaluate_again.mpr (hnone pattern hmem)
    refine ⟨hsame, fun i before once twice _ hfirst hsecond => .inr ?_⟩
    rewrite [hsame, hfirst] at hsecond
    exact congrArg CanonicalPattern.trustTier (Option.some.inj hsecond).symm

/-- A pattern that was last reinforced 200 days ago. -/
def unreinforced : CanonicalPattern where
  patternType := .failure
  contentKey := []
  title := []
  summary := []
  structuredBody := []
  evidenceCount := 3
  confidence := 55 / 100
  trustTier := .auto
  firstObservedAt := 0
  lastObservedAt := 0
  lastReinforcedAt := 0
  stalenessScore := 0
  sourceCharterIds := []
  consolidationVersion := 1

theorem second_pass_deprecates :
    ((decayPatterns [unreinforced] 17280000000000 90 false).patterns.map (·.trustTier) =
        [.curated]) ∧
      ((decayPatterns (decayPatterns [unreinforced] 17280000000000 90 false).patterns
        17280000000000 90 false).patterns.map (·.trustTier) = [.deprecated]) ∧
      ¬ DecaySettles 17280000000000 90 false [unreinforced] := by
  have hfirst : (decayPatterns [unreinforced] 17280000000000 90 false).patterns.map (·.trustTier) =
      [.curated] := by decide +kernel
  have hsecond : (decayPatterns (decayPatterns [unreinforced] 17280000000000 90 false).patterns
      17280000000000 90 false).patterns.map (·.trustTier) = [.deprecated] := by decide +kernel
  refine ⟨hfirst, hsecond, fun h => ?_⟩
  have hagain : [TrustTier.deprecated] = [.curated] := by
    rewrite [← hsecond, ← hfirst]
    exact congrArg (List.map (·.trustTier)) h.1
  cases hagain

end Synthetos.Patterns
