import Synthetos.Autonomy.Lifecycle
import Synthetos.Lib.Fields
import Synthetos.Lib.JsonDump

/-!
# Repetition detection

Exact duplicates are found by fingerprint, near-duplicates by comparing the numbers of the
controls.
-/

namespace Synthetos.Autonomy

open Synthetos.Core Storage Lib

/-- `float.__repr__`, the hexadecimal SHA-256 digest, and the float nearest to a number, `none` where
that is too large for one. -/
structure Encoder where
  floatText : Rat → List Char
  sha256 : List Char → String
  nearest : Rat → Option Rat

structure Encoder.Lawful (e : Encoder) : Prop where
  floats : Json.FloatText e.floatText
  collisionFree : Function.Injective e.sha256

structure SpecFields where
  codePlan : Json
  controls : Json
  metrics : Json
  baseline : Json

def SpecFields.ofSpec (spec : ExperimentSpec) : SpecFields where
  codePlan := (spec.codePlan.map Json.obj).getD .null
  controls := (spec.controls.map Json.arr).getD .null
  metrics := .arr (spec.metrics.map Json.obj)
  baseline := .obj spec.baseline

def SpecFields.json (fields : SpecFields) : Json :=
  .obj [("code_plan", fields.codePlan), ("controls", fields.controls),
    ("metrics", fields.metrics), ("baseline", fields.baseline)]

/-- `_canonicalize`: `json.dumps` with sorted keys.  Floats have a text of their own, so the
`default` hook is not asked about them. -/
def canonicalize (e : Encoder) (v : Json) : List Char := Json.dump e.floatText v.canonical

def fingerprint (e : Encoder) (fields : SpecFields) : String :=
  e.sha256 (canonicalize e fields.json)

/-- The document compared once the controls are left out. -/
def controlsExcluded (fields : SpecFields) : Json :=
  .obj [("code_plan", fields.codePlan), ("metrics", fields.metrics), ("baseline", fields.baseline)]

mutual

/-- The leaves `isinstance(obj, (int, float))` holds of, booleans included. -/
def numericLeaves : Json → List Json
  | .bool b => [.bool b]
  | .int n => [.int n]
  | .float q => [.float q]
  | .arr items => numericItems items
  | .obj fields => numericFields fields
  | _ => []

def numericItems : List Json → List Json
  | [] => []
  | v :: rest => numericLeaves v ++ numericItems rest

def numericFields : List (String × Json) → List Json
  | [] => []
  | (_, v) :: rest => numericLeaves v ++ numericFields rest

end

/-- `float(obj)` of a numeric leaf. -/
def leafNumber (e : Encoder) : Json → Except String Rat
  | .bool b => .ok (if b then 1 else 0)
  | .int n =>
    match e.nearest n with
    | some q => .ok q
    | none => .error "OverflowError: int too large to convert to float"
  | .float q => .ok q
  | _ => .error "TypeError: float() argument must be a string or a real number"

/-- Recursively extract all numeric values from a nested structure, by sorted keys. -/
def extractNumbers (e : Encoder) (v : Json) : Except String (List Rat) :=
  (numericLeaves v.canonical).mapM (leafNumber e)

/-- One pair of floats of the tolerance check; the difference and the quotient are floats. -/
def withinTolerance (e : Encoder) (tolerance a b : Rat) : Bool :=
  if a = 0 ∧ b = 0 then true
  else if max |a| |b| = 0 then true
  else match (e.nearest (a - b)).bind fun d => e.nearest (|d| / max |a| |b|) with
  | some quotient => !decide (tolerance < quotient)
  | none => false

def numbersWithin (e : Encoder) (tolerance : Rat) (numsA numsB : List Rat) : Bool :=
  if numsA.length ≠ numsB.length then false
  else if numsA.isEmpty then false
  else (numsA.zip numsB).all fun pair => withinTolerance e tolerance pair.1 pair.2

/-- The float `0.01`. -/
def defaultTolerance (e : Encoder) : Rat := (e.nearest (1 / 100)).getD (1 / 100)

def controlsWithinTolerance (e : Encoder) (tolerance : Rat) :
    Option (List Json) → Option (List Json) → Except String Bool
  | none, none => .ok true
  | some a, some b =>
    if a.length ≠ b.length then .ok false
    else if canonicalize e (.arr a) = canonicalize e (.arr b) then .ok true
    else do
      let numsA ← extractNumbers e (.arr a)
      let numsB ← extractNumbers e (.arr b)
      return numbersWithin e tolerance numsA numsB
  | _, _ => .ok false

inductive MatchType where
  | exact
  | nearDuplicate
  deriving DecidableEq, Repr

structure RepetitionResult where
  isDuplicate : Bool
  isNearDuplicate : Bool
  priorSpecId : Option SpecId := none
  matchType : Option MatchType := none

/-- The other validated specs of a cycle, with their ids. -/
def priorRows (db : Db) (cycle : CycleId) (current : SpecId) : List (ExperimentSpec × SpecId) :=
  db.specs.zipIdx.filter fun row =>
    row.1.cycleId == cycle && row.2 != current && row.1.status == .validated

def detectNearDuplicate (e : Encoder) (current : ExperimentSpec) :
    List (ExperimentSpec × SpecId) → Except String RepetitionResult
  | [] => .ok ⟨false, false, none, none⟩
  | (prior, id) :: rest => do
    if canonicalize e (controlsExcluded (.ofSpec current)) =
        canonicalize e (controlsExcluded (.ofSpec prior)) then
      if ← controlsWithinTolerance e (defaultTolerance e) current.controls prior.controls then
        return ⟨false, true, some id, some .nearDuplicate⟩
    detectNearDuplicate e current rest

def detectRepetition (e : Encoder) (db : Db) (cycle : CycleId) (currentId : SpecId)
    (current : ExperimentSpec) : Except String RepetitionResult :=
  let rows := priorRows db cycle currentId
  match rows.find? fun row =>
      fingerprint e (.ofSpec current) == fingerprint e (.ofSpec row.1) with
  | some row => .ok ⟨true, false, some row.2, some .exact⟩
  | none => detectNearDuplicate e current rows

variable {e : Encoder} {s t : SpecFields}

/-! ### Fingerprints -/

/-- The fields agree once their keys are sorted. -/
structure Agree (s t : SpecFields) : Prop where
  codePlan : s.codePlan.canonical = t.codePlan.canonical
  controls : s.controls.canonical = t.controls.canonical
  metrics : s.metrics.canonical = t.metrics.canonical
  baseline : s.baseline.canonical = t.baseline.canonical

/-- `round(q, 6)`: to the nearest, ties to even. -/
def roundSix (q : Rat) : Rat :=
  let scaled := q * 1000000
  let low := scaled.floor
  let rest := scaled - low
  (if rest < 1 / 2 then low else if 1 / 2 < rest then low + 1
    else if low % 2 = 0 then low else low + 1 : Int) / 1000000

mutual

def rounded : Json → Json
  | .float q => .float (roundSix q)
  | .arr items => .arr (roundedItems items)
  | .obj fields => .obj (roundedFields fields)
  | v => v

def roundedItems : List Json → List Json
  | [] => []
  | v :: rest => rounded v :: roundedItems rest

def roundedFields : List (String × Json) → List (String × Json)
  | [] => []
  | (k, v) :: rest => (k, rounded v) :: roundedFields rest

end

/-- The fields agree once their keys are sorted and their floats rounded to six decimals. -/
structure AgreeRounded (s t : SpecFields) : Prop where
  codePlan : rounded s.codePlan.canonical = rounded t.codePlan.canonical
  controls : rounded s.controls.canonical = rounded t.controls.canonical
  metrics : rounded s.metrics.canonical = rounded t.metrics.canonical
  baseline : rounded s.baseline.canonical = rounded t.baseline.canonical

theorem Agree.rounded (h : Agree s t) : AgreeRounded s t where
  codePlan := congrArg Autonomy.rounded h.codePlan
  controls := congrArg Autonomy.rounded h.controls
  metrics := congrArg Autonomy.rounded h.metrics
  baseline := congrArg Autonomy.rounded h.baseline

theorem canonical_json (fields : SpecFields) : fields.json.canonical =
    .obj [("baseline", fields.baseline.canonical), ("code_plan", fields.codePlan.canonical),
      ("controls", fields.controls.canonical), ("metrics", fields.metrics.canonical)] := by
  have hplan : ("code_plan" : String) ≤ "controls" := by decide
  have hmetrics : ("controls" : String) ≤ "metrics" := by decide
  have hbaseline : ¬ ("code_plan" : String) ≤ "baseline" ∧ ¬ ("controls" : String) ≤ "baseline" ∧
      ¬ ("metrics" : String) ≤ "baseline" := by decide
  simp only [SpecFields.json, Json.canonical, Json.canonicalFields, List.insertionSort, List.foldr,
    List.orderedInsert, hplan, hmetrics, hbaseline, if_true, if_false]

theorem agree_iff : s.json.canonical = t.json.canonical ↔ Agree s t := by
  rw [canonical_json, canonical_json]
  constructor
  · intro h
    simp only [Json.obj.injEq, List.cons.injEq, Prod.mk.injEq, true_and, and_true] at h
    obtain ⟨hbaseline, hcodePlan, hcontrols, hmetrics⟩ := h
    exact ⟨hcodePlan, hcontrols, hmetrics, hbaseline⟩
  · rintro ⟨hcodePlan, hcontrols, hmetrics, hbaseline⟩
    rw [hcodePlan, hcontrols, hmetrics, hbaseline]

theorem canonicalize_inj (he : e.Lawful) {v w : Json} :
    canonicalize e v = canonicalize e w ↔ v.canonical = w.canonical :=
  (Json.dump_injective he.floats).eq_iff

theorem fingerprint_eq_iff (he : e.Lawful) : fingerprint e s = fingerprint e t ↔ Agree s t := by
  rw [fingerprint, fingerprint, he.collisionFree.eq_iff, canonicalize_inj he, agree_iff]

/-- Fingerprints identify specs up to rounding, except where rounding alone makes them agree. -/
theorem fingerprint_rounded_iff (he : e.Lawful) (s t : SpecFields) :
    (fingerprint e s = fingerprint e t ↔ AgreeRounded s t) ↔ (AgreeRounded s t → Agree s t) := by
  rw [fingerprint_eq_iff he]
  exact ⟨fun h => h.mpr, fun h => ⟨Agree.rounded, h⟩⟩

/-- Floats without a fraction as the host language writes them, up to `1e16`; the others by
numerator and denominator. -/
def wholeFloatText (q : Rat) : List Char :=
  (toString q.num).toList ++ if q.den = 1 then ['.', '0'] else 'e' :: (toString q.den).toList

theorem wholeFloatText_floatText : Json.FloatText wholeFloatText := by
  have notInt (n : Int) (c : Char) (hc : c = '.' ∨ c = 'e') : c ∉ (toString n).toList := by
    intro hmem
    rcases Json.isNumeral_int hmem with h | rfl
    · rcases hc with rfl | rfl <;> exact absurd h (by decide)
    · rcases hc with hc | hc <;> exact absurd hc (by decide)
  have notNat (n : Nat) (c : Char) (hc : c = '.' ∨ c = 'e') : c ∉ (toString n).toList :=
    notInt n c hc
  constructor
  · intro p q h
    unfold wholeFloatText at h
    split at h <;> split at h
    · rename_i hp hq
      exact Rat.ext (Json.toString_int_inj (List.append_cancel_right h)) (hp.trans hq.symm)
    · obtain ⟨-, hmark, -⟩ := (List.append_cons_inj_of_notMem (notInt _ 'e' (.inr rfl))
        (by decide)).mp h
      exact absurd hmark (by decide)
    · obtain ⟨-, hmark, -⟩ := (List.append_cons_inj_of_notMem (notInt _ '.' (.inl rfl))
        (notNat _ '.' (.inl rfl))).mp h
      exact absurd hmark (by decide)
    · obtain ⟨hnum, -, hden⟩ := (List.append_cons_inj_of_notMem (notInt _ 'e' (.inr rfl))
        (notNat _ 'e' (.inr rfl))).mp h
      have hden' : (p.den : Int) = q.den := Json.toString_int_inj hden
      exact Rat.ext (Json.toString_int_inj hnum) (by exact_mod_cast hden')
  · intro q c hc
    unfold wholeFloatText at hc
    rcases List.mem_append.mp hc with hc | hc
    · exact Json.int_numeral _ c hc
    · split at hc
      · simp only [List.mem_cons, List.not_mem_nil, or_false] at hc
        rcases hc with rfl | rfl <;> rfl
      · rcases List.mem_cons.mp hc with rfl | hc
        · rfl
        · exact Json.int_numeral q.den c hc
  · intro q
    unfold wholeFloatText
    split
    · exact .inl (List.mem_append_right _ List.mem_cons_self)
    · exact .inr (List.mem_append_right _ List.mem_cons_self)

/-- An encoder whose floats are all rationals. -/
def wholeEncoder : Encoder := ⟨wholeFloatText, String.ofList, some⟩

theorem wholeEncoder_lawful : wholeEncoder.Lawful where
  floats := wholeFloatText_floatText
  collisionFree := fun _ _ h => String.ofList_inj.mp h

/-- Specs that differ in their controls alone. -/
def withControls (controls : List Json) : SpecFields :=
  { codePlan := .obj [("entry_point", .str "run.py")], controls := .arr controls
    metrics := .arr [], baseline := .obj [] }

theorem fingerprint_whole_floats :
    fingerprint wholeEncoder (withControls [.obj [("lr", .float 1)]]) ≠
      fingerprint wholeEncoder (withControls [.obj [("lr", .float 2)]]) := by
  have hdiffer : ¬ AgreeRounded (withControls [.obj [("lr", .float 1)]])
      (withControls [.obj [("lr", .float 2)]]) := by
    intro h
    have hcontrols := Json.same_iff.mpr h.controls
    exact absurd hcontrols (by decide +kernel)
  exact fun heq => hdiffer (((fingerprint_rounded_iff wholeEncoder_lawful _ _).mpr
    fun h => absurd h hdiffer).mp heq)

/-- Two learning rates that are equal to six decimals have different fingerprints. -/
theorem fingerprint_not_rounded : ∃ s t, AgreeRounded s t ∧
    ∀ e : Encoder, e.Lawful → fingerprint e s ≠ fingerprint e t := by
  refine ⟨withControls [.obj [("lr", .float (1 / 100))]],
    withControls [.obj [("lr", .float (100000001 / 10000000000))]], ⟨rfl, ?_, rfl, rfl⟩, ?_⟩
  · exact Json.eq_of_same (by decide +kernel)
  · intro e he heq
    have hcontrols := Json.same_iff.mpr ((fingerprint_eq_iff he).mp heq).controls
    exact absurd hcontrols (by decide +kernel)

end Synthetos.Autonomy
