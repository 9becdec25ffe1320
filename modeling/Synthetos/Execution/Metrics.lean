import Synthetos.Lib.Fields
import Synthetos.Lib.JsonText
import Mathlib.Data.List.Lex

/-!
# The metric contract

Experiment containers write their metrics to `metrics.json`; `parse_metrics` reads that file and
holds it against the metrics of the spec.
-/

namespace Synthetos.Execution

open Lib JsonText

inductive MetricsFile where
  | missing
  | unreadable  -- reading it raises an `OSError`
  | content (bytes : List UInt8)

/-- `metrics_path.read_text(encoding="utf-8")` -/
def decode (bytes : List UInt8) : Option (List Char) :=
  (ByteArray.mk bytes.toArray).utf8Decode?.map Array.toList

inductive MetricError where
  | fileMissing
  | corrupt
  | notObject
  | notNumeric (key : CodePoints)
  | notFinite (key : CodePoints)
  | expectedMissing (name : Json)

structure ParsedMetrics where
  values : List (CodePoints × Rat) := []
  warnings : List CodePoints := []
  errors : List MetricError := []

def codePoints (name : String) : CodePoints := name.toList.map Char.toNat

/-- The value of a key in a Python dictionary: the last one written. -/
def valueAt? (fields : List (CodePoints × Document)) (key : CodePoints) : Option Document :=
  fields.reverse.lookup key

/-- `raw.items()`: keys in the order of their first appearance, each with its last value. -/
def items (fields : List (CodePoints × Document)) : List (CodePoints × Document) :=
  (fields.map Prod.fst).eraseDups.filterMap fun key => (valueAt? fields key).map fun v => (key, v)

inductive Reading where
  | finite (q : Rat)
  | notFinite
  | notNumeric

/-- The loop body: integers (`True` and `False` are integers) become floats. -/
def readValue (limits : Limits) : Document → Except Raised Reading
  | .int n => match limits.round n with
    | .finite q => .ok (.finite q)
    | _ => .error .overflow
  | .bool b => .ok (.finite (if b then 1 else 0))
  | .float (.finite q) => .ok (.finite q)
  | .float _ => .ok .notFinite
  | _ => .ok .notNumeric

def valueOf (row : CodePoints × Reading) : Option (CodePoints × Rat) :=
  match row.2 with
  | .finite q => some (row.1, q)
  | _ => none

def errorOf (row : CodePoints × Reading) : Option MetricError :=
  match row.2 with
  | .finite _ => none
  | .notFinite => some (.notFinite row.1)
  | .notNumeric => some (.notNumeric row.1)

/-- `m["name"] for m in expected_metrics if "name" in m` -/
def expectedNames (expectedMetrics : List Dict) : List Json :=
  expectedMetrics.filterMap fun metric => Dict.get? metric "name"

def distinct : List Json → List Json
  | [] => []
  | name :: rest =>
    if (distinct rest).any name.same then distinct rest else name :: distinct rest

def present (values : List (CodePoints × Rat)) : Json → Bool
  | .str name => (values.lookup (codePoints name)).isSome
  | _ => false

/-- The part of `parse_metrics` behind a file that holds an object. -/
def parseObject (limits : Limits) (fields : List (CodePoints × Document))
    (expectedMetrics : List Dict) : Except Raised ParsedMetrics := do
  let names := expectedNames expectedMetrics
  if !names.all hashable then throw .unhashable
  let rows ← (items fields).mapM fun row => (readValue limits row.2).map fun v => (row.1, v)
  let values := rows.filterMap valueOf
  let isExpected (key : CodePoints) : Bool := names.any fun name => match name with
    | .str s => codePoints s == key
    | _ => false
  return { values
           warnings := ((values.map Prod.fst).filter fun key => !isExpected key).insertionSort
             fun a b => a ≤ b
           errors := rows.filterMap errorOf ++
             ((distinct names).filter fun name => !present values name).map .expectedMissing }

def parseMetrics (limits : Limits) (file : MetricsFile) (expectedMetrics : List Dict) :
    Except Raised ParsedMetrics :=
  match file with
  | .missing => .ok { errors := [.fileMissing] }
  | .unreadable => .ok { errors := [.corrupt] }
  | .content bytes => match decode bytes with
    | none => .error .unicodeDecode
    | some text => match loads limits text with
      | .error .jsonDecode => .ok { errors := [.corrupt] }
      | .error e => .error e
      | .ok (.obj fields) => parseObject limits fields expectedMetrics
      | .ok _ => .ok { errors := [.notObject] }

end Synthetos.Execution
