import Synthetos.Lib.Json
import Mathlib.Algebra.GroupWithZero.Nat

/-!
# Floats

The floats of the host language: rationals, the two infinities and the value that is no number.
-/

namespace Synthetos.Lib

inductive Floating where
  | finite (q : Rat)
  | infinite (negative : Bool)
  | nan
  deriving DecidableEq, Repr

namespace Floating

/-- `a <= b` -/
def le : Floating → Floating → Bool
  | nan, _ => false
  | _, nan => false
  | infinite true, _ => true
  | _, infinite false => true
  | finite a, finite b => decide (a ≤ b)
  | _, _ => false

/-- `value - b` for a finite `value`. -/
def deltaFrom (value : Rat) : Floating → Floating
  | finite b => finite (value - b)
  | infinite negative => infinite !negative
  | nan => nan

@[simp] theorem le_finite (a b : Rat) : (finite a).le (finite b) = decide (a ≤ b) := rfl

end Floating

/-- Integers from here on have no float: they round to the power of two after the largest one. -/
@[irreducible] def floatLimit : Nat := 2 ^ 1024 - 2 ^ 970

/-- `float(v)`; `numeral` reads a text, `none` where the host raises a `ValueError`. -/
def float (numeral : String → Option Floating) : Json → Except String Floating
  | .bool b => .ok (.finite (if b then 1 else 0))
  | .int n =>
    if n.natAbs < floatLimit then .ok (.finite n)
    else .error "OverflowError: int too large to convert to float"
  | .float q => .ok (.finite q)
  | .str s => match numeral s with
    | some x => .ok x
    | none => .error "ValueError: could not convert string to float"
  | _ => .error "TypeError: float() argument must be a string or a real number"

end Synthetos.Lib
