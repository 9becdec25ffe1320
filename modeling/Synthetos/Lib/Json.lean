import Mathlib.Algebra.Order.Ring.Unbundled.Rat
import Mathlib.Data.List.Sort

/-!
# JSON documents

The values of a JSON column, with the readings the host language gives them: lookup with a
default, truthiness, ordering of numbers (a `TypeError` for the rest) and conversion to text.
-/

namespace Synthetos.Lib

inductive Json where
  | null
  | bool (b : Bool)
  | int (n : Int)
  | float (q : Rat)
  | str (s : String)
  | arr (items : List Json)
  | obj (fields : List (String × Json))

/-- The fields of a JSON object; a column typed `dict` holds one of these. -/
abbrev Dict := List (String × Json)

namespace Dict

def get? (d : Dict) (key : String) : Option Json := d.lookup key

/-- `d.get(key, default)` -/
def getD (d : Dict) (key : String) (default : Json) : Json := (d.get? key).getD default

/-- `d[key] = v` -/
def set (d : Dict) (key : String) (v : Json) : Dict := (key, v) :: d.filter (·.1 != key)

/-- `d.update(new)` -/
def update (d new : Dict) : Dict := new ++ d.filter fun field => (new.get? field.1).isNone

theorem get?_set {d : Dict} {key : String} {v : Json} : (d.set key v).get? key = some v :=
  List.lookup_cons_self

theorem get?_update {d new : Dict} {key : String} {v : Json} (h : new.get? key = some v) :
    (d.update new).get? key = some v := by
  rw [get?, update, List.lookup_append, ← get?, h]
  rfl

end Dict

namespace Json

mutual

/-- Equality of documents. -/
def same : Json → Json → Bool
  | null, null => true
  | bool a, bool b => a == b
  | int a, int b => a == b
  | float a, float b => a == b
  | str a, str b => a == b
  | arr a, arr b => sameItems a b
  | obj a, obj b => sameFields a b
  | _, _ => false

def sameItems : List Json → List Json → Bool
  | [], [] => true
  | a :: as, b :: bs => same a b && sameItems as bs
  | _, _ => false

def sameFields : List (String × Json) → List (String × Json) → Bool
  | [], [] => true
  | (k, a) :: as, (l, b) :: bs => k == l && same a b && sameFields as bs
  | _, _ => false

end

/-- `bool(v)` -/
def truthy : Json → Bool
  | null => false
  | bool b => b
  | int n => n != 0
  | float q => q != 0
  | str s => s != ""
  | arr items => !items.isEmpty
  | obj fields => !fields.isEmpty

/-- The numeric reading of a value; booleans are the integers 0 and 1. -/
def number? : Json → Option Rat
  | bool b => some (if b then 1 else 0)
  | int n => some n
  | float q => some q
  | _ => none

/-- `a > b`, which raises unless both sides are numbers. -/
def gt (a b : Json) : Except String Bool :=
  match a.number?, b.number? with
  | some x, some y => .ok (decide (y < x))
  | _, _ => .error "TypeError: '>' not supported between instances"

/-! ### The text of a float -/

/-- `b ^ e` -/
def power (b : Nat) (e : Int) : Rat :=
  if 0 ≤ e then (b.pow e.toNat : Nat) else mkRat 1 (b.pow (-e).toNat)

/-- The exponent of the leading digit of a positive number. -/
def floorLog (b : Nat) (q : Rat) : Int :=
  let e : Int := (Nat.toDigits b q.num.natAbs).length - (Nat.toDigits b q.den).length
  if q < power b e then e - 1 else e

/-- Half-way cases go to the even neighbour. -/
def roundEven (q : Rat) : Int :=
  let low := q.floor
  if q - low < 1 / 2 ∨ q - low = 1 / 2 ∧ low % 2 = 0 then low else low + 1

/-- The double nearest to a positive number, as if there were no largest one. -/
def nearestDouble (q : Rat) : Rat :=
  let ulp := power 2 (max (floorLog 2 q - 52) (-1074))
  roundEven (q / ulp) * ulp

/-- The fewest digits that are read back as the double, the nearer ones first, with the exponent of
the last digit. -/
def shortestDigits (double : Rat) : Nat × Int :=
  let candidates := (List.range 17).flatMap fun behind =>
    let last := floorLog 10 double - behind
    let scaled := double / power 10 last
    let low := scaled.floor.toNat
    (if scaled - low ≤ 1 / 2 then [low, low + 1] else [low + 1, low]).map fun n => (n, last)
  (candidates.find? fun c => nearestDouble (c.1 * power 10 c.2) == double).getD (0, 0)

/-- Digits with the decimal point behind the first `point` of them. -/
def positional (digits : List Char) (point : Int) : List Char :=
  if point ≤ 0 then "0.".toList ++ List.replicate (-point).toNat '0' ++ digits
  else if digits.length ≤ point.toNat then
    digits ++ List.replicate (point.toNat - digits.length) '0' ++ ".0".toList
  else digits.take point.toNat ++ '.' :: digits.drop point.toNat

def scientific (digits : List Char) (exponent : Int) : List Char :=
  let size := (toString exponent.natAbs).toList
  digits.take 1 ++ (if 1 < digits.length then '.' :: digits.drop 1 else []) ++
    ['e', if exponent < 0 then '-' else '+'] ++ (if size.length = 1 then '0' :: size else size)

/-- `float.__repr__` -/
def floatChars (q : Rat) : List Char :=
  if q = 0 then "0.0".toList else
  let (number, last) := shortestDigits (nearestDouble (if q < 0 then -q else q))
  let text := (toString number).toList
  let digits := (text.reverse.dropWhile (· == '0')).reverse
  let point := text.length + last
  (if q < 0 then ['-'] else []) ++
    if -4 < point ∧ point ≤ 16 then positional digits point else scientific digits (point - 1)

example : [1 / 2, 1 / 10, -7 / 5, 2 ^ 53, 10 ^ 16, 1 / 100000, 1 / 2 ^ 44].map floatChars =
    ["0.5", "0.1", "-1.4", "9007199254740992.0", "1e+16", "1e-05",
      "5.684341886080802e-14"].map String.toList := by decide +kernel

/-- Escape one character of a string literal quoted by `q`. -/
def escapeChar (q c : Char) : List Char :=
  if c = q ∨ c = '\\' then ['\\', c]
  else if c = '\n' then ['\\', 'n']
  else if c = '\r' then ['\\', 'r']
  else if c = '\t' then ['\\', 't']
  else [c]

def quoteOf (s : List Char) : Char := if s.contains '\'' && !s.contains '"' then '"' else '\''

def reprString (s : String) : List Char :=
  let q := quoteOf s.toList
  q :: (s.toList.flatMap (escapeChar q) ++ [q])

mutual

/-- `repr(v)`, as a list of characters. -/
def reprChars : Json → List Char
  | null => "None".toList
  | bool b => if b then "True".toList else "False".toList
  | int n => (toString n).toList
  | float q => floatChars q
  | str s => reprString s
  | arr items => '[' :: (reprItems items ++ [']'])
  | obj fields => '{' :: (reprFields fields ++ ['}'])

def reprItems : List Json → List Char
  | [] => []
  | [v] => reprChars v
  | v :: rest => reprChars v ++ ", ".toList ++ reprItems rest

def reprFields : List (String × Json) → List Char
  | [] => []
  | [(k, v)] => reprString k ++ ": ".toList ++ reprChars v
  | (k, v) :: rest => reprString k ++ ": ".toList ++ reprChars v ++ ", ".toList ++ reprFields rest

end

/-- `str(v)`: a string is itself, every other value its `repr`. -/
def strChars : Json → List Char
  | str s => s.toList
  | v => reprChars v

mutual

/-- Keys sorted at every level; equal canonical documents have equal `sort_keys` dumps. -/
def canonical : Json → Json
  | arr items => arr (canonicalItems items)
  | obj fields => obj ((canonicalFields fields).insertionSort fun a b => a.1 ≤ b.1)
  | v => v

def canonicalItems : List Json → List Json
  | [] => []
  | v :: rest => canonical v :: canonicalItems rest

def canonicalFields : List (String × Json) → List (String × Json)
  | [] => []
  | (k, v) :: rest => (k, canonical v) :: canonicalFields rest

end

end Json

/-- `needle in hay` for texts. -/
def containsText (needle hay : List Char) : Bool :=
  hay.tails.any fun suffix => needle.isPrefixOf suffix

end Synthetos.Lib
