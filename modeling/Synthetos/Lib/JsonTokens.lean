import Synthetos.Lib.Floating

/-!
# The parts of a JSON text

Strings, numbers and constants as the host language's `json` module reads them.  Texts inside a
document are lists of code points: an escape may name half of a surrogate pair.
-/

namespace Synthetos.Lib.JsonText

/-- What reading a document may raise. -/
inductive Raised where
  | jsonDecode
  | unicodeDecode
  | recursion
  | intDigits  -- `ValueError`: too many digits for `int()`
  | overflow   -- `OverflowError`: no float for the integer
  | unhashable
  deriving DecidableEq, Repr

/-- The limits of the interpreter, and the float nearest to a number. -/
structure Limits where
  maxDigits : Nat
  maxDepth : Nat
  round : Rat → Floating

abbrev CodePoints := List Nat

inductive Document where
  | null
  | bool (b : Bool)
  | int (n : Int)
  | float (x : Floating)
  | str (text : CodePoints)
  | arr (items : List Document)
  | obj (fields : List (CodePoints × Document))

/-! ### Strings -/

def hexDigit? (c : Char) : Option Nat :=
  if c.isDigit then some (c.toNat - 48)
  else if 'a' ≤ c ∧ c ≤ 'f' then some (c.toNat - 87)
  else if 'A' ≤ c ∧ c ≤ 'F' then some (c.toNat - 55)
  else none

/-- The code unit of `\uXXXX`. -/
def codeUnit? (a b c d : Char) : Option Nat := do
  return ((← hexDigit? a) * 16 + (← hexDigit? b)) * 256 + ((← hexDigit? c) * 16 + (← hexDigit? d))

def simpleEscape? : Char → Option Nat
  | '"' => some 34
  | '\\' => some 92
  | '/' => some 47
  | 'b' => some 8
  | 'f' => some 12
  | 'n' => some 10
  | 'r' => some 13
  | 't' => some 9
  | _ => none

/-- One more unit in front of a scanned string. -/
def consUnit (unit : Option Nat) (scanned : Option (List Nat × List Char)) :
    Option (List Nat × List Char) :=
  match unit, scanned with
  | some unit, some (units, behind) => some (unit :: units, behind)
  | _, _ => none

/-- The units of a string up to its closing quote, and the text behind it. -/
def scanUnits : List Char → Option (List Nat × List Char)
  | [] => none
  | '"' :: rest => some ([], rest)
  | '\\' :: 'u' :: a :: b :: c :: d :: rest => consUnit (codeUnit? a b c d) (scanUnits rest)
  | '\\' :: escape :: rest => consUnit (simpleEscape? escape) (scanUnits rest)
  | c :: rest =>
    consUnit (if c.toNat < 32 ∨ c = '\\' then none else some c.toNat) (scanUnits rest)

def isHighSurrogate (unit : Nat) : Bool := 0xD800 ≤ unit && unit < 0xDC00

def isLowSurrogate (unit : Nat) : Bool := 0xDC00 ≤ unit && unit < 0xE000

/-- A surrogate pair is one code point; half of a pair stays as it is. -/
def joinSurrogates : List Nat → CodePoints
  | high :: low :: rest =>
    if isHighSurrogate high && isLowSurrogate low then
      (0x10000 + (high - 0xD800) * 1024 + (low - 0xDC00)) :: joinSurrogates rest
    else high :: joinSurrogates (low :: rest)
  | units => units

/-- `scanstring`, behind the opening quote. -/
def scanString (text : List Char) : Option (CodePoints × List Char) :=
  (scanUnits text).map fun (units, behind) => (joinSurrogates units, behind)

/-! ### Numbers and constants -/

structure NumberText where
  negative : Bool
  digits : List Char
  fraction : List Char
  exponent : Option (Bool × List Char)

def isDigit (c : Char) : Bool := c.isDigit

def signed : List Char → Bool × List Char
  | '-' :: rest => (true, rest)
  | '+' :: rest => (false, rest)
  | text => (false, text)

def matchExponent (text : List Char) : Option (Bool × List Char) × List Char :=
  match text with
  | [] => (none, [])
  | e :: rest =>
    let digits := (signed rest).2.takeWhile isDigit
    if (e = 'e' ∨ e = 'E') ∧ digits ≠ [] then
      (some ((signed rest).1, digits), (signed rest).2.dropWhile isDigit)
    else (none, text)

/-- A decimal point with at least one digit behind it. -/
def matchFraction (text : List Char) : List Char × List Char :=
  match text with
  | '.' :: rest =>
    if rest.takeWhile isDigit ≠ [] then (rest.takeWhile isDigit, rest.dropWhile isDigit)
    else ([], text)
  | _ => ([], text)

/-- The integer part: a zero alone, or digits that do not start with one. -/
def matchDigits (text : List Char) : List Char × List Char :=
  match text with
  | '0' :: rest => (['0'], rest)
  | _ => (text.takeWhile isDigit, text.dropWhile isDigit)

def matchNumber (text : List Char) : Option (NumberText × List Char) :=
  let (negative, unsigned) := match text with
    | '-' :: rest => (true, rest)
    | _ => (false, text)
  let (digits, behindDigits) := matchDigits unsigned
  if digits = [] then none
  else
    let (fraction, behindFraction) := matchFraction behindDigits
    let (exponent, behind) := matchExponent behindFraction
    some (⟨negative, digits, fraction, exponent⟩, behind)

def digitsValue (digits : List Char) : Nat := digits.foldl (fun n c => 10 * n + (c.toNat - 48)) 0

def NumberText.value (number : NumberText) : Rat :=
  let magnitude : Rat :=
    digitsValue (number.digits ++ number.fraction) / 10 ^ number.fraction.length
  let scaled := match number.exponent with
    | some (true, digits) => magnitude / 10 ^ digitsValue digits
    | some (false, digits) => magnitude * 10 ^ digitsValue digits
    | none => magnitude
  if number.negative then -scaled else scaled

/-- An integer without fraction and exponent, a float otherwise. -/
def NumberText.document (limits : Limits) (number : NumberText) : Except Raised Document :=
  if number.fraction = [] ∧ number.exponent.isNone then
    if limits.maxDigits < number.digits.length then .error .intDigits
    else .ok (.int (if number.negative then -digitsValue number.digits
      else digitsValue number.digits))
  else .ok (.float (limits.round number.value))

def constants : List (List Char × Document) :=
  [("null".toList, .null), ("true".toList, .bool true), ("false".toList, .bool false),
    ("NaN".toList, .float .nan), ("Infinity".toList, .float (.infinite false)),
    ("-Infinity".toList, .float (.infinite true))]

def matchConstant (text : List Char) : Option (Document × List Char) :=
  constants.findSome? fun (word, document) =>
    if word.isPrefixOf text then some (document, text.drop word.length) else none

/-! ### Every piece takes a character -/

theorem consUnit_eq_some {unit : Option Nat} {scanned : Option (List Nat × List Char)}
    {units : List Nat} {behind : List Char} (h : consUnit unit scanned = some (units, behind)) :
    ∃ units', scanned = some (units', behind) := by
  unfold consUnit at h
  split at h
  · cases h
    exact ⟨_, rfl⟩
  · cases h

theorem scanUnits_shorter {text : List Char} {units : List Nat} {behind : List Char}
    (h : scanUnits text = some (units, behind)) : behind.length < text.length := by
  induction text using scanUnits.induct generalizing units with
  | case1 => cases h
  | case2 rest =>
    cases h
    exact Nat.lt_succ_self _
  | case3 a b c d rest ih =>
    obtain ⟨units', hrest⟩ := consUnit_eq_some h
    have hlt := ih hrest
    simp only [List.length_cons]
    omega
  | case4 escape rest hescape ih =>
    rw [scanUnits] at h
    · obtain ⟨units', hrest⟩ := consUnit_eq_some h
      have hlt := ih hrest
      simp only [List.length_cons]
      omega
    · exact hescape
  | case5 c rest hquote hunit hescape ih =>
    rw [scanUnits] at h
    · obtain ⟨units', hrest⟩ := consUnit_eq_some h
      have hlt := ih hrest
      simp only [List.length_cons]
      omega
    all_goals assumption

theorem scanString_shorter {text : List Char} {found : CodePoints} {behind : List Char}
    (h : scanString text = some (found, behind)) : behind.length < text.length := by
  obtain ⟨⟨units, behind'⟩, hunits, heq⟩ := Option.map_eq_some_iff.mp h
  cases heq
  exact scanUnits_shorter hunits

theorem matchDigits_length (text : List Char) :
    (matchDigits text).1.length + (matchDigits text).2.length = text.length := by
  unfold matchDigits
  split
  · simp only [List.length_cons, List.length_nil]
    omega
  · rw [← List.length_append, List.takeWhile_append_dropWhile]

theorem matchFraction_le (text : List Char) : (matchFraction text).2.length ≤ text.length := by
  unfold matchFraction
  split
  · next rest =>
    have hle : (rest.dropWhile isDigit).length ≤ rest.length :=
      (List.dropWhile_suffix _).length_le
    split <;> simp only [List.length_cons] <;> omega
  · exact Nat.le_refl _

theorem signed_le (text : List Char) : (signed text).2.length ≤ text.length := by
  unfold signed
  split <;> simp

theorem matchExponent_le (text : List Char) : (matchExponent text).2.length ≤ text.length := by
  unfold matchExponent
  split
  · exact Nat.le_refl _
  · next e rest =>
    have hle : ((signed rest).2.dropWhile isDigit).length ≤ (signed rest).2.length :=
      (List.dropWhile_suffix _).length_le
    have hsigned := signed_le rest
    dsimp only
    split <;> simp only [List.length_cons] <;> omega

theorem matchNumber_shorter {text behind : List Char} {number : NumberText}
    (h : matchNumber text = some (number, behind)) : behind.length < text.length := by
  obtain ⟨negative, unsigned, hunsigned, hle⟩ : ∃ negative unsigned,
      (match text with
        | '-' :: rest => (true, rest)
        | _ => (false, text)) = (negative, unsigned) ∧ unsigned.length ≤ text.length := by
    split
    · exact ⟨_, _, rfl, by simp⟩
    · exact ⟨_, _, rfl, Nat.le_refl _⟩
  have hdigits := matchDigits_length unsigned
  have hfraction := matchFraction_le (matchDigits unsigned).2
  have hexponent := matchExponent_le (matchFraction (matchDigits unsigned).2).2
  simp only [matchNumber, hunsigned] at h
  split at h
  · cases h
  · next hne =>
    cases h
    have hpos := List.length_pos_of_ne_nil hne
    omega

theorem matchConstant_shorter {text behind : List Char} {document : Document}
    (h : matchConstant text = some (document, behind)) : behind.length < text.length := by
  obtain ⟨⟨word, found⟩, hmem, heq⟩ := List.exists_of_findSome?_eq_some h
  have hwords : ∀ constant ∈ constants, constant.1 ≠ [] := by decide
  have hpos : 0 < word.length := List.length_pos_of_ne_nil (hwords _ hmem)
  have hif : (if word.isPrefixOf text then some (found, text.drop word.length) else none) =
      some (document, behind) := heq
  by_cases hprefix : word.isPrefixOf text = true
  · rw [if_pos hprefix] at hif
    cases hif
    have hle := (List.isPrefixOf_iff_prefix.mp hprefix).length_le
    rw [List.length_drop]
    omega
  · rw [if_neg hprefix] at hif
    cases hif

end Synthetos.Lib.JsonText
