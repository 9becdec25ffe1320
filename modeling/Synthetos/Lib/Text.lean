import Mathlib.Data.List.DropRight

/-!
# Text processing

The string operations of the host language on lists of characters.
-/

namespace Synthetos.Lib.Text

/-- The characters `str.strip` removes. -/
def isSpace (c : Char) : Bool :=
  let n := c.toNat
  (9 ≤ n && n ≤ 13) || (28 ≤ n && n ≤ 32) || n == 133 || n == 160 || n == 5760 ||
    (8192 ≤ n && n ≤ 8202) || n == 8232 || n == 8233 || n == 8239 || n == 8287 || n == 12288

/-- `text.strip()` -/
def strip (text : List Char) : List Char :=
  ((text.dropWhile isSpace).reverse.dropWhile isSpace).reverse

/-- No white space at either end. -/
def Trimmed (text : List Char) : Prop :=
  (∀ c ∈ text.head?, isSpace c = false) ∧ ∀ c ∈ text.getLast?, isSpace c = false

theorem strip_trimmed (text : List Char) : Trimmed (strip text) := by
  have hprefix : strip text <+: text.dropWhile isSpace := List.rdropWhile_prefix ..
  constructor
  · intro c hc
    obtain ⟨rest, htext⟩ := hprefix
    have hhead := List.head?_dropWhile_not isSpace text
    rw [← htext, List.head?_append, Option.mem_def.mp hc] at hhead
    exact hhead
  · intro c hc
    obtain ⟨hne, rfl⟩ := List.mem_getLast?_eq_getLast hc
    exact Bool.eq_false_iff.mpr (List.rdropWhile_last_not isSpace (text.dropWhile isSpace) hne)

theorem Trimmed.strip_eq {text : List Char} (h : Trimmed text) : strip text = text := by
  have hdrop : text.dropWhile isSpace = text := by
    cases text with
    | nil => rfl
    | cons c rest => simp [h.1 c rfl]
  have hlast : List.rdropWhile isSpace text = text := by
    rw [List.rdropWhile_eq_self_iff]
    intro hne
    simp [h.2 _ (List.getLast?_eq_some_getLast hne)]
  calc strip text = List.rdropWhile isSpace (text.dropWhile isSpace) := rfl
    _ = text := by rw [hdrop, hlast]

theorem Trimmed.append {left right : List Char} (middle : List Char) (hleft : Trimmed left)
    (hright : Trimmed right) (hl : left ≠ []) (hr : right ≠ []) :
    Trimmed (left ++ (middle ++ right)) := by
  constructor
  · intro c hc
    rw [List.head?_append_of_ne_nil _ hl] at hc
    exact hleft.1 c hc
  · intro c hc
    rw [← List.append_assoc, List.getLast?_append_of_ne_nil _ hr] at hc
    exact hright.2 c hc

/-- `text.lower()` of an ASCII text. -/
def lower (text : List Char) : List Char := text.map Char.toLower

/-- `str.lower` of the host. -/
structure Host where
  lower : List Char → List Char
  lower_ascii : ∀ {s}, (∀ c ∈ s, c.toNat < 128) → lower s = Text.lower s

/-- A host that knows ASCII letters only. -/
def asciiHost : Host := ⟨lower, fun _ => rfl⟩

/-- `char.lower()`, where a result beyond ASCII may stay the character itself: it differs from
every ASCII text either way.  Two characters beyond ASCII have an ASCII letter in lower case. -/
def lowerChar (c : Char) : List Char :=
  if c = '\u212a' then ['k'] else if c = '\u0130' then ['i', '\u0307'] else [c.toLower]

/-- `text.split()` -/
def words (text : List Char) : List (List Char) :=
  (text.splitOnP isSpace).filter (!·.isEmpty)

/-- `sep.join(texts)` -/
def join (sep : String) (texts : List (List Char)) : List Char :=
  (texts.intersperse sep.toList).flatten

/-- The text up to the first `sep`. -/
def beforeFirst (sep : Char) (text : List Char) : List Char := text.takeWhile (· != sep)

/-- The text after the last `sep`, the whole text when there is none. -/
def afterLast (sep : Char) (text : List Char) : List Char :=
  (text.reverse.takeWhile (· != sep)).reverse

/-- `text.replace(old, new)` for a nonempty `old`; `fuel` bounds the scan by the length. -/
def replaceFrom (old new : List Char) : Nat → List Char → List Char
  | 0, text => text
  | _ + 1, [] => []
  | fuel + 1, c :: rest =>
    if old.isPrefixOf (c :: rest) then new ++ replaceFrom old new fuel ((c :: rest).drop old.length)
    else c :: replaceFrom old new fuel rest

def replace (old new text : List Char) : List Char := replaceFrom old new text.length text

/-- The zeros beyond ASCII; the other digits of a script follow its zero. -/
def zeros : List Nat :=
  [0x660, 0x6f0, 0x7c0, 0x966, 0x9e6, 0xa66, 0xae6, 0xb66, 0xbe6, 0xc66, 0xce6, 0xd66, 0xde6, 0xe50,
    0xed0, 0xf20, 0x1040, 0x1090, 0x17e0, 0x1810, 0x1946, 0x19d0, 0x1a80, 0x1a90, 0x1b50, 0x1bb0,
    0x1c40, 0x1c50, 0xa620, 0xa8d0, 0xa900, 0xa9d0, 0xa9f0, 0xaa50, 0xabf0, 0xff10, 0x104a0, 0x10d30,
    0x11066, 0x110f0, 0x11136, 0x111d0, 0x112f0, 0x11450, 0x114d0, 0x11650, 0x116c0, 0x11730, 0x118e0,
    0x11950, 0x11c50, 0x11d50, 0x11da0, 0x11f50, 0x16a60, 0x16ac0, 0x16b50, 0x1d7ce, 0x1d7d8, 0x1d7e2,
    0x1d7ec, 0x1d7f6, 0x1e140, 0x1e2f0, 0x1e4f0, 0x1e950, 0x1fbf0]

def digit? (c : Char) : Option Nat :=
  if c.isDigit then some (c.toNat - 48)
  else (zeros.find? fun first => first ≤ c.toNat && c.toNat < first + 10).map (c.toNat - ·)

/-- The digits of an integer literal; a single underscore may stand between two digits. -/
def digits? (value : Nat) : List Char → Option Nat
  | [] => some value
  | '_' :: d :: rest => (digit? d).bind fun n => digits? (value * 10 + n) rest
  | d :: rest => (digit? d).bind fun n => digits? (value * 10 + n) rest

def natural? : List Char → Option Nat
  | [] => none
  | '_' :: _ => none
  | text => digits? 0 text

/-- `int(text)`, which raises `ValueError` on any other text. -/
def int? (text : List Char) : Option Int :=
  match strip text with
  | '-' :: rest => (natural? rest).map fun n => -(n : Int)
  | '+' :: rest => (natural? rest).map fun n => (n : Int)
  | rest => (natural? rest).map fun n => (n : Int)

end Synthetos.Lib.Text
