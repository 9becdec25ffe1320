import Synthetos.Lib.JsonTokens

/-!
# JSON texts

The reader of the host language's `json` module, as a machine with a stack of open containers.
-/

namespace Synthetos.Lib.JsonText

/-- An open container: what it holds so far, the last part first. -/
inductive Frame where
  | arr (items : List Document)
  | obj (fields : List (CodePoints × Document)) (key : CodePoints)

inductive Mode where
  | value
  | key (fields : List (CodePoints × Document))
  | done (document : Document)

structure Config where
  stack : List Frame
  mode : Mode
  text : List Char

def skipSpace (text : List Char) : List Char :=
  text.dropWhile fun c => c == ' ' || c == '\t' || c == '\n' || c == '\r'

def openContainer (limits : Limits) (stack : List Frame) (behind : List Char) (close : Char)
    (empty : Document) (first : Config) : Except Raised (Config ⊕ Document) :=
  if limits.maxDepth ≤ stack.length then .error .recursion
  else match skipSpace behind with
    | [] => .error .jsonDecode
    | c :: rest => if c = close then .ok (.inl ⟨stack, .done empty, rest⟩) else .ok (.inl first)

def scalar (limits : Limits) (text : List Char) : Except Raised (Document × List Char) :=
  match matchConstant text with
  | some found => .ok found
  | none => match matchNumber text with
    | some (number, behind) => (number.document limits).map fun document => (document, behind)
    | none => .error .jsonDecode

def stepValue (limits : Limits) (stack : List Frame) (text : List Char) :
    Except Raised (Config ⊕ Document) :=
  match skipSpace text with
  | '"' :: rest => match scanString rest with
    | some (s, behind) => .ok (.inl ⟨stack, .done (.str s), behind⟩)
    | none => .error .jsonDecode
  | '{' :: rest => openContainer limits stack rest '}' (.obj []) ⟨stack, .key [], rest⟩
  | '[' :: rest => openContainer limits stack rest ']' (.arr []) ⟨.arr [] :: stack, .value, rest⟩
  | start => (scalar limits start).map fun (document, behind) =>
      .inl ⟨stack, .done document, behind⟩

def stepKey (stack : List Frame) (fields : List (CodePoints × Document)) (text : List Char) :
    Except Raised (Config ⊕ Document) :=
  match skipSpace text with
  | '"' :: rest => match scanString rest with
    | some (key, behind) => match skipSpace behind with
      | ':' :: rest' => .ok (.inl ⟨.obj fields key :: stack, .value, rest'⟩)
      | _ => .error .jsonDecode
    | none => .error .jsonDecode
  | _ => .error .jsonDecode

def stepDone (stack : List Frame) (document : Document) (text : List Char) :
    Except Raised (Config ⊕ Document) :=
  match stack, skipSpace text with
  | [], [] => .ok (.inr document)
  | .arr items :: outer, ']' :: rest =>
    .ok (.inl ⟨outer, .done (.arr (document :: items).reverse), rest⟩)
  | .arr items :: outer, ',' :: rest => .ok (.inl ⟨.arr (document :: items) :: outer, .value, rest⟩)
  | .obj fields key :: outer, '}' :: rest =>
    .ok (.inl ⟨outer, .done (.obj ((key, document) :: fields).reverse), rest⟩)
  | .obj fields key :: outer, ',' :: rest =>
    .ok (.inl ⟨outer, .key ((key, document) :: fields), rest⟩)
  | _, _ => .error .jsonDecode

def step (limits : Limits) (config : Config) : Except Raised (Config ⊕ Document) :=
  match config.mode with
  | .value => stepValue limits config.stack config.text
  | .key fields => stepKey config.stack fields config.text
  | .done document => stepDone config.stack document config.text

/-! ### Every step takes a character -/

theorem skipSpace_le (text : List Char) : (skipSpace text).length ≤ text.length :=
  (List.dropWhile_suffix _).length_le

theorem skipSpace_shorter {text : List Char} {c : Char} {rest : List Char}
    (h : skipSpace text = c :: rest) : rest.length < text.length := by
  have hle := skipSpace_le text
  rw [h, List.length_cons] at hle
  omega

theorem scalar_shorter {limits : Limits} {text behind : List Char} {document : Document}
    (h : scalar limits text = .ok (document, behind)) : behind.length < text.length := by
  unfold scalar at h
  split at h
  · next hconstant =>
    cases h
    exact matchConstant_shorter hconstant
  · split at h
    · next number behind' hnumber =>
      cases hdocument : number.document limits with
      | ok found =>
        rw [hdocument] at h
        cases h
        exact matchNumber_shorter hnumber
      | error e =>
        rw [hdocument] at h
        cases h
    · cases h

theorem openContainer_shorter {limits : Limits} {stack : List Frame} {behind : List Char}
    {close : Char} {empty : Document} {first next : Config}
    (h : openContainer limits stack behind close empty first = .ok (.inl next))
    (hfirst : first.text.length ≤ behind.length) : next.text.length ≤ behind.length := by
  unfold openContainer at h
  split at h
  · cases h
  · split at h
    · cases h
    · next c rest hspace =>
      have hlt := skipSpace_shorter hspace
      split at h
      · cases h
        exact Nat.le_of_lt hlt
      · cases h
        exact hfirst

theorem stepValue_shorter {limits : Limits} {stack : List Frame} {text : List Char} {next : Config}
    (h : stepValue limits stack text = .ok (.inl next)) : next.text.length < text.length := by
  unfold stepValue at h
  split at h
  · next rest hspace =>
    have hlt := skipSpace_shorter hspace
    split at h
    · next hstring =>
      cases h
      exact Nat.lt_trans (scanString_shorter hstring) hlt
    · cases h
  · next rest hspace =>
    exact Nat.lt_of_le_of_lt (openContainer_shorter h (Nat.le_refl _)) (skipSpace_shorter hspace)
  · next rest hspace =>
    exact Nat.lt_of_le_of_lt (openContainer_shorter h (Nat.le_refl _)) (skipSpace_shorter hspace)
  · cases hscalar : scalar limits (skipSpace text) with
    | ok found =>
      rw [hscalar] at h
      cases h
      exact Nat.lt_of_lt_of_le (scalar_shorter hscalar) (skipSpace_le text)
    | error e =>
      rw [hscalar] at h
      cases h

theorem stepKey_shorter {stack : List Frame} {fields : List (CodePoints × Document)}
    {text : List Char} {next : Config} (h : stepKey stack fields text = .ok (.inl next)) :
    next.text.length < text.length := by
  unfold stepKey at h
  split at h
  · next rest hspace =>
    split at h
    · next hstring =>
      split at h
      · next hcolon =>
        cases h
        have hkey := scanString_shorter hstring
        exact Nat.lt_trans (skipSpace_shorter hcolon)
          (Nat.lt_trans hkey (skipSpace_shorter hspace))
      · cases h
    · cases h
  · cases h

theorem stepDone_shorter {stack : List Frame} {document : Document} {text : List Char}
    {next : Config} (h : stepDone stack document text = .ok (.inl next)) :
    next.text.length < text.length := by
  unfold stepDone at h
  split at h
  · cases h
  · next hspace =>
    cases h
    exact skipSpace_shorter hspace
  · next hspace =>
    cases h
    exact skipSpace_shorter hspace
  · next hspace =>
    cases h
    exact skipSpace_shorter hspace
  · next hspace =>
    cases h
    exact skipSpace_shorter hspace
  · cases h

theorem step_shorter {limits : Limits} {config next : Config}
    (h : step limits config = .ok (.inl next)) : next.text.length < config.text.length := by
  unfold step at h
  split at h
  · exact stepValue_shorter h
  · exact stepKey_shorter h
  · exact stepDone_shorter h

/-- Run the machine to the end of the text; every step takes a character. -/
def run (limits : Limits) (config : Config) : Except Raised Document :=
  match _h : step limits config with
  | .error e => .error e
  | .ok (.inr document) => .ok document
  | .ok (.inl next) => run limits next
termination_by config.text.length
decreasing_by exact step_shorter (by assumption)

/-- `json.loads` -/
def loads (limits : Limits) (text : List Char) : Except Raised Document :=
  run limits ⟨[], .value, text⟩

end Synthetos.Lib.JsonText
