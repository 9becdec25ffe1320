import Synthetos.Lib.Text

/-!
# Dockerfiles

The instructions of a Dockerfile: comments and blank lines are dropped, and a line that ends with
the escape character is continued on the next.  Here-documents are left out.
-/

namespace Synthetos.Lib.Dockerfile

/-- The character the `escape` directive selects. -/
inductive Escape where
  | backslash
  | backtick
  deriving DecidableEq, Repr

def Escape.char : Escape → Char
  | .backslash => '\\'
  | .backtick => Char.ofNat 96

def isBlank (c : Char) : Bool := c == ' ' || c == '\t' || c == '\r'

def skipped (line : List Char) : Bool :=
  match line.dropWhile Text.isSpace with
  | [] => true
  | c :: _ => c == '#'

/-- A line without its trailing escape, if it is continued. -/
def continued (escape : Escape) (line : List Char) : Option (List Char) :=
  match line.reverse.dropWhile isBlank with
  | [] => none
  | c :: rest =>
    if c = escape.char ∧ rest.head? ≠ some escape.char then some rest.reverse else none

/-- The instructions read so far, and the one that is being continued. -/
structure Reader where
  done : List (List Char) := []
  pending : Option (List Char) := none

def Reader.read (escape : Escape) (r : Reader) (line : List Char) : Reader :=
  if skipped line then r
  else match continued escape line with
  | some part => { r with pending := some (r.pending.getD [] ++ part) }
  | none => ⟨r.done ++ [r.pending.getD [] ++ line], none⟩

def readLines (escape : Escape) (text : List Char) : Reader :=
  (text.splitOn '\n').foldl (Reader.read escape) {}

def instructions (escape : Escape) (text : List Char) : List (List Char) :=
  let r := readLines escape text
  r.done ++ r.pending.toList

/-- No instruction is left open at the end of the text. -/
def Complete (escape : Escape) (text : List Char) : Prop :=
  (readLines escape text).pending = none

instance (escape : Escape) (text : List Char) : Decidable (Complete escape text) :=
  inferInstanceAs (Decidable ((readLines escape text).pending = none))

/-- A line that is an instruction of its own. -/
structure Plain (escape : Escape) (line : List Char) : Prop where
  single : '\n' ∉ line
  kept : skipped line = false
  closed : continued escape line = none

variable {escape : Escape} {text line : List Char}

theorem readLines_append (hline : Plain escape line) :
    readLines escape (text ++ '\n' :: (line ++ ['\n'])) =
      (readLines escape text).read escape line := by
  have hblank (r : Reader) : r.read escape [] = r := rfl
  rw [readLines, List.splitOn_append_cons_self, List.splitOn_append_cons_self,
    List.splitOn_eq_singleton hline.single, List.foldl_append, List.foldl_append]
  exact hblank _

/-- Appending a plain line adds one instruction exactly where the text is complete. -/
theorem instructions_append_iff (hline : Plain escape line) :
    instructions escape (text ++ '\n' :: (line ++ ['\n'])) = instructions escape text ++ [line] ↔
      Complete escape text := by
  unfold instructions Complete
  rw [readLines_append hline]
  obtain ⟨done, pending⟩ := readLines escape text
  unfold Reader.read
  rw [hline.kept, hline.closed]
  cases pending with
  | none => simp
  | some part =>
    refine iff_of_false (fun h => ?_) nofun
    have hlength := congrArg List.length h
    simp at hlength

theorem continued_of_getLast {c : Char} (hline : line.getLast? = some c) (hblank : isBlank c = false)
    (hescape : c ≠ escape.char) : continued escape line = none := by
  obtain ⟨front, rfl⟩ := List.getLast?_eq_some_iff.mp hline
  simp [continued, hblank, hescape]

end Synthetos.Lib.Dockerfile
