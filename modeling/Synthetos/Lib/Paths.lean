import Mathlib.Data.List.Induction

/-!
# Paths

Joining a path text to a directory and resolving it, without symbolic links.
-/

namespace Synthetos.Lib.Path

abbrev Name := List Char

abbrev Dir := List Name

/-- The components of a path text; empty ones and `.` are dropped. -/
def parts (text : List Char) : Dir :=
  (text.splitOn '/').filter fun part => part != [] && part != ['.']

def isAbsolute (text : List Char) : Bool := text.head? == some '/'

def parent : Name := ['.', '.']

/-- Follow one component; the root is its own parent. -/
def enter (dir : Dir) (part : Name) : Dir :=
  if part = parent then dir.dropLast else dir ++ [part]

def walk (dir : Dir) (steps : Dir) : Dir := steps.foldl enter dir

/-- `(base / text).resolve()`: an absolute text replaces the base. -/
def resolve (base : Dir) (text : List Char) : Dir :=
  walk (if isAbsolute text then [] else base) (parts text)

/-- A route that goes up and then down. -/
structure Route where
  up : Nat
  down : Dir

def Route.extend (route : Route) (part : Name) : Route :=
  if part = parent then
    match route.down with
    | [] => ⟨route.up + 1, []⟩
    | first :: rest => ⟨route.up, (first :: rest).dropLast⟩
  else ⟨route.up, route.down ++ [part]⟩

/-- The components with every name a later `..` takes back left out. -/
def route (steps : Dir) : Route := steps.foldl Route.extend ⟨0, []⟩

/-- The text leads to `base` or below it: a relative text comes back through every directory of
`base` it has left, an absolute one goes through all of them. -/
def Stays (base : Dir) (text : List Char) : Prop :=
  let taken := route (parts text)
  if isAbsolute text then base <+: taken.down
  else base.drop (base.length - taken.up) <+: taken.down

instance (base : Dir) (text : List Char) : Decidable (Stays base text) :=
  inferInstanceAs (Decidable (if isAbsolute text then base <+: (route (parts text)).down
    else base.drop (base.length - (route (parts text)).up) <+: (route (parts text)).down))

variable {base dir steps : Dir} {text : List Char}

theorem walk_append (dir steps more : Dir) : walk dir (steps ++ more) = walk (walk dir steps) more :=
  List.foldl_append

theorem route_snoc (steps : Dir) (part : Name) :
    route (steps ++ [part]) = (route steps).extend part := by
  simp [route]

/-- A walk goes up as far as its route does and then down. -/
theorem walk_route (dir steps : Dir) :
    walk dir steps = dir.take (dir.length - (route steps).up) ++ (route steps).down := by
  induction steps using List.reverseRecOn with
  | nil => simp [walk, route]
  | append_singleton steps part ih =>
    rw [walk_append, route_snoc, ih]
    change enter _ part = _
    unfold enter Route.extend
    by_cases hpart : part = parent
    · rw [if_pos hpart, if_pos hpart]
      cases hdown : (route steps).down with
      | nil =>
        simp only [List.append_nil, List.dropLast_eq_take, List.take_take, List.length_take]
        congr 1
        omega
      | cons first rest => exact List.dropLast_append_of_ne_nil (List.cons_ne_nil first rest)
    · rw [if_neg hpart, if_neg hpart, List.append_assoc]

theorem prefix_take_append (base : Dir) (n : Nat) (below : Dir) :
    base <+: base.take n ++ below ↔ base.drop n <+: below := by
  nth_rewrite 1 [← List.take_append_drop n base]
  exact List.prefix_append_right_inj _

/-- Where a text leads, by its route alone. -/
theorem prefix_resolve_iff (base : Dir) (text : List Char) :
    base <+: resolve base text ↔ Stays base text := by
  unfold resolve Stays
  rw [walk_route]
  split
  · rw [List.take_nil, List.nil_append]
  · exact prefix_take_append base _ _

end Synthetos.Lib.Path
