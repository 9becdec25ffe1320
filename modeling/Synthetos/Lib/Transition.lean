import Mathlib.Logic.Relation
import Mathlib.Data.List.Basic

/-!
# Guarded labelled transition systems

A system is a partial step function on labels.  A guard `ok` restricts which labels may be taken
in which states, and a run is a sequence of guarded steps.  An invariant of the guarded steps
holds along every run.
-/

namespace Synthetos.Lib

variable {State Label : Type*}

/-- One guarded step: some label the guard allows is enabled and leads from `s` to `t`. -/
def Next (ok : State → Label → Prop) (step : State → Label → Option State) (s t : State) : Prop :=
  ∃ l, ok s l ∧ step s l = some t

/-- A run: finitely many guarded steps. -/
def Reaches (ok : State → Label → Prop) (step : State → Label → Option State) :
    State → State → Prop :=
  Relation.ReflTransGen (Next ok step)

/-- Every label is allowed. -/
def Unguarded (_ : State) (_ : Label) : Prop := True

variable {ok ok' : State → Label → Prop} {step : State → Label → Option State} {s t u : State}

theorem Reaches.refl (s : State) : Reaches ok step s s := Relation.ReflTransGen.refl

theorem Reaches.trans (h : Reaches ok step s t) (h' : Reaches ok step t u) :
    Reaches ok step s u :=
  Relation.ReflTransGen.trans h h'

theorem Reaches.tail (h : Reaches ok step s t) (h' : Next ok step t u) :
    Reaches ok step s u :=
  Relation.ReflTransGen.tail h h'

/-- What one guarded step preserves, a run preserves. -/
theorem Reaches.invariant (Inv : State → Prop)
    (preserved : ∀ s l t, Inv s → ok s l → step s l = some t → Inv t)
    (h : Reaches ok step s t) (start : Inv s) : Inv t := by
  induction h with
  | refl => exact start
  | tail _ next ih =>
    obtain ⟨l, allowed, taken⟩ := next
    exact preserved _ l _ ih allowed taken

/-- A stronger guard has fewer runs. -/
theorem Reaches.mono (weaker : ∀ s l, ok s l → ok' s l) (h : Reaches ok step s t) :
    Reaches ok' step s t := by
  induction h with
  | refl => exact .refl s
  | tail _ next ih =>
    obtain ⟨l, allowed, taken⟩ := next
    exact ih.tail ⟨l, weaker _ l allowed, taken⟩

/-- A run together with the labels it took. -/
inductive Path (ok : State → Label → Prop) (step : State → Label → Option State) (s : State) :
    List Label → State → Prop where
  | nil : Path ok step s [] s
  | snoc {ls : List Label} {l : Label} {t u : State} (run : Path ok step s ls t)
      (allowed : ok t l) (taken : step t l = some u) : Path ok step s (ls ++ [l]) u

/-- Take a list of labels one after the other; the first label that is disabled, or that `allowed`
rejects, stops the execution. -/
def perform (allowed : State → Label → Bool) (step : State → Label → Option State) (s : State) :
    List Label → Option State
  | [] => some s
  | l :: ls => if allowed s l then (step s l).bind (perform allowed step · ls) else none

variable {allowed : State → Label → Bool} {l : Label} {ls : List Label}

theorem perform_cons :
    perform allowed step s (l :: ls) = some t ↔
      allowed s l = true ∧ ∃ mid, step s l = some mid ∧ perform allowed step mid ls = some t := by
  rw [perform]
  split
  · rename_i yes
    rw [Option.bind_eq_some_iff]
    exact ⟨fun h => ⟨yes, h⟩, And.right⟩
  · rename_i no
    exact ⟨fun h => absurd h nofun, fun h => absurd h.1 no⟩

/-- A performance is a run when the invariant it keeps turns the test into the guard. -/
theorem Reaches.of_perform (Inv : State → Prop)
    (guard : ∀ s l, Inv s → allowed s l = true → ok s l)
    (preserved : ∀ s l t, Inv s → allowed s l = true → step s l = some t → Inv t)
    (start : Inv s) (h : perform allowed step s ls = some t) : Reaches ok step s t := by
  induction ls generalizing s with
  | nil =>
    obtain rfl := Option.some.inj h
    exact .refl s
  | cons l ls ih =>
    obtain ⟨yes, mid, taken, rest⟩ := perform_cons.mp h
    have tail := ih (preserved s l mid start yes taken) rest
    exact Relation.ReflTransGen.head ⟨l, guard s l start yes, taken⟩ tail

theorem Path.reaches {ls : List Label} (h : Path ok step s ls t) : Reaches ok step s t := by
  induction h with
  | nil => exact .refl s
  | snoc _ allowed taken ih => exact ih.tail ⟨_, allowed, taken⟩

theorem Path.snoc_inv (h : Path ok step s (ls ++ [l]) u) :
    ∃ t, Path ok step s ls t ∧ ok t l ∧ step t l = some u := by
  generalize hall : ls ++ [l] = all at h
  cases h with
  | nil => exact absurd hall (by simp)
  | snoc run allowed taken =>
    obtain ⟨rfl, hlast⟩ := List.append_inj' hall rfl
    obtain rfl := List.singleton_inj.mp hlast
    exact ⟨_, run, allowed, taken⟩

/-- The labels determine the state a path ends in, whatever the guard. -/
theorem Path.deterministic (h : Path ok step s ls t) (h' : Path ok' step s ls u) : t = u := by
  induction h generalizing u with
  | nil =>
    generalize hall : ([] : List Label) = all at h'
    cases h' with
    | nil => rfl
    | snoc => exact absurd hall (by simp)
  | snoc _ _ taken ih =>
    obtain ⟨mid, run, -, taken'⟩ := h'.snoc_inv
    obtain rfl := ih run
    exact Option.some.inj (taken.symm.trans taken')

/-- A guard that the last step meets and the steps before it met. -/
theorem Path.snoc_iff (h : Path ok step s ls t) (taken : step t l = some u) :
    Path ok' step s (ls ++ [l]) u ↔ Path ok' step s ls t ∧ ok' t l := by
  constructor
  · intro h'
    obtain ⟨mid, run, allowed, -⟩ := h'.snoc_inv
    obtain rfl := h.deterministic run
    exact ⟨run, allowed⟩
  · rintro ⟨run, allowed⟩
    exact .snoc run allowed taken

theorem Path.cons {l : Label} {ls : List Label} (allowed : ok s l) (taken : step s l = some t)
    (h : Path ok step t ls u) : Path ok step s (l :: ls) u := by
  induction h with
  | nil => exact .snoc .nil allowed taken
  | snoc _ allowed' taken' ih => exact .snoc ih allowed' taken'

theorem Path.append {ls' : List Label} (h : Path ok step s ls t) (h' : Path ok step t ls' u) :
    Path ok step s (ls ++ ls') u := by
  induction h' with
  | nil => rwa [List.append_nil]
  | snoc _ allowed taken ih =>
    rw [← List.append_assoc]
    exact .snoc ih allowed taken

theorem Path.of_perform (guard : ∀ s l, allowed s l = true → ok s l)
    (h : perform allowed step s ls = some t) : Path ok step s ls t := by
  induction ls generalizing s with
  | nil =>
    obtain rfl := Option.some.inj h
    exact .nil
  | cons l ls ih =>
    obtain ⟨yes, mid, taken, rest⟩ := perform_cons.mp h
    exact .cons (guard s l yes) taken (ih rest)

/-- The state an execution ends in, when it passes a test there. -/
theorem Reaches.of_perform_any {test : State → Bool} (Inv : State → Prop)
    (guard : ∀ s l, Inv s → allowed s l = true → ok s l)
    (preserved : ∀ s l t, Inv s → allowed s l = true → step s l = some t → Inv t)
    (start : Inv s) (h : (perform allowed step s ls).any test = true) :
    ∃ t, Reaches ok step s t ∧ Inv t ∧ test t = true := by
  obtain ⟨t, reached, passed⟩ := (Option.any_eq_true _ _).mp h
  have invariant : Inv t := by
    clear h passed
    induction ls generalizing s with
    | nil =>
      obtain rfl := Option.some.inj reached
      exact start
    | cons l ls ih =>
      obtain ⟨yes, mid, taken, rest⟩ := perform_cons.mp reached
      exact ih (preserved s l mid start yes taken) rest
  exact ⟨t, .of_perform Inv guard preserved start reached, invariant, passed⟩

/-- An execution that nothing restricts. -/
theorem Reaches.of_perform_all {test : State → Bool}
    (h : (perform (fun _ _ => true) step s ls).any test = true) :
    ∃ t, Reaches Unguarded step s t ∧ test t = true := by
  obtain ⟨t, reached, -, passed⟩ := Reaches.of_perform_any (fun _ => True) (fun _ _ _ _ => trivial)
    (fun _ _ _ _ _ _ => trivial) trivial h
  exact ⟨t, reached, passed⟩

end Synthetos.Lib
