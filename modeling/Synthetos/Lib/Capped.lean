import Mathlib.Data.List.Basic

/-!
# Lists with a cap

Groups of items are appended whole, and the cap is tested after each group.  The result is a cut of
all the items where no group crosses the cap.
-/

namespace Synthetos.Lib.Capped

variable {α : Type*}

def appendGroups (cap : Nat) : List (List α) → List α → List α
  | [], items => items
  | group :: rest, items =>
    if cap ≤ (items ++ group).length then items ++ group
    else appendGroups cap rest (items ++ group)

/-- No group begins below the cap and ends above it. -/
def NoneCrosses (cap : Nat) (groups : List (List α)) (items : List α) : Prop :=
  ∀ before group after, groups = before ++ group :: after →
    items.length + before.flatten.length < cap →
    items.length + before.flatten.length + group.length ≤ cap

variable {cap : Nat} {groups : List (List α)} {group items rest : List α}

theorem noneCrosses_nil : NoneCrosses cap [] items := by
  intro before group after hsplit
  simp at hsplit

theorem noneCrosses_cons (h : items.length < cap) : NoneCrosses cap (group :: groups) items ↔
    items.length + group.length ≤ cap ∧ NoneCrosses cap groups (items ++ group) := by
  constructor
  · intro hnone
    constructor
    · have hhead := hnone [] group groups rfl
      simp only [List.flatten_nil, List.length_nil] at hhead
      omega
    · intro before other after hsplit hbelow
      have htail := hnone (group :: before) other after (by rw [hsplit]; rfl)
      simp only [List.length_append, List.flatten_cons] at htail hbelow ⊢
      omega
  · rintro ⟨hhead, htail⟩ before other after hsplit hbelow
    cases before with
    | nil =>
      obtain ⟨rfl, -⟩ := List.cons.inj hsplit
      simpa using hhead
    | cons first before =>
      obtain ⟨rfl, hrest⟩ := List.cons.inj hsplit
      have hcross := htail before other after hrest
      simp only [List.length_append, List.flatten_cons] at hcross hbelow ⊢
      omega

/-- From the cap on, no group begins below it. -/
theorem noneCrosses_of_le (h : cap ≤ items.length) : NoneCrosses cap groups items := by
  intro before group after _ hbelow
  omega

/-- The groups are appended up to one that reaches the cap. -/
theorem appendGroups_spec (cap : Nat) (groups : List (List α)) (items : List α) :
    appendGroups cap groups items <+: items ++ groups.flatten ∧
      (appendGroups cap groups items = items ++ groups.flatten ∨
        cap ≤ (appendGroups cap groups items).length) := by
  induction groups generalizing items with
  | nil => simp [appendGroups]
  | cons group groups ih =>
    rw [appendGroups, List.flatten_cons, ← List.append_assoc]
    split
    · rename_i hreached
      exact ⟨List.prefix_append _ _, Or.inr hreached⟩
    · exact ih (items ++ group)

theorem length_appendGroups_le_iff (h : items.length < cap) :
    (appendGroups cap groups items).length ≤ cap ↔ NoneCrosses cap groups items := by
  induction groups generalizing items with
  | nil =>
    rw [appendGroups]
    exact iff_of_true (Nat.le_of_lt h) noneCrosses_nil
  | cons group groups ih =>
    rw [appendGroups, noneCrosses_cons h]
    split
    · rename_i hreached
      rw [← List.length_append]
      exact (and_iff_left (noneCrosses_of_le hreached)).symm
    · rename_i hbelow
      rw [ih (by omega), ← List.length_append]
      exact (and_iff_right (by omega)).symm

/-- Filled up with the items that follow, the result is the first items exactly where no group
crosses the cap. -/
theorem appendGroups_take_iff (h : 0 < cap) (groups : List (List α)) (rest : List α) :
    appendGroups cap groups [] ++ rest.take (cap - (appendGroups cap groups []).length) =
      (groups.flatten ++ rest).take cap ↔ NoneCrosses cap groups [] := by
  rw [← length_appendGroups_le_iff h]
  obtain ⟨hfirst, hwhole⟩ := appendGroups_spec cap groups []
  rw [List.nil_append] at hfirst hwhole
  constructor
  · intro heq
    have hlength := congrArg List.length heq
    rw [List.length_append, List.length_take] at hlength
    simp only [List.length_take] at hlength
    omega
  · intro hle
    rcases hwhole with hall | hreached
    · rw [hall] at hle ⊢
      rw [List.take_append, List.take_of_length_le hle]
    · have hfull : (appendGroups cap groups []).length = cap := by omega
      obtain ⟨later, hlater⟩ := hfirst
      rw [← hlater, hfull, Nat.sub_self, List.take_zero, List.append_nil, List.append_assoc]
      exact (List.take_left' hfull).symm

end Synthetos.Lib.Capped
