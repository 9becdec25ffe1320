import Mathlib.Data.List.Basic

/-!
# Association lists

What a lookup finds, in a list whose keys may recur.
-/

namespace Synthetos.Lib.Entries

variable {κ α : Type*} [BEq κ] [LawfulBEq κ] {entries : List (κ × α)} {k : κ} {a : α}

theorem isSome_lookup_iff : (entries.lookup k).isSome = true ↔ k ∈ entries.map Prod.fst := by
  rw [List.lookup_isSome_iff, List.mem_map]
  constructor
  · rintro ⟨entry, hmem, hkey⟩
    exact ⟨entry, hmem, (beq_iff_eq.mp hkey).symm⟩
  · rintro ⟨entry, hmem, rfl⟩
    exact ⟨entry, hmem, beq_self_eq_true _⟩

theorem mem_of_lookup (h : entries.lookup k = some a) : (k, a) ∈ entries := by
  obtain ⟨before, after, rfl, -⟩ := List.lookup_eq_some_iff.mp h
  simp

theorem mem_iff_lookup (h : (entries.map Prod.fst).Nodup) :
    (k, a) ∈ entries ↔ entries.lookup k = some a := by
  refine ⟨?_, mem_of_lookup⟩
  induction entries with
  | nil => simp
  | cons entry rest ih =>
    obtain ⟨l, b⟩ := entry
    obtain ⟨hnew, hrest⟩ := List.nodup_cons.mp h
    intro hmem
    rw [List.lookup_cons]
    rcases List.mem_cons.mp hmem with heq | hlater
    · cases heq
      simp
    · have hother : k ≠ l := by
        rintro rfl
        have hkey : k ∈ rest.map Prod.fst := List.mem_map_of_mem hlater
        exact hnew hkey
      have hne : (k == l) = false := by simpa using hother
      rw [hne]
      exact ih hrest hlater

omit [LawfulBEq κ] in
theorem lookup_map_snd {β : Type*} (f : α → β) (entries : List (κ × α)) (k : κ) :
    (entries.map fun entry => (entry.1, f entry.2)).lookup k = (entries.lookup k).map f := by
  induction entries with
  | nil => rfl
  | cons entry rest ih =>
    rw [List.map_cons, List.lookup_cons, List.lookup_cons, ih]
    cases k == entry.1 <;> rfl

theorem lookup_filter_of_kept (keep : κ → Bool) (h : keep k = true) (entries : List (κ × α)) :
    (entries.filter fun entry => keep entry.1).lookup k = entries.lookup k := by
  induction entries with
  | nil => rfl
  | cons entry rest ih =>
    obtain ⟨l, b⟩ := entry
    by_cases hkey : k = l
    · subst hkey
      simp only [List.filter_cons, h, ↓reduceIte, List.lookup_cons_self]
    · have hne : (k == l) = false := by simpa using hkey
      by_cases hkeep : keep l = true
      · simp only [List.filter_cons, hkeep, ↓reduceIte, List.lookup_cons, hne, ih]
      · simp only [List.filter_cons, hkeep, Bool.false_eq_true, ↓reduceIte, List.lookup_cons, hne, ih]

end Synthetos.Lib.Entries
