import Synthetos.Lib.Table
import Mathlib.Data.List.Nodup

/-!
# Rewriting several rows

The rows of a table rewritten one after the other, each by its own function.
-/

namespace Synthetos.Lib.Table

variable {Row : Type*}

def updateEach (table : List Row) (changes : List (Nat × (Row → Row))) : List Row :=
  changes.foldl (fun table change => update table change.1 change.2) table

variable {table : List Row} {changes : List (Nat × (Row → Row))} {k : Nat} {f : Row → Row}

@[simp] theorem updateEach_cons (table : List Row) (change : Nat × (Row → Row))
    (changes : List (Nat × (Row → Row))) :
    updateEach table (change :: changes) = updateEach (update table change.1 change.2) changes :=
  rfl

@[simp] theorem length_updateEach : (updateEach table changes).length = table.length := by
  induction changes generalizing table with
  | nil => rfl
  | cons change changes ih => rw [updateEach_cons, ih, length_update]

theorem getElem?_updateEach_of_notMem (h : k ∉ changes.map Prod.fst) :
    (updateEach table changes)[k]? = table[k]? := by
  induction changes generalizing table with
  | nil => rfl
  | cons change changes ih =>
    rw [List.map_cons, List.mem_cons, not_or] at h
    rw [updateEach_cons, ih h.2, getElem?_update_ne (Ne.symm h.1)]

/-- A row with one change is rewritten by it. -/
theorem getElem?_updateEach_of_mem (hdistinct : (changes.map Prod.fst).Nodup)
    (h : (k, f) ∈ changes) : (updateEach table changes)[k]? = table[k]?.map f := by
  induction changes generalizing table with
  | nil => exact absurd h List.not_mem_nil
  | cons change changes ih =>
    obtain ⟨hnew, hdistinct⟩ := List.nodup_cons.mp hdistinct
    rw [updateEach_cons]
    rcases List.mem_cons.mp h with rfl | hrest
    · rw [getElem?_updateEach_of_notMem hnew, getElem?_update_self]
    · rw [ih hdistinct hrest, getElem?_update_ne]
      intro hsame
      exact hnew (hsame ▸ List.mem_map_of_mem hrest)

end Synthetos.Lib.Table
