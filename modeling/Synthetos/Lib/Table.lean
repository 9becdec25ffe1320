import Mathlib.Data.List.Basic
import Mathlib.Tactic.Common

/-!
# Append-only tables

A table is a list of rows addressed by position.  Rows are appended and rewritten in place, never
removed, so an id stays valid and new rows have larger ids than old ones.
-/

namespace Synthetos.Lib.Table

variable {Row : Type*}

/-- Rewrite the row with id `k`, if there is one. -/
def update (table : List Row) (k : Nat) (f : Row → Row) : List Row := table.modify k f

/-- Rewrite every row that satisfies `p`. -/
def updateWhere (table : List Row) (p : Row → Bool) (f : Row → Row) : List Row :=
  table.map fun row => if p row then f row else row

def upsert (table : List Row) (sameKey : Row → Bool) (row : Row) : List Row :=
  match table.findIdx? sameKey with
  | some k => table.set k row
  | none => table ++ [row]

/-- The id `upsert` stores the row under. -/
def upsertId (table : List Row) (sameKey : Row → Bool) : Nat :=
  (table.findIdx? sameKey).getD table.length

variable {table extra : List Row} {k l : Nat} {f : Row → Row} {row row' : Row} {p : Row → Bool}

@[simp] theorem length_update : (update table k f).length = table.length := List.length_modify ..

@[simp] theorem length_updateWhere : (updateWhere table p f).length = table.length :=
  List.length_map ..

theorem getElem?_update :
    (update table k f)[l]? = if k = l then table[l]?.map f else table[l]? := by
  unfold update
  rw [List.getElem?_modify]
  split <;> simp

@[simp] theorem getElem?_update_self : (update table k f)[k]? = table[k]?.map f := by
  simp [getElem?_update]

theorem getElem?_update_ne (h : k ≠ l) : (update table k f)[l]? = table[l]? := by
  simp [getElem?_update, h]

theorem getElem?_updateWhere :
    (updateWhere table p f)[l]? = table[l]?.map fun row => if p row then f row else row :=
  List.getElem?_map

/-- A column that the rewriting function keeps. -/
theorem map_update {Column : Type*} {g : Row → Column} (h : ∀ row, g (f row) = g row) :
    (update table k f).map g = table.map g := by
  apply List.ext_getElem?
  intro l
  rw [List.getElem?_map, List.getElem?_map, getElem?_update]
  split
  · rw [Option.map_map]
    exact congrArg (Option.map · table[l]?) (funext h)
  · rfl

/-- A row of a grown table is an old row or one of the appended rows. -/
theorem getElem?_append_cases (h : (table ++ extra)[k]? = some row) :
    table[k]? = some row ∨ (table.length ≤ k ∧ extra[k - table.length]? = some row) := by
  rcases Nat.lt_or_ge k table.length with inside | outside
  · left
    rwa [List.getElem?_append_left inside] at h
  · right
    rw [List.getElem?_append_right outside] at h
    exact ⟨outside, h⟩

/-- A row of a table with one appended row is an old row or the appended one. -/
theorem getElem?_append_singleton (h : (table ++ [row])[k]? = some row') :
    table[k]? = some row' ∨ (k = table.length ∧ row' = row) := by
  rcases getElem?_append_cases h with inside | ⟨outside, last⟩
  · exact .inl inside
  · right
    obtain ⟨short, rfl⟩ := List.getElem?_eq_some_iff.mp last
    rw [List.length_singleton] at short
    have here : k - table.length = 0 := by omega
    exact ⟨by omega, by simp [here]⟩

/-- Appending keeps every row that exists. -/
theorem getElem?_append_old (h : table[k]? = some row) : (table ++ extra)[k]? = some row := by
  obtain ⟨inside, _⟩ := List.getElem?_eq_some_iff.mp h
  rwa [List.getElem?_append_left inside]

theorem lt_length_of_getElem? (h : table[k]? = some row) : k < table.length :=
  (List.getElem?_eq_some_iff.mp h).1

/-- The row behind a rewritten row. -/
theorem exists_of_getElem?_update (h : (update table k f)[l]? = some row) :
    ∃ old, table[l]? = some old ∧ row = if k = l then f old else old := by
  rw [getElem?_update] at h
  split at h
  · rename_i same
    obtain ⟨old, found, rfl⟩ := Option.map_eq_some_iff.mp h
    exact ⟨old, found, by simp [same]⟩
  · rename_i other
    exact ⟨row, h, by simp [other]⟩

theorem exists_of_getElem?_updateWhere (h : (updateWhere table p f)[l]? = some row) :
    ∃ old, table[l]? = some old ∧ row = if p old then f old else old := by
  rw [getElem?_updateWhere] at h
  obtain ⟨old, found, rfl⟩ := Option.map_eq_some_iff.mp h
  exact ⟨old, found, rfl⟩

/-- The row an upsert stores is the one its key finds. -/
theorem find?_upsert (hrow : p row = true) : (upsert table p row).find? p = some row := by
  unfold upsert
  split
  · rename_i k hk
    obtain ⟨hlt, hp, hbefore⟩ := List.findIdx?_eq_some_iff_getElem.mp hk
    rw [List.find?_eq_some_iff_getElem]
    refine ⟨hrow, k, by simpa using hlt, by simp, fun i hi => ?_⟩
    rw [List.getElem_set_ne (Nat.ne_of_gt hi)]
    simpa using hbefore i hi
  · rename_i hnone
    rw [List.find?_append, List.find?_eq_none.mpr (by simpa using hnone)]
    simp [hrow]

/-- Rows with another key are found as before. -/
theorem find?_upsert_ne {q : Row → Bool} (hold : ∀ old, p old = true → q old = false)
    (hrow : q row = false) : (upsert table p row).find? q = table.find? q := by
  unfold upsert
  cases hk : table.findIdx? p with
  | none => simp [hrow]
  | some k =>
    dsimp only
    induction table generalizing k with
    | nil => rfl
    | cons first rest ih =>
      rw [List.findIdx?_cons] at hk
      split at hk
      · rename_i hfirst
        obtain rfl := Option.some.inj hk
        rw [List.set_cons_zero, List.find?_cons, List.find?_cons, hrow, hold first hfirst]
      · obtain ⟨k', hk', rfl⟩ := Option.map_eq_some_iff.mp hk
        rw [List.set_cons_succ, List.find?_cons, List.find?_cons, ih k' hk']

theorem mem_upsert (h : row' ∈ upsert table p row) : row' ∈ table ∨ row' = row := by
  unfold upsert at h
  split at h
  · exact List.mem_or_eq_of_mem_set h
  · simpa using h

/-- An upsert keeps every row, or replaces it by one with its key. -/
theorem getElem?_upsert (h : table[k]? = some row') :
    ∃ now, (upsert table p row)[k]? = some now ∧ (now = row' ∨ p row' = true ∧ now = row) := by
  unfold upsert
  split
  · rename_i l hl
    obtain ⟨hlt, hp, -⟩ := List.findIdx?_eq_some_iff_getElem.mp hl
    by_cases hk : l = k
    · subst hk
      rw [List.getElem?_eq_getElem hlt] at h
      obtain rfl := Option.some.inj h
      exact ⟨row, List.getElem?_set_self hlt, .inr ⟨hp, rfl⟩⟩
    · exact ⟨row', (List.getElem?_set_ne hk).trans h, .inl rfl⟩
  · exact ⟨row', getElem?_append_old h, .inl rfl⟩

theorem getElem?_upsertId : (upsert table p row)[upsertId table p]? = some row := by
  unfold upsertId upsert
  split
  · rename_i k hk
    obtain ⟨hlt, -, -⟩ := List.findIdx?_eq_some_iff_getElem.mp hk
    rw [hk]
    exact List.getElem?_set_self hlt
  · rename_i hnone
    rw [hnone]
    exact List.getElem?_concat_length

theorem length_upsert : table.length ≤ (upsert table p row).length := by
  unfold upsert
  split
  · simp
  · simp

theorem upsertId_lt : upsertId table p < (upsert table p row).length := by
  unfold upsertId upsert
  split
  · rename_i k hk
    obtain ⟨hlt, -, -⟩ := List.findIdx?_eq_some_iff_getElem.mp hk
    rw [hk, List.length_set]
    exact hlt
  · rename_i hnone
    simp [hnone]

/-- A selection does not see the rows it leaves out. -/
theorem filter_zipIdx_congr {other : List Row}
    (h : ∀ k : Nat, table[k]? = other[k]? ∨
      ∃ row row', table[k]? = some row ∧ other[k]? = some row' ∧ p row = false ∧ p row' = false)
    (n : Nat) :
    (table.zipIdx n).filter (fun entry => p entry.1) =
      (other.zipIdx n).filter fun entry => p entry.1 := by
  induction table generalizing other n with
  | nil =>
    cases other with
    | nil => rfl
    | cons first rest =>
      rcases h 0 with same | ⟨row, row', found, -⟩
      · exact absurd same nofun
      · exact absurd found nofun
  | cons first rest ih =>
    cases other with
    | nil =>
      rcases h 0 with same | ⟨row, row', -, found, -⟩
      · exact absurd same nofun
      · exact absurd found nofun
    | cons first' rest' =>
      rw [List.zipIdx_cons, List.zipIdx_cons, List.filter_cons, List.filter_cons,
        ih (fun k => h (k + 1))]
      rcases h 0 with same | ⟨row, row', found, found', out, out'⟩
      · rw [Option.some.inj same]
      · rw [Option.some.inj found, Option.some.inj found', out, out']
        rfl

end Synthetos.Lib.Table
