import Synthetos.Lib.Distinct
import Synthetos.Lib.Entries

/-!
# Collecting values by key

A dictionary keeps its keys in the order they were first inserted.  A value whose key is there is
merged into the one before.
-/

namespace Synthetos.Lib.Collect

open Entries

variable {κ α : Type*} [BEq κ] [LawfulBEq κ]

def put (merge : α → α → α) (key : κ) (a : α) : List (κ × α) → List (κ × α)
  | [] => [(key, a)]
  | (k, old) :: rest => if k == key then (k, merge old a) :: rest else (k, old) :: put merge key a rest

def collect (key : α → κ) (merge : α → α → α) (items : List α) : List (κ × α) :=
  items.foldl (fun entries a => put merge (key a) a entries) []

/-- What the values of one key are merged into. -/
def merged (merge : α → α → α) : List α → Option α
  | [] => none
  | a :: rest => some (rest.foldl merge a)

variable {key : α → κ} {merge : α → α → α} {items : List α} {entries : List (κ × α)} {k l : κ}
  {a b : α}

omit [LawfulBEq κ] in
theorem collect_snoc :
    collect key merge (items ++ [a]) = put merge (key a) a (collect key merge items) := by
  simp [collect]

theorem merged_snoc : merged merge (items ++ [a]) =
    some (((merged merge items).map (merge · a)).getD a) := by
  cases items with
  | nil => rfl
  | cons b rest => simp [merged]

theorem keys_put (merge : α → α → α) (l : κ) (a : α) (entries : List (κ × α)) :
    (put merge l a entries).map Prod.fst =
    if l ∈ entries.map Prod.fst then entries.map Prod.fst else entries.map Prod.fst ++ [l] := by
  induction entries with
  | nil => rfl
  | cons entry rest ih =>
    obtain ⟨k, old⟩ := entry
    rw [put]
    by_cases hkey : k = l
    · simp [hkey]
    · have hne : ¬ l = k := fun h => hkey h.symm
      have hbeq : (k == l) = false := by simpa using hkey
      simp only [hbeq, Bool.false_eq_true, if_false, List.map_cons, ih, List.mem_cons, hne, false_or]
      split <;> rfl

theorem put_of_not_mem (h : l ∉ entries.map Prod.fst) :
    put merge l a entries = entries ++ [(l, a)] := by
  induction entries with
  | nil => rfl
  | cons entry rest ih =>
    obtain ⟨k, old⟩ := entry
    rw [List.map_cons, List.mem_cons, not_or] at h
    have hbeq : (k == l) = false := by simpa using fun heq => h.1 heq.symm
    rw [put, hbeq, ih h.2]
    rfl

theorem lookup_put : (put merge l a entries).lookup k =
    if k == l then some (((entries.lookup l).map (merge · a)).getD a) else entries.lookup k := by
  induction entries with
  | nil =>
    by_cases hkey : k = l
    · simp [put, hkey]
    · have hne : (k == l) = false := by simpa using hkey
      simp [put, List.lookup_cons, hne]
  | cons entry rest ih =>
    obtain ⟨m, old⟩ := entry
    rw [put]
    by_cases hold : m = l
    · subst hold
      by_cases hkey : k = m
      · simp [hkey]
      · have hne : (k == m) = false := by simpa using hkey
        simp [List.lookup_cons, hne]
    · have hput : (m == l) = false := by simpa using hold
      have hlookup : (l == m) = false := by simpa using fun h => hold h.symm
      simp only [hput, Bool.false_eq_true, if_false, List.lookup_cons, hlookup, ih]
      by_cases hkey : k = l
      · simp [hkey, hlookup]
      · simp [hkey]

theorem length_put : (put merge l a entries).length =
    entries.length + if (entries.lookup l).isSome then 0 else 1 := by
  have hkeys := congrArg List.length (keys_put merge l a entries)
  rw [List.length_map] at hkeys
  rw [hkeys]
  by_cases hmem : l ∈ entries.map Prod.fst
  · have hsome := isSome_lookup_iff.mpr hmem
    simp [hmem, hsome]
  · have hnone := mt isSome_lookup_iff.mp hmem
    simp [hmem, hnone]

/-- The keys come in the order of their first values. -/
theorem keys_collect (key : α → κ) (merge : α → α → α) (items : List α) :
    (collect key merge items).map Prod.fst = (items.map key).eraseDups := by
  induction items using List.reverseRecOn with
  | nil => rfl
  | append_singleton items a ih =>
    rw [collect_snoc, keys_put, ih, List.map_append, List.map_singleton]
    by_cases hmem : key a ∈ items.map key
    · rw [Distinct.eraseDups_snoc_of_mem hmem, if_pos (List.mem_eraseDups.mpr hmem)]
    · rw [Distinct.eraseDups_snoc_of_not_mem hmem, if_neg (mt List.mem_eraseDups.mp hmem)]

/-- Values of distinct keys are only listed. -/
theorem collect_of_nodup (h : (items.map key).Nodup) (merge : α → α → α) :
    collect key merge items = items.map fun a => (key a, a) := by
  induction items using List.reverseRecOn with
  | nil => rfl
  | append_singleton items a ih =>
    rw [List.map_append] at h
    obtain ⟨hitems, -, hnew⟩ := List.nodup_append.mp h
    have hmem : key a ∉ (collect key merge items).map Prod.fst := by
      rw [keys_collect]
      intro hmem
      exact hnew _ (List.mem_eraseDups.mp hmem) _ (by simp) rfl
    rw [collect_snoc, put_of_not_mem hmem, ih hitems, List.map_append]
    rfl

theorem lookup_collect (key : α → κ) (merge : α → α → α) (items : List α) (k : κ) :
    (collect key merge items).lookup k = merged merge (items.filter (key · == k)) := by
  induction items using List.reverseRecOn with
  | nil => rfl
  | append_singleton items a ih =>
    rw [collect_snoc, lookup_put, List.filter_append]
    by_cases hkey : k = key a
    · subst hkey
      simp [ih, merged_snoc]
    · have hne : (key a == k) = false := by simpa using fun h => hkey h.symm
      simp [hkey, hne, ih]

/-- An entry holds what the values of its key are merged into. -/
theorem mem_collect : (k, a) ∈ collect key merge items ↔
    merged merge (items.filter (key · == k)) = some a := by
  have hkeys : ((collect key merge items).map Prod.fst).Nodup := by
    rw [keys_collect]
    exact Distinct.nodup_eraseDups _
  rw [mem_iff_lookup hkeys, lookup_collect]

end Synthetos.Lib.Collect
