import Mathlib.Data.List.Induction

/-!
# The distinct values of a list

The first so many of them, and those that have not been seen before.
-/

namespace Synthetos.Lib.Distinct

variable {α : Type*} [BEq α] [LawfulBEq α] {l : List α} {a : α} {n : Nat} {P : α → Prop}

theorem eraseDups_snoc_of_mem (h : a ∈ l) : (l ++ [a]).eraseDups = l.eraseDups := by
  rw [List.eraseDups_append]
  simp [List.removeAll, h]

theorem eraseDups_snoc_of_not_mem (h : a ∉ l) : (l ++ [a]).eraseDups = l.eraseDups ++ [a] := by
  rw [List.eraseDups_append]
  simp [List.removeAll, h, List.eraseDups_cons]

theorem nodup_eraseDups (l : List α) : l.eraseDups.Nodup := by
  induction l using List.reverseRecOn with
  | nil => exact List.nodup_nil
  | append_singleton l a ih =>
    by_cases hmem : a ∈ l
    · rwa [eraseDups_snoc_of_mem hmem]
    · rw [eraseDups_snoc_of_not_mem hmem]
      refine List.nodup_append.mpr ⟨ih, List.pairwise_singleton _ _, fun b hb c hc => ?_⟩
      rintro rfl
      rw [List.mem_singleton.mp hc] at hb
      exact hmem (List.mem_eraseDups.mp hb)

theorem eraseDups_of_nodup (h : l.Nodup) : l.eraseDups = l := by
  induction l using List.reverseRecOn with
  | nil => rfl
  | append_singleton l a ih =>
    obtain ⟨hl, -, hnew⟩ := List.nodup_append.mp h
    have hmem : a ∉ l := fun hmem => hnew a hmem a (by simp) rfl
    rw [eraseDups_snoc_of_not_mem hmem, ih hl]

omit [BEq α] [LawfulBEq α] in
theorem forall_split_snoc {Q : List α → α → Prop} :
    (∀ before b after, l ++ [a] = before ++ b :: after → Q before b) ↔
      (∀ before b after, l = before ++ b :: after → Q before b) ∧ Q l a := by
  constructor
  · intro h
    refine ⟨fun before b after hsplit => h before b (after ++ [a]) ?_, h l a [] rfl⟩
    rw [hsplit, List.append_assoc]
    rfl
  · rintro ⟨hinit, hlast⟩ before b after hsplit
    rcases List.eq_nil_or_concat after with rfl | ⟨front, last, rfl⟩
    · obtain ⟨rfl, hb⟩ := List.append_inj' hsplit rfl
      obtain rfl := List.singleton_inj.mp hb
      exact hlast
    · rw [List.concat_eq_append, ← List.cons_append, ← List.append_assoc] at hsplit
      exact hinit before b front (List.append_inj' hsplit rfl).1

/-- The first `n` distinct values are those with fewer distinct values before them. -/
theorem forall_mem_take_iff : (∀ a ∈ l.eraseDups.take n, P a) ↔
    ∀ before a after, l = before ++ a :: after → before.eraseDups.length < n → P a := by
  induction l using List.reverseRecOn with
  | nil => simp
  | append_singleton l a ih =>
    rw [forall_split_snoc (Q := fun before a => before.eraseDups.length < n → P a), ← ih]
    by_cases hmem : a ∈ l
    · rw [eraseDups_snoc_of_mem hmem]
      refine ⟨fun h => ⟨h, fun hfew => h a ?_⟩, And.left⟩
      rw [List.take_of_length_le (Nat.le_of_lt hfew)]
      exact List.mem_eraseDups.mpr hmem
    · rw [eraseDups_snoc_of_not_mem hmem, List.take_append]
      have hlast : (∀ b ∈ [a].take (n - l.eraseDups.length), P b) ↔
          (l.eraseDups.length < n → P a) := by
        by_cases hfew : l.eraseDups.length < n
        · obtain ⟨k, hk⟩ : ∃ k, n - l.eraseDups.length = k + 1 := ⟨n - l.eraseDups.length - 1, by omega⟩
          simp [hk, hfew]
        · have hzero : n - l.eraseDups.length = 0 := by omega
          simp [hzero, hfew]
      simp only [List.mem_append, or_imp, forall_and, hlast]

/-- The first occurrences of values that are not among those seen. -/
def unseen (seen : List α) : List α → List α
  | [] => []
  | a :: rest => if seen.contains a then unseen seen rest else a :: unseen (a :: seen) rest

theorem unseen_of_nodup {seen : List α} (h : l.Nodup) :
    unseen seen l = l.filter fun a => !seen.contains a := by
  induction l generalizing seen with
  | nil => rfl
  | cons a l ih =>
    obtain ⟨hnew, hrest⟩ := List.nodup_cons.mp h
    have hfilter : l.filter (fun b => !(a :: seen).contains b) =
        l.filter fun b => !seen.contains b := by
      apply List.filter_congr
      intro b hb
      have hne : b ≠ a := fun heq => hnew (heq ▸ hb)
      simp [hne]
    rw [unseen, ih hrest, ih hrest, hfilter]
    by_cases hseen : a ∈ seen <;> simp [hseen]

/-- Of values with distinct names, some `old` and some `new`, the names of all the new and of none
of the old come out exactly where all the new are asked for, and of the old only those whose name
was seen. -/
theorem unseen_eq_new_iff {β : Type*} {name : β → α} {old new : List β} {seen : List α}
    {asked : β → Bool} (h : ((old ++ new).map name).Nodup) (hseen : ∀ a ∈ seen, a ∈ old.map name) :
    unseen seen (((old ++ new).filter asked).map name) = new.map name ↔
      (∀ b ∈ new, asked b = true) ∧ ∀ b ∈ old, asked b = true → name b ∈ seen := by
  have hdistinct : (((old ++ new).filter asked).map name).Nodup :=
    h.sublist (List.filter_sublist.map name)
  rw [List.map_append] at h
  obtain ⟨-, -, hdisjoint⟩ := List.nodup_append.mp h
  have hunseen (b : β) (hb : b ∈ new) : name b ∉ seen := fun hmem =>
    hdisjoint _ (hseen _ hmem) _ (List.mem_map_of_mem hb) rfl
  have hnew : (new.filter asked).filter ((fun a => !seen.contains a) ∘ name) = new.filter asked := by
    apply List.filter_eq_self.mpr
    intro b hb
    simpa using hunseen b (List.mem_filter.mp hb).1
  rw [unseen_of_nodup hdistinct, List.filter_map, List.filter_append, List.filter_append, hnew,
    List.map_append]
  constructor
  · intro heq
    have hold : (old.filter asked).filter ((fun a => !seen.contains a) ∘ name) = [] := by
      apply List.eq_nil_iff_forall_not_mem.mpr
      intro b hb
      have hname : name b ∈ new.map name :=
        heq ▸ List.mem_append_left _ (List.mem_map_of_mem hb)
      have hmem : b ∈ old := (List.mem_filter.mp (List.mem_filter.mp hb).1).1
      exact hdisjoint _ (List.mem_map_of_mem hmem) _ hname rfl
    rw [hold, List.map_nil, List.nil_append] at heq
    refine ⟨?_, fun b hb hasked => ?_⟩
    · have hlength := congrArg List.length heq
      simp only [List.length_map] at hlength
      exact List.filter_eq_self.mp (List.filter_sublist.eq_of_length hlength)
    · have hmem : b ∈ old.filter asked := List.mem_filter.mpr ⟨hb, hasked⟩
      simpa using List.filter_eq_nil_iff.mp hold b hmem
  · rintro ⟨hall, hremembered⟩
    have hold : (old.filter asked).filter ((fun a => !seen.contains a) ∘ name) = [] := by
      apply List.filter_eq_nil_iff.mpr
      intro b hb
      obtain ⟨hmem, hasked⟩ := List.mem_filter.mp hb
      simpa using hremembered b hmem hasked
    rw [hold, List.map_nil, List.nil_append, List.filter_eq_self.mpr hall]

end Synthetos.Lib.Distinct
