import Mathlib.Data.List.Basic
import Mathlib.Data.List.Chain
import Mathlib.Tactic.Common

/-!
# Parent links

Nodes are numbered and a node may link to a parent with a smaller number.  Walking up the links
ends at a root, and the walk read backwards is the path from the root to the node.
-/

namespace Synthetos.Lib

/-- Follow the parent links upwards, `fuel` links at most. -/
def walkUp (parent : Nat → Option Nat) : Nat → Option Nat → List Nat
  | _, none => []
  | 0, some c => [c]
  | fuel + 1, some c => c :: walkUp parent fuel (parent c)

/-- The path from the root to `c`. -/
def path (parent : Nat → Option Nat) (c : Nat) : List Nat := (walkUp parent c (some c)).reverse

/-- Parents have smaller numbers than their children. -/
def Descending (parent : Nat → Option Nat) : Prop := ∀ c p, parent c = some p → p < c

variable {parent parent' : Nat → Option Nat} {fuel c d p r : Nat}

theorem walkUp_fuel (h : Descending parent) (hfuel : c ≤ fuel) :
    walkUp parent fuel (some c) = walkUp parent c (some c) := by
  induction c using Nat.strongRecOn generalizing fuel with
  | ind c ih =>
    cases fuel with
    | zero =>
      obtain rfl := Nat.le_zero.mp hfuel
      rfl
    | succ fuel =>
      cases hc : parent c with
      | none => cases c <;> simp [walkUp, hc]
      | some p =>
        have hlt := h c p hc
        obtain ⟨c, rfl⟩ := Nat.exists_eq_succ_of_ne_zero (Nat.ne_zero_of_lt hlt)
        rw [walkUp, walkUp, hc, ih p hlt (by omega), ih p hlt (Nat.le_of_lt_succ hlt)]

theorem path_root (hc : parent c = none) : path parent c = [c] := by
  unfold path
  cases c <;> simp [walkUp, hc]

theorem path_child (h : Descending parent) (hc : parent c = some p) :
    path parent c = path parent p ++ [c] := by
  have hlt := h c p hc
  obtain ⟨c, rfl⟩ := Nat.exists_eq_succ_of_ne_zero (Nat.ne_zero_of_lt hlt)
  rw [path, walkUp, hc, walkUp_fuel h (Nat.le_of_lt_succ hlt), List.reverse_cons]
  rfl

/-- Induction along the links, from the roots downwards. -/
theorem path_induction {motive : Nat → Prop} (h : Descending parent)
    (root : ∀ c, parent c = none → motive c)
    (child : ∀ c p, parent c = some p → motive p → motive c) (c : Nat) : motive c := by
  induction c using Nat.strongRecOn with
  | ind c ih =>
    cases hc : parent c with
    | none => exact root c hc
    | some p => exact child c p hc (ih p (h c p hc))

theorem mem_path_self (h : Descending parent) : c ∈ path parent c := by
  cases hc : parent c with
  | none => simp [path_root hc]
  | some p => simp [path_child h hc]

theorem mem_path_child (h : Descending parent) (hc : parent c = some p) :
    d ∈ path parent c ↔ d ∈ path parent p ∨ d = c := by
  rw [path_child h hc, List.mem_append, List.mem_singleton]

theorem le_of_mem_path (h : Descending parent) : ∀ d ∈ path parent c, d ≤ c := by
  induction c using path_induction h with
  | root c hc => simp [path_root hc]
  | child c p hc ih =>
    intro d hd
    rcases (mem_path_child h hc).mp hd with hd | rfl
    · exact Nat.le_of_lt (Nat.lt_of_le_of_lt (ih d hd) (h c p hc))
    · exact Nat.le_refl d

/-- A node occurs once on its path. -/
theorem path_nodup (h : Descending parent) : (path parent c).Nodup := by
  induction c using path_induction h with
  | root c hc => simp [path_root hc]
  | child c p hc ih =>
    rw [path_child h hc]
    refine List.nodup_append.mpr ⟨ih, by simp, fun d hd e he => ?_⟩
    obtain rfl := List.mem_singleton.mp he
    exact Nat.ne_of_lt (Nat.lt_of_le_of_lt (le_of_mem_path h d hd) (h e p hc))

/-- The path starts at a root, follows the links and ends at the node. -/
theorem path_follows (h : Descending parent) :
    (∃ root, (path parent c).head? = some root ∧ parent root = none) ∧
      (path parent c).IsChain (fun a b => parent b = some a) ∧
      (path parent c).getLast? = some c := by
  induction c using path_induction h with
  | root c hc => simp [path_root hc, hc]
  | child c p hc ih =>
    obtain ⟨⟨root, hroot, hnone⟩, hchain, hlast⟩ := ih
    rw [path_child h hc]
    refine ⟨⟨root, ?_, hnone⟩, ?_, by simp⟩
    · rw [List.head?_append, hroot]
      rfl
    · refine List.isChain_append.mpr ⟨hchain, .singleton c, ?_⟩
      intro a ha b hb
      rw [hlast] at ha
      obtain rfl := Option.some.inj ha
      obtain rfl := Option.some.inj hb
      exact hc

/-- The path of a node depends on the links of the nodes up to it. -/
theorem path_congr (h : Descending parent) (h' : Descending parent')
    (hsame : ∀ d ≤ c, parent' d = parent d) : path parent' c = path parent c := by
  induction c using path_induction h with
  | root c hc => rw [path_root hc, path_root ((hsame c (Nat.le_refl c)).trans hc)]
  | child c p hc ih =>
    rw [path_child h hc, path_child h' ((hsame c (Nat.le_refl c)).trans hc),
      ih fun d hd => hsame d (Nat.le_trans hd (Nat.le_of_lt (h c p hc)))]

/-- A node above the end of a path has a child on it. -/
theorem exists_child_of_mem_path (h : Descending parent) (hp : p ∈ path parent c) (hne : p ≠ c) :
    ∃ d, d ∈ path parent c ∧ parent d = some p := by
  induction c using path_induction h with
  | root c hc =>
    rw [path_root hc] at hp
    exact absurd (List.mem_singleton.mp hp) hne
  | child c q hc ih =>
    rcases (mem_path_child h hc).mp hp with hp | rfl
    · by_cases hpq : p = q
      · subst hpq
        exact ⟨c, mem_path_self h, hc⟩
      · obtain ⟨d, hd, hparent⟩ := ih hp hpq
        exact ⟨d, (mem_path_child h hc).mpr (.inl hd), hparent⟩
    · exact absurd rfl hne

/-- Of two nodes on one path, one is above the other. -/
theorem path_total (h : Descending parent) (hp : p ∈ path parent c) (hd : d ∈ path parent c) :
    p ∈ path parent d ∨ d ∈ path parent p := by
  induction c using path_induction h with
  | root c hc =>
    rw [path_root hc, List.mem_singleton] at hp hd
    subst hp hd
    exact .inl (mem_path_self h)
  | child c q hc ih =>
    rcases (mem_path_child h hc).mp hp with hpq | rfl
    · rcases (mem_path_child h hc).mp hd with hdq | rfl
      · exact ih hpq hdq
      · exact .inl hp
    · exact .inr hd

/-- The path of a node is longer than the paths of the nodes above it. -/
theorem length_path_lt (h : Descending parent) (hp : p ∈ path parent c) (hne : p ≠ c) :
    (path parent p).length < (path parent c).length := by
  induction c using path_induction h with
  | root c hc =>
    rw [path_root hc] at hp
    exact absurd (List.mem_singleton.mp hp) hne
  | child c q hc ih =>
    rw [path_child h hc, List.length_append, List.length_singleton, Nat.lt_succ_iff]
    rcases (mem_path_child h hc).mp hp with hp | rfl
    · by_cases hpq : p = q
      · rw [hpq]
      · exact Nat.le_of_lt (ih hp hpq)
    · exact absurd rfl hne

/-- Where every node has one child, a node is known by the root and the length of its path. -/
theorem path_unique (h : Descending parent)
    (hone : ∀ c d p, parent c = some p → parent d = some p → c = d) (hr : parent r = none)
    (hc : r ∈ path parent c) (hd : r ∈ path parent d)
    (hlength : (path parent c).length = (path parent d).length) : c = d := by
  have long {c p : Nat} (hc : parent c = some p) :
      (path parent c).length = (path parent p).length + 1 := by
    rw [path_child h hc, List.length_append, List.length_singleton]
  have positive (c : Nat) : 0 < (path parent c).length := List.length_pos_of_mem (mem_path_self h)
  have above {c p : Nat} (hc : parent c = some p) (hmem : r ∈ path parent c) : r ∈ path parent p := by
    rcases (mem_path_child h hc).mp hmem with hmem | rfl
    · exact hmem
    · exact absurd (hr.symm.trans hc) nofun
  induction c using path_induction h generalizing d with
  | root c hcroot =>
    rw [path_root hcroot] at hc hlength
    cases hdp : parent d with
    | none =>
      rw [path_root hdp] at hd
      exact (List.mem_singleton.mp hc).symm.trans (List.mem_singleton.mp hd)
    | some q =>
      rw [long hdp] at hlength
      exact absurd hlength (Nat.ne_of_lt (Nat.succ_lt_succ (positive q)))
  | child c p hcp ih =>
    cases hdp : parent d with
    | none =>
      rw [path_root hdp, long hcp] at hlength
      exact absurd hlength.symm (Nat.ne_of_lt (Nat.succ_lt_succ (positive p)))
    | some q =>
      rw [long hcp, long hdp] at hlength
      obtain rfl := ih (above hcp hc) (above hdp hd) (Nat.succ.inj hlength)
      exact hone c d p hcp hdp

end Synthetos.Lib
