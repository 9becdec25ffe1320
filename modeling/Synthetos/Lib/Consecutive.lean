import Mathlib.Data.List.Range
import Mathlib.Data.List.Nodup

/-!
# Consecutive numbers

Lists that number their elements 1, 2, … in order.  The next number is one more than the length,
one more than the maximum and one more than the last number.
-/

namespace Synthetos.Lib

def Consecutive (numbers : List Nat) : Prop := numbers = List.range' 1 numbers.length

namespace Consecutive

variable {numbers seen : List Nat} {n : Nat}

theorem nil : Consecutive [] := rfl

theorem append (h : Consecutive numbers) : Consecutive (numbers ++ [numbers.length + 1]) := by
  unfold Consecutive at *
  rw [List.length_append, List.length_singleton, List.range'_1_concat, ← h, Nat.add_comm 1]

theorem mem_iff (h : Consecutive numbers) : n ∈ numbers ↔ 0 < n ∧ n ≤ numbers.length := by
  rw [h, List.mem_range'_1, List.length_range']
  omega

theorem nodup (h : Consecutive numbers) : numbers.Nodup := by
  rw [h]
  exact List.nodup_range'

/-- What was handed out earlier is consecutive too. -/
theorem of_prefix (h : Consecutive numbers) (hseen : seen <+: numbers) : Consecutive seen := by
  unfold Consecutive at *
  apply List.ext_getElem
  · rw [List.length_range']
  · intro k hk _
    have hnumbers := hseen.length_le
    have hall : numbers[k]? = some (1 + k) := by
      rw [h, List.getElem?_range' (by omega), Nat.one_mul]
    rw [List.getElem_range', Nat.one_mul, hseen.getElem hk]
    exact (List.getElem?_eq_some_iff.mp hall).2

theorem eq_of_middle {before after : List Nat} (h : Consecutive (before ++ n :: after)) :
    n = before.length + 1 := by
  have hget := congrArg (·[before.length]?) h
  have hlt : before.length < (before ++ n :: after).length := by simp
  simp only [List.getElem?_append_right (Nat.le_refl _), Nat.sub_self, List.getElem?_cons_zero,
    List.getElem?_range' hlt] at hget
  have hn := Option.some.inj hget
  omega

theorem foldl_max (h : Consecutive numbers) : numbers.foldl max 0 = numbers.length := by
  generalize hlength : numbers.length = k at h
  rw [Consecutive, hlength] at h
  subst h
  clear hlength
  induction k with
  | zero => rfl
  | succ k ih =>
    rw [List.range'_1_concat, List.foldl_append, ih]
    simp only [List.foldl_cons, List.foldl_nil]
    omega

/-- A further number is new when it is beyond the last. -/
theorem nodup_append_iff (h : Consecutive numbers) (hn : 0 < n) :
    (numbers ++ [n]).Nodup ↔ numbers.length < n := by
  rw [List.nodup_append_comm, List.singleton_append, List.nodup_cons, h.mem_iff]
  constructor
  · rintro ⟨hnew, -⟩
    omega
  · intro hlt
    exact ⟨by omega, h.nodup⟩

/-- After a stale read the next number is a number handed out since. -/
theorem nodup_append_next_iff (h : Consecutive numbers) (hseen : seen <+: numbers) :
    (numbers ++ [seen.length + 1]).Nodup ↔ seen.length = numbers.length := by
  have hle := hseen.length_le
  rw [h.nodup_append_iff (Nat.succ_pos _)]
  omega

end Consecutive

end Synthetos.Lib
