import Synthetos.Lib.Collect
import Synthetos.Patterns.Artifacts

/-!
# Approvals of patterns

`has_valid_approval` looks at the latest row of each scope, the global one and that of the charter.
-/

namespace Synthetos.Patterns

open Lib

inductive ApprovalDecision where
  | approve
  | reject
  deriving DecidableEq, Repr

/-- A row of `pattern_approvals`; a global decision has no charter. -/
structure PatternApproval where
  patternId : Nat
  charterId : Option Id
  decision : ApprovalDecision
  expiresAt : Option Timestamp
  createdAt : Timestamp
  deriving DecidableEq, Repr

/-- The row `approve_pattern` adds. -/
def approvePattern (now : Timestamp) (patternId : Nat) (charterId : Option Id)
    (expiresAt : Option Timestamp) : PatternApproval :=
  ⟨patternId, charterId, .approve, expiresAt, now⟩

/-- The row `reject_pattern` adds. -/
def rejectPattern (now : Timestamp) (patternId : Nat) (charterId : Option Id) : PatternApproval :=
  ⟨patternId, charterId, .reject, none, now⟩

namespace PatternApproval

/-- The rows the query selects. -/
def concerns (patternId : Nat) (charterId : Id) (row : PatternApproval) : Bool :=
  row.patternId == patternId && (row.charterId == some charterId || row.charterId == none)

def expired (now : Timestamp) (row : PatternApproval) : Bool := row.expiresAt.any (· < now)

def effective (now : Timestamp) (row : PatternApproval) : Bool :=
  row.decision == .approve && !row.expired now

end PatternApproval

/-- An answer of the query: latest first, and in any order where rows were created together. -/
structure Answers (approvals : List PatternApproval) (patternId : Nat) (charterId : Id)
    (rows : List PatternApproval) : Prop where
  selected : rows.Perm (approvals.filter (PatternApproval.concerns patternId charterId))
  latestFirst : rows.Pairwise fun a b => b.createdAt ≤ a.createdAt

def latestByScope (rows : List PatternApproval) : List (Option Id × PatternApproval) :=
  Collect.collect PatternApproval.charterId (fun latest _ => latest) rows

def hasValidApproval (now : Timestamp) (rows : List PatternApproval) : Bool :=
  (latestByScope rows).any fun entry => entry.2.effective now

/-- Some approval, global or for the charter, has not expired and is not followed by a rejection
in its scope. -/
def Approved (now : Timestamp) (approvals : List PatternApproval) (patternId : Nat)
    (charterId : Id) : Prop :=
  ∃ row ∈ approvals, row.concerns patternId charterId = true ∧ row.effective now = true ∧
    ¬ ∃ later ∈ approvals, later.patternId = patternId ∧ later.charterId = row.charterId ∧
      later.decision = .reject ∧ row.createdAt < later.createdAt

def Latest (rows : List PatternApproval) (row : PatternApproval) : Prop :=
  (rows.filter (·.charterId == row.charterId)).head? = some row

variable {now : Timestamp} {approvals rows : List PatternApproval} {patternId : Nat}
  {charterId : Id} {row : PatternApproval}

theorem merged_latest (rows : List PatternApproval) :
    Collect.merged (fun latest _ => latest) rows = rows.head? := by
  cases rows with
  | nil => rfl
  | cons row rest =>
    have hkept (rest : List PatternApproval) : rest.foldl (fun latest _ => latest) row = row := by
      induction rest with
      | nil => rfl
      | cons _ _ ih => exact ih
    rw [Collect.merged, hkept]
    rfl

theorem mem_latestByScope {scope : Option Id} :
    (scope, row) ∈ latestByScope rows ↔ row.charterId = scope ∧ Latest rows row := by
  rw [latestByScope, Collect.mem_collect, merged_latest]
  constructor
  · intro hhead
    have hscope := List.mem_of_mem_head? hhead
    have hsame : row.charterId = scope := by simpa using (List.mem_filter.mp hscope).2
    subst hsame
    exact ⟨rfl, hhead⟩
  · rintro ⟨rfl, hlatest⟩
    exact hlatest

theorem hasValidApproval_iff : hasValidApproval now rows = true ↔
    ∃ row, Latest rows row ∧ row.effective now = true := by
  rw [hasValidApproval, List.any_eq_true]
  constructor
  · rintro ⟨⟨scope, row⟩, hmem, heffective⟩
    exact ⟨row, (mem_latestByScope.mp hmem).2, heffective⟩
  · rintro ⟨row, hlatest, heffective⟩
    exact ⟨(row.charterId, row), mem_latestByScope.mpr ⟨rfl, hlatest⟩, heffective⟩

theorem Answers.mem_iff (h : Answers approvals patternId charterId rows) :
    row ∈ rows ↔ row ∈ approvals ∧ row.concerns patternId charterId = true := by
  rw [h.selected.mem_iff, List.mem_filter]

theorem Latest.createdAt_le (hsorted : rows.Pairwise fun a b => b.createdAt ≤ a.createdAt)
    (hlatest : Latest rows row) {other : PatternApproval} (hother : other ∈ rows)
    (hscope : other.charterId = row.charterId) : other.createdAt ≤ row.createdAt := by
  have hmem : other ∈ rows.filter (·.charterId == row.charterId) :=
    List.mem_filter.mpr ⟨hother, beq_iff_eq.mpr hscope⟩
  obtain ⟨rest, hrest⟩ := List.head?_eq_some_iff.mp hlatest
  have hpairwise := hsorted.filter (·.charterId == row.charterId)
  rw [hrest] at hmem hpairwise
  rcases List.mem_cons.mp hmem with rfl | hmem
  · exact Nat.le_refl _
  · exact List.rel_of_pairwise_cons hpairwise hmem

theorem Answers.mem_of_scope (h : Answers approvals patternId charterId rows)
    {later : PatternApproval} (hlater : later ∈ approvals) (hpattern : later.patternId = patternId)
    (hrow : row ∈ rows) (hscope : later.charterId = row.charterId) : later ∈ rows := by
  refine h.mem_iff.mpr ⟨hlater, ?_⟩
  obtain ⟨-, hconcerns⟩ := h.mem_iff.mp hrow
  rw [PatternApproval.concerns, Bool.and_eq_true] at hconcerns ⊢
  rw [hscope]
  exact ⟨by simpa using hpattern, hconcerns.2⟩

theorem Latest.approved (h : Answers approvals patternId charterId rows)
    (hlatest : Latest rows row) (heffective : row.effective now = true) :
    Approved now approvals patternId charterId := by
  have hmem : row ∈ rows := List.mem_of_mem_filter (List.mem_of_mem_head? hlatest)
  obtain ⟨happroval, hconcerns⟩ := h.mem_iff.mp hmem
  refine ⟨row, happroval, hconcerns, heffective, ?_⟩
  rintro ⟨later, hlater, hpattern, hscope, -, hafter⟩
  have hrow := h.mem_of_scope hlater hpattern hmem hscope
  exact absurd (hlatest.createdAt_le h.latestFirst hrow hscope) (Nat.not_le.mpr hafter)

theorem Answers.approved_iff (h : Answers approvals patternId charterId rows) :
    Approved now approvals patternId charterId ↔ ∃ row ∈ rows, row.effective now = true ∧
      ¬ ∃ later ∈ rows, later.charterId = row.charterId ∧ later.decision = .reject ∧
        row.createdAt < later.createdAt := by
  constructor
  · rintro ⟨row, hrow, hconcerns, heffective, hstands⟩
    refine ⟨row, h.mem_iff.mpr ⟨hrow, hconcerns⟩, heffective, ?_⟩
    rintro ⟨later, hlater, hscope, hreject, hafter⟩
    obtain ⟨hmem, hlaterConcerns⟩ := h.mem_iff.mp hlater
    have hpattern : later.patternId = patternId := by
      simpa using (Bool.and_eq_true_iff.mp hlaterConcerns).1
    exact hstands ⟨later, hmem, hpattern, hscope, hreject, hafter⟩
  · rintro ⟨row, hrow, heffective, hstands⟩
    obtain ⟨hmem, hconcerns⟩ := h.mem_iff.mp hrow
    refine ⟨row, hmem, hconcerns, heffective, ?_⟩
    rintro ⟨later, hlater, hpattern, hscope, hreject, hafter⟩
    exact hstands ⟨later, h.mem_of_scope hlater hpattern hrow hscope, hscope, hreject, hafter⟩

/-- The answer is right exactly where the latest row of a scope is an effective approval, or every
effective approval is followed by a rejection. -/
theorem hasValidApproval_approved_iff (h : Answers approvals patternId charterId rows)
    (now : Timestamp) :
    (hasValidApproval now rows = true ↔ Approved now approvals patternId charterId) ↔
      ((∀ latest, Latest rows latest → latest.effective now = false) →
        ∀ row ∈ rows, row.effective now = true → ∃ later ∈ rows,
          later.charterId = row.charterId ∧ later.decision = .reject ∧
            row.createdAt < later.createdAt) := by
  rw [h.approved_iff, hasValidApproval_iff]
  constructor
  · intro hright hnone row hrow heffective
    by_contra hstands
    obtain ⟨latest, hlatest, hvalid⟩ := hright.mpr ⟨row, hrow, heffective, hstands⟩
    rw [hnone latest hlatest] at hvalid
    cases hvalid
  · intro hrejected
    constructor
    · rintro ⟨latest, hlatest, heffective⟩
      exact h.approved_iff.mp (hlatest.approved h heffective)
    · rintro ⟨row, hrow, heffective, hstands⟩
      by_contra hnone
      refine hstands (hrejected ?_ row hrow heffective)
      intro latest hlatest
      by_contra hvalid
      exact hnone ⟨latest, hlatest, by simpa using hvalid⟩

/-- The approval for every charter has expired; that for the charter of the cycle stands. -/
theorem hasValidApproval_approved_charter :
    Approved 10 [approvePattern 1 7 none (some 5), rejectPattern 2 7 (some 3),
      approvePattern 4 7 (some 3) none] 7 3 := by
  have hanswers : Answers [approvePattern 1 7 none (some 5), rejectPattern 2 7 (some 3),
      approvePattern 4 7 (some 3) none] 7 3
      [approvePattern 4 7 (some 3) none, rejectPattern 2 7 (some 3),
        approvePattern 1 7 none (some 5)] := ⟨by decide, by decide⟩
  refine ((hasValidApproval_approved_iff hanswers 10).mpr fun hnone => ?_).mp (by decide)
  have hexpired := hnone (approvePattern 4 7 (some 3) none) rfl
  exact absurd hexpired (by decide)

/-- A later approval that has expired hides one without an end. -/
theorem expired_approval_hides_valid :
    Answers [approvePattern 1 7 none none, approvePattern 2 7 none (some 5)] 7 0
        [approvePattern 2 7 none (some 5), approvePattern 1 7 none none] ∧
      Approved 10 [approvePattern 1 7 none none, approvePattern 2 7 none (some 5)] 7 0 ∧
      hasValidApproval 10 [approvePattern 2 7 none (some 5), approvePattern 1 7 none none] =
        false := by
  refine ⟨⟨by decide, by decide⟩, ?_, by decide⟩
  exact ⟨approvePattern 1 7 none none, by simp, by decide, by decide, by decide⟩

end Synthetos.Patterns
