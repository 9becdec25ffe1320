import Mathlib.Data.List.Basic
import Mathlib.Data.List.Induction
import Mathlib.Data.List.Sort
import Mathlib.Order.RelClasses

/-!
# Leaders of a history

A history is a list in order of time.  A leader is an entry that no other entry betters, and an
entry improves on a history when it betters every entry of it.
-/

namespace Synthetos.Lib

variable {α : Type*} (better : α → α → Prop)

/-- No entry of the history is better than `a`, one of its entries. -/
structure Leads (history : List α) (a : α) : Prop where
  mem : a ∈ history
  best : ∀ b ∈ history, ¬ better b a

def Improves (before : List α) (a : α) : Prop := ∀ b ∈ before, better a b

/-- `n` entries follow the last one that counted and improved on the counted entries before it. -/
inductive SinceImproved (counted : α → Bool) : List α → Nat → Prop where
  | here (before : List α) (a : α) (hcounted : counted a = true)
      (himproves : Improves better (before.filter counted) a) :
      SinceImproved counted (before ++ [a]) 0
  | later (before : List α) (a : α) (n : Nat) (h : SinceImproved counted before n)
      (hnot : counted a = true → ¬ Improves better (before.filter counted) a) :
      SinceImproved counted (before ++ [a]) (n + 1)

variable {better} {history before : List α} {a b : α} {counted : α → Bool} {m n : Nat}

theorem Leads.snoc_of_better [IsStrictOrder α better] (h : Leads better history a)
    (hbetter : better b a) : Leads better (history ++ [b]) b where
  mem := List.mem_append_right _ (List.mem_singleton_self b)
  best c hc := by
    intro hcb
    rcases List.mem_append.mp hc with hc | hc
    · exact h.best c hc (trans_of better hcb hbetter)
    · obtain rfl := List.mem_singleton.mp hc
      exact irrefl_of better c hcb

theorem Leads.snoc_of_not (h : Leads better history a) (hnot : ¬ better b a) :
    Leads better (history ++ [b]) a where
  mem := List.mem_append_left _ h.mem
  best c hc := by
    rcases List.mem_append.mp hc with hc | hc
    · exact h.best c hc
    · obtain rfl := List.mem_singleton.mp hc
      exact hnot

theorem leads_singleton [IsStrictOrder α better] : Leads better [a] a where
  mem := List.mem_singleton_self a
  best b hb := by
    obtain rfl := List.mem_singleton.mp hb
    exact irrefl_of better b

/-- Improving on a history is bettering its leader. -/
theorem Leads.improves_iff [IsOrderConnected α better] (h : Leads better history a) :
    Improves better history b ↔ better b a := by
  constructor
  · exact fun himproves => himproves a h.mem
  · intro hba c hc
    rcases IsOrderConnected.conn b c a hba with hbc | hca
    · exact hbc
    · exact absurd hca (h.best c hc)

theorem SinceImproved.snoc_iff : SinceImproved better counted (history ++ [a]) n ↔
    (n = 0 ∧ counted a = true ∧ Improves better (history.filter counted) a) ∨
      ∃ m, n = m + 1 ∧ SinceImproved better counted history m ∧
        (counted a = true → ¬ Improves better (history.filter counted) a) := by
  constructor
  · intro h
    generalize hall : history ++ [a] = all at h
    cases h with
    | here before b hcounted himproves =>
      obtain ⟨rfl, hab⟩ := List.append_inj' hall rfl
      obtain rfl := List.singleton_inj.mp hab
      exact .inl ⟨rfl, hcounted, himproves⟩
    | later before b m h hnot =>
      obtain ⟨rfl, hab⟩ := List.append_inj' hall rfl
      obtain rfl := List.singleton_inj.mp hab
      exact .inr ⟨m, rfl, h, hnot⟩
  · rintro (⟨rfl, hcounted, himproves⟩ | ⟨m, rfl, h, hnot⟩)
    · exact .here history a hcounted himproves
    · exact .later history a m h hnot

theorem not_sinceImproved_nil : ¬ SinceImproved better counted [] n := by
  generalize hnil : ([] : List α) = history
  intro h
  cases h with
  | here before a => exact absurd hnil (by simp)
  | later before a => exact absurd hnil (by simp)

theorem SinceImproved.unique (hm : SinceImproved better counted history m)
    (hn : SinceImproved better counted history n) : m = n := by
  induction history using List.reverseRecOn generalizing m n with
  | nil => exact absurd hm not_sinceImproved_nil
  | append_singleton history a ih =>
    rcases SinceImproved.snoc_iff.mp hm with ⟨rfl, hcounted, himproves⟩ | ⟨m, rfl, hm, hnot⟩
    · rcases SinceImproved.snoc_iff.mp hn with ⟨rfl, -⟩ | ⟨n, rfl, hn, hnot⟩
      · rfl
      · exact absurd himproves (hnot hcounted)
    · rcases SinceImproved.snoc_iff.mp hn with ⟨rfl, hcounted, himproves⟩ | ⟨n, rfl, hn, -⟩
      · exact absurd himproves (hnot hcounted)
      · exact congrArg (· + 1) (ih hm hn)

/-! ### Rows in the order of a key -/

/-- `ORDER BY key`: rows with the same key come in any order. -/
structure OrderedBy {κ : Type*} [LE κ] (key : α → κ) (history rows : List α) : Prop where
  perm : rows.Perm history
  sorted : rows.Pairwise fun a b => key a ≤ key b

section

variable {κ : Type*} [LinearOrder κ] {key : α → κ} {rows : List α}

theorem exists_orderedBy (key : α → κ) (history : List α) : ∃ rows, OrderedBy key history rows :=
  ⟨history.insertionSort fun a b => key a ≤ key b, List.perm_insertionSort _ _,
    List.pairwise_insertionSort _ _⟩

theorem OrderedBy.leads (h : OrderedBy key history rows) (hlast : rows.getLast? = some a) :
    Leads (fun a b => key b < key a) history a := by
  obtain ⟨before, rfl⟩ := List.getLast?_eq_some_iff.mp hlast
  constructor
  · exact h.perm.mem_iff.mp (List.mem_append_right _ (List.mem_singleton_self a))
  · intro b hb
    rw [not_lt]
    rcases List.mem_append.mp (h.perm.mem_iff.mpr hb) with hb | hb
    · exact (List.pairwise_append.mp h.sorted).2.2 b hb a (List.mem_singleton_self a)
    · rw [List.mem_singleton.mp hb]

/-- Any row with the greatest key may come last. -/
theorem Leads.exists_orderedBy (h : Leads (fun a b => key b < key a) history a) :
    ∃ rows, OrderedBy key history rows ∧ rows.getLast? = some a := by
  obtain ⟨before, after, rfl⟩ := List.append_of_mem h.mem
  let others := (before ++ after).insertionSort fun a b => key a ≤ key b
  have hothers : others.Perm (before ++ after) := List.perm_insertionSort _ _
  refine ⟨others ++ [a], ⟨?_, ?_⟩, List.getLast?_concat⟩
  · exact List.perm_append_comm.trans ((hothers.cons a).trans List.perm_middle.symm)
  · refine List.pairwise_append.mpr ⟨List.pairwise_insertionSort _ _, List.pairwise_singleton _ _, ?_⟩
    intro b hb c hc
    rw [List.mem_singleton.mp hc]
    refine not_lt.mp (h.best b ?_)
    rcases List.mem_append.mp (hothers.mem_iff.mp hb) with hb | hb
    · exact List.mem_append_left _ hb
    · exact List.mem_append_right _ (List.mem_cons_of_mem a hb)

/-- What holds of the last row in every order is what holds of every row with the greatest key. -/
theorem forall_last_iff {P : Option α → Prop} (hnil : history = [] → P none) :
    (∀ rows, OrderedBy key history rows → P rows.getLast?) ↔
      ∀ a, Leads (fun a b => key b < key a) history a → P (some a) := by
  constructor
  · intro h a hleads
    obtain ⟨rows, hrows, hlast⟩ := hleads.exists_orderedBy
    exact hlast ▸ h rows hrows
  · intro h rows hrows
    cases hlast : rows.getLast? with
    | none =>
      rw [List.getLast?_eq_none_iff] at hlast
      subst hlast
      exact hnil (List.nil_perm.mp hrows.perm)
    | some a => exact h a (hrows.leads hlast)

end

end Synthetos.Lib
