import Synthetos.Lib.Text

/-!
# Texts joined by a separator

The parts of a joined text are known where they have no white space at their ends, and the
separator stands in none of them without white space beside it.  The words of a text are found
again where they are joined by blanks.
-/

namespace Synthetos.Lib.Text

variable {sep : Char} {left right text : List Char} {parts parts' : List (List Char)}

/-- `sep` stands between two texts that have no white space towards it. -/
def Splits (sep : Char) (text : List Char) : Prop :=
  ∃ left right, text = left ++ sep :: right ∧ (∀ c ∈ left.getLast?, isSpace c = false) ∧
    ∀ c ∈ right.head?, isSpace c = false

theorem not_splits_of_not_mem (h : sep ∉ text) : ¬ Splits sep text := by
  rintro ⟨left, right, rfl, -⟩
  exact h (by simp)

def joined (sep : Char) (parts : List (List Char)) : List Char :=
  (parts.intersperse [sep]).flatten

@[simp] theorem joined_singleton : joined sep [text] = text := by simp [joined]

@[simp] theorem joined_cons_cons : joined sep (left :: right :: parts) =
    left ++ sep :: joined sep (right :: parts) := by
  simp [joined, List.intersperse]

theorem head?_joined (hright : Trimmed right) (hsep : isSpace sep = false)
    (parts : List (List Char)) : ∀ c ∈ (joined sep (right :: parts)).head?, isSpace c = false := by
  cases parts with
  | nil => simpa using hright.1
  | cons next parts =>
    rw [joined_cons_cons]
    cases right with
    | nil => simpa using hsep
    | cons c right => simpa using hright.1

theorem getLast?_of_append_cons (h : Trimmed (left ++ sep :: right)) :
    ∀ c ∈ right.getLast?, isSpace c = false := by
  intro c hc
  apply h.2
  cases right with
  | nil => cases hc
  | cons d right =>
    rw [List.getLast?_append_of_ne_nil _ (List.cons_ne_nil _ _), List.getLast?_cons_cons]
    exact hc

/-- One text with the separator at two places. -/
theorem append_cons_eq {left' right' : List Char} (h : left ++ sep :: right = left' ++ sep :: right') :
    (left = left' ∧ right = right') ∨
      (∃ between, left' = left ++ sep :: between ∧ right = between ++ sep :: right') ∨
        ∃ between, left = left' ++ sep :: between ∧ right' = between ++ sep :: right := by
  rcases List.append_eq_append_iff.mp h with ⟨between, hlong, hrest⟩ | ⟨between, hlong, hrest⟩
  · cases between with
    | nil => exact .inl ⟨by simpa using hlong.symm, (List.cons.inj hrest).2⟩
    | cons c between =>
      obtain ⟨rfl, hright⟩ := List.cons.inj hrest
      exact .inr (.inl ⟨between, hlong, hright⟩)
  · cases between with
    | nil => exact .inl ⟨by simpa using hlong, (List.cons.inj hrest).2.symm⟩
    | cons c between =>
      obtain ⟨rfl, hright⟩ := List.cons.inj hrest
      exact .inr (.inr ⟨between, hlong, hright⟩)

theorem head?_of_append_cons (h : ∀ c ∈ (left ++ sep :: right).head?, isSpace c = false) :
    ∀ c ∈ left.head?, isSpace c = false := by
  cases left with
  | nil => simp
  | cons d left => exact h

/-- Trimmed parts of one text are no more than parts the separator does not split, and as many
parts are the same. -/
theorem joined_unique (hsep : isSpace sep = false) (h : ∀ part ∈ parts, ¬ Splits sep part)
    (htrim : ∀ part ∈ parts, Trimmed part) (htrim' : ∀ part ∈ parts', Trimmed part)
    (hne : parts ≠ []) (hne' : parts' ≠ []) (heq : joined sep parts = joined sep parts') :
    parts'.length ≤ parts.length ∧ (parts'.length = parts.length → parts = parts') := by
  induction parts generalizing parts' with
  | nil => exact absurd rfl hne
  | cons a parts ih =>
    obtain ⟨a', parts', rfl⟩ := List.exists_cons_of_ne_nil hne'
    obtain ⟨ha, hparts⟩ := List.forall_mem_cons.mp htrim
    obtain ⟨ha', hparts'⟩ := List.forall_mem_cons.mp htrim'
    obtain ⟨hsplit, hsplits⟩ := List.forall_mem_cons.mp h
    cases parts' with
    | nil =>
      cases parts with
      | nil => simpa using heq
      | cons b parts => simp
    | cons b' parts' =>
      have hhead' := head?_joined (hparts' b' (by simp)) hsep parts'
      cases parts with
      | nil =>
        rw [joined_singleton, joined_cons_cons] at heq
        exact absurd ⟨a', _, heq, ha'.2, hhead'⟩ hsplit
      | cons b parts =>
        have hhead := head?_joined (hparts b (by simp)) hsep parts
        rw [joined_cons_cons, joined_cons_cons] at heq
        rcases append_cons_eq heq with ⟨rfl, hrest⟩ | ⟨between, rfl, hrest⟩ | ⟨between, rfl, hrest⟩
        · obtain ⟨hlength, hsame⟩ := ih hsplits hparts hparts' (by simp) (by simp) hrest
          refine ⟨Nat.succ_le_succ hlength, fun hequal => ?_⟩
          rw [hsame (Nat.succ.inj hequal)]
        · -- the other first part goes on: what is left of it is one more part of the rest
          have hbetween : Trimmed between :=
            ⟨head?_of_append_cons (hrest ▸ hhead), getLast?_of_append_cons ha'⟩
          have hmore : joined sep (b :: parts) = joined sep (between :: b' :: parts') := by
            rw [joined_cons_cons, hrest]
          obtain ⟨hlength, -⟩ := ih hsplits hparts
            (List.forall_mem_cons.mpr ⟨hbetween, hparts'⟩) (by simp) (by simp) hmore
          simp only [List.length_cons] at hlength ⊢
          omega
        · exact absurd ⟨a', between, rfl, ha'.2, head?_of_append_cons (hrest ▸ hhead')⟩ hsplit

/-! ### Words -/

def IsWord (word : List Char) : Prop := word ≠ [] ∧ ∀ c ∈ word, isSpace c = false

theorem not_isSpace_of_mem_splitOnP {piece : List Char} (h : piece ∈ text.splitOnP isSpace) :
    ∀ c ∈ piece, isSpace c = false := by
  induction text generalizing piece with
  | nil =>
    rw [List.splitOnP_nil, List.mem_singleton] at h
    simp [h]
  | cons d text ih =>
    rw [List.splitOnP_cons_eq_if_modifyHead] at h
    split at h
    · rcases List.mem_cons.mp h with rfl | hmem
      · simp
      · exact ih hmem
    · rename_i hspace
      cases hpieces : text.splitOnP isSpace with
      | nil => exact absurd hpieces (List.splitOnP_ne_nil _ _)
      | cons first pieces =>
        rw [hpieces] at h ih
        rcases List.mem_cons.mp h with rfl | hmem
        · intro c hc
          rcases List.mem_cons.mp hc with rfl | hc
          · simpa using hspace
          · exact ih List.mem_cons_self c hc
        · exact ih (List.mem_cons_of_mem _ hmem)

theorem isWord_of_mem_words {word : List Char} (h : word ∈ words text) : IsWord word := by
  obtain ⟨hmem, hne⟩ := List.mem_filter.mp h
  exact ⟨by simpa using hne, not_isSpace_of_mem_splitOnP hmem⟩

/-- Words joined by blanks are found again. -/
theorem words_joined {texts : List (List Char)} (h : ∀ word ∈ texts, IsWord word) :
    words (joined ' ' texts) = texts := by
  induction texts with
  | nil => rfl
  | cons word texts ih =>
    obtain ⟨hword, htexts⟩ := List.forall_mem_cons.mp h
    have hkept : (!word.isEmpty) = true := by simpa using hword.1
    cases texts with
    | nil => simp [words, List.splitOnP_eq_singleton hword.2, hkept]
    | cons next texts =>
      have hrest := ih htexts
      unfold words at hrest ⊢
      rw [joined_cons_cons, List.splitOnP_append_cons_of_forall_mem hword.2 ' ' (by decide),
        List.filter_cons, if_pos hkept, hrest]

theorem trimmed_joined_words {texts : List (List Char)} (h : ∀ word ∈ texts, IsWord word) :
    Trimmed (joined ' ' texts) := by
  induction texts with
  | nil => exact ⟨by simp [joined], by simp [joined]⟩
  | cons word texts ih =>
    obtain ⟨hword, htexts⟩ := List.forall_mem_cons.mp h
    have htrim : Trimmed word := ⟨fun c hc => hword.2 c (List.mem_of_mem_head? hc),
      fun c hc => hword.2 c (List.mem_of_mem_getLast? hc)⟩
    cases texts with
    | nil => simpa using htrim
    | cons next texts =>
      obtain ⟨hnext, -⟩ := List.forall_mem_cons.mp htexts
      have hne : joined ' ' (next :: texts) ≠ [] := by
        cases texts with
        | nil => simpa using hnext.1
        | cons _ _ => simp
      rw [joined_cons_cons]
      exact htrim.append [' '] (ih htexts) hword.1 hne

end Synthetos.Lib.Text
