import Mathlib.Data.List.Infix
import Mathlib.Data.List.SplitBy

/-!
# Words of a text

A text is cut into its words and the runs between them.  Some words are marked; the text between
the marked words decides what every replacement of those words keeps.
-/

namespace Synthetos.Lib.Words

variable {α β : Type} {word : α → Bool} {marked : List α → Bool}

/-- The maximal runs of word characters and of other characters, in order. -/
def tokens (word : α → Bool) (text : List α) : List (List α) :=
  text.splitBy fun a b => word a == word b

def IsWord (word : α → Bool) (token : List α) : Prop := token ≠ [] ∧ ∀ c ∈ token, word c = true

/-- The stretches between the marked tokens; `before` is the text since the last of them. -/
def between (marked : List α → Bool) : List α → List (List α) → List (List α)
  | before, [] => [before]
  | before, token :: rest =>
    if marked token then before :: between marked [] rest
    else between marked (before ++ token) rest

/-- The same token, or two marked ones. -/
def Interchangeable (marked : List α → Bool) (left right : List α) : Prop :=
  left = right ∨ marked left = true ∧ marked right = true

/-- Every marked token replaced by `new`. -/
def replaced (marked : List α → Bool) (new : List α) (tokens : List (List α)) : List (List α) :=
  tokens.map fun token => if marked token then new else token

theorem flatten_tokens (text : List α) : (tokens word text).flatten = text :=
  List.flatten_splitBy ..

theorem infix_of_mem_tokens {token text : List α} (h : token ∈ tokens word text) :
    token <:+: text := by
  have hflat := List.infix_of_mem_flatten h
  rwa [flatten_tokens] at hflat

/-! ### Cutting the replaced text again -/

theorem tokens_replaced {new : List α} (hmarked : ∀ token, marked token = true → IsWord word token)
    (hnew : IsWord word new) (text : List α) :
    tokens word (replaced marked new (tokens word text)).flatten =
      replaced marked new (tokens word text) := by
  have hnil : ∀ token ∈ tokens word text, token ≠ [] := fun _ => List.ne_nil_of_mem_splitBy
  refine List.splitBy_eq_iff.mpr ⟨rfl, ?_, ?_, ?_⟩
  · intro h
    obtain ⟨token, hmem, heq⟩ := List.mem_map.mp h
    split at heq
    · exact hnew.1 heq
    · exact hnil token hmem heq
  · intro run hrun
    obtain ⟨token, hmem, rfl⟩ := List.mem_map.mp hrun
    split
    · apply List.Pairwise.isChain
      apply List.pairwise_of_forall_mem_list
      intro a ha b hb
      simp [hnew.2 a ha, hnew.2 b hb]
    · exact List.isChain_of_mem_splitBy hmem
  · rw [replaced, List.isChain_map]
    apply List.IsChain.imp_of_mem_imp _ (List.isChain_getLast_head_splitBy _ text)
    rintro a b hmemA hmemB ⟨ha, hb, hdiffer⟩
    have hlast : ∀ token ∈ tokens word text, ∀ hne : token ≠ [],
        ∃ hne' : (if marked token then new else token) ≠ [],
          word ((if marked token then new else token).getLast hne') =
            word (token.getLast hne) := by
      intro token _ hne
      split
      · next hm =>
        exact ⟨hnew.1, by
          rw [hnew.2 _ (List.getLast_mem _), (hmarked token hm).2 _ (List.getLast_mem _)]⟩
      · exact ⟨hne, rfl⟩
    have hhead : ∀ token ∈ tokens word text, ∀ hne : token ≠ [],
        ∃ hne' : (if marked token then new else token) ≠ [],
          word ((if marked token then new else token).head hne') = word (token.head hne) := by
      intro token _ hne
      split
      · next hm =>
        exact ⟨hnew.1, by
          rw [hnew.2 _ (List.head_mem _), (hmarked token hm).2 _ (List.head_mem _)]⟩
      · exact ⟨hne, rfl⟩
    obtain ⟨ha', heqA⟩ := hlast a hmemA ha
    obtain ⟨hb', heqB⟩ := hhead b hmemB hb
    exact ⟨ha', hb', by rw [heqA, heqB]; exact hdiffer⟩

theorem replaced_of_unmarked {new : List α} {tokens : List (List α)}
    (hnone : ∀ token ∈ tokens, marked token = false) : replaced marked new tokens = tokens := by
  rw [replaced, List.map_congr_left fun token hmem => if_neg (by simp [hnone token hmem])]
  exact List.map_id _

theorem replaced_interchangeable {new : List α} (hnew : marked new = true)
    (tokens : List (List α)) :
    List.Forall₂ (Interchangeable marked) tokens (replaced marked new tokens) := by
  induction tokens with
  | nil => exact .nil
  | cons token rest ih =>
    apply List.Forall₂.cons _ ih
    by_cases h : marked token = true
    · simp [Interchangeable, h, hnew]
    · simp [Interchangeable, h]

theorem eq_of_interchangeable {left right : List (List α)}
    (h : List.Forall₂ (Interchangeable marked) left right)
    (hnone : ∀ token ∈ left, marked token = false) : left = right := by
  induction h with
  | nil => rfl
  | cons hhead _ ih =>
    rw [ih fun token hmem => hnone token (List.mem_cons_of_mem _ hmem)]
    rcases hhead with rfl | ⟨hm, _⟩
    · rfl
    · simp [hnone _ List.mem_cons_self] at hm

/-! ### The stretches between marked words -/

theorem between_interchangeable {left right : List (List α)}
    (h : List.Forall₂ (Interchangeable marked) left right) (before : List α) :
    between marked before left = between marked before right := by
  induction h generalizing before with
  | nil => rfl
  | cons hhead _ ih =>
    rcases hhead with rfl | ⟨hl, hr⟩
    · simp only [between, ih]
    · simp only [between, hl, hr, ↓reduceIte, ih]

theorem infix_of_mem_between {piece : List α} {tokens : List (List α)} {before : List α}
    (h : piece ∈ between marked before tokens) : piece <:+: before ++ tokens.flatten := by
  induction tokens generalizing before with
  | nil =>
    rw [between, List.mem_singleton] at h
    simp [h]
  | cons token rest ih =>
    rw [between] at h
    split at h
    · rcases List.mem_cons.mp h with rfl | hrest
      · exact (List.prefix_append ..).isInfix
      · have hinfix := ih hrest
        rw [List.flatten_cons, ← List.append_assoc]
        exact hinfix.trans (List.suffix_append ..).isInfix
    · have hinfix := ih h
      rwa [List.append_assoc, ← List.flatten_cons] at hinfix

/-! ### Where a short text can occur -/

/-- A text without the separator lies on one side of it. -/
theorem infix_append_cons {needle left right : List β} {sep : β} (hsep : sep ∉ needle) :
    needle <:+: left ++ sep :: right ↔ needle <:+: left ∨ needle <:+: right := by
  constructor
  · rintro ⟨front, back, heq⟩
    rw [List.append_assoc] at heq
    rcases List.append_eq_append_iff.mp heq with ⟨inner, rfl, hrest⟩ | ⟨inner, rfl, hrest⟩
    · rcases List.append_eq_append_iff.mp hrest with ⟨gap, rfl, _⟩ | ⟨gap, rfl, hgap⟩
      · exact .inl ⟨front, gap, by simp⟩
      · cases gap with
        | nil => exact .inl ⟨front, [], by simp⟩
        | cons c gap =>
          obtain ⟨rfl, _⟩ := List.cons_eq_cons.mp hgap
          simp at hsep
    · cases inner with
      | nil =>
        cases needle with
        | nil => exact .inl (List.nil_infix)
        | cons c needle =>
          obtain ⟨rfl, _⟩ := List.cons_eq_cons.mp hrest
          simp at hsep
      | cons c inner =>
        obtain ⟨rfl, rfl⟩ := List.cons_eq_cons.mp hrest
        exact .inr ⟨inner, back, by simp⟩
  · rintro (h | h)
    · exact h.trans (List.prefix_append ..).isInfix
    · exact h.trans ⟨left ++ [sep], [], by simp⟩

theorem flatMap_intercalate {fold : α → List β} {sep : List α} (texts : List (List α)) :
    (sep.intercalate texts).flatMap fold =
      (sep.flatMap fold).intercalate (texts.map fun text => text.flatMap fold) := by
  induction texts with
  | nil => rfl
  | cons first rest ih =>
    cases rest with
    | nil => simp [List.intercalate]
    | cons second rest =>
      simp only [List.intercalate, List.intersperse, List.flatten_cons, List.flatMap_append,
        List.map_cons] at ih ⊢
      rw [ih]

/-- A text without the separator lies in one of the joined texts. -/
theorem infix_intercalate {needle : List β} {sep : β} (hsep : sep ∉ needle) (hne : needle ≠ [])
    (texts : List (List β)) :
    needle <:+: [sep].intercalate texts ↔ ∃ text ∈ texts, needle <:+: text := by
  induction texts with
  | nil => simp [hne]
  | cons first rest ih =>
    cases rest with
    | nil => simp
    | cons second rest =>
      have hjoin : [sep].intercalate (first :: second :: rest) =
          first ++ sep :: [sep].intercalate (second :: rest) := by
        simp [List.intercalate, List.intersperse]
      rw [hjoin, infix_append_cons hsep, ih]
      simp

/-- What occurs once every marked word gives way to `new`: what occurs between marked words, and
what `new` itself holds between its two separators. -/
theorem infix_replaced {fold : α → List β} {needle inner : List β} {sep : β} {new : List α}
    (hsep : sep ∉ needle) (hnew : new.flatMap fold = sep :: (inner ++ [sep]))
    (tokens : List (List α)) (before : List α) :
    needle <:+: (before ++ (replaced marked new tokens).flatten).flatMap fold ↔
      (∃ piece ∈ between marked before tokens, needle <:+: piece.flatMap fold) ∨
        (∃ token ∈ tokens, marked token = true) ∧ needle <:+: inner := by
  induction tokens generalizing before with
  | nil => simp [replaced, between]
  | cons token rest ih =>
    have hrest := ih []
    by_cases h : marked token = true
    · have hsplit : (before ++ (replaced marked new (token :: rest)).flatten).flatMap fold =
          before.flatMap fold ++ sep :: (inner ++ sep ::
            ([] ++ (replaced marked new rest).flatten).flatMap fold) := by
        simp [replaced, h, hnew]
      rw [hsplit, infix_append_cons hsep, infix_append_cons hsep, hrest]
      simp only [between, h, ↓reduceIte, List.mem_cons, exists_eq_or_imp, true_or, true_and]
      constructor
      · rintro (hbefore | hinner | hpiece | ⟨_, hinner⟩)
        · exact .inl (.inl hbefore)
        · exact .inr hinner
        · exact .inl (.inr hpiece)
        · exact .inr hinner
      · rintro ((hbefore | hpiece) | hinner)
        · exact .inl hbefore
        · exact .inr (.inr (.inl hpiece))
        · exact .inr (.inl hinner)
    · have hsplit : before ++ (replaced marked new (token :: rest)).flatten =
          (before ++ token) ++ (replaced marked new rest).flatten := by
        simp [replaced, h]
      rw [hsplit, ih]
      simp [between, h]

end Synthetos.Lib.Words
