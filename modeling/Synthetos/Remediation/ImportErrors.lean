import Synthetos.Remediation.Strategies
import Mathlib.Data.List.TakeWhile

/-!
# Import errors in a log

What the pattern of `_extract_missing_modules` captures, as a relation between a text and its
matches, and the scan of the model against it.
-/

namespace Synthetos.Remediation

open Lib

structure Quoted (text gap word after : List Char) : Prop where
  quotes : ∃ q q', isQuote q = true ∧ isQuote q' = true ∧ text = gap ++ q :: (word ++ q' :: after)
  line : '\n' ∉ gap
  nonempty : word ≠ []
  unquoted : ∀ c ∈ word, isQuote c = false

/-- The quoted word behind the shortest gap. -/
def FirstQuoted (text word after : List Char) : Prop :=
  ∃ gap, Quoted text gap word after ∧
    ∀ gap' word' after', Quoted text gap' word' after' → gap.length ≤ gap'.length

def MatchesAt (text word after : List Char) : Prop :=
  ∃ keyword ∈ ["ModuleNotFoundError", "ImportError"], ∃ head rest, text = head ++ rest ∧
    List.Forall₂ (fun letter c => sameLetter letter c = true) keyword.toList head ∧
      FirstQuoted rest word after

def Leftmost (text word after : List Char) : Prop :=
  ∃ skipped found, text = skipped ++ found ∧ MatchesAt found word after ∧
    ∀ front back, skipped = front ++ back → back ≠ [] → ∀ word' after',
      ¬ MatchesAt (back ++ found) word' after'

/-- `findall` captures the word after the earlier ones. -/
inductive Captured : List Char → List (List Char) → List Char → Prop where
  | first {text word after : List Char} (h : Leftmost text word after) : Captured text [] word
  | later {text word after : List Char} {earlier : List (List Char)} {captured : List Char}
      (h : Leftmost text word after) (hrest : Captured after earlier captured) :
      Captured text (word :: earlier) captured

variable {c d : Char} {text rest gap word after head word' after' : List Char}
  {keyword : List Char} {earlier : List (List Char)}

/-! ### Quoted words -/

theorem not_quoted_nil : ¬ Quoted [] gap word after := by
  rintro ⟨⟨q, q', -, -, htext⟩, -⟩
  simp at htext

theorem quoted_cons_iff :
    Quoted (c :: rest) (d :: gap) word after ↔ d = c ∧ c ≠ '\n' ∧ Quoted rest gap word after := by
  constructor
  · rintro ⟨⟨q, q', hq, hq', htext⟩, hline, hne, hword⟩
    obtain ⟨rfl, rfl⟩ := List.cons.inj htext
    simp only [List.mem_cons, not_or] at hline
    exact ⟨rfl, Ne.symm hline.1, ⟨q, q', hq, hq', rfl⟩, hline.2, hne, hword⟩
  · rintro ⟨rfl, hne, ⟨q, q', hq, hq', rfl⟩, hline, hword, hunquoted⟩
    refine ⟨⟨q, q', hq, hq', rfl⟩, ?_, hword, hunquoted⟩
    simp only [List.mem_cons, not_or]
    exact ⟨Ne.symm hne, hline⟩

theorem quoted_nil_iff : Quoted (c :: rest) [] word after ↔
    isQuote c = true ∧ word ≠ [] ∧ word = rest.takeWhile (fun d => !isQuote d) ∧
      ∃ q, rest.drop word.length = q :: after := by
  constructor
  · rintro ⟨⟨q, q', hq, hq', htext⟩, -, hne, hword⟩
    obtain ⟨rfl, rfl⟩ := List.cons.inj htext
    refine ⟨hq, hne, ?_, q', List.drop_left⟩
    have hall : ∀ d ∈ word, (!isQuote d) = true := fun d hd => by simp [hword d hd]
    rw [List.takeWhile_append_of_pos hall, List.takeWhile_cons, hq']
    simp
  · rintro ⟨hq, hne, hword, q, hdrop⟩
    have hbehind : rest.dropWhile (fun d => !isQuote d) = q :: after :=
      calc rest.dropWhile (fun d => !isQuote d)
          = (rest.takeWhile (fun d => !isQuote d) ++
              rest.dropWhile fun d => !isQuote d).drop word.length := by
            rw [hword, List.drop_left]
        _ = q :: after := by rw [List.takeWhile_append_dropWhile, hdrop]
    have hrest : rest = word ++ q :: after := by
      rw [hword, ← hbehind, List.takeWhile_append_dropWhile]
    have hq' : isQuote q = true := by
      have hhead := List.head?_dropWhile_not (fun d => !isQuote d) rest
      rw [hbehind] at hhead
      simpa using hhead
    refine ⟨⟨c, q, hq, hq', by rw [hrest]; rfl⟩, List.not_mem_nil, hne, fun d hd => ?_⟩
    rw [hword] at hd
    simpa using List.mem_takeWhile_imp hd

theorem firstQuoted_cons_iff (h : ∀ word' after', ¬ Quoted (c :: rest) [] word' after') :
    FirstQuoted (c :: rest) word after ↔ c ≠ '\n' ∧ FirstQuoted rest word after := by
  constructor
  · rintro ⟨gap, hgap, hshort⟩
    cases gap with
    | nil => exact absurd hgap (h _ _)
    | cons d gap =>
      obtain ⟨rfl, hline, hrest⟩ := quoted_cons_iff.mp hgap
      refine ⟨hline, gap, hrest, fun gap' word' after' hgap' => ?_⟩
      have := hshort (d :: gap') word' after' (quoted_cons_iff.mpr ⟨rfl, hline, hgap'⟩)
      simpa using this
  · rintro ⟨hline, gap, hgap, hshort⟩
    refine ⟨c :: gap, quoted_cons_iff.mpr ⟨rfl, hline, hgap⟩, fun gap' word' after' hgap' => ?_⟩
    cases gap' with
    | nil => exact absurd hgap' (h _ _)
    | cons d gap' =>
      obtain ⟨-, -, hrest⟩ := quoted_cons_iff.mp hgap'
      simpa using hshort gap' word' after' hrest

theorem quotedWord_iff : quotedWord text = some (word, after) ↔ FirstQuoted text word after := by
  induction text with
  | nil => exact iff_of_false nofun fun ⟨_, hgap, _⟩ => not_quoted_nil hgap
  | cons c rest ih =>
    unfold quotedWord
    dsimp only
    split
    · rename_i q behind hfound hdrop
      obtain ⟨hq, hword⟩ := (Bool.and_eq_true _ _).mp hfound
      have hhere : Quoted (c :: rest) [] (rest.takeWhile fun d => !isQuote d) behind :=
        quoted_nil_iff.mpr ⟨hq, by simpa using hword, rfl, q, hdrop⟩
      constructor
      · intro h
        obtain ⟨rfl, rfl⟩ := Prod.mk.inj (Option.some.inj h)
        exact ⟨[], hhere, fun _ _ _ _ => Nat.zero_le _⟩
      · rintro ⟨gap, hgap, hshort⟩
        obtain rfl := List.eq_nil_of_length_eq_zero (Nat.le_zero.mp (hshort [] _ _ hhere))
        obtain ⟨-, -, rfl, q', hdrop'⟩ := quoted_nil_iff.mp hgap
        obtain ⟨-, rfl⟩ := List.cons.inj (hdrop.symm.trans hdrop')
        rfl
    · rename_i hnone
      have hnot : ∀ word' after', ¬ Quoted (c :: rest) [] word' after' := by
        intro word' after' h
        obtain ⟨hq, hne, rfl, q, hdrop⟩ := quoted_nil_iff.mp h
        exact hnone q after' (by simpa [hq] using hne) hdrop
      rw [firstQuoted_cons_iff hnot]
      by_cases hline : c = '\n'
      · simp [hline]
      · simp [hline, ih]

/-! ### Keywords -/

theorem behindKeyword_iff : behindKeyword keyword text = some rest ↔ ∃ head, text = head ++ rest ∧
    List.Forall₂ (fun letter c => sameLetter letter c = true) keyword head := by
  induction keyword generalizing text with
  | nil =>
    constructor
    · intro h
      exact ⟨[], Option.some.inj h, .nil⟩
    · rintro ⟨head, rfl, hhead⟩
      obtain rfl := List.forall₂_nil_left_iff.mp hhead
      rfl
  | cons letter keyword ih =>
    cases text with
    | nil => simp [behindKeyword]
    | cons c text =>
      unfold behindKeyword
      constructor
      · intro h
        obtain ⟨hsame, hrest⟩ := Option.ite_none_right_eq_some.mp h
        obtain ⟨head, rfl, hhead⟩ := ih.mp hrest
        exact ⟨c :: head, rfl, .cons hsame hhead⟩
      · rintro ⟨head, htext, hhead⟩
        obtain ⟨d, front, hsame, hfront, rfl⟩ := List.forall₂_cons_left_iff.mp hhead
        obtain ⟨rfl, rfl⟩ := List.cons.inj htext
        rw [if_pos hsame]
        exact ih.mpr ⟨front, rfl, hfront⟩

theorem keywords_exclusive (h : behindKeyword "ModuleNotFoundError".toList text = some rest) :
    behindKeyword "ImportError".toList text = none := by
  cases text with
  | nil => exact absurd h nofun
  | cons c text =>
    have hm : sameLetter 'M' c = true := by
      by_contra hne
      change (if sameLetter 'M' c then _ else none) = _ at h
      rw [if_neg hne] at h
      exact absurd h nofun
    have hi : ¬ sameLetter 'I' c = true := by
      intro hi
      simp only [sameLetter, Bool.or_eq_true, Bool.and_eq_true, beq_iff_eq] at hm hi
      have hlower : 'm' = c.toLower := by simpa using hm
      rcases hi with hi | ⟨-, rfl | rfl⟩
      · exact absurd (hlower.trans hi.symm) (by decide)
      · exact absurd hlower (by decide)
      · exact absurd hlower (by decide)
    exact if_neg hi

theorem exists_either {first second : String} {P : String → Prop} :
    (∃ keyword ∈ [first, second], P keyword) ↔ P first ∨ P second := by
  simp

theorem importError_iff : importError text = some (word, after) ↔ MatchesAt text word after := by
  have hkeyword (keyword : List Char) :
      (behindKeyword keyword text).bind quotedWord = some (word, after) ↔
        ∃ head rest, text = head ++ rest ∧
          List.Forall₂ (fun letter c => sameLetter letter c = true) keyword head ∧
            FirstQuoted rest word after := by
    simp only [Option.bind_eq_some_iff, behindKeyword_iff, quotedWord_iff]
    constructor
    · rintro ⟨rest, ⟨head, htext, hhead⟩, hquoted⟩
      exact ⟨head, rest, htext, hhead, hquoted⟩
    · rintro ⟨head, rest, htext, hhead, hquoted⟩
      exact ⟨rest, ⟨head, htext, hhead⟩, hquoted⟩
  unfold importError MatchesAt
  rw [exists_either, ← hkeyword, ← hkeyword, Option.or_eq_some_iff]
  constructor
  · rintro (h | ⟨-, h⟩)
    · exact .inl h
    · exact .inr h
  · rintro (h | h)
    · exact .inl h
    · refine .inr ⟨?_, h⟩
      cases hmodule : behindKeyword "ModuleNotFoundError".toList text with
      | none => rfl
      | some rest =>
        rw [keywords_exclusive hmodule] at h
        exact absurd h nofun

theorem matchesAt_unique (h : MatchesAt text word after) (h' : MatchesAt text word' after') :
    word' = word ∧ after' = after := by
  have heq := (importError_iff.mpr h').symm.trans (importError_iff.mpr h)
  exact Prod.mk.inj (Option.some.inj heq)

theorem matchesAt_shorter (h : MatchesAt text word after) : after.length < text.length := by
  obtain ⟨-, -, head, rest, rfl, -, gap, ⟨⟨q, q', -, -, rfl⟩, -⟩, -⟩ := h
  simp only [List.length_append, List.length_cons]
  omega

/-! ### The scan -/

theorem not_captured_nil : ¬ Captured [] earlier word := by
  have hnone : ∀ word after, ¬ Leftmost [] word after := by
    rintro word after ⟨skipped, found, htext, hfound, -⟩
    have := matchesAt_shorter hfound
    rw [(List.append_eq_nil_iff.mp htext.symm).2] at this
    exact absurd this (Nat.not_lt_zero _)
  intro h
  cases h with
  | first h => exact hnone _ _ h
  | later h => exact hnone _ _ h

theorem leftmost_here (h : MatchesAt text word after) :
    Leftmost text word' after' ↔ word' = word ∧ after' = after := by
  constructor
  · rintro ⟨skipped, found, rfl, hfound, hskipped⟩
    cases skipped with
    | nil => exact matchesAt_unique h hfound
    | cons c skipped => exact absurd h (hskipped [] (c :: skipped) rfl (List.cons_ne_nil _ _) _ _)
  · rintro ⟨rfl, rfl⟩
    refine ⟨[], text, rfl, h, fun front back hnil hback => ?_⟩
    exact absurd (List.append_eq_nil_iff.mp hnil.symm).2 hback

theorem leftmost_further (h : ∀ word' after', ¬ MatchesAt (c :: rest) word' after') :
    Leftmost (c :: rest) word after ↔ Leftmost rest word after := by
  constructor
  · rintro ⟨skipped, found, htext, hfound, hskipped⟩
    cases skipped with
    | nil =>
      obtain rfl : c :: rest = found := htext
      exact absurd hfound (h _ _)
    | cons d skipped =>
      obtain ⟨rfl, rfl⟩ := List.cons.inj htext
      exact ⟨skipped, found, rfl, hfound, fun front back hback => hskipped (c :: front) back
        (by rw [hback]; rfl)⟩
  · rintro ⟨skipped, found, rfl, hfound, hskipped⟩
    refine ⟨c :: skipped, found, rfl, hfound, fun front back hback hne word' after' hmatch => ?_⟩
    cases front with
    | nil =>
      obtain rfl : c :: skipped = back := hback
      exact h _ _ hmatch
    | cons d front =>
      obtain ⟨-, rfl⟩ := List.cons.inj hback
      exact hskipped front back rfl hne _ _ hmatch

theorem captured_further (h : ∀ word' after', ¬ MatchesAt (c :: rest) word' after') :
    Captured (c :: rest) earlier word ↔ Captured rest earlier word := by
  constructor
  · intro hcaptured
    cases hcaptured with
    | first hfirst => exact .first ((leftmost_further h).mp hfirst)
    | later hfirst hrest => exact .later ((leftmost_further h).mp hfirst) hrest
  · intro hcaptured
    cases hcaptured with
    | first hfirst => exact .first ((leftmost_further h).mpr hfirst)
    | later hfirst hrest => exact .later ((leftmost_further h).mpr hfirst) hrest

theorem importErrors_nil (fuel : Nat) : importErrors fuel [] = [] := by
  cases fuel with
  | zero => rfl
  | succ fuel => rfl

theorem not_importErrors_nil {fuel : Nat} :
    ¬ ∃ later, importErrors fuel [] = earlier ++ word :: later := by
  rintro ⟨later, h⟩
  rw [importErrors_nil] at h
  simp at h

theorem importErrors_cons (fuel : Nat) (c : Char) (rest : List Char) :
    importErrors (fuel + 1) (c :: rest) = match importError (c :: rest) with
      | some (word, behind) => word :: importErrors fuel behind
      | none => importErrors fuel rest := by
  rfl

theorem captured_iff {fuel : Nat} (hfuel : text.length ≤ fuel) : Captured text earlier word ↔
    ∃ later, importErrors fuel text = earlier ++ word :: later := by
  induction fuel generalizing text earlier with
  | zero =>
    obtain rfl := List.eq_nil_of_length_eq_zero (Nat.le_zero.mp hfuel)
    exact iff_of_false not_captured_nil not_importErrors_nil
  | succ fuel ih =>
    cases text with
    | nil => exact iff_of_false not_captured_nil not_importErrors_nil
    | cons c rest =>
      rw [importErrors_cons]
      cases hmatch : importError (c :: rest) with
      | none =>
        have hnone : ∀ word' after', ¬ MatchesAt (c :: rest) word' after' := by
          intro word' after' h
          exact absurd (hmatch.symm.trans (importError_iff.mpr h)) nofun
        rw [captured_further hnone]
        exact ih (Nat.le_of_succ_le_succ hfuel)
      | some found =>
        obtain ⟨first, after⟩ := found
        have hhere := importError_iff.mp hmatch
        have hafter : after.length ≤ fuel := by
          have := matchesAt_shorter hhere
          omega
        dsimp only
        constructor
        · intro h
          cases h with
          | first hfirst =>
            obtain ⟨rfl, -⟩ := (leftmost_here hhere).mp hfirst
            exact ⟨_, rfl⟩
          | later hfirst hrest =>
            obtain ⟨rfl, rfl⟩ := (leftmost_here hhere).mp hfirst
            obtain ⟨later, hlater⟩ := (ih hafter).mp hrest
            exact ⟨later, by rw [hlater]; rfl⟩
        · rintro ⟨later, hlater⟩
          have hfirst := (leftmost_here hhere).mpr ⟨rfl, rfl⟩
          cases earlier with
          | nil =>
            obtain ⟨rfl, -⟩ := List.cons.inj hlater
            exact .first hfirst
          | cons w earlier =>
            obtain ⟨rfl, hrest⟩ := List.cons.inj hlater
            exact .later hfirst ((ih hafter).mpr ⟨later, hrest⟩)

end Synthetos.Remediation
