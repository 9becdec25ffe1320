import Synthetos.Lib.Text
import Mathlib.Data.List.Infix
import Mathlib.Tactic.Linarith
import Mathlib.Tactic.Zify

/-!
# Rewriting references in a text

A scan takes the references to a word from the left, no two of them overlapping.  Where a part of
the text was inserted by an earlier rewriting its letters are marked, and a scan may be held to the
references without a marked letter.
-/

namespace Synthetos.Lib.Rewriting

variable {α : Type*}

/-- Letters with a mark on those that were inserted. -/
abbrev Marked (α : Type*) := List (α × Bool)

def plain (text : List α) : Marked α := text.map fun c => (c, false)

def inserted (text : List α) : Marked α := text.map fun c => (c, true)

def letters (w : Marked α) : List α := w.map Prod.fst

/-- No letter is marked. -/
def unmarked (w : Marked α) : Bool := w.all fun c => !c.2

@[simp] theorem letters_plain (text : List α) : letters (plain text) = text := by
  simp [letters, plain, Function.comp_def]

@[simp] theorem letters_inserted (text : List α) : letters (inserted text) = text := by
  simp [letters, inserted, Function.comp_def]

@[simp] theorem letters_append (v w : Marked α) : letters (v ++ w) = letters v ++ letters w :=
  List.map_append

@[simp] theorem letters_drop (n : Nat) (w : Marked α) : letters (w.drop n) = (letters w).drop n :=
  List.map_drop

@[simp] theorem length_letters (w : Marked α) : (letters w).length = w.length := List.length_map _

@[simp] theorem unmarked_plain (text : List α) : unmarked (plain text) = true := by
  simp [unmarked, plain]

/-- A scan keeps a letter or takes a reference. -/
inductive Piece (α : Type*)
  | kept (c : α)
  | taken (reference : Marked α)

/-- The text with `new` in place of every reference. -/
def render (new : List α) : List (Piece α) → List α
  | [] => []
  | .kept c :: pieces => c :: render new pieces
  | .taken _ :: pieces => new ++ render new pieces

def references : List (Piece α) → Nat
  | [] => 0
  | .kept _ :: pieces => references pieces
  | .taken _ :: pieces => references pieces + 1

/-- The text between the references. -/
def gaps : List (Piece α) → List (List α)
  | [] => [[]]
  | .kept c :: pieces => (gaps pieces).modifyHead (c :: ·)
  | .taken _ :: pieces => [] :: gaps pieces

/-- No reference touches a marked letter. -/
def Untouched (pieces : List (Piece α)) : Prop :=
  ∀ reference, .taken reference ∈ pieces → unmarked reference = true

variable {pieces : List (Piece α)} {new : List α}

theorem length_render (old new : List α) (pieces : List (Piece α)) :
    (render new pieces).length + references pieces * old.length =
      (render old pieces).length + references pieces * new.length := by
  induction pieces with
  | nil => simp only [references, Nat.zero_mul, render]
  | cons piece pieces ih =>
    cases piece with
    | kept c =>
      simp only [render, references, List.length_cons]
      omega
    | taken reference =>
      simp only [render, references, List.length_append, Nat.add_mul, Nat.one_mul]
      omega

theorem render_append (new : List α) (p q : List (Piece α)) :
    render new (p ++ q) = render new p ++ render new q := by
  induction p with
  | nil => rfl
  | cons piece p ih =>
    cases piece with
    | kept c => simp only [List.cons_append, render, ih]
    | taken reference => simp only [List.cons_append, render, ih, List.append_assoc]

theorem references_append (p q : List (Piece α)) :
    references (p ++ q) = references p + references q := by
  induction p with
  | nil => simp [references]
  | cons piece p ih =>
    cases piece with
    | kept c => simp only [List.cons_append, references, ih]
    | taken reference =>
      simp only [List.cons_append, references, ih]
      omega

@[simp] theorem render_kept (new text : List α) : render new (text.map .kept) = text := by
  induction text with
  | nil => rfl
  | cons c text ih => rw [List.map_cons, render, ih]

@[simp] theorem references_kept (text : List α) : references (text.map .kept) = 0 := by
  induction text with
  | nil => rfl
  | cons c text ih => rw [List.map_cons, references, ih]

theorem untouched_kept {c : α} : Untouched (.kept c :: pieces) ↔ Untouched pieces := by
  simp [Untouched]

theorem untouched_taken {reference : Marked α} :
    Untouched (.taken reference :: pieces) ↔ unmarked reference = true ∧ Untouched pieces := by
  simp [Untouched]

theorem untouched_of_references (h : references pieces = 0) : Untouched pieces := by
  induction pieces with
  | nil => simp [Untouched]
  | cons piece pieces ih =>
    cases piece with
    | kept c => exact untouched_kept.mpr (ih h)
    | taken reference => simp [references] at h

theorem gaps_ne_nil (pieces : List (Piece α)) : gaps pieces ≠ [] := by
  induction pieces with
  | nil => simp [gaps]
  | cons piece pieces ih =>
    cases piece with
    | kept c => simpa [gaps] using ih
    | taken reference => simp [gaps]

theorem intercalate_gaps (new : List α) (pieces : List (Piece α)) :
    new.intercalate (gaps pieces) = render new pieces := by
  induction pieces with
  | nil => simp [gaps, render]
  | cons piece pieces ih =>
    obtain ⟨gap, rest, hgaps⟩ := List.exists_cons_of_ne_nil (gaps_ne_nil pieces)
    cases piece with
    | kept c => rw [gaps, render, ← ih, hgaps, List.modifyHead, List.intercalate_cons_cons_left]
    | taken reference =>
      rw [gaps, render, ← ih, hgaps, List.intercalate_cons_cons, List.nil_append]

/-- The scan takes a reference at the beginning of the text. -/
def Takes (admits : Marked α → Bool) (old : List α) (w : Marked α) : Prop :=
  old <+: letters w ∧ admits (w.take old.length) = true

variable {admits : Marked α → Bool} {old : List α} {w : Marked α} {c : α × Bool} {fuel : Nat}

theorem Takes.length_le (h : Takes admits old w) : old.length ≤ w.length := by
  simpa using h.1.length_le

theorem scan_induction (admits : Marked α → Bool) (hne : old ≠ []) {motive : Marked α → Prop}
    (nil : motive [])
    (taken : ∀ w, Takes admits old w → motive (w.drop old.length) → motive w)
    (kept : ∀ c rest, ¬ Takes admits old (c :: rest) → motive rest → motive (c :: rest))
    (w : Marked α) : motive w := by
  have hpos := List.length_pos_iff.mpr hne
  induction hlen : w.length using Nat.strongRecOn generalizing w with
  | ind len ih =>
    cases w with
    | nil => exact nil
    | cons c rest =>
      subst hlen
      by_cases h : Takes admits old (c :: rest)
      · refine taken _ h (ih _ ?_ _ rfl)
        rw [List.length_drop, List.length_cons]
        omega
      · exact kept c rest h (ih _ (Nat.lt_succ_self _) rest rfl)

variable [DecidableEq α]

/-- `fuel` bounds the scan by the length of the text. -/
def scanFrom (admits : Marked α → Bool) (old : List α) : Nat → Marked α → List (Piece α)
  | 0, w => (letters w).map .kept
  | _ + 1, [] => []
  | fuel + 1, c :: rest =>
    if old.isPrefixOf (letters (c :: rest)) && admits ((c :: rest).take old.length) then
      .taken ((c :: rest).take old.length) ::
        scanFrom admits old fuel ((c :: rest).drop old.length)
    else .kept c.1 :: scanFrom admits old fuel rest

/-- The scan that takes the references it admits. -/
def scan (admits : Marked α → Bool) (old : List α) (w : Marked α) : List (Piece α) :=
  scanFrom admits old w.length w

instance : Decidable (Takes admits old w) := inferInstanceAs (Decidable (_ ∧ _))

theorem takes_iff : (old.isPrefixOf (letters w) && admits (w.take old.length)) = true ↔
    Takes admits old w := by
  rw [Bool.and_eq_true, List.isPrefixOf_iff_prefix, Takes]

theorem scanFrom_taken (hne : old ≠ []) (h : Takes admits old w) :
    scanFrom admits old (fuel + 1) w =
      .taken (w.take old.length) :: scanFrom admits old fuel (w.drop old.length) := by
  cases w with
  | nil => exact absurd (List.prefix_nil.mp h.1) hne
  | cons c rest => rw [scanFrom, if_pos (takes_iff.mpr h)]

theorem scanFrom_kept {rest : Marked α} (h : ¬ Takes admits old (c :: rest)) :
    scanFrom admits old (fuel + 1) (c :: rest) = .kept c.1 :: scanFrom admits old fuel rest := by
  rw [scanFrom, if_neg (mt takes_iff.mp h)]

/-- Fuel beyond the length changes nothing. -/
theorem scanFrom_eq_scan (hne : old ≠ []) (hfuel : w.length ≤ fuel) :
    scanFrom admits old fuel w = scan admits old w := by
  have hpos := List.length_pos_iff.mpr hne
  suffices ∀ fuel' fuel, w.length ≤ fuel → w.length ≤ fuel' →
      scanFrom admits old fuel w = scanFrom admits old fuel' w from
    this _ _ hfuel le_rfl
  clear hfuel
  induction w using scan_induction admits hne with
  | nil =>
    rintro (_ | fuel') (_ | fuel) - -
    all_goals rfl
  | taken w h ih =>
    have hle := h.length_le
    rintro (_ | fuel') (_ | fuel) hfuel hfuel'
    · rfl
    · omega
    · omega
    · rw [scanFrom_taken hne h, scanFrom_taken hne h, ih fuel' fuel]
      all_goals
        rw [List.length_drop]
        omega
  | kept c rest h ih =>
    rintro (_ | fuel') (_ | fuel) hfuel hfuel'
    · rfl
    · simp at hfuel'
    · simp at hfuel
    · rw [scanFrom_kept h, scanFrom_kept h,
        ih fuel' fuel (Nat.le_of_succ_le_succ hfuel) (Nat.le_of_succ_le_succ hfuel')]

@[simp] theorem scan_nil : scan admits old [] = [] := rfl

theorem scan_taken (hne : old ≠ []) (h : Takes admits old w) :
    scan admits old w = .taken (w.take old.length) :: scan admits old (w.drop old.length) := by
  have hpos := List.length_pos_iff.mpr hne
  have hle := h.length_le
  rw [← scanFrom_eq_scan hne (Nat.le_succ w.length), scanFrom_taken hne h,
    scanFrom_eq_scan hne (by rw [List.length_drop]; omega)]

theorem scan_kept {rest : Marked α} (h : ¬ Takes admits old (c :: rest)) :
    scan admits old (c :: rest) = .kept c.1 :: scan admits old rest := by
  rw [scan, List.length_cons, scanFrom_kept h, scan]

theorem render_scan_self (hne : old ≠ []) (w : Marked α) :
    render old (scan admits old w) = letters w := by
  induction w using scan_induction admits hne with
  | nil => rfl
  | taken w h ih =>
    obtain ⟨rest, hrest⟩ := h.1
    rw [scan_taken hne h, render, ih, letters_drop, ← hrest, List.drop_left]
  | kept c rest h ih =>
    rw [scan_kept h, render, ih]
    rfl

/-- Without a reference at one of the first `m` places a scan keeps `m` letters. -/
theorem scan_skip {m : Nat} (hm : m ≤ w.length) (h : ∀ i < m, ¬ Takes admits old (w.drop i)) :
    scan admits old w = ((letters w).take m).map .kept ++ scan admits old (w.drop m) := by
  induction m generalizing w with
  | zero => simp
  | succ m ih =>
    cases w with
    | nil => simp at hm
    | cons c rest =>
      rw [scan_kept (h 0 (Nat.succ_pos m)),
        ih (Nat.le_of_succ_le_succ hm) fun i hi => h (i + 1) (Nat.succ_lt_succ hi)]
      rfl

/-! ### The scan held to unmarked references -/

omit [DecidableEq α] in
theorem unmarked_drop (n : Nat) (h : unmarked w = true) : unmarked (w.drop n) = true := by
  rw [unmarked, List.all_eq_true] at h ⊢
  exact fun c hc => h c (List.mem_of_mem_drop hc)

omit [DecidableEq α] in
theorem unmarked_take (n : Nat) (h : unmarked w = true) : unmarked (w.take n) = true := by
  rw [unmarked, List.all_eq_true] at h ⊢
  exact fun c hc => h c (List.mem_of_mem_take hc)

omit [DecidableEq α] in
theorem not_takes_of_marked {i : Nat} (hi : i < old.length) (hc : w[i]? = some c)
    (hmarked : c.2 = true) : ¬ Takes unmarked old w := by
  rintro ⟨-, h⟩
  have hmem : c ∈ w.take old.length := by
    rw [List.mem_iff_getElem?]
    exact ⟨i, by rw [List.getElem?_take_of_lt hi, hc]⟩
  have := List.all_eq_true.mp h c hmem
  simp [hmarked] at this

theorem untouched_of_unmarked (hne : old ≠ []) (h : unmarked w = true) :
    Untouched (scan admits old w) := by
  induction w using scan_induction admits hne with
  | nil => simp [Untouched]
  | taken w htakes ih =>
    rw [scan_taken hne htakes, untouched_taken]
    exact ⟨unmarked_take _ h, ih (unmarked_drop _ h)⟩
  | kept c rest hkept ih =>
    rw [scan_kept hkept, untouched_kept]
    exact ih (unmarked_drop 1 h)

/-- Where no reference is touched, holding the scan to unmarked references changes nothing. -/
theorem scan_eq_of_untouched (hne : old ≠ []) (h : Untouched (scan (fun _ => true) old w)) :
    scan unmarked old w = scan (fun _ => true) old w := by
  induction w using scan_induction (fun _ => true) hne with
  | nil => rfl
  | taken w htakes ih =>
    rw [scan_taken hne htakes, untouched_taken] at h
    rw [scan_taken hne htakes, scan_taken hne ⟨htakes.1, h.1⟩, ih h.2]
  | kept c rest hkept ih =>
    rw [scan_kept hkept, untouched_kept] at h
    rw [scan_kept hkept, scan_kept fun htakes => hkept ⟨htakes.1, rfl⟩, ih h]

theorem scan_plain (hne : old ≠ []) (text : List α) :
    scan unmarked old (plain text) = scan (fun _ => true) old (plain text) :=
  scan_eq_of_untouched hne (untouched_of_unmarked hne (unmarked_plain text))

theorem scan_inserted (hne : old ≠ []) (text : List α) (v : Marked α) :
    scan unmarked old (inserted text ++ v) = text.map .kept ++ scan unmarked old v := by
  induction text with
  | nil => rfl
  | cons c text ih =>
    have hkept : ¬ Takes unmarked old ((c, true) :: (inserted text ++ v)) :=
      not_takes_of_marked (List.length_pos_iff.mpr hne) rfl rfl
    rw [inserted, List.map_cons, List.cons_append, ← inserted, scan_kept hkept, ih]
    rfl

omit [DecidableEq α] in
theorem takes_append_iff {v : Marked α} (hv : ∀ c ∈ v.head?, c.2 = true) :
    Takes unmarked old (w ++ v) ↔ Takes unmarked old w := by
  constructor
  · intro h
    have hle : old.length ≤ w.length := by
      by_contra hlt
      cases v with
      | nil => exact hlt (by simpa using h.length_le)
      | cons c v =>
        exact not_takes_of_marked (Nat.lt_of_not_le hlt) (by simp) (hv c rfl) h
    refine ⟨List.prefix_of_prefix_length_le (letters_append w v ▸ h.1)
      (List.prefix_append _ _) (by simpa using hle), ?_⟩
    rw [← List.take_append_of_le_length hle]
    exact h.2
  · intro h
    refine ⟨?_, ?_⟩
    · rw [letters_append]
      exact h.1.trans (List.prefix_append _ _)
    · rw [List.take_append_of_le_length h.length_le]
      exact h.2

/-- No admitted reference reaches over the beginning of an insertion. -/
theorem scan_append (hne : old ≠ []) {v : Marked α} (hv : ∀ c ∈ v.head?, c.2 = true)
    (w : Marked α) : scan unmarked old (w ++ v) = scan unmarked old w ++ scan unmarked old v := by
  induction w using scan_induction unmarked hne with
  | nil => rfl
  | taken w h ih =>
    rw [scan_taken hne ((takes_append_iff hv).mpr h), scan_taken hne h,
      List.take_append_of_le_length h.length_le, List.drop_append_of_le_length h.length_le, ih]
    rfl
  | kept c rest h ih =>
    have h' : ¬ Takes unmarked old (c :: (rest ++ v)) := by
      rw [← List.cons_append, takes_append_iff hv]
      exact h
    rw [List.cons_append, scan_kept h', scan_kept h, ih]
    rfl

/-- Between insertions, the scan held to unmarked references works on each gap alone. -/
theorem render_intercalate (hne : old ≠ []) {sep : List α} (hsep : sep ≠ []) (new : List α)
    (texts : List (List α)) :
    render new (scan unmarked old ((inserted sep).intercalate (texts.map plain))) =
      sep.intercalate (texts.map fun text => render new (scan (fun _ => true) old (plain text))) := by
  induction texts with
  | nil => rfl
  | cons text texts ih =>
    cases texts with
    | nil =>
      simp only [List.map_cons, List.map_nil, List.intercalate_singleton]
      rw [scan_plain hne]
    | cons next texts =>
      simp only [List.map_cons, List.intercalate_cons_cons] at ih ⊢
      have hv : ∀ c ∈ (inserted sep ++
          (inserted sep).intercalate (plain next :: texts.map plain)).head?, c.2 = true := by
        obtain ⟨first, sep, rfl⟩ := List.exists_cons_of_ne_nil hsep
        simp [inserted]
      rw [List.append_assoc, scan_append hne hv, scan_inserted hne, render_append, render_append,
        render_kept, ih, scan_plain hne, List.append_assoc]

omit [DecidableEq α] in
theorem letters_intercalate (sep : List α) (texts : List (List α)) :
    letters ((inserted sep).intercalate (texts.map plain)) = sep.intercalate texts := by
  induction texts with
  | nil => rfl
  | cons text texts ih =>
    cases texts with
    | nil => simp
    | cons next texts =>
      simp only [List.map_cons, List.intercalate_cons_cons, letters_append] at ih ⊢
      rw [ih, letters_plain, letters_inserted]

/-! ### When the two scans give one text

Where a touched reference is taken, the scan held to unmarked references keeps its first letter
and is behind by at least that letter.
-/

omit [DecidableEq α] in
/-- Two references that overlap show a suffix of the word that is a prefix of it. -/
theorem drop_prefix_self {text : List α} {k : Nat} (h : old <+: text) (hk : old <+: text.drop k) :
    old.drop k <+: old :=
  List.prefix_of_prefix_length_le (h.drop k) hk (by simp)

omit [DecidableEq α] in
/-- A word that starts with a period is determined by it. -/
theorem eq_of_period {x y p : List α} {m : Nat} (hp : p ≠ []) (hlen : x.length = y.length)
    (hx : x = p ++ x.take m) (hy : y = p ++ y.take m) : x = y := by
  have hpos := List.length_pos_iff.mpr hp
  have htake : ∀ n, x.take n = y.take n := by
    intro n
    induction n using Nat.strongRecOn with
    | ind n ih =>
      rcases Nat.eq_zero_or_pos n with rfl | hn
      · simp
      · have hlt : min (n - p.length) m < n := by omega
        rw [hx, hy, List.take_append, List.take_append, List.take_take, List.take_take, ih _ hlt]
  have := htake x.length
  rwa [List.take_length, hlen, List.take_length] at this

/-- A word without an own prefix as its suffix has no references that overlap. -/
def Unbordered (old : List α) : Prop := ∀ k, 0 < k → k < old.length → ¬ old.drop k <+: old

theorem references_unmarked (hne : old ≠ []) (hold : Unbordered old) (w : Marked α) :
    references (scan unmarked old w) ≤ references (scan (fun _ => true) old w) ∧
      (references (scan unmarked old w) = references (scan (fun _ => true) old w) →
        Untouched (scan (fun _ => true) old w)) := by
  induction w using scan_induction (fun _ => true) hne with
  | nil => simp [Untouched]
  | taken w h ih =>
    rw [scan_taken hne h, untouched_taken, references]
    by_cases hunmarked : unmarked (w.take old.length) = true
    · rw [scan_taken hne ⟨h.1, hunmarked⟩, references]
      exact ⟨Nat.succ_le_succ ih.1, fun heq => ⟨hunmarked, ih.2 (Nat.succ.inj heq)⟩⟩
    · have hskip : ∀ i < old.length, ¬ Takes unmarked old (w.drop i) := by
        rintro (_ | i) hi htakes
        · exact hunmarked htakes.2
        · refine hold (i + 1) (Nat.succ_pos i) hi (drop_prefix_self h.1 ?_)
          rw [← letters_drop]
          exact htakes.1
      rw [scan_skip h.length_le hskip, references_append, references_kept, Nat.zero_add]
      have := ih.1
      constructor
      · omega
      · intro heq
        omega
  | kept c rest h ih =>
    rw [scan_kept h, scan_kept fun htakes => h ⟨htakes.1, rfl⟩, untouched_kept]
    exact ih

theorem untouched_of_unbordered (hne : old ≠ []) (hold : Unbordered old)
    (hlen : old.length ≠ new.length)
    (heq : render new (scan (fun _ => true) old w) = render new (scan unmarked old w)) :
    Untouched (scan (fun _ => true) old w) := by
  refine (references_unmarked hne hold w).2 ?_
  have hall := length_render old new (scan (fun _ => true) old w)
  have hheld := length_render old new (scan unmarked old w)
  rw [heq, render_scan_self hne] at hall
  rw [render_scan_self hne] at hheld
  have hproduct : ((references (scan unmarked old w) : Int) -
      references (scan (fun _ => true) old w)) * (old.length - new.length) = 0 := by
    zify at hall hheld
    linarith
  rcases mul_eq_zero.mp hproduct with hsame | hsame
  · omega
  · omega

omit [DecidableEq α] in
theorem take_eq_of_prefix {text : List α} (h : old <+: text) : text.take old.length = old :=
  (List.prefix_iff_eq_take.mp h).symm

/-- The first reference that is touched shows: it becomes `new`, or its letters are still there, or
the next reference, that overlaps it, makes both words repeat the letters before it. -/
theorem render_ne_of_touched (hne : old ≠ []) (hlen : old.length = new.length) (hdiff : old ≠ new)
    (h : old <+: letters w) (hmarked : ¬ Takes unmarked old w) (rest : List α) :
    new ++ rest ≠ render new (scan unmarked old w) := by
  have hlength : old.length ≤ w.length := by simpa using h.length_le
  intro heq
  by_cases hnext : ∃ k, k < old.length ∧ Takes unmarked old (w.drop k)
  · obtain ⟨hk, htakes⟩ := Nat.find_spec hnext
    have hfirst : ∀ i < Nat.find hnext, ¬ Takes unmarked old (w.drop i) :=
      fun i hi htakes => Nat.find_min hnext hi ⟨hi.trans hk, htakes⟩
    generalize Nat.find hnext = k at hk htakes hfirst
    have hpos : 0 < k := by
      rcases Nat.eq_zero_or_pos k with rfl | hpos
      · exact absurd htakes hmarked
      · exact hpos
    have hagain : old <+: (letters w).drop k := letters_drop k w ▸ htakes.1
    have hkept : ((letters w).take k).length = k := by
      rw [List.length_take, length_letters]
      omega
    rw [scan_skip (hk.le.trans hlength) hfirst, scan_taken hne htakes, render_append, render_kept,
      render] at heq
    have hnew : new = (letters w).take k ++ new.take (old.length - k) := by
      have := congrArg (List.take old.length) heq
      rwa [List.take_append_of_le_length hlen.le, List.take_of_length_le hlen.ge, List.take_append,
        hkept, List.take_of_length_le (by omega),
        List.take_append_of_le_length (by omega)] at this
    have hold : old = (letters w).take k ++ old.take (old.length - k) := by
      calc
        old = (letters w).take (k + (old.length - k)) := by
          rw [Nat.add_sub_cancel' hk.le, take_eq_of_prefix h]
        _ = (letters w).take k ++ ((letters w).drop k).take (old.length - k) := List.take_add
        _ = (letters w).take k ++ old.take (old.length - k) := by
          obtain ⟨tail, htail⟩ := hagain
          rw [← htail, List.take_append_of_le_length (Nat.sub_le _ _)]
    have hperiod : (letters w).take k ≠ [] := List.length_pos_iff.mp (hkept.symm ▸ hpos)
    exact hdiff (eq_of_period hperiod hlen hold hnew)
  · have hfirst : ∀ i < old.length, ¬ Takes unmarked old (w.drop i) :=
      fun i hi htakes => hnext ⟨i, hi, htakes⟩
    rw [scan_skip hlength hfirst, render_append, render_kept, take_eq_of_prefix h] at heq
    exact hdiff (List.append_inj_left heq hlen.symm).symm

theorem untouched_of_length_eq (hne : old ≠ []) (hlen : old.length = new.length)
    (hdiff : old ≠ new)
    (heq : render new (scan (fun _ => true) old w) = render new (scan unmarked old w)) :
    Untouched (scan (fun _ => true) old w) := by
  induction w using scan_induction (fun _ => true) hne with
  | nil => simp [Untouched]
  | taken w h ih =>
    rw [scan_taken hne h, render] at heq
    by_cases hunmarked : Takes unmarked old w
    · rw [scan_taken hne hunmarked, render] at heq
      rw [scan_taken hne h, untouched_taken]
      exact ⟨hunmarked.2, ih (List.append_cancel_left heq)⟩
    · exact absurd heq (render_ne_of_touched hne hlen hdiff h.1 hunmarked _)
  | kept c rest h ih =>
    rw [scan_kept h, scan_kept fun htakes => h ⟨htakes.1, rfl⟩, render, render] at heq
    rw [scan_kept h, untouched_kept]
    exact ih (List.cons.inj heq).2

/-! ### The gaps of a scan -/

theorem head_gaps_prefix (admits : Marked α → Bool) (hne : old ≠ []) (w : Marked α) :
    ∃ gap rest, gaps (scan admits old w) = gap :: rest ∧ gap <+: letters w := by
  induction w using scan_induction admits hne with
  | nil => exact ⟨[], [], rfl, List.prefix_rfl⟩
  | taken w h _ =>
    rw [scan_taken hne h, gaps]
    exact ⟨[], _, rfl, List.nil_prefix⟩
  | kept c rest h ih =>
    obtain ⟨gap, others, hgaps, hprefix⟩ := ih
    rw [scan_kept h, gaps, hgaps]
    exact ⟨c.1 :: gap, others, rfl, (List.prefix_cons_inj c.1).mpr hprefix⟩

/-- The scan that takes any reference leaves none between those it takes. -/
theorem not_infix_gap (hne : old ≠ []) {gap : List α}
    (hgap : gap ∈ gaps (scan (fun _ => true) old w)) : ¬ old <:+: gap := by
  induction w using scan_induction (fun _ => true) hne generalizing gap with
  | nil =>
    obtain rfl : gap = [] := by simpa [gaps] using hgap
    rw [List.infix_nil]
    exact hne
  | taken w h ih =>
    rw [scan_taken hne h, gaps, List.mem_cons] at hgap
    rcases hgap with rfl | hgap
    · rw [List.infix_nil]
      exact hne
    · exact ih hgap
  | kept c rest h ih =>
    obtain ⟨first, others, hgaps, hprefix⟩ := head_gaps_prefix (fun _ => true) hne rest
    rw [scan_kept h, gaps, hgaps, List.modifyHead, List.mem_cons] at hgap
    rw [hgaps] at ih
    rcases hgap with rfl | hgap
    · rw [List.infix_cons_iff]
      rintro (hhere | hlater)
      · exact h ⟨hhere.trans ((List.prefix_cons_inj c.1).mpr hprefix), rfl⟩
      · exact ih List.mem_cons_self hlater
    · exact ih (List.mem_cons_of_mem first hgap)

theorem scan_of_not_infix (h : ¬ old <:+: letters w) :
    scan admits old w = (letters w).map .kept := by
  have hskip := scan_skip le_rfl fun i _ (htakes : Takes admits old (w.drop i)) =>
    h ((letters_drop i w ▸ htakes.1).isInfix.trans (List.drop_suffix i _).isInfix)
  rwa [List.drop_length, scan_nil, List.append_nil, List.take_of_length_le (by simp)] at hskip

/-! ### `text.replace(old, new)` -/

theorem replaceFrom_letters (old new : List Char) (fuel : Nat) (w : Marked Char) :
    Text.replaceFrom old new fuel (letters w) =
      render new (scanFrom (fun _ => true) old fuel w) := by
  induction fuel generalizing w with
  | zero => rw [Text.replaceFrom, scanFrom, render_kept]
  | succ fuel ih =>
    cases w with
    | nil => rfl
    | cons c rest =>
      have hcons : letters (c :: rest) = c.1 :: letters rest := rfl
      rw [hcons, Text.replaceFrom, scanFrom, Bool.and_true, hcons]
      split
      · rw [render, ← ih, letters_drop, hcons]
      · rw [render, ← ih]

theorem replace_letters (old new : List Char) (w : Marked Char) :
    Text.replace old new (letters w) = render new (scan (fun _ => true) old w) := by
  rw [Text.replace, length_letters, replaceFrom_letters, scan]

theorem replace_eq (old new text : List Char) :
    Text.replace old new text = render new (scan (fun _ => true) old (plain text)) := by
  rw [← replace_letters, letters_plain]

end Synthetos.Lib.Rewriting
