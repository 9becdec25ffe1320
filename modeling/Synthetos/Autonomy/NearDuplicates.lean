import Synthetos.Autonomy.Repetition
import Synthetos.Lib.Except
import Mathlib.Tactic.Linarith

/-!
# Near-duplicates

What the tolerance check compares, and what the comparison of flattened floats makes of it.
-/

namespace Synthetos.Autonomy

open Lib

/-- `a` and `b` differ by at most the tolerance, relative to the larger of them. -/
def Close (tolerance a b : Rat) : Prop := |a - b| ≤ tolerance * max |a| |b|

mutual

/-- The same shape, keys and non-numeric leaves, with related numbers in the same places. -/
def Matches (related : Rat → Rat → Prop) : Json → Json → Prop
  | .null, .null => True
  | .bool a, .bool b => a = b
  | .int a, .int b => related a b
  | .int a, .float b => related a b
  | .float a, .int b => related a b
  | .float a, .float b => related a b
  | .str a, .str b => a = b
  | .arr a, .arr b => MatchesItems related a b
  | .obj a, .obj b => MatchesFields related a b
  | _, _ => False

def MatchesItems (related : Rat → Rat → Prop) : List Json → List Json → Prop
  | [], [] => True
  | a :: as, b :: bs => Matches related a b ∧ MatchesItems related as bs
  | _, _ => False

def MatchesFields (related : Rat → Rat → Prop) :
    List (String × Json) → List (String × Json) → Prop
  | [], [] => True
  | (k, a) :: as, (l, b) :: bs => k = l ∧ Matches related a b ∧ MatchesFields related as bs
  | _, _ => False

end

/-- Equal up to numbers that differ by at most the tolerance, once keys are sorted. -/
def Similar (tolerance : Rat) (a b : Json) : Prop :=
  Matches (Close tolerance) a.canonical b.canonical

/-- Equal once the numbers are left out. -/
def SameOutline (a b : Json) : Prop := Matches (fun _ _ => True) a.canonical b.canonical

/-- The numbers of a document in the order of the sorted keys; booleans count as 0 and 1. -/
def numbers (v : Json) : List Rat := (numericLeaves v.canonical).filterMap Json.number?

/-- Every integer of the document has a float. -/
def FloatRange (e : Encoder) (v : Json) : Prop :=
  ∀ n : Int, .int n ∈ numericLeaves v.canonical → (e.nearest n).isSome = true

def Encoder.float? (e : Encoder) : Json → Option Rat
  | .bool b => some (if b then 1 else 0)
  | .int n => e.nearest n
  | .float q => some q
  | _ => none

def floats (e : Encoder) (v : Json) : List Rat := (numericLeaves v.canonical).filterMap e.float?

/-- As many floats on either side, pairwise within the tolerance. -/
def FloatsClose (e : Encoder) (tolerance : Rat) (a b : Json) : Prop :=
  List.Forall₂ (fun p q => withinTolerance e tolerance p q = true) (floats e a) (floats e b)

/-- Rounding moves the comparison of the numbers across the tolerance in neither direction. -/
def RoundingKeeps (e : Encoder) (tolerance : Rat) (a b : Json) : Prop :=
  FloatsClose e tolerance a b ↔ List.Forall₂ (Close tolerance) (numbers a) (numbers b)

variable {tolerance p q : Rat} {related : Rat → Rat → Prop} {a b : Json} {e : Encoder}

/-! ### Tolerance -/

theorem close_self (h : 0 ≤ tolerance) (q : Rat) : Close tolerance q q := by
  rw [Close, sub_self, abs_zero]
  exact mul_nonneg h (le_max_of_le_left (abs_nonneg q))

/-! ### Numbers of matching documents -/

theorem forall₂_of_append {left right left' right' : List Rat} (hlen : left.length = right.length)
    (h : List.Forall₂ related (left ++ left') (right ++ right')) :
    List.Forall₂ related left right ∧ List.Forall₂ related left' right' := by
  have htake := List.forall₂_take left.length h
  have hdrop := List.forall₂_drop left.length h
  rw [List.take_left, hlen, List.take_left] at htake
  rw [List.drop_left, hlen, List.drop_left] at hdrop
  exact ⟨htake, hdrop⟩

def leafNumbers (v : Json) : List Rat := (numericLeaves v).filterMap Json.number?

theorem leafNumbers_cons (v : Json) (rest : List Json) :
    (numericItems (v :: rest)).filterMap Json.number? =
      leafNumbers v ++ (numericItems rest).filterMap Json.number? := by
  rw [numericItems, List.filterMap_append, leafNumbers]

theorem leafNumbers_field (k : String) (v : Json) (rest : List (String × Json)) :
    (numericFields ((k, v) :: rest)).filterMap Json.number? =
      leafNumbers v ++ (numericFields rest).filterMap Json.number? := by
  rw [numericFields, List.filterMap_append, leafNumbers]

mutual

theorem Matches.numbers (hrefl : ∀ n, related n n) : ∀ {a b : Json}, Matches related a b →
    List.Forall₂ related (leafNumbers a) (leafNumbers b)
  | .null, .null, _ | .str _, .str _, _ => .nil
  | .bool _, .bool _, h => h ▸ .cons (hrefl _) .nil
  | .int _, .int _, h | .int _, .float _, h | .float _, .int _, h | .float _, .float _, h =>
    .cons h .nil
  | .arr _, .arr _, h => MatchesItems.numbers hrefl h
  | .obj _, .obj _, h => MatchesFields.numbers hrefl h

theorem MatchesItems.numbers (hrefl : ∀ n, related n n) : ∀ {as bs : List Json},
    MatchesItems related as bs → List.Forall₂ related
      ((numericItems as).filterMap Json.number?) ((numericItems bs).filterMap Json.number?)
  | [], [], _ => .nil
  | _ :: _, _ :: _, ⟨hhead, htail⟩ => by
    rw [leafNumbers_cons, leafNumbers_cons]
    exact List.rel_append (Matches.numbers hrefl hhead) (MatchesItems.numbers hrefl htail)

theorem MatchesFields.numbers (hrefl : ∀ n, related n n) : ∀ {as bs : List (String × Json)},
    MatchesFields related as bs → List.Forall₂ related
      ((numericFields as).filterMap Json.number?) ((numericFields bs).filterMap Json.number?)
  | [], [], _ => .nil
  | (_, _) :: _, (_, _) :: _, ⟨_, hhead, htail⟩ => by
    rw [leafNumbers_field, leafNumbers_field]
    exact List.rel_append (Matches.numbers hrefl hhead) (MatchesFields.numbers hrefl htail)

end

theorem Matches.length_eq {a b : Json} (h : Matches (fun _ _ => True) a b) :
    (leafNumbers a).length = (leafNumbers b).length :=
  (h.numbers fun _ => trivial).length_eq

mutual

theorem Matches.of_numbers : ∀ {a b : Json}, Matches (fun _ _ => True) a b →
    List.Forall₂ related (leafNumbers a) (leafNumbers b) → Matches related a b
  | .null, .null, _, _ => trivial
  | .bool _, .bool _, h, _ | .str _, .str _, h, _ => h
  | .int _, .int _, _, .cons h _ | .int _, .float _, _, .cons h _ | .float _, .int _, _, .cons h _
  | .float _, .float _, _, .cons h _ => h
  | .arr _, .arr _, h, hnumbers => MatchesItems.of_numbers h hnumbers
  | .obj _, .obj _, h, hnumbers => MatchesFields.of_numbers h hnumbers

theorem MatchesItems.of_numbers : ∀ {as bs : List Json}, MatchesItems (fun _ _ => True) as bs →
    List.Forall₂ related ((numericItems as).filterMap Json.number?)
      ((numericItems bs).filterMap Json.number?) → MatchesItems related as bs
  | [], [], _, _ => trivial
  | _ :: _, _ :: _, ⟨hhead, htail⟩, hnumbers => by
    rw [leafNumbers_cons, leafNumbers_cons] at hnumbers
    obtain ⟨hfirst, hrest⟩ := forall₂_of_append hhead.length_eq hnumbers
    exact ⟨Matches.of_numbers hhead hfirst, MatchesItems.of_numbers htail hrest⟩

theorem MatchesFields.of_numbers : ∀ {as bs : List (String × Json)},
    MatchesFields (fun _ _ => True) as bs →
    List.Forall₂ related ((numericFields as).filterMap Json.number?)
      ((numericFields bs).filterMap Json.number?) → MatchesFields related as bs
  | [], [], _, _ => trivial
  | (_, _) :: _, (_, _) :: _, ⟨hkey, hhead, htail⟩, hnumbers => by
    rw [leafNumbers_field, leafNumbers_field] at hnumbers
    obtain ⟨hfirst, hrest⟩ := forall₂_of_append hhead.length_eq hnumbers
    exact ⟨hkey, Matches.of_numbers hhead hfirst, MatchesFields.of_numbers htail hrest⟩

end

mutual

theorem Matches.outline : ∀ {a b : Json}, Matches related a b → Matches (fun _ _ => True) a b
  | .null, .null, _ => trivial
  | .bool _, .bool _, h | .str _, .str _, h => h
  | .int _, .int _, _ | .int _, .float _, _ | .float _, .int _, _ | .float _, .float _, _ => trivial
  | .arr _, .arr _, h => MatchesItems.outline h
  | .obj _, .obj _, h => MatchesFields.outline h

theorem MatchesItems.outline : ∀ {as bs : List Json}, MatchesItems related as bs →
    MatchesItems (fun _ _ => True) as bs
  | [], [], _ => trivial
  | _ :: _, _ :: _, ⟨hhead, htail⟩ => ⟨Matches.outline hhead, MatchesItems.outline htail⟩

theorem MatchesFields.outline : ∀ {as bs : List (String × Json)}, MatchesFields related as bs →
    MatchesFields (fun _ _ => True) as bs
  | [], [], _ => trivial
  | (_, _) :: _, (_, _) :: _, ⟨hkey, hhead, htail⟩ =>
    ⟨hkey, Matches.outline hhead, MatchesFields.outline htail⟩

end

theorem matches_iff (hrefl : ∀ n, related n n) : Matches related a b ↔
    Matches (fun _ _ => True) a b ∧ List.Forall₂ related (leafNumbers a) (leafNumbers b) :=
  ⟨fun h => ⟨h.outline, h.numbers hrefl⟩, fun ⟨h, hnumbers⟩ => h.of_numbers hnumbers⟩

mutual

theorem Matches.eq_of_nil : ∀ {a b : Json}, Matches related a b → leafNumbers a = [] → a = b
  | .null, .null, _, _ => rfl
  | .bool _, .bool _, h, _ => congrArg Json.bool h
  | .str _, .str _, h, _ => congrArg Json.str h
  | .arr _, .arr _, h, hnil => congrArg Json.arr (MatchesItems.eq_of_nil h hnil)
  | .obj _, .obj _, h, hnil => congrArg Json.obj (MatchesFields.eq_of_nil h hnil)

theorem MatchesItems.eq_of_nil : ∀ {as bs : List Json}, MatchesItems related as bs →
    (numericItems as).filterMap Json.number? = [] → as = bs
  | [], [], _, _ => rfl
  | _ :: _, _ :: _, ⟨hhead, htail⟩, hnil => by
    rw [leafNumbers_cons, List.append_eq_nil_iff] at hnil
    rw [Matches.eq_of_nil hhead hnil.1, MatchesItems.eq_of_nil htail hnil.2]

theorem MatchesFields.eq_of_nil : ∀ {as bs : List (String × Json)},
    MatchesFields related as bs → (numericFields as).filterMap Json.number? = [] → as = bs
  | [], [], _, _ => rfl
  | (_, _) :: _, (_, _) :: _, ⟨hkey, hhead, htail⟩, hnil => by
    rw [leafNumbers_field, List.append_eq_nil_iff] at hnil
    rw [hkey, Matches.eq_of_nil hhead hnil.1, MatchesFields.eq_of_nil htail hnil.2]

end

mutual

theorem Matches.refl (hrefl : ∀ n, related n n) : ∀ a : Json, Matches related a a
  | .null => trivial
  | .bool _ | .str _ => rfl
  | .int _ | .float _ => hrefl _
  | .arr items => MatchesItems.refl hrefl items
  | .obj fields => MatchesFields.refl hrefl fields

theorem MatchesItems.refl (hrefl : ∀ n, related n n) : ∀ as : List Json, MatchesItems related as as
  | [] => trivial
  | v :: rest => ⟨Matches.refl hrefl v, MatchesItems.refl hrefl rest⟩

theorem MatchesFields.refl (hrefl : ∀ n, related n n) : ∀ as : List (String × Json),
    MatchesFields related as as
  | [] => trivial
  | (_, v) :: rest => ⟨rfl, Matches.refl hrefl v, MatchesFields.refl hrefl rest⟩

end

theorem MatchesItems.length_eq : ∀ {as bs : List Json}, MatchesItems related as bs →
    as.length = bs.length
  | [], [], _ => rfl
  | _ :: _, _ :: _, ⟨_, htail⟩ => congrArg Nat.succ (MatchesItems.length_eq htail)

theorem length_canonicalItems (as : List Json) : (Json.canonicalItems as).length = as.length := by
  induction as with
  | nil => rfl
  | cons v rest ih => rw [Json.canonicalItems, List.length_cons, ih, List.length_cons]

/-! ### Extraction -/

mutual

theorem number?_of_mem_leaves : ∀ {v leaf : Json}, leaf ∈ numericLeaves v →
    leaf.number?.isSome = true
  | .bool _, _, h | .int _, _, h | .float _, _, h => List.mem_singleton.mp h ▸ rfl
  | .arr _, _, h => number?_of_mem_items h
  | .obj _, _, h => number?_of_mem_fields h

theorem number?_of_mem_items : ∀ {items : List Json} {leaf : Json}, leaf ∈ numericItems items →
    leaf.number?.isSome = true
  | _ :: _, _, h => (List.mem_append.mp h).elim number?_of_mem_leaves number?_of_mem_items

theorem number?_of_mem_fields : ∀ {fields : List (String × Json)} {leaf : Json},
    leaf ∈ numericFields fields → leaf.number?.isSome = true
  | (_, _) :: _, _, h => (List.mem_append.mp h).elim number?_of_mem_leaves number?_of_mem_fields

end

theorem mapM_leafNumber {leaves : List Json} (hnumeric : ∀ leaf ∈ leaves, leaf.number?.isSome = true)
    (hrange : ∀ n : Int, .int n ∈ leaves → (e.nearest n).isSome = true) :
    leaves.mapM (leafNumber e) = .ok (leaves.filterMap e.float?) ∧
      (leaves.filterMap e.float?).length = (leaves.filterMap Json.number?).length := by
  induction leaves with
  | nil => exact ⟨rfl, rfl⟩
  | cons leaf rest ih =>
    obtain ⟨hrest, hlength⟩ := ih (fun v hv => hnumeric v (List.mem_cons_of_mem _ hv))
      fun n hn => hrange n (List.mem_cons_of_mem _ hn)
    have hleaf := hnumeric leaf List.mem_cons_self
    rw [List.mapM_cons, hrest]
    cases leaf with
    | int n =>
      obtain ⟨q, hq⟩ := Option.isSome_iff_exists.mp (hrange n List.mem_cons_self)
      rw [leafNumber, hq, List.filterMap_cons_some (show e.float? (.int n) = some q from hq)]
      exact ⟨rfl, congrArg Nat.succ hlength⟩
    | bool b => exact ⟨rfl, congrArg Nat.succ hlength⟩
    | float q => exact ⟨rfl, congrArg Nat.succ hlength⟩
    | _ => exact absurd hleaf nofun

theorem extractNumbers_ok {v : Json} (h : FloatRange e v) : extractNumbers e v = .ok (floats e v) :=
  (mapM_leafNumber (fun _ => number?_of_mem_leaves) h).1

theorem length_floats {v : Json} (h : FloatRange e v) : (floats e v).length = (numbers v).length :=
  (mapM_leafNumber (fun _ => number?_of_mem_leaves) h).2

theorem floatRange_of_extract {v : Json} {found : List Rat} (h : extractNumbers e v = .ok found) :
    FloatRange e v := by
  intro n hn
  obtain ⟨q, -, hq⟩ := (mapM_mem h).2 _ hn
  rw [leafNumber] at hq
  split at hq
  · rename_i hnearest
    rw [hnearest]
    rfl
  · exact absurd hq nofun

/-! ### The comparison -/

theorem similar_iff (htolerance : 0 ≤ tolerance) : Similar tolerance a b ↔
    SameOutline a b ∧ List.Forall₂ (Close tolerance) (numbers a) (numbers b) :=
  matches_iff (close_self htolerance)

theorem all_within_iff {left right : List Rat} (hlen : left.length = right.length) :
    ((left.zip right).all fun pair => withinTolerance e tolerance pair.1 pair.2) = true ↔
      List.Forall₂ (fun p q => withinTolerance e tolerance p q = true) left right := by
  rw [List.all_eq_true, List.forall₂_iff_zip]
  constructor
  · intro h
    exact ⟨hlen, fun hmem => h _ hmem⟩
  · rintro ⟨-, h⟩ pair hmem
    exact h hmem

theorem numbersWithin_iff {left right : List Rat} : numbersWithin e tolerance left right = true ↔
    left ≠ [] ∧ List.Forall₂ (fun p q => withinTolerance e tolerance p q = true) left right := by
  unfold numbersWithin
  split
  · rename_i hlen
    exact iff_of_false nofun fun h => hlen h.2.length_eq
  · rename_i hlen
    rw [not_not] at hlen
    split
    · rename_i hnil
      exact iff_of_false nofun fun h => h.1 (List.isEmpty_iff.mp hnil)
    · rename_i hne
      rw [all_within_iff hlen]
      exact ⟨fun h => ⟨fun hnil => hne (List.isEmpty_iff.mpr hnil), h⟩, fun h => h.2⟩

/-- Of controls that differ, the comparison says whether they are similar unless rounding misleads
it, or their outlines differ and it finds floats that are alike. -/
theorem numbersWithin_similar_iff (htolerance : 0 ≤ tolerance) (hne : a.canonical ≠ b.canonical)
    (hrange : FloatRange e a) :
    (numbersWithin e tolerance (floats e a) (floats e b) = true ↔ Similar tolerance a b) ↔
      (SameOutline a b → RoundingKeeps e tolerance a b) ∧
        (¬ SameOutline a b → floats e a = [] ∨ ¬ FloatsClose e tolerance a b) := by
  rw [numbersWithin_iff, similar_iff htolerance]
  by_cases houtline : SameOutline a b
  · have hnumbers : numbers a ≠ [] := fun hnil => hne (Matches.eq_of_nil houtline hnil)
    have hfloats : floats e a ≠ [] := by
      rwa [← List.length_pos_iff, length_floats hrange, List.length_pos_iff]
    simp only [hfloats, houtline, ne_eq, not_false_eq_true, true_and, not_true_eq_false,
      forall_const, false_implies, and_true]
    exact Iff.rfl
  · simp only [houtline, false_and, iff_false, false_implies, not_false_eq_true, forall_const,
      true_and, not_and_or, ne_eq, not_not]
    exact Iff.rfl

/-- Integers up to 2 ^ 53 are floats. -/
def Encoder.HoldsIntegers (e : Encoder) : Prop :=
  ∀ n : Int, n.natAbs ≤ 2 ^ 53 → e.nearest n = some n

/-- Controls with a categorical and a numeric entry. -/
def training (optimizer : String) (batch : Int) : List Json :=
  [.obj [("batch", .int batch), ("optimizer", .str optimizer)]]

theorem canonical_training (optimizer : String) (batch : Int) :
    (Json.arr (training optimizer batch)).canonical = .arr (training optimizer batch) := by
  have hkeys : ("batch" : String) ≤ "optimizer" := by decide
  simp only [training, Json.canonical, Json.canonicalItems, Json.canonicalFields,
    List.insertionSort, List.foldr, List.orderedInsert, hkeys, if_true]

theorem leaves_training (optimizer : String) (batch : Int) :
    numericLeaves (Json.arr (training optimizer batch)).canonical = [.int batch] := by
  rw [canonical_training]
  rfl

theorem training_floatRange (he : e.HoldsIntegers) (optimizer : String) {batch : Int}
    (h : batch.natAbs ≤ 2 ^ 53) : FloatRange e (.arr (training optimizer batch)) := by
  intro n hn
  rw [leaves_training] at hn
  obtain rfl := Json.int.inj (List.mem_singleton.mp hn)
  rw [he n h]
  rfl

theorem wholeEncoder_holdsIntegers : wholeEncoder.HoldsIntegers := fun _ _ => rfl

end Synthetos.Autonomy
