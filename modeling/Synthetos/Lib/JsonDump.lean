import Synthetos.Lib.JsonTokens
import Synthetos.Lib.Numerals

/-!
# Writing JSON

`json.dumps` with its default separators and ASCII escapes.  The text determines the document.
-/

namespace Synthetos.Lib.Json

open JsonText

/-- `'\\u{0:04x}'` -/
def unitEscape (unit : Nat) : List Char :=
  ['\\', 'u', Nat.digitChar (unit / 4096 % 16), Nat.digitChar (unit / 256 % 16),
    Nat.digitChar (unit / 16 % 16), Nat.digitChar (unit % 16)]

def letterEscape (c : Char) : Option Char :=
  if c = '"' then some '"' else if c = '\\' then some '\\'
  else if c = '\x08' then some 'b' else if c = '\x0c' then some 'f'
  else if c = '\n' then some 'n' else if c = '\r' then some 'r'
  else if c = '\t' then some 't' else none

/-- The UTF-16 code units of a character. -/
def units (c : Char) : List Nat :=
  if c.toNat < 0x10000 then [c.toNat]
  else [0xD800 + (c.toNat - 0x10000) / 1024, 0xDC00 + (c.toNat - 0x10000) % 1024]

def escape (c : Char) : List Char :=
  match letterEscape c with
  | some letter => ['\\', letter]
  | none => if 32 ≤ c.toNat ∧ c.toNat ≤ 126 then [c] else (units c).flatMap unitEscape

def quoted (s : String) : List Char := '"' :: (s.toList.flatMap escape ++ ['"'])

mutual

/-- `json.dumps(v)`; `floatText` is `float.__repr__`. -/
def dump (floatText : Rat → List Char) : Json → List Char
  | null => "null".toList
  | bool b => if b then "true".toList else "false".toList
  | int n => (toString n).toList
  | float q => floatText q
  | str s => quoted s
  | arr [] => ['[', ']']
  | arr (v :: rest) => '[' :: (dump floatText v ++ dumpItems floatText rest)
  | obj [] => ['{', '}']
  | obj ((k, v) :: rest) =>
    '{' :: (quoted k ++ ':' :: ' ' :: (dump floatText v ++ dumpFields floatText rest))

/-- The items behind the first one, and the closing bracket. -/
def dumpItems (floatText : Rat → List Char) : List Json → List Char
  | [] => [']']
  | v :: rest => ',' :: ' ' :: (dump floatText v ++ dumpItems floatText rest)

def dumpFields (floatText : Rat → List Char) : List (String × Json) → List Char
  | [] => ['}']
  | (k, v) :: rest =>
    ',' :: ' ' :: (quoted k ++ ':' :: ' ' :: (dump floatText v ++ dumpFields floatText rest))

end

def isNumeral (c : Char) : Bool := c.isDigit || c == '-' || c == '+' || c == '.' || c == 'e'

/-- What the text of a float keeps: different floats have different texts, and every text has a
point or an exponent. -/
structure FloatText (floatText : Rat → List Char) : Prop where
  injective : Function.Injective floatText
  numeral : ∀ q, ∀ c ∈ floatText q, isNumeral c = true
  marked : ∀ q, '.' ∈ floatText q ∨ 'e' ∈ floatText q

variable {floatText : Rat → List Char} {s t : String} {left right text : List Char} {c d : Char}

/-! ### Strings -/

theorem codeUnit?_digitChar {unit : Nat} (h : unit < 65536) :
    codeUnit? (Nat.digitChar (unit / 4096 % 16)) (Nat.digitChar (unit / 256 % 16))
      (Nat.digitChar (unit / 16 % 16)) (Nat.digitChar (unit % 16)) = some unit := by
  have hdigit (n : Nat) : hexDigit? (Nat.digitChar (n % 16)) = some (n % 16) := by
    have hall : ∀ d < 16, hexDigit? (Nat.digitChar d) = some d := by decide
    exact hall _ (Nat.mod_lt _ (by decide))
  simp only [codeUnit?, hdigit]
  change some _ = some _
  congr 1
  omega

theorem scanUnits_unitEscape {unit : Nat} (h : unit < 65536) (rest : List Char) :
    scanUnits (unitEscape unit ++ rest) = consUnit (some unit) (scanUnits rest) := by
  rw [← codeUnit?_digitChar h]
  exact scanUnits.eq_3 ..

theorem letterEscape_eq_some {letter : Char} (h : letterEscape c = some letter) :
    simpleEscape? letter = some c.toNat ∧ letter ≠ 'u' := by
  unfold letterEscape at h
  split_ifs at h with h1 h2 h3 h4 h5 h6 h7
  all_goals obtain rfl := Option.some.inj h
  · subst h1; decide
  · subst h2; decide
  · subst h3; decide
  · subst h4; decide
  · subst h5; decide
  · subst h6; decide
  · subst h7; decide

theorem letterEscape_eq_none (h : letterEscape c = none) : c ≠ '"' ∧ c ≠ '\\' := by
  unfold letterEscape at h
  split_ifs at h with h1 h2
  exact ⟨h1, h2⟩

/-- The units of a character in front of a scanned string. -/
def prepend (front : List Nat) (scanned : Option (List Nat × List Char)) :
    Option (List Nat × List Char) :=
  scanned.map fun found => (front ++ found.1, found.2)

theorem consUnit_some (unit : Nat) (scanned : Option (List Nat × List Char)) :
    consUnit (some unit) scanned = prepend [unit] scanned := by
  cases scanned <;> rfl

theorem toNat_valid (c : Char) :
    c.toNat < 0xD800 ∨ 0xDFFF < c.toNat ∧ c.toNat < 0x110000 := c.valid

theorem units_lt {unit : Nat} (h : unit ∈ units c) : unit < 65536 := by
  have hvalid := toNat_valid c
  unfold units at h
  split at h
  · obtain rfl := List.mem_singleton.mp h
    omega
  · simp only [List.mem_cons, List.not_mem_nil, or_false] at h
    omega

theorem scanUnits_units (front : List Nat) (hlt : ∀ unit ∈ front, unit < 65536)
    (rest : List Char) :
    scanUnits (front.flatMap unitEscape ++ rest) = prepend front (scanUnits rest) := by
  induction front with
  | nil =>
    rw [List.flatMap_nil, List.nil_append, prepend]
    cases scanUnits rest <;> rfl
  | cons unit front ih =>
    rw [List.flatMap_cons, List.append_assoc, scanUnits_unitEscape (hlt _ List.mem_cons_self),
      ih fun u hu => hlt u (List.mem_cons_of_mem _ hu), consUnit_some, prepend, prepend,
      Option.map_map]
    rfl

theorem scanUnits_escape (c : Char) (rest : List Char) :
    scanUnits (escape c ++ rest) = prepend (units c) (scanUnits rest) := by
  unfold escape
  split
  · rename_i letter hletter
    obtain ⟨hsimple, hu⟩ := letterEscape_eq_some hletter
    have hunits : units c = [c.toNat] := by
      rw [units, if_pos]
      unfold letterEscape at hletter
      split_ifs at hletter with h1 h2 h3 h4 h5 h6 h7
      all_goals subst_vars; decide
    rw [List.cons_append, List.cons_append, List.nil_append, scanUnits, hsimple, consUnit_some,
      hunits]
    exact fun _ _ _ _ _ h => absurd h hu
  · rename_i hnone
    obtain ⟨hquote, hslash⟩ := letterEscape_eq_none hnone
    split
    · rename_i hrange
      have hunits : units c = [c.toNat] := by
        rw [units, if_pos (by omega)]
      have hplain : (if c.toNat < 32 ∨ c = '\\' then none else some c.toNat) = some c.toNat := by
        rw [if_neg]
        rintro (hlow | heq)
        · omega
        · exact hslash heq
      rw [List.singleton_append, scanUnits, hplain, consUnit_some, hunits]
      · exact fun h => absurd h hquote
      · exact fun _ _ _ _ _ h => absurd h hslash
      · exact fun _ _ h => absurd h hslash
    · exact scanUnits_units _ (fun _ => units_lt) rest

theorem scanUnits_escaped (s rest : List Char) :
    scanUnits (s.flatMap escape ++ '"' :: rest) = some (s.flatMap units, rest) := by
  induction s with
  | nil => rw [List.flatMap_nil, List.nil_append, scanUnits, List.flatMap_nil]
  | cons c s ih =>
    rw [List.flatMap_cons, List.append_assoc, scanUnits_escape, ih, List.flatMap_cons]
    rfl

/-- A character is read back from its units. -/
theorem joinSurrogates_units (c : Char) (rest : List Nat) :
    joinSurrogates (units c ++ rest) = c.toNat :: joinSurrogates rest := by
  have hvalid := toNat_valid c
  unfold units
  split
  · have hhigh : isHighSurrogate c.toNat = false := by
      simp only [isHighSurrogate, Bool.and_eq_false_iff, decide_eq_false_iff_not]
      omega
    rw [List.singleton_append]
    cases rest with
    | nil => rw [joinSurrogates, joinSurrogates]
             all_goals nofun
    | cons low rest =>
      rw [joinSurrogates, hhigh]
      rfl
  · have hjoined : 0x10000 + (0xD800 + (c.toNat - 0x10000) / 1024 - 0xD800) * 1024 +
        (0xDC00 + (c.toNat - 0x10000) % 1024 - 0xDC00) = c.toNat := by omega
    rw [List.cons_append, List.cons_append, List.nil_append, joinSurrogates, if_pos, hjoined]
    · simp only [isHighSurrogate, isLowSurrogate, Bool.and_eq_true, decide_eq_true_eq]
      omega

theorem joinSurrogates_flatMap (s : List Char) :
    joinSurrogates (s.flatMap units) = s.map Char.toNat := by
  induction s with
  | nil => rfl
  | cons c s ih => rw [List.flatMap_cons, joinSurrogates_units, ih, List.map_cons]

theorem scanString_escaped (s rest : List Char) :
    scanString (s.flatMap escape ++ '"' :: rest) = some (s.map Char.toNat, rest) := by
  rw [scanString, scanUnits_escaped]
  change some (joinSurrogates (s.flatMap units), rest) = _
  rw [joinSurrogates_flatMap]

theorem quoted_append (s : String) (rest : List Char) :
    quoted s ++ rest = '"' :: (s.toList.flatMap escape ++ '"' :: rest) := by
  rw [quoted, List.cons_append, List.append_assoc, List.singleton_append]

theorem quoted_inj (h : quoted s ++ left = quoted t ++ right) : s = t ∧ left = right := by
  rw [quoted_append, quoted_append] at h
  have hscan := congrArg scanString (List.cons_eq_cons.mp h).2
  rw [scanString_escaped, scanString_escaped] at hscan
  obtain ⟨hcodes, rfl⟩ := Prod.mk.inj (Option.some.inj hscan)
  refine ⟨String.toList_inj.mp ?_, rfl⟩
  exact List.map_injective_iff.mpr (fun a b hab => Char.toNat_inj.mp hab) hcodes

/-! ### Documents -/

/-- No number goes on into the text. -/
def Stops (text : List Char) : Prop := ∀ c ∈ text.head?, isNumeral c = false

theorem takeWhile_numeral (hall : ∀ c ∈ text, isNumeral c = true) (hstop : Stops right) :
    (text ++ right).takeWhile isNumeral = text ∧ (text ++ right).dropWhile isNumeral = right := by
  have hright : right.takeWhile isNumeral = [] ∧ right.dropWhile isNumeral = right := by
    cases right with
    | nil => exact ⟨rfl, rfl⟩
    | cons c rest =>
      have hc := hstop c rfl
      exact ⟨by simp [hc], by simp [hc]⟩
  rw [List.takeWhile_append_of_pos hall, List.dropWhile_append_of_pos hall, hright.1, hright.2,
    List.append_nil]
  exact ⟨rfl, rfl⟩

theorem numeral_inj {other : List Char} (hall : ∀ c ∈ text, isNumeral c = true)
    (hother : ∀ c ∈ other, isNumeral c = true) (hleft : Stops left) (hright : Stops right)
    (h : text ++ left = other ++ right) : text = other ∧ left = right := by
  obtain ⟨htake, hdrop⟩ := takeWhile_numeral hall hleft
  rw [h, (takeWhile_numeral hother hright).1] at htake
  rw [h, (takeWhile_numeral hother hright).2] at hdrop
  exact ⟨htake.symm, hdrop.symm⟩

theorem isNumeral_int {n : Int} (hc : c ∈ (toString n).toList) :
    c.isDigit = true ∨ c = '-' := by
  rw [Text.toString_int] at hc
  split at hc
  · exact .inl (Text.isDigit_of_mem_numeral hc)
  · rcases List.mem_cons.mp hc with rfl | hc
    · exact .inr rfl
    · exact .inl (Text.isDigit_of_mem_numeral hc)

theorem int_numeral (n : Int) : ∀ c ∈ (toString n).toList, isNumeral c = true := by
  intro c hc
  rcases isNumeral_int hc with hdigit | rfl
  · simp [isNumeral, hdigit]
  · rfl

theorem int_ne_float (hfloat : FloatText floatText) (n : Int) (q : Rat) :
    (toString n).toList ≠ floatText q := by
  intro h
  rcases hfloat.marked q with hmark | hmark <;>
    · rw [← h] at hmark
      rcases isNumeral_int hmark with hdigit | heq
      · exact absurd hdigit (by decide)
      · exact absurd heq (by decide)

theorem toString_int_inj {m n : Int} (h : (toString m).toList = (toString n).toList) : m = n :=
  Option.some.inj ((Text.int?_toString m).symm.trans ((congrArg Text.int? h).trans
    (Text.int?_toString n)))

/-- What the first character of a dump tells about the document. -/
inductive Kind where
  | null | yes | no | number | text | arr | obj | none
  deriving DecidableEq

def kindOf (c : Char) : Kind :=
  if isNumeral c then .number
  else if c = 'n' then .null else if c = 't' then .yes else if c = 'f' then .no
  else if c = '"' then .text else if c = '[' then .arr else if c = '{' then .obj else .none

def kind : Json → Kind
  | null => .null
  | bool b => if b then .yes else .no
  | int _ | float _ => .number
  | str _ => .text
  | arr _ => .arr
  | obj _ => .obj

theorem kindOf_numeral (hc : isNumeral c = true) : kindOf c = .number := if_pos hc

theorem dump_head (hfloat : FloatText floatText) (v : Json) :
    ∃ c rest, dump floatText v = c :: rest ∧ kindOf c = kind v := by
  have number {text : List Char} (hne : text ≠ []) (hall : ∀ c ∈ text, isNumeral c = true) :
      ∃ c rest, text = c :: rest ∧ kindOf c = .number := by
    obtain ⟨c, rest, rfl⟩ := List.exists_cons_of_ne_nil hne
    exact ⟨c, rest, rfl, kindOf_numeral (hall c List.mem_cons_self)⟩
  cases v with
  | null => exact ⟨_, _, rfl, rfl⟩
  | bool b => cases b <;> exact ⟨_, _, rfl, rfl⟩
  | int n =>
    apply number _ (int_numeral n)
    intro hnil
    have hread := Text.int?_toString n
    rw [hnil] at hread
    exact absurd hread nofun
  | float q =>
    apply number _ (hfloat.numeral q)
    intro hnil
    rcases hfloat.marked q with hmark | hmark <;>
      · rw [hnil] at hmark
        exact absurd hmark List.not_mem_nil
  | str s => exact ⟨_, _, rfl, rfl⟩
  | arr items => cases items <;> exact ⟨_, _, rfl, rfl⟩
  | obj fields => cases fields <;> exact ⟨_, _, rfl, rfl⟩

theorem kind_eq (hfloat : FloatText floatText) {a b : Json}
    (h : dump floatText a ++ left = dump floatText b ++ right) : kind a = kind b := by
  obtain ⟨c, rest, hc, hkind⟩ := dump_head hfloat a
  obtain ⟨d, rest', hd, hkind'⟩ := dump_head hfloat b
  rw [hc, hd] at h
  obtain ⟨rfl, -⟩ := List.cons_eq_cons.mp h
  exact hkind.symm.trans hkind'

theorem stops_items (items : List Json) (rest : List Char) :
    Stops (dumpItems floatText items ++ rest) := by
  cases items <;>
    · intro c hc
      obtain rfl := Option.some.inj hc
      decide

theorem stops_fields (fields : List (String × Json)) (rest : List Char) :
    Stops (dumpFields floatText fields ++ rest) := by
  rcases fields with - | ⟨⟨k, v⟩, fields⟩ <;>
    · intro c hc
      obtain rfl := Option.some.inj hc
      decide

def Shape : Kind → Json → Prop
  | .null, v => v = .null
  | .yes, v => v = .bool true
  | .no, v => v = .bool false
  | .number, v => (∃ n, v = .int n) ∨ ∃ q, v = .float q
  | .text, v => ∃ s, v = .str s
  | .arr, v => ∃ items, v = .arr items
  | .obj, v => ∃ fields, v = .obj fields
  | .none, _ => False

theorem shape_kind (v : Json) : Shape (kind v) v := by
  cases v with
  | null => rfl
  | bool b => cases b <;> rfl
  | int n => exact .inl ⟨n, rfl⟩
  | float q => exact .inr ⟨q, rfl⟩
  | str s => exact ⟨s, rfl⟩
  | arr items => exact ⟨items, rfl⟩
  | obj fields => exact ⟨fields, rfl⟩

theorem shape_eq (hfloat : FloatText floatText) {a b : Json}
    (h : dump floatText a ++ left = dump floatText b ++ right) : Shape (kind a) b :=
  kind_eq hfloat h ▸ shape_kind b

/-- Numbers: the text of an integer is no text of a float. -/
theorem number_append_inj (hfloat : FloatText floatText) {a b : Json} (hkind : kind a = .number)
    (hleft : Stops left) (hright : Stops right)
    (h : dump floatText a ++ left = dump floatText b ++ right) : a = b ∧ left = right := by
  have ha := hkind ▸ shape_kind a
  have hb := hkind ▸ shape_eq hfloat h
  rcases ha with ⟨m, rfl⟩ | ⟨p, rfl⟩ <;> rcases hb with ⟨n, rfl⟩ | ⟨q, rfl⟩
  · obtain ⟨htext, rfl⟩ := numeral_inj (int_numeral m) (int_numeral n) hleft hright h
    exact ⟨congrArg Json.int (toString_int_inj htext), rfl⟩
  · obtain ⟨htext, -⟩ := numeral_inj (int_numeral m) (hfloat.numeral q) hleft hright h
    exact absurd htext (int_ne_float hfloat m q)
  · obtain ⟨htext, -⟩ := numeral_inj (hfloat.numeral p) (int_numeral n) hleft hright h
    exact absurd htext.symm (int_ne_float hfloat n p)
  · obtain ⟨htext, rfl⟩ := numeral_inj (hfloat.numeral p) (hfloat.numeral q) hleft hright h
    exact ⟨congrArg Json.float (hfloat.injective htext), rfl⟩

theorem items_head_ne {v : Json} (hfloat : FloatText floatText) (rest : List Char) {close : Char}
    (hclose : kindOf close = .none) : dump floatText v ++ rest ≠ close :: right := by
  intro h
  obtain ⟨c, tail, hc, hkind⟩ := dump_head hfloat v
  rw [hc] at h
  obtain ⟨rfl, -⟩ := List.cons_eq_cons.mp h
  rw [hclose] at hkind
  have hshape := shape_kind v
  rw [← hkind] at hshape
  exact hshape

mutual

theorem dump_append_inj (hfloat : FloatText floatText) : ∀ (a b : Json) (left right : List Char),
    Stops left → Stops right → dump floatText a ++ left = dump floatText b ++ right →
      a = b ∧ left = right
  | .null, b, _, _, _, _, h => by
    obtain rfl : b = .null := shape_eq hfloat h
    exact ⟨rfl, List.append_cancel_left h⟩
  | .bool true, b, _, _, _, _, h => by
    obtain rfl : b = .bool true := shape_eq hfloat h
    exact ⟨rfl, List.append_cancel_left h⟩
  | .bool false, b, _, _, _, _, h => by
    obtain rfl : b = .bool false := shape_eq hfloat h
    exact ⟨rfl, List.append_cancel_left h⟩
  | .int _, _, _, _, hleft, hright, h => number_append_inj hfloat rfl hleft hright h
  | .float _, _, _, _, hleft, hright, h => number_append_inj hfloat rfl hleft hright h
  | .str s, b, _, _, _, _, h => by
    obtain ⟨t, rfl⟩ : ∃ t, b = .str t := shape_eq hfloat h
    obtain ⟨rfl, hrest⟩ := quoted_inj h
    exact ⟨rfl, hrest⟩
  | .arr [], b, left, right, _, _, h => by
    obtain ⟨others, rfl⟩ : ∃ others, b = .arr others := shape_eq hfloat h
    cases others with
    | nil => exact ⟨rfl, List.append_cancel_left h⟩
    | cons w others =>
      simp only [dump, List.cons_append, List.append_assoc, List.cons.injEq, true_and] at h
      exact absurd h.symm (items_head_ne hfloat _ rfl)
  | .arr (v :: items), b, left, right, _, _, h => by
    obtain ⟨others, rfl⟩ : ∃ others, b = .arr others := shape_eq hfloat h
    cases others with
    | nil =>
      simp only [dump, List.cons_append, List.append_assoc, List.cons.injEq, true_and] at h
      exact absurd h (items_head_ne hfloat _ rfl)
    | cons w others =>
      simp only [dump, List.cons_append, List.append_assoc, List.cons.injEq, true_and] at h
      obtain ⟨rfl, hrest⟩ := dump_append_inj hfloat v w _ _ (stops_items items left)
        (stops_items others right) h
      obtain ⟨rfl, hend⟩ := dumpItems_append_inj hfloat items others left right hrest
      exact ⟨rfl, hend⟩
  | .obj [], b, left, right, _, _, h => by
    obtain ⟨others, rfl⟩ : ∃ others, b = .obj others := shape_eq hfloat h
    rcases others with - | ⟨⟨l, w⟩, others⟩
    · exact ⟨rfl, List.append_cancel_left h⟩
    · exact absurd (List.cons_eq_cons.mp (List.cons_eq_cons.mp h).2).1 (by decide)
  | .obj ((k, v) :: fields), b, left, right, _, _, h => by
    obtain ⟨others, rfl⟩ : ∃ others, b = .obj others := shape_eq hfloat h
    rcases others with - | ⟨⟨l, w⟩, others⟩
    · exact absurd (List.cons_eq_cons.mp (List.cons_eq_cons.mp h).2).1 (by decide)
    · simp only [dump, List.cons_append, List.append_assoc, List.cons.injEq, true_and] at h
      obtain ⟨rfl, hvalue⟩ := quoted_inj h
      simp only [List.cons.injEq, true_and] at hvalue
      obtain ⟨rfl, hrest⟩ := dump_append_inj hfloat v w _ _ (stops_fields fields left)
        (stops_fields others right) hvalue
      obtain ⟨rfl, hend⟩ := dumpFields_append_inj hfloat fields others left right hrest
      exact ⟨rfl, hend⟩

theorem dumpItems_append_inj (hfloat : FloatText floatText) : ∀ (items others : List Json)
    (left right : List Char),
    dumpItems floatText items ++ left = dumpItems floatText others ++ right →
      items = others ∧ left = right
  | [], others, left, right, h => by
    cases others with
    | nil => exact ⟨rfl, List.append_cancel_left h⟩
    | cons w others => exact absurd (List.cons_eq_cons.mp h).1 (by decide)
  | v :: items, others, left, right, h => by
    cases others with
    | nil => exact absurd (List.cons_eq_cons.mp h).1 (by decide)
    | cons w others =>
      simp only [dumpItems, List.cons_append, List.append_assoc, List.cons.injEq, true_and] at h
      obtain ⟨rfl, hrest⟩ := dump_append_inj hfloat v w _ _ (stops_items items left)
        (stops_items others right) h
      obtain ⟨rfl, hend⟩ := dumpItems_append_inj hfloat items others left right hrest
      exact ⟨rfl, hend⟩

theorem dumpFields_append_inj (hfloat : FloatText floatText) :
    ∀ (fields others : List (String × Json)) (left right : List Char),
    dumpFields floatText fields ++ left = dumpFields floatText others ++ right →
      fields = others ∧ left = right
  | [], others, left, right, h => by
    rcases others with - | ⟨⟨k, w⟩, others⟩
    · exact ⟨rfl, List.append_cancel_left h⟩
    · exact absurd (List.cons_eq_cons.mp h).1 (by decide)
  | (k, v) :: fields, others, left, right, h => by
    rcases others with - | ⟨⟨l, w⟩, others⟩
    · exact absurd (List.cons_eq_cons.mp h).1 (by decide)
    · simp only [dumpFields, List.cons_append, List.append_assoc, List.cons.injEq, true_and] at h
      obtain ⟨rfl, hvalue⟩ := quoted_inj h
      simp only [List.cons.injEq, true_and] at hvalue
      obtain ⟨rfl, hrest⟩ := dump_append_inj hfloat v w _ _ (stops_fields fields left)
        (stops_fields others right) hvalue
      obtain ⟨rfl, hend⟩ := dumpFields_append_inj hfloat fields others left right hrest
      exact ⟨rfl, hend⟩

end

/-- The text of a document determines it. -/
theorem dump_injective (hfloat : FloatText floatText) : Function.Injective (dump floatText) := by
  intro a b h
  have hend : Stops [] := nofun
  exact (dump_append_inj hfloat a b [] [] hend hend (by rw [h])).1

end Synthetos.Lib.Json
