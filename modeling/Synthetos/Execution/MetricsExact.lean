import Synthetos.Execution.Metrics
import Synthetos.Lib.Entries
import Synthetos.Lib.Except

/-!
# What `parse_metrics` accepts

When reading a metrics file returns, and when its answer is the contents of the file.
-/

namespace Synthetos.Execution

open Lib JsonText

variable {limits : Limits} {file : MetricsFile} {expectedMetrics : List Dict}
  {fields : List (CodePoints × Document)}

def HoldsObject (limits : Limits) (file : MetricsFile) (fields : List (CodePoints × Document)) :
    Prop :=
  ∃ bytes text, file = .content bytes ∧ decode bytes = some text ∧
    loads limits text = .ok (.obj fields)

def finiteNumber? (limits : Limits) : Document → Option Rat
  | .int n => match limits.round n with
    | .finite q => some q
    | _ => none
  | .float (.finite q) => some q
  | _ => none

/-- The file is an object of finite numbers that has every expected name. -/
def Acceptable (limits : Limits) (file : MetricsFile) (expectedMetrics : List Dict) : Prop :=
  ∃ fields, HoldsObject limits file fields ∧
    (∀ key v, valueAt? fields key = some v → ∃ q, finiteNumber? limits v = some q) ∧
    ∀ name ∈ expectedNames expectedMetrics, ∃ s v, name = .str s ∧
      valueAt? fields (codePoints s) = some v

/-- The parser returns, is content with the acceptable files only, and returns the finite numbers
of the file. -/
def ParsesExactly (limits : Limits) (file : MetricsFile) (expectedMetrics : List Dict) : Prop :=
  ∃ result, parseMetrics limits file expectedMetrics = .ok result ∧
    (result.errors = [] ↔ Acceptable limits file expectedMetrics) ∧
    ∀ key q, (key, q) ∈ result.values ↔ ∃ fields, HoldsObject limits file fields ∧
      ∃ v, valueAt? fields key = some v ∧ finiteNumber? limits v = some q

/-- A value that becomes a float and is no boolean in disguise. -/
def PlainValue (limits : Limits) (v : Document) : Prop :=
  (∀ b, v ≠ .bool b) ∧ ∀ n, v = .int n → ∃ q, limits.round n = .finite q

/-- The contents raise nothing: they are UTF-8, within the limits of the JSON reader, and an object
among them has plain values only and is held against hashable names. -/
def Harmless (limits : Limits) (file : MetricsFile) (expectedMetrics : List Dict) : Prop :=
  ∀ bytes, file = .content bytes → ∃ text, decode bytes = some text ∧
    (loads limits text = .error .jsonDecode ∨ ∃ document, loads limits text = .ok document ∧
      ∀ fields, document = .obj fields →
        (∀ name ∈ expectedNames expectedMetrics, hashable name = true) ∧
        ∀ key v, valueAt? fields key = some v → PlainValue limits v)

/-! ### Names and entries -/

theorem mem_items {key : CodePoints} {v : Document} :
    (key, v) ∈ items fields ↔ valueAt? fields key = some v := by
  rw [items, List.mem_filterMap]
  constructor
  · rintro ⟨key', _, h⟩
    obtain ⟨v', hv, heq⟩ := Option.map_eq_some_iff.mp h
    cases heq
    exact hv
  · intro h
    refine ⟨key, ?_, by rw [h]; rfl⟩
    rw [List.mem_eraseDups]
    exact List.mem_map_of_mem (List.mem_reverse.mp (Entries.mem_of_lookup h))

theorem distinct_subset {names : List Json} {name : Json} (h : name ∈ distinct names) :
    name ∈ names := by
  induction names with
  | nil => exact h
  | cons first rest ih =>
    rw [distinct] at h
    split at h
    · exact List.mem_cons_of_mem _ (ih h)
    · rcases List.mem_cons.mp h with rfl | hrest
      · exact List.mem_cons_self
      · exact List.mem_cons_of_mem _ (ih hrest)

theorem exists_distinct {names : List Json} {name : Json} (h : name ∈ names) :
    ∃ other ∈ distinct names, name.same other = true := by
  induction names with
  | nil => cases h
  | cons first rest ih =>
    have hkeep : ∀ other ∈ distinct rest, other ∈ distinct (first :: rest) := by
      intro other hother
      rw [distinct]
      split
      · exact hother
      · exact List.mem_cons_of_mem _ hother
    rcases List.mem_cons.mp h with rfl | hrest
    · by_cases hseen : (distinct rest).any name.same = true
      · obtain ⟨other, hother, hsame⟩ := List.any_eq_true.mp hseen
        exact ⟨other, hkeep other hother, hsame⟩
      · refine ⟨name, ?_, Json.same_refl name⟩
        rw [distinct, if_neg hseen]
        exact List.mem_cons_self
    · obtain ⟨other, hother, hsame⟩ := ih hrest
      exact ⟨other, hkeep other hother, hsame⟩

theorem present_of_same {values : List (CodePoints × Rat)} {name other : Json}
    (h : name.same other = true) : present values name = present values other := by
  cases name <;> cases other <;> simp_all [Json.same, present]

theorem missing_eq_nil_iff {values : List (CodePoints × Rat)} {names : List Json} :
    ((distinct names).filter fun name => !present values name) = [] ↔
      ∀ name ∈ names, present values name = true := by
  rw [List.filter_eq_nil_iff]
  constructor
  · intro h name hmem
    obtain ⟨other, hother, hsame⟩ := exists_distinct hmem
    rw [present_of_same hsame]
    simpa using h other hother
  · intro h name hmem
    simp [h name (distinct_subset hmem)]

/-! ### The loop -/

theorem readValue_finite_iff {v : Document} {q : Rat} (hplain : ∀ b, v ≠ .bool b) :
    readValue limits v = .ok (.finite q) ↔ finiteNumber? limits v = some q := by
  cases v with
  | bool b => exact absurd rfl (hplain b)
  | int n =>
    rw [readValue, finiteNumber?]
    cases limits.round n <;> simp
  | float x => cases x <;> simp [readValue, finiteNumber?]
  | _ => simp [readValue, finiteNumber?]

theorem readValue_ok_iff {v : Document} : (∃ reading, readValue limits v = .ok reading) ↔
    ∀ n, v = .int n → ∃ q, limits.round n = .finite q := by
  cases v with
  | int n =>
    cases hround : limits.round n with
    | finite q =>
      refine iff_of_true ⟨.finite q, by simp [readValue, hround]⟩ fun m hm => ⟨q, ?_⟩
      cases hm
      exact hround
    | _ => simp [readValue, hround]
  | float x => cases x <;> simp [readValue]
  | _ => simp [readValue]

theorem parseObject_eq_ok {result : ParsedMetrics} :
    parseObject limits fields expectedMetrics = .ok result →
      (∀ name ∈ expectedNames expectedMetrics, hashable name = true) ∧
      ∃ rows, (items fields).mapM
          (fun row => (readValue limits row.2).map fun v => (row.1, v)) = .ok rows ∧
        result.values = rows.filterMap valueOf ∧
        result.errors = rows.filterMap errorOf ++ ((distinct (expectedNames expectedMetrics)).filter
          fun name => !present (rows.filterMap valueOf) name).map .expectedMissing := by
  intro h
  by_cases hall : (expectedNames expectedMetrics).all hashable = true
  · rw [parseObject] at h
    simp only [hall, Bool.not_true, Bool.false_eq_true, ↓reduceIte] at h
    obtain ⟨rows, hrows, heq⟩ := bind_eq_ok.mp h
    rw [pure_eq_ok] at heq
    subst heq
    exact ⟨List.all_eq_true.mp hall, rows, hrows, rfl, rfl⟩
  · rw [parseObject] at h
    simp only [hall, Bool.not_false, ↓reduceIte] at h
    cases h

theorem parseObject_ok (hnames : ∀ name ∈ expectedNames expectedMetrics, hashable name = true)
    (hvalues : ∀ key v, valueAt? fields key = some v → ∃ reading, readValue limits v = .ok reading) :
    ∃ result, parseObject limits fields expectedMetrics = .ok result := by
  have hall : (expectedNames expectedMetrics).all hashable = true := List.all_eq_true.mpr hnames
  obtain ⟨rows, hrows⟩ : ∃ rows, (items fields).mapM
      (fun row => (readValue limits row.2).map fun v => (row.1, v)) = .ok rows := by
    refine exists_mapM_ok.mpr fun row hmem => ?_
    obtain ⟨reading, hreading⟩ := hvalues row.1 row.2 (mem_items.mp hmem)
    exact ⟨_, by rw [hreading]; rfl⟩
  rw [parseObject]
  simp only [hall, Bool.not_true, Bool.false_eq_true, ↓reduceIte]
  exact ⟨_, bind_eq_ok.mpr ⟨rows, hrows, rfl⟩⟩

theorem mem_rows {rows : List (CodePoints × Reading)}
    (h : (items fields).mapM (fun row => (readValue limits row.2).map fun v => (row.1, v)) =
      .ok rows) {key : CodePoints} {reading : Reading} :
    (key, reading) ∈ rows ↔ ∃ v, valueAt? fields key = some v ∧ readValue limits v = .ok reading := by
  have hmem := mapM_mem h
  have hrow : ∀ (row : CodePoints × Document) (found : CodePoints × Reading),
      (readValue limits row.2).map (fun v => (row.1, v)) = .ok found ↔
        found.1 = row.1 ∧ readValue limits row.2 = .ok found.2 := by
    rintro ⟨key, v⟩ ⟨key', reading⟩
    cases readValue limits v with
    | ok reading' => simp [Except.map, eq_comm]
    | error e => simp [Except.map]
  constructor
  · intro hrows
    obtain ⟨⟨key', v⟩, hitem, hok⟩ := hmem.1 _ hrows
    obtain ⟨hkey, hread⟩ := (hrow (key', v) _).mp hok
    obtain rfl : key = key' := hkey
    exact ⟨v, mem_items.mp hitem, hread⟩
  · rintro ⟨v, hentry, hread⟩
    obtain ⟨⟨key', reading'⟩, hrows, hok⟩ := hmem.2 (key, v) (mem_items.mpr hentry)
    obtain ⟨hkey, hread'⟩ := (hrow (key, v) _).mp hok
    obtain rfl : key' = key := hkey
    rw [hread] at hread'
    cases hread'
    exact hrows

/-! ### Objects -/

theorem mem_values {rows : List (CodePoints × Reading)} {key : CodePoints} {q : Rat} :
    (key, q) ∈ rows.filterMap valueOf ↔ (key, .finite q) ∈ rows := by
  rw [List.mem_filterMap]
  constructor
  · rintro ⟨⟨key', reading⟩, hmem, h⟩
    cases reading <;> cases h
    exact hmem
  · intro hmem
    exact ⟨_, hmem, rfl⟩

theorem no_errors_iff {rows : List (CodePoints × Reading)} :
    rows.filterMap errorOf = [] ↔ ∀ key reading, (key, reading) ∈ rows →
      ∃ q, reading = .finite q := by
  rw [List.filterMap_eq_nil_iff]
  constructor
  · intro h key reading hmem
    have hnone := h _ hmem
    cases reading with
    | finite q => exact ⟨q, rfl⟩
    | notFinite => cases hnone
    | notNumeric => cases hnone
  · rintro h ⟨key, reading⟩ hmem
    obtain ⟨q, rfl⟩ := h key reading hmem
    rfl

theorem present_iff {values : List (CodePoints × Rat)} {name : Json} :
    present values name = true ↔ ∃ s q, name = .str s ∧ (codePoints s, q) ∈ values := by
  cases name with
  | str s =>
    simp only [present, List.lookup_isSome_iff, beq_iff_eq, Json.str.injEq]
    constructor
    · rintro ⟨⟨key, q⟩, hmem, rfl⟩
      exact ⟨s, q, rfl, hmem⟩
    · rintro ⟨_, q, rfl, hmem⟩
      exact ⟨_, hmem, rfl⟩
  | _ => simp [present]

theorem parseObject_exact_iff : (∃ result, parseObject limits fields expectedMetrics = .ok result ∧
      (result.errors = [] ↔
        (∀ key v, valueAt? fields key = some v → ∃ q, finiteNumber? limits v = some q) ∧
        ∀ name ∈ expectedNames expectedMetrics, ∃ s v, name = .str s ∧
          valueAt? fields (codePoints s) = some v) ∧
      ∀ key q, (key, q) ∈ result.values ↔
        ∃ v, valueAt? fields key = some v ∧ finiteNumber? limits v = some q) ↔
    (∀ name ∈ expectedNames expectedMetrics, hashable name = true) ∧
      ∀ key v, valueAt? fields key = some v → PlainValue limits v := by
  constructor
  · rintro ⟨result, hok, _, hvalues⟩
    obtain ⟨hnames, rows, hrows, hresult, _⟩ := parseObject_eq_ok hok
    refine ⟨hnames, fun key v hentry => ⟨?_, ?_⟩⟩
    · rintro b rfl
      have hmem : (key, (if b then 1 else 0 : Rat)) ∈ result.values := by
        rw [hresult, mem_values, mem_rows hrows]
        exact ⟨.bool b, hentry, rfl⟩
      obtain ⟨v, hv, hfinite⟩ := (hvalues key _).mp hmem
      rw [hentry] at hv
      cases hv
      cases hfinite
    · obtain ⟨row, _, hread⟩ := (mapM_mem hrows).2 (key, v) (mem_items.mpr hentry)
      apply readValue_ok_iff.mp
      cases hv : readValue limits v with
      | ok reading => exact ⟨reading, rfl⟩
      | error e =>
        simp only [hv, Except.map] at hread
        cases hread
  · rintro ⟨hnames, hplain⟩
    obtain ⟨result, hok⟩ := parseObject_ok hnames fun key v hentry =>
      readValue_ok_iff.mpr (hplain key v hentry).2
    obtain ⟨_, rows, hrows, hresult, herrors⟩ := parseObject_eq_ok hok
    have hvalues : ∀ key q, (key, q) ∈ rows.filterMap valueOf ↔
        ∃ v, valueAt? fields key = some v ∧ finiteNumber? limits v = some q := by
      intro key q
      rw [mem_values, mem_rows hrows]
      apply exists_congr
      intro v
      apply and_congr_right
      intro hentry
      exact readValue_finite_iff (hplain key v hentry).1
    have hfinite : rows.filterMap errorOf = [] ↔
        ∀ key v, valueAt? fields key = some v → ∃ q, finiteNumber? limits v = some q := by
      rw [no_errors_iff]
      constructor
      · intro h key v hentry
        obtain ⟨reading, hread⟩ := readValue_ok_iff.mpr (hplain key v hentry).2
        obtain ⟨q, rfl⟩ := h key reading ((mem_rows hrows).mpr ⟨v, hentry, hread⟩)
        exact ⟨q, (readValue_finite_iff (hplain key v hentry).1).mp hread⟩
      · intro h key reading hmem
        obtain ⟨v, hentry, hread⟩ := (mem_rows hrows).mp hmem
        obtain ⟨q, hq⟩ := h key v hentry
        have hread' := (readValue_finite_iff (hplain key v hentry).1).mpr hq
        rw [hread] at hread'
        exact ⟨q, Except.ok.inj hread'⟩
    refine ⟨result, hok, ?_, by rw [hresult]; exact hvalues⟩
    rw [herrors, List.append_eq_nil_iff, hfinite, List.map_eq_nil_iff, missing_eq_nil_iff]
    apply and_congr_right
    intro hall
    apply forall₂_congr
    intro name _
    rw [present_iff]
    constructor
    · rintro ⟨s, q, rfl, hmem⟩
      obtain ⟨v, hentry, _⟩ := (hvalues _ q).mp hmem
      exact ⟨s, v, rfl, hentry⟩
    · rintro ⟨s, v, rfl, hentry⟩
      obtain ⟨q, hq⟩ := hall _ v hentry
      exact ⟨s, q, rfl, (hvalues _ q).mpr ⟨v, hentry, hq⟩⟩

/-! ### Files -/

theorem holdsObject_iff {bytes : List UInt8} {text : List Char} {document : Document}
    (hdecode : decode bytes = some text) (hloads : loads limits text = .ok document) :
    HoldsObject limits (.content bytes) fields ↔ document = .obj fields := by
  constructor
  · rintro ⟨bytes', text', hbytes, hdecode', hloads'⟩
    cases hbytes
    rw [hdecode] at hdecode'
    cases hdecode'
    rw [hloads] at hloads'
    exact Except.ok.inj hloads'
  · rintro rfl
    exact ⟨bytes, text, rfl, hdecode, hloads⟩

theorem parsesExactly_of_noObject {result : ParsedMetrics}
    (h : parseMetrics limits file expectedMetrics = .ok result) (herrors : result.errors ≠ [])
    (hvalues : result.values = []) (hnone : ∀ fields, ¬ HoldsObject limits file fields) :
    ParsesExactly limits file expectedMetrics := by
  refine ⟨result, h, iff_of_false herrors ?_, fun key q => ?_⟩
  · rintro ⟨fields, hobject, _⟩
    exact hnone fields hobject
  · rw [hvalues]
    refine iff_of_false List.not_mem_nil ?_
    rintro ⟨fields, hobject, _⟩
    exact hnone fields hobject

theorem parsesExactly_content {bytes : List UInt8} {text : List Char} {document : Document}
    (hdecode : decode bytes = some text) (hloads : loads limits text = .ok document) :
    ParsesExactly limits (.content bytes) expectedMetrics ↔ ∀ fields, document = .obj fields →
      (∀ name ∈ expectedNames expectedMetrics, hashable name = true) ∧
      ∀ key v, valueAt? fields key = some v → PlainValue limits v := by
  by_cases hobject : ∃ fields, document = .obj fields
  · obtain ⟨fields, rfl⟩ := hobject
    have hholds : ∀ fields', HoldsObject limits (.content bytes) fields' ↔ fields = fields' := by
      intro fields'
      rw [holdsObject_iff hdecode hloads, Document.obj.injEq]
    have hparse : parseMetrics limits (.content bytes) expectedMetrics =
        parseObject limits fields expectedMetrics := by
      simp only [parseMetrics, hdecode, hloads]
    simp only [ParsesExactly, Acceptable, hholds, exists_eq_left', hparse, Document.obj.injEq,
      forall_eq']
    exact parseObject_exact_iff
  · have hnone : ∀ fields, document ≠ .obj fields := fun fields heq => hobject ⟨fields, heq⟩
    refine iff_of_true ?_ fun fields heq => absurd heq (hnone fields)
    have hparse : parseMetrics limits (.content bytes) expectedMetrics =
        .ok { errors := [.notObject] } := by
      simp only [parseMetrics, hdecode, hloads]
    refine parsesExactly_of_noObject hparse (List.cons_ne_nil _ _) rfl fun fields => ?_
    rw [holdsObject_iff hdecode hloads]
    exact hnone fields

/-- `parse_metrics` returns and is exact precisely on the harmless files. -/
theorem parsesExactly_iff_harmless (limits : Limits) (file : MetricsFile)
    (expectedMetrics : List Dict) :
    ParsesExactly limits file expectedMetrics ↔ Harmless limits file expectedMetrics := by
  have hnoContent : (∀ bytes, file ≠ .content bytes) →
      ∀ fields, ¬ HoldsObject limits file fields := by
    rintro hfile fields ⟨bytes, _, heq, _⟩
    exact hfile bytes heq
  cases file with
  | missing =>
    exact iff_of_true (parsesExactly_of_noObject rfl (List.cons_ne_nil _ _) rfl
      (hnoContent fun _ => nofun)) fun _ => nofun
  | unreadable =>
    exact iff_of_true (parsesExactly_of_noObject rfl (List.cons_ne_nil _ _) rfl
      (hnoContent fun _ => nofun)) fun _ => nofun
  | content bytes =>
    simp only [Harmless, MetricsFile.content.injEq, forall_eq']
    cases hdecode : decode bytes with
    | none =>
      refine iff_of_false ?_ fun ⟨text, heq, _⟩ => by cases heq
      rintro ⟨result, hok, _⟩
      simp only [parseMetrics, hdecode] at hok
      cases hok
    | some text =>
      simp only [Option.some.injEq, exists_eq_left']
      cases hloads : loads limits text with
      | ok document =>
        rw [parsesExactly_content hdecode hloads]
        simp
      | error e =>
        by_cases hjson : e = .jsonDecode
        · subst hjson
          have hparse : parseMetrics limits (.content bytes) expectedMetrics =
              .ok { errors := [.corrupt] } := by
            simp only [parseMetrics, hdecode, hloads]
          refine iff_of_true (parsesExactly_of_noObject hparse (List.cons_ne_nil _ _) rfl ?_)
            (.inl rfl)
          rintro fields ⟨bytes', text', hbytes, hdecode', hloads'⟩
          cases hbytes
          rw [hdecode] at hdecode'
          cases hdecode'
          rw [hloads] at hloads'
          cases hloads'
        · refine iff_of_false ?_ ?_
          · rintro ⟨result, hok, _⟩
            simp only [parseMetrics, hdecode, hloads] at hok
            cases e <;> first | exact hjson rfl | cases hok
          · rintro (heq | ⟨document, heq, _⟩)
            · exact hjson (Except.error.inj heq)
            · cases heq

theorem not_utf8_raises :
    (∀ limits expectedMetrics, parseMetrics limits (.content [0xff]) expectedMetrics =
      .error .unicodeDecode) ∧
    ¬ ∀ limits file expectedMetrics, ParsesExactly limits file expectedMetrics := by
  have hdecode : decode [0xff] = none := by
    decide +kernel
  have hraises : ∀ limits expectedMetrics, parseMetrics limits (.content [0xff]) expectedMetrics =
      .error .unicodeDecode := by
    intro limits expectedMetrics
    simp only [parseMetrics, hdecode]
  refine ⟨hraises, fun h => ?_⟩
  obtain ⟨result, hok, _⟩ := h ⟨4300, 1000, .finite⟩ (.content [0xff]) []
  rw [hraises] at hok
  cases hok

end Synthetos.Execution
