import Synthetos.Lib.Entries
import Synthetos.Lib.Json

/-!
# Fields of JSON objects

Lookups in merged, extended and reordered objects, and equality of documents.
-/

namespace Synthetos.Lib

namespace Dict

theorem get?_update_or (fields new : Dict) (key : String) :
    (fields.update new).get? key = (new.get? key).or (fields.get? key) := by
  rw [Dict.get?, Dict.update, List.lookup_append]
  cases hnew : new.lookup key with
  | some v => simp [Dict.get?, hnew]
  | none =>
    rw [Entries.lookup_filter_of_kept fun key => (new.get? key).isNone]
    · simp [Dict.get?, hnew]
    · simp [Dict.get?, hnew]

theorem get?_append (left right : Dict) (key : String) :
    Dict.get? (left ++ right) key = (Dict.get? left key).or (Dict.get? right key) :=
  List.lookup_append

theorem get?_set_ne {fields : Dict} {key asked : String} {v : Json} (h : asked ≠ key) :
    (fields.set key v).get? asked = fields.get? asked := by
  have hne : (asked == key) = false := by simpa using h
  rw [set, get?, List.lookup_cons, hne]
  exact Entries.lookup_filter_of_kept (fun name => name != key) (by simpa using h) fields

theorem isSome_get?_iff {fields : Dict} {key : String} :
    (fields.get? key).isSome = true ↔ key ∈ fields.map Prod.fst :=
  Entries.isSome_lookup_iff

end Dict

namespace Json

mutual

theorem same_refl : ∀ v : Json, v.same v = true
  | .null => rfl
  | .bool _ | .int _ | .float _ | .str _ => by simp [same]
  | .arr items => sameItems_refl items
  | .obj fields => sameFields_refl fields

theorem sameItems_refl : ∀ items : List Json, sameItems items items = true
  | [] => rfl
  | v :: rest => by simp [sameItems, same_refl v, sameItems_refl rest]

theorem sameFields_refl : ∀ fields : List (String × Json), sameFields fields fields = true
  | [] => rfl
  | (_, v) :: rest => by simp [sameFields, same_refl v, sameFields_refl rest]

end

mutual

theorem eq_of_same : ∀ {v w : Json}, v.same w = true → v = w
  | .null, .null, _ => rfl
  | .bool _, .bool _, h | .int _, .int _, h | .float _, .float _, h | .str _, .str _, h => by
    rw [beq_iff_eq.mp h]
  | .arr _, .arr _, h => congrArg arr (eq_of_sameItems h)
  | .obj _, .obj _, h => congrArg obj (eq_of_sameFields h)

theorem eq_of_sameItems : ∀ {items others : List Json}, sameItems items others = true →
    items = others
  | [], [], _ => rfl
  | _ :: _, _ :: _, h => by
    rw [sameItems, Bool.and_eq_true] at h
    rw [eq_of_same h.1, eq_of_sameItems h.2]

theorem eq_of_sameFields : ∀ {fields others : List (String × Json)},
    sameFields fields others = true → fields = others
  | [], [], _ => rfl
  | (_, _) :: _, (_, _) :: _, h => by
    simp only [sameFields, Bool.and_eq_true, beq_iff_eq] at h
    rw [h.1.1, eq_of_same h.1.2, eq_of_sameFields h.2]

end

theorem same_iff {v w : Json} : v.same w = true ↔ v = w := by
  constructor
  · exact eq_of_same
  · rintro rfl
    exact same_refl v

theorem keys_of_sameFields : ∀ {left right : List (String × Json)},
    sameFields left right = true → left.map Prod.fst = right.map Prod.fst
  | [], [], _ => rfl
  | (_, _) :: _, (_, _) :: _, h => by
    simp only [sameFields, Bool.and_eq_true, beq_iff_eq] at h
    simp [h.1.1, keys_of_sameFields h.2]

theorem keys_canonicalFields (fields : List (String × Json)) :
    (canonicalFields fields).map Prod.fst = fields.map Prod.fst := by
  induction fields with
  | nil => rfl
  | cons field rest ih =>
    obtain ⟨key, v⟩ := field
    simp [canonicalFields, ih]

/-- Equal objects have the same keys, whatever their order. -/
theorem mem_keys_of_same {left right : Dict}
    (h : (obj left).canonical.same (obj right).canonical = true) (key : String) :
    key ∈ left.map Prod.fst ↔ key ∈ right.map Prod.fst := by
  have hkeys := keys_of_sameFields h
  have hleft := ((List.perm_insertionSort (fun a b => a.1 ≤ b.1)
    (canonicalFields left)).map Prod.fst).mem_iff (a := key)
  have hright := ((List.perm_insertionSort (fun a b => a.1 ≤ b.1)
    (canonicalFields right)).map Prod.fst).mem_iff (a := key)
  rw [keys_canonicalFields] at hleft hright
  rw [← hleft, ← hright, hkeys]

end Json

/-- A value that can be looked up in a dictionary or a set. -/
def hashable : Json → Bool
  | .arr _ => false
  | .obj _ => false
  | _ => true

end Synthetos.Lib
