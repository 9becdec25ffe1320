import Mathlib.Data.List.Nodup
import Mathlib.Data.List.Perm.Subperm
import Mathlib.Logic.Relation

/-!
# Searching level by level

Items are known by a key, and the items next to a set of keys are asked for together.  A search
keeps what it has found and expands the keys it has found last, until a level brings nothing new.
-/

namespace Synthetos.Lib.Search

variable {α κ : Type*} (key : α → κ)

/-- What a search reads: a finite number of items, and those next to a key among them. -/
structure Space (key : α → κ) (nextTo : List κ → List α) (near : κ → α → Prop)
    (items : List α) : Prop where
  distinct : (items.map key).Nodup
  within : ∀ k a, near k a → a ∈ items
  mem_nextTo : ∀ ks a, a ∈ nextTo ks ↔ ∃ k ∈ ks, near k a

/-- One item is next to another. -/
def Next (near : κ → α → Prop) (a b : α) : Prop := near (key a) b

/-- The items found are reached from the first one; those whose key is not to be expanded have all
their neighbours among them. -/
structure Searched (near : κ → α → Prop) (items : List α) (first : α) (found : List α)
    (frontier : List κ) : Prop where
  first_mem : first ∈ found
  distinct : (found.map key).Nodup
  within : ∀ a ∈ found, a ∈ items
  reached : ∀ a ∈ found, Relation.ReflTransGen (Next key near) first a
  closed : ∀ a ∈ found, key a ∉ frontier → ∀ b, Next key near a b → key b ∈ found.map key
  frontier_found : ∀ k ∈ frontier, k ∈ found.map key

variable {key} {nextTo : List κ → List α} {near : κ → α → Prop} {items found result : List α}
  {first : α} {frontier : List κ} {fuel : Nat}

theorem Searched.length_le (h : Searched key near items first found frontier) :
    found.length ≤ items.length :=
  ((List.Nodup.of_map key h.distinct).subperm h.within).length_le

/-- A finished search has found what can be reached, once each. -/
theorem Searched.mem_iff (hspace : Space key nextTo near items)
    (h : Searched key near items first result []) {a : α} :
    a ∈ result ↔ Relation.ReflTransGen (Next key near) first a := by
  refine ⟨h.reached a, fun hreach => ?_⟩
  induction hreach with
  | refl => exact h.first_mem
  | tail _ hstep ih =>
    rename_i b c _
    obtain ⟨d, hd, hkey⟩ := List.mem_map.mp (h.closed b ih List.not_mem_nil c hstep)
    obtain rfl := List.inj_on_of_nodup_map hspace.distinct (h.within d hd)
      (hspace.within _ c hstep) hkey
    exact hd

/-! ### One level -/

variable [DecidableEq κ]

/-- Meet one item: it is new where its key was not found before. -/
def visit (key : α → κ) (state : List α × List κ) (item : α) : List α × List κ :=
  if key item ∈ state.1.map key then state else (state.1 ++ [item], state.2 ++ [key item])

/-- `fuel` bounds the levels. -/
def search (key : α → κ) (nextTo : List κ → List α) : Nat → List α → List κ → Option (List α)
  | 0, _, _ => none
  | _ + 1, found, [] => some found
  | fuel + 1, found, k :: frontier =>
    let state := (nextTo (k :: frontier)).foldl (visit key) (found, [])
    search key nextTo fuel state.1 state.2

/-- What meeting a list of items makes of what was found. -/
structure Visited (key : α → κ) (found : List α) (frontier : List κ) (met : List α)
    (state : List α × List κ) : Prop where
  fresh : ∃ new, state.1 = found ++ new ∧ state.2 = frontier ++ new.map key ∧ ∀ a ∈ new, a ∈ met
  distinct : (found.map key).Nodup → (state.1.map key).Nodup
  met_found : ∀ a ∈ met, key a ∈ state.1.map key

theorem visited_foldl (key : α → κ) (met found : List α) (frontier : List κ) :
    Visited key found frontier met (met.foldl (visit key) (found, frontier)) := by
  induction met generalizing found frontier with
  | nil =>
    exact ⟨⟨[], by simp, by simp, by simp⟩, fun h => h, by simp⟩
  | cons item met ih =>
    rw [List.foldl_cons, visit]
    split
    · rename_i hknown
      obtain ⟨⟨new, hnew, hfrontier, hmet⟩, hdistinct, hfound⟩ := ih found frontier
      refine ⟨⟨new, hnew, hfrontier, fun a ha => List.mem_cons_of_mem _ (hmet a ha)⟩,
        hdistinct, ?_⟩
      intro a ha
      rcases List.mem_cons.mp ha with rfl | ha
      · rw [hnew, List.map_append]
        exact List.mem_append_left _ hknown
      · exact hfound a ha
    · rename_i hnewkey
      obtain ⟨⟨new, hnew, hfrontier, hmet⟩, hdistinct, hfound⟩ :=
        ih (found ++ [item]) (frontier ++ [key item])
      refine ⟨⟨item :: new, by simp [hnew], by simp [hfrontier], ?_⟩, ?_, ?_⟩
      · intro a ha
        rcases List.mem_cons.mp ha with rfl | ha
        · exact List.mem_cons_self
        · exact List.mem_cons_of_mem _ (hmet a ha)
      · intro hold
        apply hdistinct
        rw [List.map_append]
        exact List.nodup_append.mpr ⟨hold, List.nodup_singleton _, fun a ha b hb hab =>
          hnewkey (List.mem_singleton.mp hb ▸ hab ▸ ha)⟩
      · intro a ha
        rcases List.mem_cons.mp ha with rfl | ha
        · rw [hnew]
          simp
        · exact hfound a ha

/-- A level keeps the invariant. -/
theorem Searched.level (hspace : Space key nextTo near items)
    (h : Searched key near items first found frontier) :
    Searched key near items first ((nextTo frontier).foldl (visit key) (found, [])).1
      ((nextTo frontier).foldl (visit key) (found, [])).2 := by
  obtain ⟨⟨new, hnew, hfrontier, hmet⟩, hdistinct, hfound⟩ :=
    visited_foldl key (nextTo frontier) found []
  rw [List.nil_append] at hfrontier
  have near_new (a : α) (ha : a ∈ new) : ∃ k ∈ frontier, near k a :=
    (hspace.mem_nextTo _ a).mp (hmet a ha)
  constructor
  case first_mem =>
    rw [hnew]
    exact List.mem_append_left _ h.first_mem
  case distinct => exact hdistinct h.distinct
  case within =>
    intro a ha
    rcases List.mem_append.mp (hnew ▸ ha) with ha | ha
    · exact h.within a ha
    · obtain ⟨k, -, hk⟩ := near_new a ha
      exact hspace.within k a hk
  case reached =>
    intro a ha
    rcases List.mem_append.mp (hnew ▸ ha) with ha | ha
    · exact h.reached a ha
    · obtain ⟨k, hk, hnear⟩ := near_new a ha
      obtain ⟨b, hb, rfl⟩ := List.mem_map.mp (h.frontier_found k hk)
      exact (h.reached b hb).tail hnear
  case closed =>
    intro a ha hout b hab
    rw [hfrontier] at hout
    rcases List.mem_append.mp (hnew ▸ ha) with ha | ha
    · by_cases hold : key a ∈ frontier
      · exact hfound b ((hspace.mem_nextTo _ b).mpr ⟨key a, hold, hab⟩)
      · rw [hnew, List.map_append]
        exact List.mem_append_left _ (h.closed a ha hold b hab)
    · exact absurd (List.mem_map_of_mem ha) hout
  case frontier_found =>
    intro k hk
    rw [hfrontier] at hk
    rw [hnew, List.map_append]
    exact List.mem_append_right _ hk

/-! ### All levels -/

/-- More fuel does not change a finished search. -/
theorem search_mono {fuel' : Nat} (h : search key nextTo fuel found frontier = some result)
    (hle : fuel ≤ fuel') : search key nextTo fuel' found frontier = some result := by
  induction fuel generalizing fuel' found frontier with
  | zero => exact absurd h nofun
  | succ fuel ih =>
    cases fuel' with
    | zero => exact absurd hle (Nat.not_succ_le_zero fuel)
    | succ fuel' =>
      cases frontier with
      | nil => exact h
      | cons k frontier =>
        rw [search] at h ⊢
        exact ih h (Nat.le_of_succ_le_succ hle)

/-- Every level but the last finds something, so the search ends. -/
theorem search_finishes (hspace : Space key nextTo near items)
    (h : Searched key near items first found frontier)
    (hfuel : frontier = [] ∧ 0 < fuel ∨ items.length + 2 ≤ fuel + found.length) :
    ∃ result, search key nextTo fuel found frontier = some result ∧
      Searched key near items first result [] := by
  induction fuel generalizing found frontier with
  | zero =>
    have := h.length_le
    omega
  | succ fuel ih =>
    cases frontier with
    | nil => exact ⟨found, rfl, h⟩
    | cons k frontier =>
      rw [search]
      refine ih (h.level hspace) ?_
      obtain ⟨new, hnew, hfrontier, -⟩ :=
        (visited_foldl key (nextTo (k :: frontier)) found []).fresh
      have hle := h.length_le
      rcases hfuel with ⟨hnil, -⟩ | hfuel
      · exact absurd hnil (List.cons_ne_nil _ _)
      · cases new with
        | nil => exact .inl ⟨by simpa using hfrontier, by omega⟩
        | cons a new =>
          right
          rw [hnew, List.length_append, List.length_cons]
          omega

end Synthetos.Lib.Search
