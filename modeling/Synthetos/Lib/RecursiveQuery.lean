import Synthetos.Lib.Search
import Mathlib.Data.List.Chain
import Mathlib.Data.Nat.Find
import Mathlib.Order.Bounds.Basic

/-!
# Recursive queries

A recursive query starts from some rows and asks, round by round, for the rows that follow the ones
of the last round.  With `UNION ALL` the rows of every round are kept; with `UNION` a row is kept
where it was not found before.
-/

namespace Synthetos.Lib.RecursiveQuery

open Relation

variable {α κ : Type*}

/-! ### Walks -/

/-- A walk of `n` links. -/
def Walk (link : α → α → Prop) : Nat → α → α → Prop
  | 0, a, b => a = b
  | n + 1, a, b => ∃ c, Walk link n a c ∧ link c b

variable {link : α → α → Prop} {a b : α} {n m : Nat}

theorem Walk.one_iff : Walk link 1 a b ↔ link a b := by
  simp [Walk]

/-- The walks from `a` to `b` have at least `n` links, and one has no more. -/
def Distance (link : α → α → Prop) (a b : α) (n : Nat) : Prop :=
  IsLeast {m | Walk link m a b} n

/-- On a shortest walk the node before the last is one link nearer. -/
theorem Distance.pred (h : Distance link a b (n + 1)) : ∃ c, Distance link a c n ∧ link c b := by
  obtain ⟨c, hwalk, hlink⟩ := h.1
  refine ⟨c, ⟨hwalk, fun m hm => ?_⟩, hlink⟩
  have hlonger : n + 1 ≤ m + 1 := h.2 ⟨c, hm, hlink⟩
  omega

theorem Walk.distance (h : Walk link n a b) : ∃ m ≤ n, Distance link a b m := by
  classical
  have hsome : ∃ m, Walk link m a b := ⟨n, h⟩
  exact ⟨Nat.find hsome, Nat.find_min' hsome h, Nat.find_spec hsome,
    fun m hm => Nat.find_min' hsome hm⟩

theorem Distance.unique (h : Distance link a b n) (h' : Distance link a b m) : n = m :=
  IsLeast.unique h h'

/-- Where links from images lead to images only, so do walks. -/
theorem Walk.image {β : Type*} {f : α → β} {part : α → α → Prop} {whole : β → β → Prop}
    (h : ∀ a b, whole (f a) b ↔ ∃ a', f a' = b ∧ part a a') {b : β} :
    Walk whole n (f a) b ↔ ∃ a', f a' = b ∧ Walk part n a a' := by
  induction n generalizing b with
  | zero =>
    constructor
    · rintro rfl
      exact ⟨a, rfl, rfl⟩
    · rintro ⟨a', rfl, rfl⟩
      rfl
  | succ n ih =>
    constructor
    · rintro ⟨c, hwalk, hlink⟩
      obtain ⟨c', rfl, hinner⟩ := ih.mp hwalk
      obtain ⟨b', rfl, hlast⟩ := (h c' b).mp hlink
      exact ⟨b', rfl, c', hinner, hlast⟩
    · rintro ⟨b, rfl, c, hwalk, hlink⟩
      exact ⟨f c, ih.mpr ⟨c, rfl, hwalk⟩, (h c _).mpr ⟨b, rfl, hlink⟩⟩

theorem chain_image {β : Type*} {f : α → β} {part : α → α → Prop} {whole : β → β → Prop}
    (h : ∀ a b, whole (f a) b ↔ ∃ a', f a' = b ∧ part a a') {later : List β}
    (hchain : (f a :: later).IsChain whole) :
    ∃ inner, inner.map f = later ∧ (a :: inner).IsChain part := by
  induction later generalizing a with
  | nil => exact ⟨[], rfl, List.isChain_singleton a⟩
  | cons b later ih =>
    obtain ⟨hlink, hrest⟩ := List.isChain_cons_cons.mp hchain
    obtain ⟨b', rfl, hfirst⟩ := (h a b).mp hlink
    obtain ⟨inner, rfl, hinner⟩ := ih hrest
    exact ⟨b' :: inner, rfl, List.isChain_cons_cons.mpr ⟨hfirst, hinner⟩⟩

/-! ### `UNION ALL` -/

/-- The row `b` is asked for when `a` was found. -/
def Follows (step : α → List α) (a b : α) : Prop := b ∈ step a

/-- `fuel` bounds the rounds. -/
def unionAll (step : α → List α) : Nat → List α → Option (List α)
  | _, [] => some []
  | 0, _ :: _ => none
  | fuel + 1, row :: rows =>
    (unionAll step fuel ((row :: rows).flatMap step)).map fun later => row :: rows ++ later

/-- Where every row that follows another has less of something, the query ends with what can be
reached. -/
theorem unionAll_ends {step : α → List α} (measure : α → Nat)
    (hstep : ∀ a, ∀ b ∈ step a, measure b < measure a) {fuel : Nat} {rows : List α}
    (hfuel : ∀ a ∈ rows, measure a < fuel) :
    ∃ result, unionAll step fuel rows = some result ∧
      ∀ b, b ∈ result ↔ ∃ a ∈ rows, ReflTransGen (Follows step) a b := by
  induction fuel generalizing rows with
  | zero =>
    cases rows with
    | nil => exact ⟨[], rfl, by simp⟩
    | cons a rows => exact absurd (hfuel a List.mem_cons_self) (Nat.not_lt_zero _)
  | succ fuel ih =>
    cases hrows : rows with
    | nil => exact ⟨[], rfl, by simp⟩
    | cons first rest =>
      rw [← hrows]
      have hless : ∀ b ∈ rows.flatMap step, measure b < fuel := by
        intro b hb
        obtain ⟨a, ha, hab⟩ := List.mem_flatMap.mp hb
        have hfalls := hstep a b hab
        have hround := hfuel a ha
        omega
      obtain ⟨later, hlater, hmem⟩ := ih hless
      refine ⟨rows ++ later, ?_, fun b => ?_⟩
      · rw [hrows, unionAll, ← hrows, hlater]
        rfl
      · rw [List.mem_append, hmem]
        constructor
        · rintro (hb | ⟨c, hc, hpath⟩)
          · exact ⟨b, hb, .refl⟩
          · obtain ⟨a, ha, hac⟩ := List.mem_flatMap.mp hc
            exact ⟨a, ha, .head hac hpath⟩
        · rintro ⟨a, ha, hpath⟩
          rcases ReflTransGen.cases_head hpath with rfl | ⟨c, hac, hrest⟩
          · exact .inl ha
          · exact .inr ⟨c, List.mem_flatMap.mpr ⟨a, ha, hac⟩, hrest⟩

/-! ### `UNION` -/

variable [DecidableEq κ]

/-- Rows are known by a key.  `fuel` bounds the rounds. -/
def union (key : α → κ) (step : κ → List α) (fuel : Nat) (base : List α) : Option (List α) :=
  let rows := base.foldl (Search.visit key) ([], [])
  Search.search key (fun keys => keys.flatMap step) fuel rows.1 rows.2

/-- The rows found are reached from the first ones; those of earlier rounds have all that follows
among them. -/
structure Unfolded (key : α → κ) (step : κ → List α) (base found : List α) (frontier : List κ) :
    Prop where
  base_found : ∀ a ∈ base, key a ∈ found.map key
  reached : ∀ b ∈ found, ∃ a ∈ base, ReflTransGen (Follows fun a => step (key a)) a b
  closed : ∀ a ∈ found, key a ∉ frontier → ∀ b ∈ step (key a), key b ∈ found.map key
  frontier_found : ∀ k ∈ frontier, ∃ a ∈ found, key a = k
  distinct : (found.map key).Nodup

variable {key : α → κ} {step : κ → List α} {base found : List α} {frontier : List κ}

theorem unfolded_base (key : α → κ) (step : κ → List α) (base : List α) :
    Unfolded key step base (base.foldl (Search.visit key) ([], [])).1
      (base.foldl (Search.visit key) ([], [])).2 := by
  obtain ⟨⟨new, hnew, hfrontier, hmet⟩, hdistinct, hfound⟩ := Search.visited_foldl key base [] []
  rw [List.nil_append] at hnew hfrontier
  refine ⟨hfound, fun b hb => ?_, fun a ha hnot => ?_, fun k hk => ?_, hdistinct List.nodup_nil⟩
  · rw [hnew] at hb
    exact ⟨b, hmet b hb, .refl⟩
  · rw [hnew] at ha
    rw [hfrontier] at hnot
    exact absurd (List.mem_map_of_mem ha) hnot
  · rw [hfrontier] at hk
    rw [hnew]
    exact List.mem_map.mp hk

theorem Unfolded.round (h : Unfolded key step base found frontier) :
    Unfolded key step base ((frontier.flatMap step).foldl (Search.visit key) (found, [])).1
      ((frontier.flatMap step).foldl (Search.visit key) (found, [])).2 := by
  obtain ⟨⟨new, hnew, hfrontier, hmet⟩, hdistinct, hfound⟩ :=
    Search.visited_foldl key (frontier.flatMap step) found []
  rw [List.nil_append] at hfrontier
  rw [hnew] at hdistinct hfound
  rw [hnew, hfrontier]
  have hkeep : ∀ k, k ∈ found.map key → k ∈ (found ++ new).map key := by
    intro k hk
    rw [List.map_append]
    exact List.mem_append_left _ hk
  refine ⟨fun a ha => hkeep _ (h.base_found a ha), fun b hb => ?_, fun a ha hnot b hb => ?_,
    fun k hk => ?_, hdistinct h.distinct⟩
  · rcases List.mem_append.mp hb with hb | hb
    · exact h.reached b hb
    · obtain ⟨k, hk, hkb⟩ := List.mem_flatMap.mp (hmet b hb)
      obtain ⟨a, ha, rfl⟩ := h.frontier_found k hk
      obtain ⟨first, hfirst, hpath⟩ := h.reached a ha
      exact ⟨first, hfirst, hpath.tail hkb⟩
  · rcases List.mem_append.mp ha with ha | ha
    · by_cases hold : key a ∈ frontier
      · exact hfound b (List.mem_flatMap.mpr ⟨key a, hold, hb⟩)
      · exact hkeep _ (h.closed a ha hold b hb)
    · exact absurd (List.mem_map_of_mem ha) hnot
  · obtain ⟨a, ha, rfl⟩ := List.mem_map.mp hk
    exact ⟨a, List.mem_append_right _ ha, rfl⟩

/-- Where rows are told apart by their keys, a query whose rounds have an end has found what can be
reached, once each. -/
theorem Unfolded.ends {found : List α} {frontier : List κ} (measure : κ → Nat)
    (hstep : ∀ k, ∀ b ∈ step k, measure (key b) < measure k)
    (h : Unfolded key step base found frontier) {fuel : Nat}
    (hfuel : ∀ k ∈ frontier, measure k < fuel) :
    ∃ result, Search.search key (fun keys => keys.flatMap step) (fuel + 1) found frontier =
      some result ∧ Unfolded key step base result [] := by
  induction fuel generalizing found frontier with
  | zero =>
    cases frontier with
    | nil => exact ⟨found, rfl, h⟩
    | cons k frontier => exact absurd (hfuel k List.mem_cons_self) (Nat.not_lt_zero _)
  | succ fuel ih =>
    cases hfrontier : frontier with
    | nil => exact ⟨found, rfl, hfrontier ▸ h⟩
    | cons k rest =>
      rw [Search.search, ← hfrontier]
      apply ih h.round
      intro k' hk'
      obtain ⟨⟨new, -, hkeys, hmet⟩, -, -⟩ :=
        Search.visited_foldl key (frontier.flatMap step) found []
      rw [List.nil_append] at hkeys
      rw [hkeys] at hk'
      obtain ⟨b, hb, rfl⟩ := List.mem_map.mp hk'
      obtain ⟨k'', hk'', hkb⟩ := List.mem_flatMap.mp (hmet b hb)
      have hfalls := hstep k'' b hkb
      have hround := hfuel k'' hk''
      omega

theorem union_ends (key : α → κ) (step : κ → List α) (measure : κ → Nat) (known : α → Prop)
    (hstep : ∀ k, ∀ b ∈ step k, measure (key b) < measure k)
    (hbase : ∀ a ∈ base, known a) (hknown : ∀ k, ∀ b ∈ step k, known b)
    (hkey : ∀ a b, known a → known b → key a = key b → a = b) {fuel : Nat}
    (hfuel : ∀ a ∈ base, measure (key a) < fuel) :
    ∃ result, union key step (fuel + 1) base = some result ∧ (result.map key).Nodup ∧
      ∀ b, b ∈ result ↔ ∃ a ∈ base, ReflTransGen (Follows fun a => step (key a)) a b := by
  have hstart := unfolded_base key step base
  obtain ⟨result, hresult, hend⟩ := hstart.ends measure hstep fun k hk => by
    obtain ⟨a, ha, rfl⟩ := hstart.frontier_found k hk
    obtain ⟨⟨new, hnew, -, hmet⟩, -, -⟩ := Search.visited_foldl key base [] []
    rw [hnew, List.nil_append] at ha
    exact hfuel a (hmet a ha)
  refine ⟨result, hresult, hend.distinct, fun b => ⟨hend.reached b, ?_⟩⟩
  rintro ⟨a, ha, hpath⟩
  have hmem : ∀ c, known c → key c ∈ result.map key → c ∈ result := by
    intro c hc hkeyc
    obtain ⟨d, hd, hdc⟩ := List.mem_map.mp hkeyc
    have hdknown : known d := by
      obtain ⟨first, hfirst, hreach⟩ := hend.reached d hd
      rcases ReflTransGen.cases_tail hreach with rfl | ⟨e, -, hlast⟩
      · exact hbase _ hfirst
      · exact hknown _ _ hlast
    obtain rfl := hkey d c hdknown hc hdc
    exact hd
  induction hpath with
  | refl => exact hmem a (hbase a ha) (hend.base_found a ha)
  | tail _ hlast ih =>
    exact hmem _ (hknown _ _ hlast) (hend.closed _ ih List.not_mem_nil _ hlast)

end Synthetos.Lib.RecursiveQuery
