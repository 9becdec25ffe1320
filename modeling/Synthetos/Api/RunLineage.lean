import Synthetos.Lib.Forest
import Synthetos.Lib.Search
import Synthetos.Storage.Models
import Mathlib.Data.Prod.Lex

/-!
# The lineage of a run

`GET /runs/{run_id}/lineage` walks up to the first run of a retry tree, collects the tree level by
level and answers its runs from the oldest to the newest.
-/

namespace Synthetos.Api.Lineage

open Lib Storage Relation

structure RunRow where
  id : RunId
  parentRunId : Option RunId
  createdAt : Timestamp
  runNumber : Nat
  deriving DecidableEq

def RunRow.age (row : RunRow) : Lex (Timestamp × Nat) := toLex (row.createdAt, row.runNumber)

structure ActionRow where
  action : RemediationAction
  createdAt : Timestamp

/-- The tables of runs and of remediation actions with the answers to the queries by parents and by
runs, ordered by age; the order of rows of one age is the store's own. -/
structure RunStore where
  rows : List RunRow
  childrenOf : List RunId → List RunRow
  actions : List ActionRow
  actionsOf : List RunId → List ActionRow
  ids : (rows.map RunRow.id).Nodup
  children_perm : ∀ parents, (childrenOf parents).Perm
    (rows.filter fun row => row.parentRunId.any parents.contains)
  children_sorted : ∀ parents, (childrenOf parents).Pairwise fun a b => a.age ≤ b.age
  actions_perm : ∀ runs, (actionsOf runs).Perm
    (actions.filter fun row => runs.contains row.action.runRecordId)
  actions_sorted : ∀ runs, (actionsOf runs).Pairwise fun a b => a.createdAt ≤ b.createdAt

structure RunLineageRead where
  runIds : List RunId
  remediationActions : List RemediationAction

namespace RunStore

variable (store : RunStore)

def get? (run : RunId) : Option RunRow := store.rows.find? fun row => row.id == run

/-- Walk up while there is a parent in the table; `fuel` bounds the walk. -/
def firstRun : Nat → RunRow → Option RunRow
  | 0, _ => none
  | fuel + 1, row =>
    match row.parentRunId.bind store.get? with
    | none => some row
    | some parent => firstRun fuel parent

def byAge (rows : List RunRow) : List RunRow := rows.insertionSort fun a b => a.age ≤ b.age

def lineageOf (ordered : List RunRow) : RunLineageRead :=
  let runIds := ordered.map RunRow.id
  { runIds, remediationActions := (store.actionsOf runIds).map ActionRow.action }

/-- `get_run_lineage`; `fuel` bounds both loops, `none` where it ends before them. -/
def getRunLineage (fuel : Nat) (run : RunId) : Option RunLineageRead :=
  match store.get? run with
  | none => some ⟨[], []⟩
  | some row => do
    let root ← store.firstRun fuel row
    let found ← Search.search RunRow.id store.childrenOf fuel [root] [root.id]
    return store.lineageOf (byAge found)

def Retries (a b : RunRow) : Prop :=
  a ∈ store.rows ∧ b ∈ store.rows ∧ b.parentRunId = some a.id

/-- A retry is no older than the run it repeats, and has a larger number.  So no run is above
itself. -/
def Growing : Prop :=
  ∀ a b, store.Retries a b → a.createdAt ≤ b.createdAt ∧ a.runNumber < b.runNumber

variable {store} {a b row root parent : RunRow} {run : RunId} {fuel : Nat}

theorem get?_eq_some : store.get? run = some row ↔ row ∈ store.rows ∧ row.id = run := by
  constructor
  · intro h
    exact ⟨List.mem_of_find?_eq_some h, by simpa using List.find?_some h⟩
  · rintro ⟨hrow, rfl⟩
    cases hfound : store.get? row.id with
    | none => exact absurd (List.find?_eq_none.mp hfound row hrow) (by simp)
    | some other =>
      have hother : other.id = row.id := by simpa using List.find?_some hfound
      rw [List.inj_on_of_nodup_map store.ids (List.mem_of_find?_eq_some hfound) hrow hother]

theorem parent_iff (hrow : row ∈ store.rows) :
    row.parentRunId.bind store.get? = some parent ↔ store.Retries parent row := by
  rw [Option.bind_eq_some_iff]
  constructor
  · rintro ⟨run, hparent, hget⟩
    obtain ⟨hmem, rfl⟩ := get?_eq_some.mp hget
    exact ⟨hmem, hrow, hparent⟩
  · rintro ⟨hmem, -, hparent⟩
    exact ⟨parent.id, hparent, get?_eq_some.mpr ⟨hmem, rfl⟩⟩

theorem oneParent (store : RunStore) : Forest.OneParent store.Retries := by
  rintro p q a ⟨hp, -, hpa⟩ ⟨hq, -, hqa⟩
  exact List.inj_on_of_nodup_map store.ids hp hq (Option.some.inj (hpa.symm.trans hqa))

/-! ### The first run -/

theorem firstRun_isRoot (hrow : row ∈ store.rows) (h : store.firstRun fuel row = some root) :
    root ∈ store.rows ∧ Forest.IsRoot store.Retries root row := by
  induction fuel generalizing row with
  | zero => exact absurd h nofun
  | succ fuel ih =>
    rw [firstRun] at h
    split at h
    · rename_i hnone
      obtain rfl := Option.some.inj h
      refine ⟨hrow, .refl, fun p hp => ?_⟩
      rw [(parent_iff hrow).mpr hp] at hnone
      exact absurd hnone nofun
    · rename_i parent hparent
      have hlink := (parent_iff hrow).mp hparent
      obtain ⟨hroot, hisroot⟩ := ih hlink.1 h
      exact ⟨hroot, (Forest.isRoot_child store.oneParent hlink).mpr hisroot⟩

/-- The numbers fall on the way up. -/
theorem firstRun_finishes (hgrow : store.Growing) (hrow : row ∈ store.rows)
    (hfuel : row.runNumber < fuel) : ∃ root, store.firstRun fuel row = some root := by
  induction fuel generalizing row with
  | zero => exact absurd hfuel (Nat.not_lt_zero _)
  | succ fuel ih =>
    rw [firstRun]
    split
    · exact ⟨row, rfl⟩
    · rename_i parent hparent
      have hlink := (parent_iff hrow).mp hparent
      exact ih hlink.1 (Nat.lt_of_lt_of_le (hgrow _ _ hlink).2 (Nat.le_of_lt_succ hfuel))

/-! ### The tree -/

theorem space (store : RunStore) : Search.Space RunRow.id store.childrenOf
    (fun run b => b ∈ store.rows ∧ b.parentRunId = some run) store.rows where
  distinct := store.ids
  within _ _ h := h.1
  mem_nextTo parents b := by
    rw [(store.children_perm parents).mem_iff, List.mem_filter]
    cases b.parentRunId <;> simp [and_comm]

theorem below_iff (hroot : root ∈ store.rows) :
    ReflTransGen (Search.Next RunRow.id fun run b => b ∈ store.rows ∧ b.parentRunId = some run)
        root b ↔ ReflTransGen store.Retries root b := by
  constructor
  · intro h
    have hboth : b ∈ store.rows ∧ ReflTransGen store.Retries root b := by
      induction h with
      | refl => exact ⟨hroot, .refl⟩
      | tail _ hstep ih => exact ⟨hstep.1, ih.2.tail ⟨ih.1, hstep⟩⟩
    exact hboth.2
  · intro h
    induction h with
    | refl => exact .refl
    | tail _ hstep ih => exact ih.tail hstep.2

theorem start (hroot : root ∈ store.rows) : Search.Searched RunRow.id
    (fun run b => b ∈ store.rows ∧ b.parentRunId = some run) store.rows root [root] [root.id] where
  first_mem := List.mem_singleton_self root
  distinct := List.nodup_singleton _
  within := by simpa using hroot
  reached := by simp [ReflTransGen.refl]
  closed := by simp
  frontier_found := by simp

/-- The runs found from a first run are its tree, once each. -/
theorem search_finds (hroot : root ∈ store.rows) (htop : ∀ p, ¬ store.Retries p root)
    (hfuel : store.rows.length + 1 ≤ fuel) :
    ∃ found, Search.search RunRow.id store.childrenOf fuel [root] [root.id] = some found ∧
      (found.map RunRow.id).Nodup ∧
        ∀ b, b ∈ found ↔ Forest.SameTree store.Retries root b := by
  obtain ⟨found, hfound, hsearched⟩ := Search.search_finishes store.space (start hroot)
    (.inr (by simpa using hfuel))
  refine ⟨found, hfound, hsearched.distinct, fun b => ?_⟩
  rw [hsearched.mem_iff store.space, below_iff hroot,
    Forest.sameTree_iff store.oneParent ⟨.refl, htop⟩]

/-! ### The order of the runs -/

theorem ageTotal : Std.Total fun a b : RunRow => a.age ≤ b.age := ⟨fun a b => le_total a.age b.age⟩

theorem ageTrans : IsTrans RunRow fun a b => a.age ≤ b.age := ⟨fun _ _ _ => le_trans⟩

theorem age_lt (hgrow : store.Growing) (h : TransGen store.Retries a b) : a.age < b.age := by
  have younger {a b : RunRow} (hab : store.Retries a b) : a.age < b.age := by
    obtain ⟨hcreated, hnumber⟩ := hgrow a b hab
    rcases Nat.lt_or_eq_of_le hcreated with hlt | heq
    · exact Prod.Lex.toLex_lt_toLex.mpr (.inl hlt)
    · exact Prod.Lex.toLex_lt_toLex.mpr (.inr ⟨heq, hnumber⟩)
  induction h with
  | single hab => exact younger hab
  | tail _ hbc ih => exact ih.trans (younger hbc)

theorem byAge_ancestors (hgrow : store.Growing) (rows : List RunRow) {i j : Nat}
    (hi : (byAge rows)[i]? = some a) (hj : (byAge rows)[j]? = some b)
    (h : TransGen store.Retries a b) : i < j := by
  have htotal := ageTotal
  have htrans := ageTrans
  have hsorted : (byAge rows).Pairwise fun a b => a.age ≤ b.age :=
    List.pairwise_insertionSort _ _
  have hage := age_lt hgrow h
  by_contra hji
  rcases Nat.eq_or_lt_of_le (Nat.le_of_not_lt hji) with rfl | hlt
  · obtain rfl := Option.some.inj (hi.symm.trans hj)
    exact lt_irrefl _ hage
  · obtain ⟨hjlt, rfl⟩ := List.getElem?_eq_some_iff.mp hj
    obtain ⟨hilt, rfl⟩ := List.getElem?_eq_some_iff.mp hi
    exact absurd (List.pairwise_iff_getElem.mp hsorted j i hjlt hilt hlt) (not_le_of_gt hage)

/-- A store without actions that keeps rows of one age in the order of the table. -/
def ofRows (rows : List RunRow) (ids : (rows.map RunRow.id).Nodup) : RunStore where
  rows := rows
  childrenOf parents := byAge (rows.filter fun row => row.parentRunId.any parents.contains)
  actions := []
  actionsOf _ := []
  ids := ids
  children_perm _ := List.perm_insertionSort _ _
  children_sorted _ := by
    have htotal := ageTotal
    have htrans := ageTrans
    exact List.pairwise_insertionSort _ _
  actions_perm _ := .refl _
  actions_sorted _ := .nil

/-- A run retried twice at one time, and a retry of the second retry. -/
def branching : RunStore :=
  ofRows [⟨7, some 5, 2, 3⟩, ⟨5, some 3, 1, 2⟩, ⟨4, some 3, 1, 2⟩, ⟨3, none, 1, 1⟩] (by decide)

example : (branching.getRunLineage 6 4).map RunLineageRead.runIds = some [3, 5, 4, 7] := by
  decide +kernel

theorem branching_growing : branching.Growing := by
  have hall : ∀ a ∈ branching.rows, ∀ b ∈ branching.rows, b.parentRunId = some a.id →
      a.createdAt ≤ b.createdAt ∧ a.runNumber < b.runNumber := by decide
  exact fun a b ⟨ha, hb, hparent⟩ => hall a ha b hb hparent

end RunStore

end Synthetos.Api.Lineage
