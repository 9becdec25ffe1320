import Synthetos.Analysis.GraphExtraction
import Synthetos.Lib.RecursiveQuery

/-!
# Queries over the graph tables

The nodes and edges of all graphs are rows of two tables.  The relational adapter finds neighbours
and paths by recursive queries over the whole tables, whatever graph is named.
-/

namespace Synthetos.Analysis

open Lib Relation RecursiveQuery

structure NodeRow (Id : Type) where
  id : Id
  label : List Char
  nodeType : List Char
  properties : Json

structure EdgeRow (Id : Type) where
  sourceNodeId : Id
  targetNodeId : Id
  edgeType : List Char

structure GraphTables (Id : Type) where
  nodes : List (NodeRow Id)
  edges : List (EdgeRow Id)

/-- A row of `neighbors`. -/
structure Neighbor (Id : Type) where
  node : NodeRow Id
  depth : Int

/-- A row of `path_search`. -/
structure PathRow (Id : Type) where
  currentId : Id
  path : List Id
  depth : Nat

structure GraphPath (Id : Type) where
  nodes : List (NodeRow Id)
  length : Nat

/-- `id` is the primary key of the nodes, and edges refer to them. -/
structure GraphTables.Sound {Id : Type} (db : GraphTables Id) : Prop where
  keyed : (db.nodes.map NodeRow.id).Nodup
  sources : ∀ edge ∈ db.edges, ∃ node ∈ db.nodes, node.id = edge.sourceNodeId
  targets : ∀ edge ∈ db.edges, ∃ node ∈ db.nodes, node.id = edge.targetNodeId

variable {Id : Type}

/-- The key under which rows are compared: `id` tells nodes apart. -/
def Neighbor.key (row : Neighbor Id) : Id × Int := (row.node.id, row.depth)

/-- `AND e.edge_type = ANY(labels)`, left out where no label is given. -/
def edgeFilter (edgeLabels : Option (List (List Char))) (edge : EdgeRow Id) : Bool :=
  match edgeLabels with
  | none | some [] => true
  | some labels => labels.contains edge.edgeType

def GraphTables.Link (db : GraphTables Id) (edgeLabels : Option (List (List Char))) (a b : Id) :
    Prop :=
  ∃ edge ∈ db.edges, edge.sourceNodeId = a ∧ edge.targetNodeId = b ∧
    edgeFilter edgeLabels edge = true

namespace GraphTables

variable [DecidableEq Id] (db : GraphTables Id) (edgeLabels : Option (List (List Char)))

/-- The edges of a node, joined with the nodes they lead to. -/
def targetNodes (source : Id) : List (NodeRow Id) :=
  (db.edges.filter fun edge =>
    edge.sourceNodeId == source && edgeFilter edgeLabels edge).flatMap fun edge =>
      db.nodes.filter fun node => node.id == edge.targetNodeId

def nextNeighbors (maxDepth : Int) (key : Id × Int) : List (Neighbor Id) :=
  if key.2 < maxDepth then
    (db.targetNodes edgeLabels key.1).map fun node => ⟨node, key.2 + 1⟩
  else []

def queryNeighbors (nodeId : Id) (maxDepth : Int) (fuel : Nat) : Option (List (NodeRow Id)) :=
  (union Neighbor.key (db.nextNeighbors edgeLabels maxDepth) fuel
    ((db.targetNodes edgeLabels nodeId).map fun node => ⟨node, 1⟩)).map fun rows =>
      ((rows.map Neighbor.node).foldl (Search.visit NodeRow.id) ([], [])).1

def edgesFrom (source : Id) : List (EdgeRow Id) :=
  db.edges.filter fun edge => edge.sourceNodeId == source

def longerPaths (row : PathRow Id) : List (PathRow Id) :=
  if row.depth < 10 then
    ((db.edgesFrom row.currentId).filter fun edge =>
      !row.path.contains edge.targetNodeId).map fun edge =>
        ⟨edge.targetNodeId, row.path ++ [edge.targetNodeId], row.depth + 1⟩
  else []

def firstPaths (fromId : Id) : List (PathRow Id) :=
  (db.edgesFrom fromId).map fun edge =>
    ⟨edge.targetNodeId, [edge.sourceNodeId, edge.targetNodeId], 1⟩

def fetchNode (id : Id) : Option (NodeRow Id) := db.nodes.find? fun node => node.id == id

/-- The database returns rows of one depth in an order of its own. -/
def queryPath (order : List (PathRow Id) → List (PathRow Id)) (fromId toId : Id) (fuel : Nat) :
    Option (List (GraphPath Id)) :=
  (unionAll db.longerPaths fuel (db.firstPaths fromId)).map fun rows =>
    (((order (rows.filter fun row => row.currentId == toId)).mergeSort fun a b =>
      a.depth ≤ b.depth).take 1).map fun row =>
        ⟨row.path.filterMap db.fetchNode, row.depth⟩

end GraphTables

variable [DecidableEq Id] {db : GraphTables Id} {edgeLabels : Option (List (List Char))}
  {fromId toId nodeId : Id} {maxDepth : Int} {node : NodeRow Id} {fuel n : Nat}

/-! ### Neighbours -/

theorem GraphTables.mem_targetNodes :
    node ∈ db.targetNodes edgeLabels nodeId ↔
      node ∈ db.nodes ∧ db.Link edgeLabels nodeId node.id := by
  simp only [targetNodes, Link, List.mem_flatMap, List.mem_filter, Bool.and_eq_true, beq_iff_eq]
  constructor
  · rintro ⟨edge, ⟨hedge, hsource, hfilter⟩, hnode, hid⟩
    exact ⟨hnode, edge, hedge, hsource, hid.symm, hfilter⟩
  · rintro ⟨hnode, edge, hedge, hsource, htarget, hfilter⟩
    exact ⟨edge, ⟨hedge, hsource, hfilter⟩, hnode, htarget.symm⟩

theorem GraphTables.mem_nextNeighbors {key : Id × Int} {row : Neighbor Id} :
    row ∈ db.nextNeighbors edgeLabels maxDepth key ↔
      key.2 < maxDepth ∧ row.node ∈ db.targetNodes edgeLabels key.1 ∧ row.depth = key.2 + 1 := by
  rw [nextNeighbors]
  split
  · rename_i hdepth
    rw [List.mem_map]
    constructor
    · rintro ⟨node, hnode, rfl⟩
      exact ⟨hdepth, hnode, rfl⟩
    · rintro ⟨-, hnode, hrow⟩
      exact ⟨row.node, hnode, by rw [← hrow]⟩
  · rename_i hdepth
    simp [hdepth]

/-- The node ends a walk of one to `maxDepth` edges, or of one edge. -/
def GraphTables.Neighbors (db : GraphTables Id) (edgeLabels : Option (List (List Char)))
    (nodeId : Id) (maxDepth : Int) (node : NodeRow Id) : Prop :=
  node ∈ db.nodes ∧ ∃ n : Nat, 1 ≤ n ∧ (n = 1 ∨ (n : Int) ≤ maxDepth) ∧
    RecursiveQuery.Walk (db.Link edgeLabels) n nodeId node.id

/-- The rows of `neighbors` are the ends of walks, with their lengths. -/
theorem GraphTables.neighbor_walk {first row : Neighbor Id}
    (hfirst : first ∈ (db.targetNodes edgeLabels nodeId).map fun node => (⟨node, 1⟩ : Neighbor Id))
    (hpath : ReflTransGen (Follows fun row : Neighbor Id =>
      db.nextNeighbors edgeLabels maxDepth row.key) first row) :
    row.node ∈ db.nodes ∧ ∃ n : Nat, row.depth = n ∧ 1 ≤ n ∧ (n = 1 ∨ (n : Int) ≤ maxDepth) ∧
      RecursiveQuery.Walk (db.Link edgeLabels) n nodeId row.node.id := by
  induction hpath with
  | refl =>
    obtain ⟨node, hnode, rfl⟩ := List.mem_map.mp hfirst
    obtain ⟨hstored, hlink⟩ := mem_targetNodes.mp hnode
    exact ⟨hstored, 1, rfl, le_rfl, .inl rfl, RecursiveQuery.Walk.one_iff.mpr hlink⟩
  | tail _ hstep ih =>
    obtain ⟨-, n, hdepth, hpos, -, hwalk⟩ := ih
    obtain ⟨hless, hnode, hnext⟩ := mem_nextNeighbors.mp hstep
    obtain ⟨hstored, hlink⟩ := mem_targetNodes.mp hnode
    refine ⟨hstored, n + 1, ?_, by omega, .inr ?_, _, hwalk, hlink⟩
    · rw [hnext, Neighbor.key, hdepth]
      rfl
    · rw [Neighbor.key, hdepth] at hless
      omega

theorem GraphTables.walk_neighbor (hdb : db.Sound) (hpos : 1 ≤ n)
    (hbound : n = 1 ∨ (n : Int) ≤ maxDepth) (hnode : node ∈ db.nodes)
    (hwalk : RecursiveQuery.Walk (db.Link edgeLabels) n nodeId node.id) :
    ∃ first ∈ (db.targetNodes edgeLabels nodeId).map fun node => (⟨node, 1⟩ : Neighbor Id),
      ReflTransGen (Follows fun row : Neighbor Id => db.nextNeighbors edgeLabels maxDepth row.key)
        first ⟨node, n⟩ := by
  induction n, hpos using Nat.le_induction generalizing node with
  | base =>
    have htarget := mem_targetNodes.mpr ⟨hnode, RecursiveQuery.Walk.one_iff.mp hwalk⟩
    exact ⟨⟨node, 1⟩, List.mem_map_of_mem htarget, .refl⟩
  | succ n hpos ih =>
    obtain ⟨middle, hwalk, hlink⟩ := hwalk
    obtain ⟨edge, hedge, hsource, -⟩ := id hlink
    obtain ⟨node', hnode', hid⟩ := hdb.sources edge hedge
    obtain rfl : node'.id = middle := hid.trans hsource
    have hdeep : ((n + 1 : Nat) : Int) ≤ maxDepth := hbound.resolve_left (by omega)
    obtain ⟨first, hfirst, hpath⟩ := ih (.inr (by omega)) hnode' hwalk
    refine ⟨first, hfirst, hpath.tail (mem_nextNeighbors.mpr ⟨?_, ?_, ?_⟩)⟩
    · simp only [Neighbor.key]
      omega
    · exact mem_targetNodes.mpr ⟨hnode, hlink⟩
    · simp [Neighbor.key]

theorem GraphTables.queryNeighbors_ends (hdb : db.Sound) (edgeLabels : Option (List (List Char)))
    (nodeId : Id) (hfuel : maxDepth.toNat + 2 ≤ fuel) :
    ∃ nodes, db.queryNeighbors edgeLabels nodeId maxDepth fuel = some nodes ∧
      (nodes.map NodeRow.id).Nodup ∧
      ∀ node, node ∈ nodes ↔ db.Neighbors edgeLabels nodeId maxDepth node := by
  obtain ⟨fuel, rfl⟩ : ∃ k, fuel = k + 1 := ⟨fuel - 1, by omega⟩
  have hstored : ∀ a b, a ∈ db.nodes → b ∈ db.nodes → a.id = b.id → a = b := fun a b ha hb hid =>
    List.inj_on_of_nodup_map hdb.keyed ha hb hid
  have hbase : ∀ row ∈ (db.targetNodes edgeLabels nodeId).map fun node => (⟨node, 1⟩ : Neighbor Id),
      row.node ∈ db.nodes ∧ row.depth = 1 := by
    intro row hrow
    obtain ⟨node, hnode, rfl⟩ := List.mem_map.mp hrow
    exact ⟨(mem_targetNodes.mp hnode).1, rfl⟩
  have hends := union_ends Neighbor.key (db.nextNeighbors edgeLabels maxDepth)
    (fun key => (maxDepth - key.2).toNat) (fun row => row.node ∈ db.nodes)
    (fun key row hrow => by
      obtain ⟨hless, -, hdepth⟩ := mem_nextNeighbors.mp hrow
      simp only [Neighbor.key]
      omega)
    (fun row hrow => (hbase row hrow).1)
    (fun key row hrow => (mem_targetNodes.mp (mem_nextNeighbors.mp hrow).2.1).1)
    (fun a b ha hb hkey => by
      obtain ⟨hid, hdepth⟩ := Prod.mk.inj hkey
      cases a
      cases b
      cases hstored _ _ ha hb hid
      cases hdepth
      rfl)
    (fun row hrow => show (maxDepth - row.key.2).toNat < fuel by
      simp only [Neighbor.key, (hbase row hrow).2]
      omega)
  obtain ⟨rows, hrows, -, hmem⟩ := hends
  obtain ⟨⟨new, hnew, -, hmet⟩, hdistinct, hfound⟩ :=
    Search.visited_foldl NodeRow.id (rows.map Neighbor.node) [] []
  have hwalks : ∀ row, row ∈ rows → row.node ∈ db.nodes ∧ ∃ n : Nat, row.depth = n ∧ 1 ≤ n ∧
      (n = 1 ∨ (n : Int) ≤ maxDepth) ∧
        RecursiveQuery.Walk (db.Link edgeLabels) n nodeId row.node.id := by
    intro row hrow
    obtain ⟨first, hfirst, hpath⟩ := (hmem row).mp hrow
    exact neighbor_walk hfirst hpath
  refine ⟨_, by rw [queryNeighbors, hrows]; rfl, hdistinct List.nodup_nil, fun node => ?_⟩
  constructor
  · intro hnode
    rw [hnew, List.nil_append] at hnode
    obtain ⟨row, hrow, rfl⟩ := List.mem_map.mp (hmet node hnode)
    obtain ⟨hin, n, -, hpos, hbound, hwalk⟩ := hwalks row hrow
    exact ⟨hin, n, hpos, hbound, hwalk⟩
  · rintro ⟨hin, n, hpos, hbound, hwalk⟩
    obtain ⟨first, hfirst, hpath⟩ := walk_neighbor hdb hpos hbound hin hwalk
    have hrow := (hmem ⟨node, n⟩).mpr ⟨first, hfirst, hpath⟩
    have hkey := hfound node (List.mem_map_of_mem hrow)
    obtain ⟨other, hother, hid⟩ := List.mem_map.mp hkey
    have hotherIn : other ∈ db.nodes := by
      rw [hnew, List.nil_append] at hother
      obtain ⟨row, hrow', rfl⟩ := List.mem_map.mp (hmet other hother)
      exact (hwalks row hrow').1
    rwa [hstored other node hotherIn hin hid] at hother

/-! ### Paths -/

/-- There is an edge between the two nodes. -/
abbrev GraphTables.Edge (db : GraphTables Id) : Id → Id → Prop := db.Link none

theorem GraphTables.edge_of_mem {edge : EdgeRow Id} {source : Id}
    (h : edge ∈ db.edgesFrom source) : db.Edge source edge.targetNodeId := by
  obtain ⟨hedge, hsource⟩ := List.mem_filter.mp h
  exact ⟨edge, hedge, beq_iff_eq.mp hsource, rfl, rfl⟩

theorem GraphTables.exists_edgeFrom {a b : Id} (h : db.Edge a b) :
    ∃ edge ∈ db.edgesFrom a, edge.targetNodeId = b := by
  obtain ⟨edge, hedge, hsource, htarget, -⟩ := h
  exact ⟨edge, List.mem_filter.mpr ⟨hedge, beq_iff_eq.mpr hsource⟩, htarget⟩

/-- The longest path that is looked for; from a node to itself there is only its own edge. -/
def reach (fromId toId : Id) : Nat := if fromId = toId then 1 else 10

/-- A row of `path_search` holds a walk of its depth. -/
structure PathRow.Valid (db : GraphTables Id) (fromId : Id) (row : PathRow Id) : Prop where
  starts : row.path.head? = some fromId
  arrives : row.path.getLast? = some row.currentId
  chain : row.path.IsChain db.Edge
  length : row.path.length = row.depth + 1
  short : row.depth ≤ 10
  walk : RecursiveQuery.Walk db.Edge row.depth fromId row.currentId
  positive : 1 ≤ row.depth
  cycle : row.currentId = fromId → row.depth = 1
  stored : ∀ a ∈ row.path, ∃ node ∈ db.nodes, node.id = a

theorem PathRow.Valid.depth_le {row : PathRow Id} (h : row.Valid db fromId)
    (hcurrent : row.currentId = toId) : row.depth ≤ reach fromId toId := by
  unfold reach
  split
  · rename_i hsame
    rw [h.cycle (hcurrent.trans hsame.symm)]
  · exact h.short

theorem GraphTables.mem_firstPaths {row : PathRow Id} : row ∈ db.firstPaths fromId ↔
    ∃ edge ∈ db.edgesFrom fromId, row = ⟨edge.targetNodeId, [fromId, edge.targetNodeId], 1⟩ := by
  rw [firstPaths, List.mem_map]
  constructor
  · rintro ⟨edge, hedge, rfl⟩
    refine ⟨edge, hedge, ?_⟩
    rw [beq_iff_eq.mp (List.mem_filter.mp hedge).2]
  · rintro ⟨edge, hedge, rfl⟩
    refine ⟨edge, hedge, ?_⟩
    rw [beq_iff_eq.mp (List.mem_filter.mp hedge).2]

theorem GraphTables.mem_longerPaths {row next : PathRow Id} :
    next ∈ db.longerPaths row ↔ row.depth < 10 ∧ ∃ edge ∈ db.edgesFrom row.currentId,
      edge.targetNodeId ∉ row.path ∧
        next = ⟨edge.targetNodeId, row.path ++ [edge.targetNodeId], row.depth + 1⟩ := by
  rw [longerPaths]
  split
  · rename_i hdepth
    simp only [List.mem_map, List.mem_filter, Bool.not_eq_true', List.contains_eq_mem,
      decide_eq_false_iff_not]
    constructor
    · rintro ⟨edge, ⟨hedge, hnew⟩, rfl⟩
      exact ⟨hdepth, edge, hedge, hnew, rfl⟩
    · rintro ⟨-, edge, hedge, hnew, rfl⟩
      exact ⟨edge, ⟨hedge, hnew⟩, rfl⟩
  · rename_i hdepth
    simp [hdepth]

theorem GraphTables.path_valid (hdb : db.Sound) {first row : PathRow Id}
    (hfirst : first ∈ db.firstPaths fromId)
    (hpath : ReflTransGen (Follows db.longerPaths) first row) : row.Valid db fromId := by
  induction hpath with
  | refl =>
    obtain ⟨edge, hedge, rfl⟩ := mem_firstPaths.mp hfirst
    have hlink := edge_of_mem hedge
    obtain ⟨hin, hsource⟩ := List.mem_filter.mp hedge
    refine ⟨rfl, rfl, List.isChain_pair.mpr hlink, rfl, (by decide : 1 ≤ 10),
      RecursiveQuery.Walk.one_iff.mpr hlink, le_rfl, fun _ => rfl, ?_⟩
    intro a ha
    rcases List.mem_cons.mp ha with rfl | ha
    · obtain ⟨node, hnode, hid⟩ := hdb.sources edge hin
      exact ⟨node, hnode, hid.trans (beq_iff_eq.mp hsource)⟩
    · rw [List.mem_singleton.mp ha]
      exact hdb.targets edge hin
  | tail _ hstep ih =>
    obtain ⟨hless, edge, hedge, hnew, rfl⟩ := mem_longerPaths.mp hstep
    have hlink := edge_of_mem hedge
    refine ⟨?_, by simp, ?_, by simp [ih.length], hless, ⟨_, ih.walk, hlink⟩, Nat.le_add_left _ _,
      ?_, ?_⟩
    · rw [List.head?_append, ih.starts]
      rfl
    · refine List.isChain_append.mpr ⟨ih.chain, List.isChain_singleton _, ?_⟩
      intro a ha b hb
      rw [ih.arrives] at ha
      cases ha
      cases hb
      exact hlink
    · rintro rfl
      exact absurd (List.mem_of_mem_head? ih.starts) hnew
    · intro a ha
      rcases List.mem_append.mp ha with ha | ha
      · exact ih.stored a ha
      · rw [List.mem_singleton.mp ha]
        exact hdb.targets edge (List.mem_filter.mp hedge).1

/-- A node at a distance is the end of a row whose other nodes are nearer. -/
theorem GraphTables.exists_path (hne : fromId ≠ toId) (hshort : n ≤ 10)
    (h : Distance db.Edge fromId toId n) :
    ∃ first ∈ db.firstPaths fromId, ∃ path,
      ReflTransGen (Follows db.longerPaths) first ⟨toId, path, n⟩ ∧
        ∀ a ∈ path, ∃ m ≤ n, RecursiveQuery.Walk db.Edge m fromId a := by
  induction n generalizing toId with
  | zero => exact absurd h.1 hne
  | succ n ih =>
    obtain ⟨middle, hmiddle, hlink⟩ := h.pred
    by_cases hstart : fromId = middle
    · subst hstart
      have hn : n = 0 := Nat.le_zero.mp (hmiddle.2 (rfl : RecursiveQuery.Walk db.Edge 0 _ _))
      subst hn
      obtain ⟨edge, hedge, rfl⟩ := exists_edgeFrom hlink
      refine ⟨_, mem_firstPaths.mpr ⟨edge, hedge, rfl⟩, _, .refl, ?_⟩
      intro a ha
      rcases List.mem_cons.mp ha with rfl | ha
      · exact ⟨0, Nat.zero_le _, rfl⟩
      · rw [List.mem_singleton.mp ha]
        exact ⟨1, le_rfl, h.1⟩
    · obtain ⟨first, hfirst, path, hpath, hnear⟩ := ih hstart (by omega) hmiddle
      obtain ⟨edge, hedge, rfl⟩ := exists_edgeFrom hlink
      have hnew : edge.targetNodeId ∉ path := by
        intro hmem
        obtain ⟨m, hm, hwalk⟩ := hnear _ hmem
        have hleast : n + 1 ≤ m := h.2 hwalk
        omega
      refine ⟨first, hfirst, _, hpath.tail (mem_longerPaths.mpr
        ⟨by simp only; omega, edge, hedge, hnew, rfl⟩), ?_⟩
      intro a ha
      rcases List.mem_append.mp ha with ha | ha
      · obtain ⟨m, hm, hwalk⟩ := hnear a ha
        exact ⟨m, by omega, hwalk⟩
      · rw [List.mem_singleton.mp ha]
        exact ⟨n + 1, le_rfl, h.1⟩

/-- A walk along stored nodes, as short as any. -/
structure GraphPath.Shortest (db : GraphTables Id) (fromId toId : Id) (path : GraphPath Id) :
    Prop where
  starts : (path.nodes.map NodeRow.id).head? = some fromId
  arrives : (path.nodes.map NodeRow.id).getLast? = some toId
  chain : (path.nodes.map NodeRow.id).IsChain db.Edge
  stored : ∀ node ∈ path.nodes, node ∈ db.nodes
  length : path.nodes.length = path.length + 1
  least : ∀ n, 1 ≤ n → RecursiveQuery.Walk db.Edge n fromId toId → path.length ≤ n

theorem GraphTables.map_fetchNode {ids : List Id}
    (h : ∀ a ∈ ids, ∃ node ∈ db.nodes, node.id = a) :
    (ids.filterMap db.fetchNode).map NodeRow.id = ids ∧
      ∀ node ∈ ids.filterMap db.fetchNode, node ∈ db.nodes := by
  constructor
  · induction ids with
    | nil => rfl
    | cons a ids ih =>
      obtain ⟨node, hnode, hid⟩ := h a List.mem_cons_self
      cases hfind : db.fetchNode a with
      | none =>
        have hnone := List.find?_eq_none.mp hfind node hnode
        simp [hid] at hnone
      | some found =>
        have hfound : found.id = a := by simpa using List.find?_some hfind
        rw [List.filterMap_cons_some hfind, List.map_cons, hfound,
          ih fun b hb => h b (List.mem_cons_of_mem _ hb)]
  · intro node hnode
    obtain ⟨a, -, hfind⟩ := List.mem_filterMap.mp hnode
    exact List.mem_of_find?_eq_some hfind

/-- A row for the target exists where a walk within reach does, and then one as short as any. -/
theorem GraphTables.exists_row (hpos : 1 ≤ n)
    (hwalk : RecursiveQuery.Walk db.Edge n fromId toId) (hreach : n ≤ reach fromId toId) :
    ∃ first ∈ db.firstPaths fromId, ∃ path depth, depth ≤ n ∧
      ReflTransGen (Follows db.longerPaths) first ⟨toId, path, depth⟩ := by
  unfold reach at hreach
  split at hreach
  · rename_i hsame
    obtain rfl : n = 1 := by omega
    obtain ⟨edge, hedge, rfl⟩ := exists_edgeFrom (RecursiveQuery.Walk.one_iff.mp hwalk)
    exact ⟨_, mem_firstPaths.mpr ⟨edge, hedge, rfl⟩, _, 1, le_rfl, .refl⟩
  · rename_i hne
    obtain ⟨m, hm, hdistance⟩ := hwalk.distance
    obtain ⟨first, hfirst, path, hpath, -⟩ := exists_path hne (hm.trans hreach) hdistance
    exact ⟨first, hfirst, path, m, hm, hpath⟩

/-- The path of a row is a shortest one if no walk within reach is shorter. -/
theorem PathRow.Valid.shortest {row : PathRow Id} (h : row.Valid db fromId)
    (hcurrent : row.currentId = toId)
    (hleast : ∀ n, 1 ≤ n → n ≤ reach fromId toId → RecursiveQuery.Walk db.Edge n fromId toId →
      row.depth ≤ n) :
    GraphPath.Shortest db fromId toId ⟨row.path.filterMap db.fetchNode, row.depth⟩ := by
  obtain ⟨hids, hstored⟩ := GraphTables.map_fetchNode h.stored
  refine ⟨?_, ?_, ?_, hstored, ?_, ?_⟩
  · rw [hids, h.starts]
  · rw [hids, h.arrives, hcurrent]
  · rw [hids]
    exact h.chain
  · rw [← List.length_map NodeRow.id, hids, h.length]
  · intro n hpos hwalk
    have hbound := h.depth_le hcurrent
    by_cases hreach : n ≤ reach fromId toId
    · exact hleast n hpos hreach hwalk
    · simp only
      omega

theorem GraphTables.unionAll_paths (db : GraphTables Id) (fromId : Id) (hfuel : 10 ≤ fuel) :
    ∃ rows, unionAll db.longerPaths fuel (db.firstPaths fromId) = some rows ∧
      ∀ row, row ∈ rows ↔ ∃ first ∈ db.firstPaths fromId,
        ReflTransGen (Follows db.longerPaths) first row := by
  apply unionAll_ends fun row : PathRow Id => 10 - row.depth
  · intro row next hnext
    obtain ⟨hless, edge, -, -, rfl⟩ := mem_longerPaths.mp hnext
    simp only
    omega
  · intro row hrow
    obtain ⟨edge, -, rfl⟩ := mem_firstPaths.mp hrow
    simp only
    omega

/-- The query ends with a path as short as any, where one is within reach. -/
theorem GraphTables.queryPath_ends (hdb : db.Sound)
    {order : List (PathRow Id) → List (PathRow Id)} (horder : ∀ rows, (order rows).Perm rows)
    (fromId toId : Id) (hfuel : 10 ≤ fuel) :
    ∃ answer, db.queryPath order fromId toId fuel = some answer ∧ answer.length ≤ 1 ∧
      (answer = [] ↔ ∀ n, 1 ≤ n → n ≤ reach fromId toId →
        ¬ RecursiveQuery.Walk db.Edge n fromId toId) ∧
      ∀ path ∈ answer, path.Shortest db fromId toId := by
  obtain ⟨rows, hrows, hmem⟩ := db.unionAll_paths fromId hfuel
  let found := rows.filter fun row => row.currentId == toId
  let sorted := (order found).mergeSort fun a b => a.depth ≤ b.depth
  have hfound : ∀ row, row ∈ sorted ↔ row ∈ rows ∧ row.currentId = toId := by
    intro row
    rw [List.mem_mergeSort, (horder found).mem_iff, List.mem_filter, beq_iff_eq]
  have hvalid : ∀ row ∈ sorted, row.Valid db fromId ∧ row.currentId = toId := by
    intro row hrow
    obtain ⟨hin, hcurrent⟩ := (hfound row).mp hrow
    obtain ⟨first, hstart, hpath⟩ := (hmem row).mp hin
    exact ⟨path_valid hdb hstart hpath, hcurrent⟩
  have hexists : ∀ n, 1 ≤ n → n ≤ reach fromId toId →
      RecursiveQuery.Walk db.Edge n fromId toId → ∃ row ∈ sorted, row.depth ≤ n := by
    intro n hpos hreach hwalk
    obtain ⟨first, hstart, path, depth, hdepth, hpath⟩ := exists_row hpos hwalk hreach
    exact ⟨_, (hfound _).mpr ⟨(hmem _).mpr ⟨first, hstart, hpath⟩, rfl⟩, hdepth⟩
  have hsorted : sorted.Pairwise fun a b => decide (a.depth ≤ b.depth) = true :=
    List.pairwise_mergeSort (fun a b c hab hbc => by
      simp only [decide_eq_true_eq] at *
      omega) (fun a b => by
      simp only [Bool.or_eq_true, decide_eq_true_eq]
      omega) _
  refine ⟨_, by rw [queryPath, hrows]; rfl, ?_, ?_, ?_⟩
  · rw [List.length_map]
    exact List.length_take_le ..
  · change (sorted.take 1).map _ = [] ↔ _
    constructor
    · intro hnone n hpos hreach hwalk
      obtain ⟨row, hrow, -⟩ := hexists n hpos hreach hwalk
      cases hsorted' : sorted with
      | nil => exact absurd hrow (by rw [hsorted']; exact List.not_mem_nil)
      | cons row rest => simp [hsorted'] at hnone
    · intro hnone
      cases hsorted' : sorted with
      | nil => rfl
      | cons row rest =>
        obtain ⟨hrow, hcurrent⟩ := hvalid row (by rw [hsorted']; exact List.mem_cons_self)
        exact absurd (hcurrent ▸ hrow.walk) (hnone row.depth hrow.positive (hrow.depth_le hcurrent))
  · intro path hpath
    change path ∈ (sorted.take 1).map _ at hpath
    cases hsorted' : sorted with
    | nil => simp [hsorted'] at hpath
    | cons row rest =>
      obtain ⟨hrow, hcurrent⟩ := hvalid row (by rw [hsorted']; exact List.mem_cons_self)
      simp only [hsorted', List.take_succ_cons, List.take_zero, List.map_cons, List.map_nil,
        List.mem_singleton] at hpath
      subst hpath
      refine hrow.shortest hcurrent fun n hpos hreach hwalk => ?_
      obtain ⟨other, hother, hdepth⟩ := hexists n hpos hreach hwalk
      rw [hsorted'] at hother hsorted
      rcases List.mem_cons.mp hother with rfl | hother
      · exact hdepth
      · have hle := (List.pairwise_cons.mp hsorted).1 other hother
        exact (of_decide_eq_true hle).trans hdepth

end Synthetos.Analysis
