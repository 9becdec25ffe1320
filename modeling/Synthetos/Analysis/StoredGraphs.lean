import Synthetos.Analysis.OnePass
import Synthetos.Analysis.Derivation
import Synthetos.Analysis.GraphQueries

/-!
# The graphs of all sessions in two tables

The edges of a graph join its own nodes, so a query from one of them sees the rows of that graph
only.
-/

namespace Synthetos.Analysis

open Synthetos.Core Lib Storage RecursiveQuery

variable {Id : Type}

def NodeRow.map {Id' : Type} (f : Id → Id') (node : NodeRow Id) : NodeRow Id' :=
  ⟨f node.id, node.label, node.nodeType, node.properties⟩

def EdgeRow.map {Id' : Type} (f : Id → Id') (edge : EdgeRow Id) : EdgeRow Id' :=
  ⟨f edge.sourceNodeId, f edge.targetNodeId, edge.edgeType⟩

def GraphPath.map {Id' : Type} (f : Id → Id') (path : GraphPath Id) : GraphPath Id' :=
  ⟨path.nodes.map (NodeRow.map f), path.length⟩

/-- The rows of one graph. -/
def Graph.tables (graph : Graph) : GraphTables Nat where
  nodes := graph.nodes.map fun node => ⟨node.id, node.label, node.nodeType, node.properties⟩
  edges := graph.edges.map fun edge => ⟨edge.sourceNodeId, edge.targetNodeId, edge.edgeType⟩

/-- A node by its session, its graph there and its place in the graph. -/
abbrev StoredId := SessionId × Nat × Nat

def storedId (s : SessionId) (k : Nat) (id : Nat) : StoredId := (s, k, id)

/-- All stored graphs with what their ids begin with. -/
def AnalysisDb.storedGraphs (db : AnalysisDb) : List ((SessionId × Nat) × Graph) :=
  db.sessions.zipIdx.flatMap fun entry =>
    entry.1.content.graphs.zipIdx.map fun graph => ((entry.2, graph.2), graph.1)

def AnalysisDb.graphTables (db : AnalysisDb) : GraphTables StoredId where
  nodes := db.storedGraphs.flatMap fun entry =>
    entry.2.tables.nodes.map (NodeRow.map (storedId entry.1.1 entry.1.2))
  edges := db.storedGraphs.flatMap fun entry =>
    entry.2.tables.edges.map (EdgeRow.map (storedId entry.1.1 entry.1.2))

/-- The graph is the session's `k`-th. -/
def AnalysisDb.HasGraph (db : AnalysisDb) (s : SessionId) (k : Nat) (graph : Graph) : Prop :=
  ∃ rows, db.sessions[s]? = some rows ∧ rows.content.graphs[k]? = some graph

theorem storedId_inj {s t : SessionId} {k l a b : Nat} (h : storedId s k a = storedId t l b) :
    s = t ∧ k = l ∧ a = b := by
  obtain ⟨rfl, hrest⟩ := Prod.mk.inj h
  obtain ⟨rfl, rfl⟩ := Prod.mk.inj hrest
  exact ⟨rfl, rfl, rfl⟩

section Stored

variable {db : AnalysisDb} {s : SessionId} {k a : Nat} {graph : Graph}

theorem mem_storedGraphs {entry : (SessionId × Nat) × Graph} :
    entry ∈ db.storedGraphs ↔ db.HasGraph entry.1.1 entry.1.2 entry.2 := by
  simp only [AnalysisDb.storedGraphs, AnalysisDb.HasGraph, List.mem_flatMap, List.mem_map]
  constructor
  · rintro ⟨⟨rows, s⟩, hrows, ⟨graph, k⟩, hgraph, rfl⟩
    exact ⟨rows, List.mk_mem_zipIdx_iff_getElem?.mp hrows,
      List.mk_mem_zipIdx_iff_getElem?.mp hgraph⟩
  · rintro ⟨rows, hrows, hgraph⟩
    exact ⟨(rows, entry.1.1), List.mk_mem_zipIdx_iff_getElem?.mpr hrows, (entry.2, entry.1.2),
      List.mk_mem_zipIdx_iff_getElem?.mpr hgraph, rfl⟩

theorem mem_graphNodes {node : NodeRow StoredId} : node ∈ db.graphTables.nodes ↔
    ∃ s k graph, db.HasGraph s k graph ∧ ∃ inner ∈ graph.tables.nodes,
      inner.map (storedId s k) = node := by
  simp only [AnalysisDb.graphTables, List.mem_flatMap, List.mem_map, Prod.exists, mem_storedGraphs]

theorem mem_graphEdges {edge : EdgeRow StoredId} : edge ∈ db.graphTables.edges ↔
    ∃ s k graph, db.HasGraph s k graph ∧ ∃ inner ∈ graph.tables.edges,
      inner.map (storedId s k) = edge := by
  simp only [AnalysisDb.graphTables, List.mem_flatMap, List.mem_map, Prod.exists, mem_storedGraphs]

theorem AnalysisDb.HasGraph.unique {graph' : Graph} (h : db.HasGraph s k graph)
    (h' : db.HasGraph s k graph') : graph = graph' := by
  obtain ⟨rows, hrows, hgraph⟩ := h
  obtain ⟨rows', hrows', hgraph'⟩ := h'
  cases hrows.symm.trans hrows'
  exact Option.some.inj (hgraph.symm.trans hgraph')

theorem link_iff (h : db.HasGraph s k graph) (edgeLabels : Option (List (List Char))) (a : Nat)
    (b : StoredId) : db.graphTables.Link edgeLabels (storedId s k a) b ↔
      ∃ a', storedId s k a' = b ∧ graph.tables.Link edgeLabels a a' := by
  constructor
  · rintro ⟨edge, hedge, hsource, rfl, hfilter⟩
    obtain ⟨t, l, graph', hgraph', inner, hinner, rfl⟩ := mem_graphEdges.mp hedge
    obtain ⟨rfl, rfl, rfl⟩ := storedId_inj hsource
    cases hgraph'.unique h
    exact ⟨inner.targetNodeId, rfl, inner, hinner, rfl, rfl, hfilter⟩
  · rintro ⟨b, rfl, inner, hinner, rfl, rfl, hfilter⟩
    exact ⟨inner.map (storedId s k), mem_graphEdges.mpr ⟨s, k, graph, h, inner, hinner, rfl⟩,
      rfl, rfl, hfilter⟩

theorem node_of_id (h : db.HasGraph s k graph) {node : NodeRow StoredId}
    (hnode : node ∈ db.graphTables.nodes) (hid : node.id = storedId s k a) :
    ∃ inner ∈ graph.tables.nodes, inner.id = a ∧ inner.map (storedId s k) = node := by
  obtain ⟨t, l, graph', hgraph', inner, hinner, rfl⟩ := mem_graphNodes.mp hnode
  obtain ⟨rfl, rfl, rfl⟩ := storedId_inj hid
  cases hgraph'.unique h
  exact ⟨inner, hinner, rfl, rfl⟩

theorem neighbors_iff (h : db.HasGraph s k graph) {edgeLabels : Option (List (List Char))}
    {maxDepth : Int} {node : NodeRow StoredId} :
    db.graphTables.Neighbors edgeLabels (storedId s k a) maxDepth node ↔
      ∃ inner, graph.tables.Neighbors edgeLabels a maxDepth inner ∧
        inner.map (storedId s k) = node := by
  constructor
  · rintro ⟨hnode, n, hpos, hbound, hwalk⟩
    obtain ⟨b, hid, hinner⟩ := (RecursiveQuery.Walk.image (link_iff h edgeLabels)).mp hwalk
    obtain ⟨inner, hmem, rfl, rfl⟩ := node_of_id h hnode hid.symm
    exact ⟨inner, ⟨hmem, n, hpos, hbound, hinner⟩, rfl⟩
  · rintro ⟨inner, ⟨hmem, n, hpos, hbound, hwalk⟩, rfl⟩
    exact ⟨mem_graphNodes.mpr ⟨s, k, graph, h, inner, hmem, rfl⟩, n, hpos, hbound,
      (RecursiveQuery.Walk.image (link_iff h edgeLabels)).mpr ⟨inner.id, rfl, hwalk⟩⟩

theorem nodes_of_ids (h : db.HasGraph s k graph) {nodes : List (NodeRow StoredId)} {ids : List Nat}
    (hnodes : ∀ node ∈ nodes, node ∈ db.graphTables.nodes)
    (hids : nodes.map NodeRow.id = ids.map (storedId s k)) :
    ∃ inner : List (NodeRow Nat), inner.map NodeRow.id = ids ∧
      inner.map (NodeRow.map (storedId s k)) = nodes ∧ ∀ node ∈ inner, node ∈ graph.tables.nodes := by
  induction nodes generalizing ids with
  | nil =>
    rw [List.map_nil, eq_comm, List.map_eq_nil_iff] at hids
    exact ⟨[], hids.symm, rfl, nofun⟩
  | cons node nodes ih =>
    cases ids with
    | nil => exact absurd hids (by simp)
    | cons b ids =>
      obtain ⟨hid, hrest⟩ := List.cons.inj hids
      obtain ⟨inner, rfl, rfl, hinner⟩ :=
        ih (fun node hnode => hnodes node (List.mem_cons_of_mem _ hnode)) hrest
      obtain ⟨first, hfirst, rfl, rfl⟩ := node_of_id h (hnodes node List.mem_cons_self) hid
      exact ⟨first :: inner, rfl, rfl, List.forall_mem_cons.mpr ⟨hfirst, hinner⟩⟩

theorem shortest_inner (h : db.HasGraph s k graph) {toId : StoredId} {path : GraphPath StoredId}
    (hpath : path.Shortest db.graphTables (storedId s k a) toId) :
    ∃ (b : Nat) (inner : GraphPath Nat), storedId s k b = toId ∧ inner.map (storedId s k) = path ∧
      inner.Shortest graph.tables a b := by
  have hlinks := link_iff h none
  obtain ⟨nodes, length⟩ := path
  cases hnodes : nodes with
  | nil => exact absurd hpath.starts (by simp [hnodes])
  | cons first rest =>
    subst hnodes
    have hfirst : first.id = storedId s k a := Option.some.inj hpath.starts
    have hchain := hpath.chain
    rw [List.map_cons, hfirst] at hchain
    obtain ⟨ids, hids, hinner⟩ := chain_image hlinks hchain
    have hall : ((first :: rest).map NodeRow.id) = (a :: ids).map (storedId s k) := by
      rw [List.map_cons, List.map_cons, hfirst, hids]
    obtain ⟨inner, hinnerIds, hinnerMap, hinnerIn⟩ :=
      nodes_of_ids h hpath.stored hall
    have harrives := hpath.arrives
    simp only [hall, List.getLast?_map] at harrives
    obtain ⟨b, hlast, hb⟩ := Option.map_eq_some_iff.mp harrives
    refine ⟨b, ⟨inner, length⟩, hb, ?_, ?_, ?_, ?_, hinnerIn, ?_, ?_⟩
    · rw [GraphPath.map, hinnerMap]
    · rw [hinnerIds]
      rfl
    · rw [hinnerIds, hlast]
    · rw [hinnerIds]
      exact hinner
    · rw [← hpath.length, ← hinnerMap, List.length_map]
    · intro n hpos hwalk
      exact hpath.least n hpos ((RecursiveQuery.Walk.image hlinks).mpr ⟨b, hb, hwalk⟩)

end Stored

/-! ### Extracted graphs -/

theorem sound_extractGraph (results : Completions) : (extractGraph results).tables.Sound := by
  have hnode (label : List Char) (node : GraphNode)
      (hfind : findNode (nodesByLabel results) label = some node) :
      node ∈ (extractGraph results).nodes := by
    rw [findNode_eq, Option.bind_eq_some_iff] at hfind
    obtain ⟨nodeType, -, hlookup⟩ := hfind
    exact mem_nodes_iff.mpr ⟨_, hlookup⟩
  have hends (edge : GraphEdge) (hedge : edge ∈ (extractGraph results).edges) :
      (∃ node ∈ (extractGraph results).nodes, node.id = edge.sourceNodeId) ∧
        ∃ node ∈ (extractGraph results).nodes, node.id = edge.targetNodeId := by
    obtain ⟨extracted, -, hpersisted⟩ := List.mem_filterMap.mp hedge
    unfold persistEdge at hpersisted
    split at hpersisted
    · rename_i source target hsource htarget
      cases hpersisted
      exact ⟨⟨source, hnode _ _ hsource, rfl⟩, target, hnode _ _ htarget, rfl⟩
    · cases hpersisted
  constructor
  case keyed =>
    have hkeys : ((nodesByLabel results).map Prod.fst).Nodup := by
      rw [nodesByLabel, Collect.keys_collect]
      exact Distinct.nodup_eraseDups _
    have hids : (extractGraph results).tables.nodes.map NodeRow.id =
        (nodesByLabel results).map fun entry => entry.2.id := by
      simp [Graph.tables, extractGraph, Function.comp_def]
    rw [hids]
    refine List.pairwise_map.mpr ((List.pairwise_map.mp hkeys).imp_of_mem ?_)
    intro entry other hentry hother hne hid
    exact hne (key_eq_of_id ((Entries.mem_iff_lookup hkeys).mp hentry)
      ((Entries.mem_iff_lookup hkeys).mp hother) hid)
  case sources =>
    intro row hrow
    obtain ⟨edge, hedge, rfl⟩ := List.mem_map.mp hrow
    obtain ⟨node, hnode, hid⟩ := (hends edge hedge).1
    exact ⟨_, List.mem_map_of_mem hnode, hid⟩
  case targets =>
    intro row hrow
    obtain ⟨edge, hedge, rfl⟩ := List.mem_map.mp hrow
    obtain ⟨node, hnode, hid⟩ := (hends edge hedge).2
    exact ⟨_, List.mem_map_of_mem hnode, hid⟩

theorem stored_tables_sound {graph : Graph} (h : graph.tables.Sound) :
    graph.stored.tables.Sound := by
  have hids : graph.stored.tables.nodes.map NodeRow.id = graph.tables.nodes.map NodeRow.id := by
    simp [Graph.tables, Graph.stored, Function.comp_def]
  have hnode (id : Nat) (hid : id ∈ graph.tables.nodes.map NodeRow.id) :
      ∃ node ∈ graph.stored.tables.nodes, node.id = id := by
    rw [← hids] at hid
    exact List.mem_map.mp hid
  have hedge (edge : EdgeRow Nat) (hedge : edge ∈ graph.stored.tables.edges) :
      ∃ old ∈ graph.tables.edges, old.sourceNodeId = edge.sourceNodeId ∧
        old.targetNodeId = edge.targetNodeId := by
    simp only [Graph.tables, Graph.stored, List.map_map, List.mem_map] at hedge
    obtain ⟨row, hrow, rfl⟩ := hedge
    exact ⟨_, List.mem_map_of_mem hrow, rfl, rfl⟩
  constructor
  case keyed => rw [hids]; exact h.keyed
  case sources =>
    intro edge hmem
    obtain ⟨old, hold, hsource, -⟩ := hedge edge hmem
    obtain ⟨node, hnodes, hid⟩ := h.sources old hold
    exact hnode _ (List.mem_map.mpr ⟨node, hnodes, hid.trans hsource⟩)
  case targets =>
    intro edge hmem
    obtain ⟨old, hold, -, htarget⟩ := hedge edge hmem
    obtain ⟨node, hnodes, hid⟩ := h.targets old hold
    exact hnode _ (List.mem_map.mpr ⟨node, hnodes, hid.trans htarget⟩)

theorem pairwise_zipIdx {α : Type} (l : List α) : l.zipIdx.Pairwise fun a b => a.2 ≠ b.2 := by
  have hplaces : (l.zipIdx.map Prod.snd).Nodup := by
    rw [List.zipIdx_map_snd]
    exact List.nodup_range'
  exact List.pairwise_map.mp hplaces

theorem pairwise_storedGraphs (db : AnalysisDb) :
    db.storedGraphs.Pairwise fun a b => a.1 ≠ b.1 := by
  refine List.pairwise_flatMap.mpr ⟨fun entry _ => ?_, (pairwise_zipIdx _).imp ?_⟩
  · refine List.pairwise_map.mpr ((pairwise_zipIdx _).imp ?_)
    intro graph other hne hsame
    exact hne (Prod.mk.inj hsame).2
  · intro entry other hne a ha b hb hsame
    obtain ⟨graph, -, rfl⟩ := List.mem_map.mp ha
    obtain ⟨graph', -, rfl⟩ := List.mem_map.mp hb
    exact hne (Prod.mk.inj hsame).1

theorem sound_graphTables {db : AnalysisDb}
    (h : ∀ s k graph, db.HasGraph s k graph → graph.tables.Sound) : db.graphTables.Sound := by
  constructor
  case keyed =>
    rw [AnalysisDb.graphTables, List.map_flatMap]
    refine List.pairwise_flatMap.mpr ⟨fun entry hentry => ?_, (pairwise_storedGraphs db).imp ?_⟩
    · rw [List.map_map]
      refine List.pairwise_map.mpr ((List.pairwise_map.mp
        (h _ _ _ (mem_storedGraphs.mp hentry)).keyed).imp ?_)
      intro node other hne hid
      exact hne (storedId_inj hid).2.2
    · intro entry other hne a ha b hb hsame
      rw [List.map_map] at ha hb
      obtain ⟨node, -, rfl⟩ := List.mem_map.mp ha
      obtain ⟨node', -, hid⟩ := List.mem_map.mp hb
      obtain ⟨hs, hk, -⟩ := storedId_inj (hid.trans hsame.symm)
      exact hne (Prod.ext hs.symm hk.symm)
  case sources =>
    intro edge hedge
    obtain ⟨s, k, graph, hgraph, inner, hinner, rfl⟩ := mem_graphEdges.mp hedge
    obtain ⟨node, hnode, hid⟩ := (h s k graph hgraph).sources inner hinner
    exact ⟨_, mem_graphNodes.mpr ⟨s, k, graph, hgraph, node, hnode, rfl⟩,
      congrArg (storedId s k) hid⟩
  case targets =>
    intro edge hedge
    obtain ⟨s, k, graph, hgraph, inner, hinner, rfl⟩ := mem_graphEdges.mp hedge
    obtain ⟨node, hnode, hid⟩ := (h s k graph hgraph).targets inner hinner
    exact ⟨_, mem_graphNodes.mpr ⟨s, k, graph, hgraph, node, hnode, rfl⟩,
      congrArg (storedId s k) hid⟩

variable {settings : Settings} {start sys : System} {s : SessionId} {k : Nat} {graph : Graph}

theorem sound_run (h₀ : start.Initial)
    (h : Reaches Unguarded (System.step settings) start sys) : sys.store.graphTables.Sound := by
  refine sound_graphTables fun s k graph ⟨rows, hrows, hgraph⟩ => ?_
  have hfiled := (allFiled_run h₀ h).sessions s rows hrows
  obtain ⟨answers, chunks, -, rfl⟩ :=
    hfiled.derived.graphs graph (List.mem_of_getElem? hgraph)
  exact stored_tables_sound (sound_extractGraph _)

/-! ### Queries from a stored node -/

/-- In every reachable state the query for neighbours, over the rows of all sessions, ends with the
nodes of the same graph within reach. -/
theorem neighbors_stay_in_graph {settings : Settings} {start sys : System} {s : SessionId}
    {k fuel : Nat} {graph : Graph} {maxDepth : Int} (h₀ : start.Initial)
    (h : Reaches Unguarded (System.step settings) start sys) (hgraph : sys.store.HasGraph s k graph)
    (a : Nat) (edgeLabels : Option (List (List Char))) (hfuel : maxDepth.toNat + 2 ≤ fuel) :
    ∃ nodes, sys.store.graphTables.queryNeighbors edgeLabels (storedId s k a) maxDepth fuel =
        some nodes ∧
      (nodes.map NodeRow.id).Nodup ∧
      ∀ node, node ∈ nodes ↔ ∃ inner, graph.tables.Neighbors edgeLabels a maxDepth inner ∧
        inner.map (storedId s k) = node := by
  obtain ⟨nodes, hnodes, hdistinct, hmem⟩ :=
    GraphTables.queryNeighbors_ends (sound_run h₀ h) edgeLabels (storedId s k a) hfuel
  exact ⟨nodes, hnodes, hdistinct, fun node => (hmem node).trans (neighbors_iff hgraph)⟩

/-- A concept that defines another, read from the first chunk. -/
def definition : ChunkExtractionResult where
  nodes := [⟨"concept".toList, "regret".toList, none, .obj []⟩,
    ⟨"concept".toList, "loss".toList, none, .obj []⟩]
  edges := [⟨"regret".toList, "loss".toList, "defines".toList, .obj [], 1⟩]

def definitionRead : Answers := ⟨[(0, definition)], List.nodup_singleton 0⟩

def extractDefinition : List Act :=
  [.runtime (.receive 0 (.startAnalysis 0)), .start 0 ⟨0, 0, some "shortlisted", .usual⟩] ++
    workOn { html := .ok shortPaper } ++ workOn {} ++
    workOn { answers := definitionRead }

def hasOneGraph (sys : System) : Bool :=
  sys.store.sessions[0]?.any fun rows =>
    match rows.content.graphs with
    | [graph] => (graph.edges.map fun edge => (edge.sourceNodeId, edge.targetNodeId)) == [(0, 1)]
    | _ => false

theorem extractDefinition_runs : ∃ sys, Reaches Unguarded (System.step {}) screenedCycle sys ∧
    ∃ graph, sys.store.HasGraph 0 0 graph ∧ graph.tables.Edge 0 1 := by
  have hperform : (perform (fun _ _ => true) (System.step {}) screenedCycle extractDefinition).any
      hasOneGraph = true := by decide +kernel
  obtain ⟨sys, hrun, htest⟩ := Reaches.of_perform_all hperform
  obtain ⟨rows, hrows, hgraphs⟩ := (Option.any_eq_true _ _).mp htest
  split at hgraphs
  · rename_i graph hgraph
    refine ⟨sys, hrun, graph, ⟨rows, hrows, by rw [hgraph]; rfl⟩, ?_⟩
    have hends := beq_iff_eq.mp hgraphs
    obtain ⟨edge, hedge, hedgeEnds⟩ : ∃ edge ∈ graph.edges,
        (edge.sourceNodeId, edge.targetNodeId) = (0, 1) := by
      rw [← List.mem_map, hends]
      exact List.mem_singleton_self _
    obtain ⟨hsource, htarget⟩ := Prod.mk.inj hedgeEnds
    exact ⟨_, List.mem_map_of_mem hedge, hsource, htarget, rfl⟩
  · exact absurd hgraphs nofun

theorem neighbors_stay_in_graph_definition : ∃ (start sys : System) (graph : Graph),
    start.Initial ∧ Reaches Unguarded (System.step {}) start sys ∧ sys.store.HasGraph 0 0 graph ∧
      graph.tables.Edge 0 1 ∧
      ∃ nodes, sys.store.graphTables.queryNeighbors none (storedId 0 0 0) 2 4 = some nodes ∧
        (nodes.map NodeRow.id).Nodup ∧
        ∀ node, node ∈ nodes ↔ ∃ inner, graph.tables.Neighbors none 0 2 inner ∧
          inner.map (storedId 0 0) = node := by
  obtain ⟨sys, hrun, graph, hgraph, hedge⟩ := extractDefinition_runs
  exact ⟨screenedCycle, sys, graph, screenedCycle_initial, hrun, hgraph, hedge,
    neighbors_stay_in_graph screenedCycle_initial hrun hgraph 0 none (by decide)⟩

/-- In every reachable state the query for a path ends with a shortest path within the graph, if
one of at most ten edges leads to the target, and with nothing if none does. -/
theorem paths_stay_in_graph {settings : Settings} {start sys : System} {s : SessionId}
    {k fuel : Nat} {graph : Graph} {order : List (PathRow StoredId) → List (PathRow StoredId)}
    (h₀ : start.Initial) (h : Reaches Unguarded (System.step settings) start sys)
    (hgraph : sys.store.HasGraph s k graph) (horder : ∀ rows, (order rows).Perm rows) (a : Nat)
    (toId : StoredId) (hfuel : 10 ≤ fuel) :
    ∃ answer, sys.store.graphTables.queryPath order (storedId s k a) toId fuel = some answer ∧
      answer.length ≤ 1 ∧
      (answer = [] ↔ ∀ b n, storedId s k b = toId → 1 ≤ n → n ≤ reach a b →
        ¬ RecursiveQuery.Walk graph.tables.Edge n a b) ∧
      ∀ path ∈ answer, ∃ (b : Nat) (inner : GraphPath Nat), storedId s k b = toId ∧
        inner.map (storedId s k) = path ∧ inner.Shortest graph.tables a b := by
  obtain ⟨answer, hanswer, hone, hnone, hpaths⟩ :=
    GraphTables.queryPath_ends (sound_run h₀ h) horder (storedId s k a) toId hfuel
  refine ⟨answer, hanswer, hone, hnone.trans ?_, fun path hpath =>
    shortest_inner hgraph (hpaths path hpath)⟩
  have hreach : ∀ b, reach (storedId s k a) (storedId s k b) = reach a b := by
    intro b
    simp [reach, storedId]
  constructor
  · rintro hno b n rfl hpos hle hwalk
    exact hno n hpos (by rwa [hreach])
      ((RecursiveQuery.Walk.image (link_iff hgraph none)).mpr ⟨b, rfl, hwalk⟩)
  · intro hno n hpos hle hwalk
    obtain ⟨b, rfl, hinner⟩ := (RecursiveQuery.Walk.image (link_iff hgraph none)).mp hwalk
    exact hno b n rfl hpos (by rwa [hreach] at hle) hinner

theorem paths_stay_in_graph_definition : ∃ (start sys : System) (graph : Graph),
    start.Initial ∧ Reaches Unguarded (System.step {}) start sys ∧ sys.store.HasGraph 0 0 graph ∧
      graph.tables.Edge 0 1 ∧
      ∃ answer, sys.store.graphTables.queryPath id (storedId 0 0 0) (storedId 0 0 1) 10 =
          some answer ∧ answer.length ≤ 1 ∧
        (answer = [] ↔ ∀ b n, storedId 0 0 b = storedId 0 0 1 → 1 ≤ n → n ≤ reach 0 b →
          ¬ RecursiveQuery.Walk graph.tables.Edge n 0 b) ∧
        ∀ path ∈ answer, ∃ (b : Nat) (inner : GraphPath Nat), storedId 0 0 b = storedId 0 0 1 ∧
          inner.map (storedId 0 0) = path ∧ inner.Shortest graph.tables 0 b := by
  obtain ⟨sys, hrun, graph, hgraph, hedge⟩ := extractDefinition_runs
  exact ⟨screenedCycle, sys, graph, screenedCycle_initial, hrun, hgraph, hedge,
    paths_stay_in_graph screenedCycle_initial hrun hgraph (fun rows => List.Perm.refl rows) 0 _
      le_rfl⟩

end Synthetos.Analysis
