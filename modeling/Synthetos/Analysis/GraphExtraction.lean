import Synthetos.Analysis.Chunking
import Synthetos.Lib.Collect
import Synthetos.Lib.Json
import Mathlib.Data.List.Nodup

/-!
# Graph extraction

The chunks are read by a model at once, and their results come in any order.  Nodes are collected
under a text composed of type and label; edges are resolved by label over nine types of node.
-/

namespace Synthetos.Analysis

open Lib

abbrev Name := List Char × List Char

structure ExtractedNode where
  nodeType : List Char
  label : List Char
  description : Option (List Char) := none
  properties : Json := .obj []

structure ExtractedEdge where
  sourceLabel : List Char
  targetLabel : List Char
  edgeType : List Char
  properties : Json := .obj []
  confidence : Rat := 4 / 5

structure ChunkExtractionResult where
  nodes : List ExtractedNode := []
  edges : List ExtractedEdge := []

/-- The results of the chunks that did not fail, in the order they finished. -/
abbrev Completions := List (PaperChunk × ChunkExtractionResult)

structure GraphNode where
  id : Nat
  nodeType : List Char
  label : List Char
  description : Option (List Char)
  properties : Json
  sourceChunkIds : List Nat

structure GraphEdge where
  sourceNodeId : Nat
  targetNodeId : Nat
  edgeType : List Char
  properties : Json
  confidence : Rat

/-- `f"{node_type}::{label}"` -/
def nodeKey (name : Name) : List Char := name.1 ++ "::".toList ++ name.2

def ExtractedNode.name (node : ExtractedNode) : Name := (node.nodeType, node.label)

def GraphNode.name (node : GraphNode) : Name := (node.nodeType, node.label)

/-- The nodes extracted, each with the id of its chunk, in the order of the loops. -/
def extracted (results : Completions) : List (Nat × ExtractedNode) :=
  results.flatMap fun result => result.2.nodes.map fun node => (result.1.id, node)

def extractedEdges (results : Completions) : List ExtractedEdge :=
  results.flatMap fun result => result.2.edges

/-- The row made for an extracted node, where its key is new.  Its id is that of no other row. -/
def newNode (entry : (Nat × ExtractedNode) × Nat) : GraphNode where
  id := entry.2
  nodeType := entry.1.2.nodeType
  label := entry.1.2.label
  description := entry.1.2.description
  properties := entry.1.2.properties
  sourceChunkIds := [entry.1.1]

/-- Merge provenance: add this chunk as an additional source. -/
def mergeProvenance (existing node : GraphNode) : GraphNode :=
  { existing with sourceChunkIds := existing.sourceChunkIds ++ node.sourceChunkIds }

/-- `nodes_by_label`, in the order of insertion. -/
def nodesByLabel (results : Completions) : List (List Char × GraphNode) :=
  Collect.collect (fun node => nodeKey node.name) mergeProvenance
    ((extracted results).zipIdx.map newNode)

def nodeTypes : List (List Char) :=
  ["concept".toList, "method".toList, "experiment".toList, "dataset".toList, "figure".toList,
    "table".toList, "equation".toList, "section".toList, "paper".toList]

def findNode (byLabel : List (List Char × GraphNode)) (label : List Char) : Option GraphNode :=
  nodeTypes.findSome? fun nodeType => byLabel.lookup (nodeKey (nodeType, label))

def persistEdge (byLabel : List (List Char × GraphNode)) (edge : ExtractedEdge) :
    Option GraphEdge :=
  match findNode byLabel edge.sourceLabel, findNode byLabel edge.targetLabel with
  | some source, some target =>
    some ⟨source.id, target.id, edge.edgeType, edge.properties, edge.confidence⟩
  | _, _ => none

structure Graph where
  nodes : List GraphNode
  edges : List GraphEdge

def extractGraph (results : Completions) : Graph where
  nodes := (nodesByLabel results).map Prod.snd
  edges := (extractedEdges results).filterMap (persistEdge (nodesByLabel results))

/-! ### What a graph says -/

/-- The type and the label of the node with an id. -/
def Graph.nameOf (graph : Graph) (id : Nat) : Option Name :=
  (graph.nodes.find? fun node => node.id == id).map GraphNode.name

/-- An edge by the names of its nodes. -/
structure Link where
  source : Option Name
  target : Option Name
  edgeType : List Char
  properties : Json
  confidence : Rat

def Graph.link (graph : Graph) (edge : GraphEdge) : Link where
  source := graph.nameOf edge.sourceNodeId
  target := graph.nameOf edge.targetNodeId
  edgeType := edge.edgeType
  properties := edge.properties
  confidence := edge.confidence

/-- The same nodes by name, each from the same chunks, and the same edges between them. -/
structure SameGraph (graph graph' : Graph) : Prop where
  nodes : ∀ name, name ∈ graph.nodes.map GraphNode.name ↔ name ∈ graph'.nodes.map GraphNode.name
  provenance : ∀ node ∈ graph.nodes, ∀ node' ∈ graph'.nodes, node.name = node'.name →
    ∀ chunkId, chunkId ∈ node.sourceChunkIds ↔ chunkId ∈ node'.sourceChunkIds
  edges : (graph.edges.map graph.link).Perm (graph'.edges.map graph'.link)

def Names (results : Completions) (label : List Char) : Prop :=
  ∃ entry ∈ extracted results, entry.2.label = label

/-- The graph does not depend on the order of the results, nodes are merged by name, and edges
between named nodes are kept. -/
structure Faithful (results : Completions) : Prop where
  anyOrder : ∀ results', results'.Perm results →
    SameGraph (extractGraph results') (extractGraph results)
  merged : ∀ a ∈ extracted results, ∀ b ∈ extracted results,
    (nodesByLabel results).lookup (nodeKey a.2.name) =
        (nodesByLabel results).lookup (nodeKey b.2.name) ↔ a.2.name = b.2.name
  kept : ∀ edge ∈ extractedEdges results, Names results edge.sourceLabel →
    Names results edge.targetLabel →
    ∃ persisted, persistEdge (nodesByLabel results) edge = some persisted ∧
      ((extractGraph results).nameOf persisted.sourceNodeId).map Prod.snd =
        some edge.sourceLabel ∧
      ((extractGraph results).nameOf persisted.targetNodeId).map Prod.snd =
        some edge.targetLabel

/-- Extracted nodes of one key have one name. -/
def KeysTell (results : Completions) : Prop :=
  ∀ a ∈ extracted results, ∀ b ∈ extracted results,
    nodeKey a.2.name = nodeKey b.2.name → a.2.name = b.2.name

/-- The first of the nine types whose key with the label is that of an extracted node. -/
def firstType (results : Completions) (label : List Char) : Option (List Char) :=
  nodeTypes.find? fun nodeType =>
    (extracted results).any fun entry => nodeKey entry.2.name == nodeKey (nodeType, label)

/-- That type is the type of an extracted node with the label. -/
def Resolves (results : Completions) (label : List Char) : Prop :=
  ∃ nodeType, firstType results label = some nodeType ∧
    ∃ entry ∈ extracted results, entry.2.name = (nodeType, label)

def LabelsResolve (results : Completions) : Prop :=
  ∀ edge ∈ extractedEdges results, Names results edge.sourceLabel →
    Names results edge.targetLabel →
    Resolves results edge.sourceLabel ∧ Resolves results edge.targetLabel

variable {results results' : Completions} {node node' : GraphNode} {name : Name}
  {items : List GraphNode} {key label : List Char} {edge : ExtractedEdge}

/-! ### The nodes under their keys -/

def itemsOf (results : Completions) : List GraphNode := (extracted results).zipIdx.map newNode

theorem foldl_mergeProvenance (rest : List GraphNode) (first : GraphNode) :
    rest.foldl mergeProvenance first =
      { first with
        sourceChunkIds := first.sourceChunkIds ++ rest.flatMap GraphNode.sourceChunkIds } := by
  induction rest generalizing first with
  | nil => simp
  | cons node rest ih => simp [ih, mergeProvenance]

theorem lookup_eq_some_iff : (nodesByLabel results).lookup key = some node ↔
    ∃ first rest, ((itemsOf results).filter fun item => nodeKey item.name == key) = first :: rest ∧
      node = { first with
        sourceChunkIds := (first :: rest).flatMap GraphNode.sourceChunkIds } := by
  rw [nodesByLabel, Collect.lookup_collect, ← itemsOf]
  cases hitems : (itemsOf results).filter fun item => nodeKey item.name == key with
  | nil => simp [Collect.merged]
  | cons first rest =>
    rw [Collect.merged, foldl_mergeProvenance, Option.some.injEq]
    constructor
    · rintro rfl
      exact ⟨first, rest, rfl, rfl⟩
    · rintro ⟨first', rest', heq, rfl⟩
      obtain ⟨rfl, rfl⟩ := List.cons.inj heq
      rfl

theorem mem_itemsOf (h : node ∈ itemsOf results) :
    ∃ entry ∈ extracted results, entry.2.name = node.name ∧ node.sourceChunkIds = [entry.1] := by
  obtain ⟨⟨entry, place⟩, hentry, rfl⟩ := List.mem_map.mp h
  exact ⟨entry, List.fst_mem_of_mem_zipIdx hentry, rfl, rfl⟩

theorem exists_item {entry : Nat × ExtractedNode} (h : entry ∈ extracted results) :
    ∃ item ∈ itemsOf results, item.name = entry.2.name ∧ item.sourceChunkIds = [entry.1] := by
  rw [← List.zipIdx_map_fst 0 (extracted results)] at h
  obtain ⟨place, hplace, rfl⟩ := List.mem_map.mp h
  exact ⟨newNode place, List.mem_map_of_mem hplace, rfl, rfl⟩

theorem nodup_ids (results : Completions) : ((itemsOf results).map GraphNode.id).Nodup := by
  have hids : (itemsOf results).map GraphNode.id = List.range' 0 (extracted results).length := by
    rw [itemsOf, List.map_map]
    exact List.zipIdx_map_snd 0 (extracted results)
  rw [hids]
  exact List.nodup_range'

/-- A node under a key is of that key, made for an extracted node, and from the chunks of all
extracted nodes of the key. -/
structure Under (results : Completions) (key : List Char) (node : GraphNode) : Prop where
  ofKey : nodeKey node.name = key
  made : ∃ entry ∈ extracted results, entry.2.name = node.name
  chunks : ∀ chunkId, chunkId ∈ node.sourceChunkIds ↔
    ∃ entry ∈ extracted results, nodeKey entry.2.name = key ∧ entry.1 = chunkId

theorem under_of_lookup (h : (nodesByLabel results).lookup key = some node) :
    Under results key node := by
  obtain ⟨first, rest, hitems, rfl⟩ := lookup_eq_some_iff.mp h
  have hfirst : first ∈ (itemsOf results).filter fun item => nodeKey item.name == key := by
    rw [hitems]
    exact List.mem_cons_self
  obtain ⟨hitem, hkey⟩ := List.mem_filter.mp hfirst
  obtain ⟨entry, hentry, hname, -⟩ := mem_itemsOf hitem
  constructor
  · exact beq_iff_eq.mp hkey
  · exact ⟨entry, hentry, hname⟩
  · intro chunkId
    change chunkId ∈ (first :: rest).flatMap GraphNode.sourceChunkIds ↔ _
    rw [← hitems, List.mem_flatMap]
    constructor
    · rintro ⟨item, hmem, hchunk⟩
      obtain ⟨hmem, hitemKey⟩ := List.mem_filter.mp hmem
      obtain ⟨other, hother, hotherName, hids⟩ := mem_itemsOf hmem
      rw [hids, List.mem_singleton] at hchunk
      refine ⟨other, hother, ?_, hchunk.symm⟩
      rw [hotherName]
      exact beq_iff_eq.mp hitemKey
    · rintro ⟨other, hother, hotherKey, rfl⟩
      obtain ⟨item, hmem, hitemName, hids⟩ := exists_item hother
      refine ⟨item, List.mem_filter.mpr ⟨hmem, ?_⟩, by simp [hids]⟩
      rw [hitemName, hotherKey]
      exact beq_self_eq_true key

theorem lookup_isSome_iff : ((nodesByLabel results).lookup key).isSome = true ↔
    ∃ entry ∈ extracted results, nodeKey entry.2.name = key := by
  constructor
  · intro hsome
    obtain ⟨node, hnode⟩ := Option.isSome_iff_exists.mp hsome
    have hunder := under_of_lookup hnode
    obtain ⟨entry, hentry, hname⟩ := hunder.made
    exact ⟨entry, hentry, by rw [hname, hunder.ofKey]⟩
  · rintro ⟨entry, hentry, rfl⟩
    obtain ⟨item, hitem, hname, -⟩ := exists_item hentry
    rw [nodesByLabel, Entries.isSome_lookup_iff, Collect.keys_collect, List.mem_eraseDups,
      List.mem_map]
    exact ⟨item, hitem, by rw [hname]⟩

theorem mem_nodes_iff : node ∈ (extractGraph results).nodes ↔
    ∃ key, (nodesByLabel results).lookup key = some node := by
  have hkeys : ((nodesByLabel results).map Prod.fst).Nodup := by
    rw [nodesByLabel, Collect.keys_collect]
    exact Distinct.nodup_eraseDups _
  rw [extractGraph, List.mem_map]
  constructor
  · rintro ⟨⟨key, other⟩, hentry, rfl⟩
    exact ⟨key, (Entries.mem_iff_lookup hkeys).mp hentry⟩
  · rintro ⟨key, hlookup⟩
    exact ⟨(key, node), Entries.mem_of_lookup hlookup, rfl⟩

theorem key_eq_of_id {key' : List Char} (h : (nodesByLabel results).lookup key = some node)
    (h' : (nodesByLabel results).lookup key' = some node') (hid : node.id = node'.id) :
    key = key' := by
  obtain ⟨first, rest, hitems, rfl⟩ := lookup_eq_some_iff.mp h
  obtain ⟨first', rest', hitems', rfl⟩ := lookup_eq_some_iff.mp h'
  have hfirst : first ∈ (itemsOf results).filter fun item => nodeKey item.name == key := by
    rw [hitems]
    exact List.mem_cons_self
  have hfirst' : first' ∈ (itemsOf results).filter fun item => nodeKey item.name == key' := by
    rw [hitems']
    exact List.mem_cons_self
  obtain ⟨hitem, hkey⟩ := List.mem_filter.mp hfirst
  obtain ⟨hitem', hkey'⟩ := List.mem_filter.mp hfirst'
  have hsame := List.inj_on_of_nodup_map (nodup_ids results) hitem hitem' hid
  rw [← beq_iff_eq.mp hkey, ← beq_iff_eq.mp hkey', hsame]

theorem nameOf_id (h : (nodesByLabel results).lookup key = some node) :
    (extractGraph results).nameOf node.id = some node.name := by
  have hmem := mem_nodes_iff.mpr ⟨key, h⟩
  rw [Graph.nameOf]
  cases hfind : (extractGraph results).nodes.find? fun other => other.id == node.id with
  | none =>
    have hnone := List.find?_eq_none.mp hfind node hmem
    simp at hnone
  | some other =>
    obtain ⟨key', hother⟩ := mem_nodes_iff.mp (List.mem_of_find?_eq_some hfind)
    have hid : other.id = node.id := by simpa using List.find?_some hfind
    have hkey := key_eq_of_id hother h hid
    subst hkey
    rw [hother, Option.some.injEq] at h
    rw [h]
    rfl

/-! ### Merging -/

theorem lookup_eq_lookup_iff {a b : Nat × ExtractedNode} (ha : a ∈ extracted results) :
    (nodesByLabel results).lookup (nodeKey a.2.name) =
        (nodesByLabel results).lookup (nodeKey b.2.name) ↔ nodeKey a.2.name = nodeKey b.2.name := by
  constructor
  · intro hsame
    obtain ⟨node, hnode⟩ := Option.isSome_iff_exists.mp (lookup_isSome_iff.mpr ⟨a, ha, rfl⟩)
    have hnode' := hnode
    rw [hsame] at hnode'
    rw [← (under_of_lookup hnode).ofKey, ← (under_of_lookup hnode').ofKey]
  · intro hkey
    rw [hkey]

theorem merged_iff : (∀ a ∈ extracted results, ∀ b ∈ extracted results,
    (nodesByLabel results).lookup (nodeKey a.2.name) =
        (nodesByLabel results).lookup (nodeKey b.2.name) ↔ a.2.name = b.2.name) ↔
    KeysTell results := by
  constructor
  · intro hmerged a ha b hb hkey
    exact (hmerged a ha b hb).mp (by rw [hkey])
  · intro htell a ha b hb
    rw [lookup_eq_lookup_iff ha]
    constructor
    · exact htell a ha b hb
    · intro hname
      rw [hname]

theorem name_of_lookup (h : KeysTell results) {entry : Nat × ExtractedNode}
    (hentry : entry ∈ extracted results)
    (hnode : (nodesByLabel results).lookup (nodeKey entry.2.name) = some node) :
    node.name = entry.2.name := by
  have hunder := under_of_lookup hnode
  obtain ⟨other, hother, hname⟩ := hunder.made
  rw [← hname]
  apply h other hother entry hentry
  rw [hname, hunder.ofKey]

/-! ### Edges -/

theorem findSome?_eq_bind {α β : Type} (f : α → Option β) (items : List α) :
    items.findSome? f = (items.find? fun a => (f a).isSome).bind f := by
  induction items with
  | nil => rfl
  | cons a items ih =>
    rw [List.findSome?_cons, List.find?_cons]
    cases ha : f a with
    | none => simpa using ih
    | some b => simp [ha]

/-- A label is resolved to the node of the first type whose key with it is that of an extracted
node. -/
theorem findNode_eq (results : Completions) (label : List Char) :
    findNode (nodesByLabel results) label = (firstType results label).bind fun nodeType =>
      (nodesByLabel results).lookup (nodeKey (nodeType, label)) := by
  rw [findNode, findSome?_eq_bind, firstType]
  congr 2
  funext nodeType
  rw [Bool.eq_iff_iff, lookup_isSome_iff, List.any_eq_true]
  simp only [beq_iff_eq]

def resolvedName (results : Completions) (label : List Char) : Option Name :=
  (findNode (nodesByLabel results) label).map GraphNode.name

def linkOf (results : Completions) (edge : ExtractedEdge) : Option Link :=
  match resolvedName results edge.sourceLabel, resolvedName results edge.targetLabel with
  | some source, some target =>
    some ⟨some source, some target, edge.edgeType, edge.properties, edge.confidence⟩
  | _, _ => none

theorem nameOf_findNode (h : findNode (nodesByLabel results) label = some node) :
    (extractGraph results).nameOf node.id = some node.name := by
  rw [findNode_eq, Option.bind_eq_some_iff] at h
  obtain ⟨nodeType, -, hlookup⟩ := h
  exact nameOf_id hlookup

theorem link_persistEdge (results : Completions) (edge : ExtractedEdge) :
    (persistEdge (nodesByLabel results) edge).map (extractGraph results).link =
      linkOf results edge := by
  unfold persistEdge linkOf resolvedName
  cases hsource : findNode (nodesByLabel results) edge.sourceLabel with
  | none => rfl
  | some source =>
    cases htarget : findNode (nodesByLabel results) edge.targetLabel with
    | none => rfl
    | some target =>
      have hsourceName := nameOf_findNode hsource
      have htargetName := nameOf_findNode htarget
      simp [Graph.link, hsourceName, htargetName]

theorem links_extractGraph (results : Completions) :
    (extractGraph results).edges.map (extractGraph results).link =
      (extractedEdges results).filterMap (linkOf results) := by
  rw [extractGraph, List.map_filterMap]
  congr 1
  funext edge
  exact link_persistEdge results edge

/-! ### The order of the results -/

theorem mem_extracted_of_perm (h : results'.Perm results) {entry : Nat × ExtractedNode} :
    entry ∈ extracted results' ↔ entry ∈ extracted results := by
  unfold extracted
  rw [List.mem_flatMap, List.mem_flatMap]
  simp only [h.mem_iff]

theorem firstType_of_perm (h : results'.Perm results) (label : List Char) :
    firstType results' label = firstType results label := by
  unfold firstType
  congr 1
  funext nodeType
  rw [Bool.eq_iff_iff, List.any_eq_true, List.any_eq_true]
  simp only [mem_extracted_of_perm h]

theorem keysTell_of_perm (h : results'.Perm results) (htell : KeysTell results) :
    KeysTell results' := by
  intro a ha b hb
  exact htell a ((mem_extracted_of_perm h).mp ha) b ((mem_extracted_of_perm h).mp hb)

theorem lookup_name_of_perm (h : results'.Perm results) (htell : KeysTell results)
    (key : List Char) : ((nodesByLabel results').lookup key).map GraphNode.name =
      ((nodesByLabel results).lookup key).map GraphNode.name := by
  have hsome : ((nodesByLabel results').lookup key).isSome =
      ((nodesByLabel results).lookup key).isSome := by
    rw [Bool.eq_iff_iff, lookup_isSome_iff, lookup_isSome_iff]
    simp only [mem_extracted_of_perm h]
  cases hleft : (nodesByLabel results').lookup key with
  | none =>
    rw [hleft] at hsome
    have hnone := Option.isNone_iff_eq_none.mp (Option.isSome_eq_false_iff.mp hsome.symm)
    rw [hnone]
  | some node =>
    rw [hleft] at hsome
    obtain ⟨node', hright⟩ := Option.isSome_iff_exists.mp hsome.symm
    have hunder := under_of_lookup hleft
    have hunder' := under_of_lookup hright
    obtain ⟨a, ha, hname⟩ := hunder.made
    obtain ⟨b, hb, hname'⟩ := hunder'.made
    have hsame : a.2.name = b.2.name := by
      apply htell a ((mem_extracted_of_perm h).mp ha) b hb
      rw [hname, hname', hunder.ofKey, hunder'.ofKey]
    rw [hright, Option.map_some, Option.map_some, ← hname, ← hname', hsame]

theorem resolvedName_of_perm (h : results'.Perm results) (htell : KeysTell results)
    (label : List Char) : resolvedName results' label = resolvedName results label := by
  rw [resolvedName, resolvedName, findNode_eq, findNode_eq, firstType_of_perm h,
    Option.map_bind, Option.map_bind]
  congr 1
  funext nodeType
  exact lookup_name_of_perm h htell _

theorem mem_names_iff (htell : KeysTell results) (name : Name) :
    name ∈ (extractGraph results).nodes.map GraphNode.name ↔
      ∃ entry ∈ extracted results, entry.2.name = name := by
  rw [List.mem_map]
  constructor
  · rintro ⟨node, hnode, rfl⟩
    obtain ⟨key, hkey⟩ := mem_nodes_iff.mp hnode
    exact (under_of_lookup hkey).made
  · rintro ⟨entry, hentry, rfl⟩
    obtain ⟨node, hnode⟩ :=
      Option.isSome_iff_exists.mp (lookup_isSome_iff.mpr ⟨entry, hentry, rfl⟩)
    exact ⟨node, mem_nodes_iff.mpr ⟨_, hnode⟩, name_of_lookup htell hentry hnode⟩

theorem sameGraph_of_perm (h : results'.Perm results) (htell : KeysTell results) :
    SameGraph (extractGraph results') (extractGraph results) := by
  constructor
  · intro name
    rw [mem_names_iff (keysTell_of_perm h htell), mem_names_iff htell]
    simp only [mem_extracted_of_perm h]
  · intro node hnode node' hnode' hname chunkId
    obtain ⟨key, hkey⟩ := mem_nodes_iff.mp hnode
    obtain ⟨key', hkey'⟩ := mem_nodes_iff.mp hnode'
    have hunder := under_of_lookup hkey
    have hunder' := under_of_lookup hkey'
    rw [hunder.chunks, hunder'.chunks, ← hunder.ofKey, ← hunder'.ofKey, hname]
    simp only [mem_extracted_of_perm h]
  · rw [links_extractGraph, links_extractGraph]
    have hlink : linkOf results' = linkOf results := by
      funext edge
      unfold linkOf
      rw [resolvedName_of_perm h htell, resolvedName_of_perm h htell]
    rw [hlink]
    exact (h.flatMap_right _).filterMap _

/-! ### Edges between named nodes -/

/-- A label is resolved to a node with that label exactly where the first type found is that of a
node extracted with the label. -/
theorem resolves_iff (htell : KeysTell results) :
    (∃ node, findNode (nodesByLabel results) label = some node ∧ node.label = label) ↔
      Resolves results label := by
  constructor
  · rintro ⟨node, hfind, hlabel⟩
    rw [findNode_eq, Option.bind_eq_some_iff] at hfind
    obtain ⟨nodeType, htype, hlookup⟩ := hfind
    have hunder := under_of_lookup hlookup
    obtain ⟨entry, hentry, hname⟩ := hunder.made
    refine ⟨nodeType, htype, entry, hentry, ?_⟩
    have hkey := hunder.ofKey
    simp only [nodeKey, GraphNode.name, hlabel] at hkey
    have htypes := List.append_cancel_right (List.append_cancel_right hkey)
    rw [hname, GraphNode.name, htypes, hlabel]
  · rintro ⟨nodeType, htype, entry, hentry, hname⟩
    obtain ⟨node, hnode⟩ :=
      Option.isSome_iff_exists.mp (lookup_isSome_iff.mpr ⟨entry, hentry, rfl⟩)
    have hnodeName := name_of_lookup htell hentry hnode
    refine ⟨node, ?_, ?_⟩
    · rw [findNode_eq, htype, ← hnode, hname]
      rfl
    · have hlabel := congrArg Prod.snd (hnodeName.trans hname)
      exact hlabel

theorem kept_iff (htell : KeysTell results) (edge : ExtractedEdge) :
    (∃ persisted, persistEdge (nodesByLabel results) edge = some persisted ∧
      ((extractGraph results).nameOf persisted.sourceNodeId).map Prod.snd =
        some edge.sourceLabel ∧
      ((extractGraph results).nameOf persisted.targetNodeId).map Prod.snd =
        some edge.targetLabel) ↔
      Resolves results edge.sourceLabel ∧ Resolves results edge.targetLabel := by
  rw [← resolves_iff htell, ← resolves_iff htell]
  constructor
  · rintro ⟨persisted, hpersisted, hsourceLabel, htargetLabel⟩
    unfold persistEdge at hpersisted
    split at hpersisted
    · rename_i source target hsource htarget
      cases hpersisted
      rw [nameOf_findNode hsource] at hsourceLabel
      rw [nameOf_findNode htarget] at htargetLabel
      exact ⟨⟨source, hsource, Option.some.inj hsourceLabel⟩,
        ⟨target, htarget, Option.some.inj htargetLabel⟩⟩
    · cases hpersisted
  · rintro ⟨⟨source, hsource, hsourceLabel⟩, ⟨target, htarget, htargetLabel⟩⟩
    refine ⟨⟨source.id, target.id, edge.edgeType, edge.properties, edge.confidence⟩, ?_, ?_, ?_⟩
    · rw [persistEdge, hsource, htarget]
    · rw [nameOf_findNode hsource, ← hsourceLabel]
      rfl
    · rw [nameOf_findNode htarget, ← htargetLabel]
      rfl

def chunkOf (id : Nat) : PaperChunk where
  id := id
  chunkType := .section
  sectionPath := none
  ordinal := id
  content := "x".toList
  contentHash := []
  chunkMetadata := .section 1

/-- Two chunks whose nodes differ in type and label but not in their composed key. -/
def colliding : Completions :=
  [(chunkOf 0, { nodes := [⟨"a".toList, "b::c".toList, none, .obj []⟩] }),
    (chunkOf 1, { nodes := [⟨"a::b".toList, "c".toList, none, .obj []⟩] })]

end Synthetos.Analysis
