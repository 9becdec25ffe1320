import Synthetos.Analysis.Chunking
import Mathlib.Data.List.Nodup
import Mathlib.Data.List.Perm.Basic

/-!
# Sections of an HTML document

The document is walked in preorder.  A heading starts a section; each paragraph and each division
adds its whole text to the section that is current, whatever lies in it or around it.
-/

namespace Synthetos.Analysis

open Lib Text

/-- A text node, told from others by its place in the document. -/
structure TextNode where
  id : Nat
  text : List Char
  deriving DecidableEq

/-- A heading, `p` or `div`, or another element. -/
inductive Tag where
  | heading (level : Nat)
  | block
  | other
  deriving DecidableEq

/-- Sibling nodes, from the first to the last. -/
inductive Html where
  | done
  | text (node : TextNode) (rest : Html)
  | element (tag : Tag) (children rest : Html)

namespace Html

def texts : Html → List TextNode
  | done => []
  | text node rest => node :: rest.texts
  | element _ children rest => children.texts ++ rest.texts

/-- `soup.find_all(["h1", …, "h6", "p", "div"])`, each element with the text nodes in it. -/
def findAll : Html → List (Tag × List TextNode)
  | done => []
  | text _ rest => rest.findAll
  | element (.heading level) children rest =>
    (.heading level, children.texts) :: (children.findAll ++ rest.findAll)
  | element .block children rest =>
    (.block, children.texts) :: (children.findAll ++ rest.findAll)
  | element .other children rest => children.findAll ++ rest.findAll

end Html

/-- `element.get_text(strip=True)` -/
def getText (nodes : List TextNode) : List Char :=
  ((nodes.map fun node => strip node.text).filter (!·.isEmpty)).flatten

/-- A section under way: how many headings came up to it, the text nodes of its heading, and those
of the elements of its parts. -/
structure Draft where
  number : Nat := 0
  heading : List Char := "Abstract".toList
  titleNodes : List TextNode := []
  level : Nat := 1
  parts : List (List TextNode) := []

/-- `"\n".join(current_parts).strip()` -/
def Draft.content (draft : Draft) : List Char :=
  strip (['\n'].intercalate (draft.parts.map getText))

def Draft.normalized (draft : Draft) : NormalizedSection where
  heading := draft.heading
  level := draft.level
  content := draft.content

structure Walk where
  sections : List Draft := []
  current : Draft := {}

def Walk.flush (walk : Walk) : List Draft :=
  if walk.current.content = [] then walk.sections else walk.sections ++ [walk.current]

def Draft.next (draft : Draft) (level : Nat) (nodes : List TextNode) : Draft where
  number := draft.number + 1
  heading := getText nodes
  titleNodes := nodes
  level := level

def Draft.add (draft : Draft) (nodes : List TextNode) : Draft :=
  if getText nodes = [] then draft else { draft with parts := draft.parts ++ [nodes] }

def Walk.visit (walk : Walk) : Tag × List TextNode → Walk
  | (.heading level, nodes) => ⟨walk.flush, walk.current.next level nodes⟩
  | (_, nodes) => ⟨walk.sections, walk.current.add nodes⟩

def draftSections (doc : Html) : List Draft := (doc.findAll.foldl Walk.visit {}).flush

def extractSections (doc : Html) : List NormalizedSection :=
  (draftSections doc).map Draft.normalized

/-! ### Figures -/

/-- A figure element: its `id` and the text of its caption. -/
structure FoundItem where
  idAttribute : Option (List Char) := none
  caption : List Char := []

def itemId (kind : String) (item : FoundItem × Nat) : List Char :=
  item.1.idAttribute.getD (kind.toList ++ "-".toList ++ (toString item.2).toList)

def extractFigures (figures : List FoundItem) : List NormalizedFigure :=
  (figures.zipIdx 1).map fun fig =>
    { id := itemId "fig" fig, caption := fig.1.caption, contentDescription := some fig.1.caption }

/-! ### Where text belongs -/

/-- The heading or the content of a section, by the number of headings that came up to it. -/
structure Slot where
  number : Nat
  title : Bool
  deriving DecidableEq

def inked (entries : List (TextNode × Slot)) : List (TextNode × Slot) :=
  entries.filter fun entry => !blank entry.1.text

/-- The text nodes that are not blank, each time they occur in a section. -/
def Draft.entries (draft : Draft) : List (TextNode × Slot) :=
  inked (draft.titleNodes.map (fun node => (node, ⟨draft.number, true⟩)) ++
    draft.parts.flatten.map fun node => (node, ⟨draft.number, false⟩))

def occurrences (sections : List Draft) : List (TextNode × Slot) := sections.flatMap Draft.entries

/-- A text node, the number of headings that start before it, and where each heading, paragraph and
division around it is entered. -/
structure Place where
  node : TextNode
  number : Nat
  slots : List Slot

namespace Html

def headings : Html → Nat
  | done => 0
  | text _ rest => rest.headings
  | element (.heading _) children rest => children.headings + rest.headings + 1
  | element .block children rest => children.headings + rest.headings
  | element .other children rest => children.headings + rest.headings

/-- The places of the text nodes, `number` headings having started. -/
def places (number : Nat) (slots : List Slot) : Html → List Place
  | done => []
  | text node rest => ⟨node, number, slots⟩ :: rest.places number slots
  | element (.heading _) children rest =>
    children.places (number + 1) (⟨number + 1, true⟩ :: slots) ++
      rest.places (number + children.headings + 1) slots
  | element .block children rest =>
    children.places number (⟨number, false⟩ :: slots) ++
      rest.places (number + children.headings) slots
  | element .other children rest =>
    children.places number slots ++ rest.places (number + children.headings) slots

def HasText (doc : Html) (number : Nat) : Prop :=
  ∃ place ∈ doc.places 0 [], blank place.node.text = false ∧ ⟨number, false⟩ ∈ place.slots

instance (doc : Html) (number : Nat) : Decidable (doc.HasText number) := by
  unfold HasText
  infer_instance

end Html

/-- Text occurs once, and where it is in a paragraph or a division and not in a heading, in the
content of the section of the nearest heading before it. -/
structure SectionedOnce (doc : Html) : Prop where
  returned : extractSections doc = (draftSections doc).map Draft.normalized
  once : ∀ node ∈ doc.texts,
    ((occurrences (draftSections doc)).countP fun entry => decide (entry.1 = node)) ≤ 1
  placed : ∀ place ∈ doc.places 0 [], blank place.node.text = false → place.slots ≠ [] →
    (∀ slot ∈ place.slots, slot.title = false) →
    (place.node, ⟨place.number, false⟩) ∈ occurrences (draftSections doc)

/-- Text that is not blank is in one element at the most that is a paragraph, a division or the
heading of a section with text; and no heading starts between the text and a paragraph or division
around it, unless the text is in a heading. -/
def FlatText (doc : Html) : Prop :=
  ∀ place ∈ doc.places 0 [], blank place.node.text = false →
    (place.slots.countP fun slot => decide (slot.title = true → doc.HasText slot.number)) ≤ 1 ∧
      ((∀ slot ∈ place.slots, slot.title = false) →
        ∀ slot ∈ place.slots, slot.number = place.number)

variable {doc : Html} {walk : Walk} {draft : Draft} {nodes : List TextNode} {node : TextNode}
  {place : Place} {found found' : List (TextNode × Slot)} {number level : Nat}
  {slots : List Slot} {slot : Slot}

/-! ### Drafts -/

@[simp] theorem inked_append : inked (found ++ found') = inked found ++ inked found' :=
  List.filter_append ..

theorem inked_eq_nil (h : ∀ node ∈ nodes, blank node.text = true) :
    inked (nodes.map fun node => (node, slot)) = [] := by
  apply List.filter_eq_nil_iff.mpr
  intro entry hentry
  obtain ⟨node, hnode, rfl⟩ := List.mem_map.mp hentry
  simp [h node hnode]

theorem blank_of_getText (h : ∀ c ∈ getText nodes, isSpace c = true) (hnode : node ∈ nodes) :
    blank node.text = true := by
  by_contra hfull
  have hspace : ∀ c ∈ strip node.text, isSpace c = true := by
    intro c hc
    apply h
    apply List.mem_flatten.mpr
    refine ⟨strip node.text, List.mem_filter.mpr ⟨List.mem_map_of_mem hnode, ?_⟩, hc⟩
    simpa [blank] using hfull
  have hstrip := strip_eq_nil_iff.mpr hspace
  rw [(strip_trimmed node.text).strip_eq] at hstrip
  exact hfull (List.isEmpty_iff.mpr hstrip)

theorem getText_of_blank (h : ∀ node ∈ nodes, blank node.text = true) : getText nodes = [] := by
  rw [getText, List.flatten_eq_nil_iff]
  intro text htext
  obtain ⟨hmem, hfull⟩ := List.mem_filter.mp htext
  obtain ⟨node, hnode, rfl⟩ := List.mem_map.mp hmem
  exact List.isEmpty_iff.mp (h node hnode)

theorem content_eq_nil_iff :
    draft.content = [] ↔ ∀ node ∈ draft.parts.flatten, blank node.text = true := by
  rw [Draft.content, strip_eq_nil_iff]
  constructor
  · intro hspace node hnode
    obtain ⟨part, hpart, hmem⟩ := List.mem_flatten.mp hnode
    apply blank_of_getText _ hmem
    intro c hc
    exact hspace c (mem_intercalate (List.mem_map_of_mem hpart) hc)
  · intro hblank c hc
    rcases mem_of_mem_intercalate hc with hsep | ⟨text, htext, hmem⟩
    · rw [List.mem_singleton.mp hsep]
      rfl
    · obtain ⟨part, hpart, rfl⟩ := List.mem_map.mp htext
      have hempty : getText part = [] := by
        apply getText_of_blank
        intro node hnode
        exact hblank node (List.mem_flatten.mpr ⟨part, hpart, hnode⟩)
      rw [hempty] at hmem
      cases hmem

theorem entries_next : (draft.next level nodes).entries =
    inked (nodes.map fun node => (node, ⟨draft.number + 1, true⟩)) := by
  simp [Draft.entries, Draft.next]

theorem entries_add : (draft.add nodes).number = draft.number ∧ (draft.add nodes).entries =
    draft.entries ++ inked (nodes.map fun node => (node, ⟨draft.number, false⟩)) := by
  unfold Draft.add
  split
  · rename_i hempty
    rw [inked_eq_nil, List.append_nil]
    · exact ⟨rfl, rfl⟩
    · intro node hnode
      exact blank_of_getText (by simp [hempty]) hnode
  · exact ⟨rfl, by simp [Draft.entries]⟩

/-! ### The walk with every draft -/

def Draft.kept (draft : Draft) : Bool := !draft.content.isEmpty

/-- One turn of a loop that drops no draft. -/
def Walk.visitAll (walk : Walk) : Tag × List TextNode → Walk
  | (.heading level, nodes) => ⟨walk.sections ++ [walk.current], walk.current.next level nodes⟩
  | (_, nodes) => ⟨walk.sections, walk.current.add nodes⟩

def Walk.drafts (walk : Walk) : List Draft := walk.sections ++ [walk.current]

def Walk.kept (walk : Walk) : Walk := ⟨walk.sections.filter Draft.kept, walk.current⟩

def allDrafts (doc : Html) : List Draft := (doc.findAll.foldl Walk.visitAll {}).drafts

theorem flush_kept (walk : Walk) : walk.kept.flush = walk.drafts.filter Draft.kept := by
  unfold Walk.flush Walk.kept Walk.drafts
  rw [List.filter_append]
  cases hcontent : walk.current.content <;> simp [Draft.kept, hcontent]

theorem visit_kept (walk : Walk) (found : Tag × List TextNode) :
    walk.kept.visit found = (walk.visitAll found).kept := by
  obtain ⟨tag, nodes⟩ := found
  cases tag with
  | heading level =>
    have hflush := flush_kept walk
    simp only [Walk.visit, Walk.visitAll, hflush]
    rfl
  | block => rfl
  | other => rfl

theorem draftSections_eq (doc : Html) : draftSections doc = (allDrafts doc).filter Draft.kept := by
  have hfold (found : List (Tag × List TextNode)) (walk : Walk) :
      found.foldl Walk.visit walk.kept = (found.foldl Walk.visitAll walk).kept := by
    induction found generalizing walk with
    | nil => rfl
    | cons first found ih => rw [List.foldl_cons, List.foldl_cons, visit_kept, ih]
  have hwalk := hfold doc.findAll {}
  rw [draftSections, allDrafts, ← flush_kept, ← hwalk]
  rfl

theorem numbers_allDrafts (doc : Html) : ((allDrafts doc).map Draft.number).Nodup := by
  have hfold (found : List (Tag × List TextNode)) (walk : Walk)
      (h : walk.drafts.map Draft.number = List.range (walk.current.number + 1)) :
      (found.foldl Walk.visitAll walk).drafts.map Draft.number =
        List.range ((found.foldl Walk.visitAll walk).current.number + 1) := by
    induction found generalizing walk with
    | nil => exact h
    | cons first found ih =>
      apply ih
      obtain ⟨tag, nodes⟩ := first
      cases tag with
      | heading level =>
        have hnext : (walk.visitAll (.heading level, nodes)).drafts =
          walk.drafts ++ [walk.current.next level nodes] := rfl
        rw [hnext, List.map_append, h]
        exact List.range_succ.symm
      | _ =>
        simp only [Walk.drafts, Walk.visitAll, List.map_append, List.map_cons, List.map_nil,
          entries_add.1] at h ⊢
        exact h
  rw [allDrafts, hfold doc.findAll {} rfl]
  exact List.nodup_range

/-- The text nodes of each heading, paragraph and division, with where they are entered. -/
def Html.entered (number : Nat) : Html → List (TextNode × Slot)
  | done => []
  | text _ rest => rest.entered number
  | element (.heading _) children rest =>
    children.texts.map (fun node => (node, ⟨number + 1, true⟩)) ++
      (children.entered (number + 1) ++ rest.entered (number + children.headings + 1))
  | element .block children rest =>
    children.texts.map (fun node => (node, ⟨number, false⟩)) ++
      (children.entered number ++ rest.entered (number + children.headings))
  | element .other children rest =>
    children.entered number ++ rest.entered (number + children.headings)

theorem entries_visitAll_heading : (walk.visitAll (.heading level, nodes)).drafts.flatMap
    Draft.entries = walk.drafts.flatMap Draft.entries ++
      inked (nodes.map fun node => (node, ⟨walk.current.number + 1, true⟩)) := by
  have hnext : (walk.visitAll (.heading level, nodes)).drafts =
    walk.drafts ++ [walk.current.next level nodes] := rfl
  rw [hnext, List.flatMap_append, List.flatMap_singleton, entries_next]

theorem entries_visitAll_block : (walk.visitAll (.block, nodes)).drafts.flatMap Draft.entries =
    walk.drafts.flatMap Draft.entries ++
      inked (nodes.map fun node => (node, ⟨walk.current.number, false⟩)) := by
  simp only [Walk.drafts, Walk.visitAll, List.flatMap_append, List.flatMap_singleton,
    entries_add.2, List.append_assoc]

/-- The walk enters the text of each heading, paragraph and division. -/
theorem entries_findAll (doc : Html) (walk : Walk) :
    (doc.findAll.foldl Walk.visitAll walk).current.number = walk.current.number + doc.headings ∧
      (doc.findAll.foldl Walk.visitAll walk).drafts.flatMap Draft.entries =
        walk.drafts.flatMap Draft.entries ++ inked (doc.entered walk.current.number) := by
  induction doc generalizing walk with
  | done => simp [Html.findAll, Html.headings, Html.entered, inked]
  | text node rest ih => exact ih walk
  | element tag children rest ihchildren ihrest =>
    cases tag with
    | heading level =>
      obtain ⟨hnumber, hentries⟩ := ihchildren (walk.visitAll (.heading level, children.texts))
      obtain ⟨hnumber', hentries'⟩ := ihrest (children.findAll.foldl Walk.visitAll
        (walk.visitAll (.heading level, children.texts)))
      have hnext : (walk.visitAll (.heading level, children.texts)).current.number =
        walk.current.number + 1 := rfl
      have horder : walk.current.number + 1 + children.headings =
        walk.current.number + children.headings + 1 := by omega
      rw [Html.findAll, List.foldl_cons, List.foldl_append, hnumber', hentries', hnumber, hentries,
        entries_visitAll_heading, hnext, Html.headings, Html.entered, inked_append, inked_append,
        horder, List.append_assoc, List.append_assoc]
      exact ⟨by omega, rfl⟩
    | other =>
      obtain ⟨hnumber, hentries⟩ := ihchildren walk
      obtain ⟨hnumber', hentries'⟩ := ihrest (children.findAll.foldl Walk.visitAll walk)
      rw [Html.findAll, List.foldl_append, hnumber', hentries', hnumber, hentries, Html.headings,
        Html.entered, inked_append, List.append_assoc]
      exact ⟨by omega, rfl⟩
    | block =>
      obtain ⟨hnumber, hentries⟩ := ihchildren (walk.visitAll (.block, children.texts))
      obtain ⟨hnumber', hentries'⟩ := ihrest (children.findAll.foldl Walk.visitAll
        (walk.visitAll (.block, children.texts)))
      have hnext : (walk.visitAll (.block, children.texts)).current.number =
        walk.current.number := entries_add.1
      rw [Html.findAll, List.foldl_cons, List.foldl_append, hnumber', hentries', hnumber, hentries,
        entries_visitAll_block, hnext, Html.headings, Html.entered, inked_append, inked_append,
        List.append_assoc, List.append_assoc]
      exact ⟨by omega, rfl⟩

theorem entries_allDrafts (doc : Html) :
    (allDrafts doc).flatMap Draft.entries = inked (doc.entered 0) := by
  rw [allDrafts, (entries_findAll doc {}).2]
  rfl

/-! ### Places -/

def Place.entries (place : Place) : List (TextNode × Slot) :=
  place.slots.map fun slot => (place.node, slot)

theorem map_node_places (doc : Html) (number : Nat) (slots : List Slot) :
    (doc.places number slots).map Place.node = doc.texts := by
  induction doc generalizing number slots with
  | done => rfl
  | text node rest ih => rw [Html.places, List.map_cons, ih, Html.texts]
  | element tag children rest ihchildren ihrest =>
    cases tag <;> rw [Html.places, List.map_append, ihchildren, ihrest, Html.texts]

theorem count_flatMap_cons (nodes : List TextNode) (slot : Slot) (slots : List Slot)
    (entry : TextNode × Slot) :
    (nodes.flatMap fun node => (slot :: slots).map fun slot => (node, slot)).count entry =
      (nodes.map fun node => (node, slot)).count entry +
        (nodes.flatMap fun node => slots.map fun slot => (node, slot)).count entry := by
  rw [← List.count_append]
  apply (List.Perm.count_eq _ entry).symm
  exact List.map_append_flatMap_perm nodes _ _

/-- Each element is counted once for each text node in it. -/
theorem count_entries_places (doc : Html) (number : Nat) (slots : List Slot)
    (entry : TextNode × Slot) :
    ((doc.places number slots).flatMap Place.entries).count entry =
      (doc.entered number).count entry +
        (doc.texts.flatMap fun node => slots.map fun slot => (node, slot)).count entry := by
  induction doc generalizing number slots with
  | done => rfl
  | text node rest ih =>
    simp only [Html.places, Html.entered, Html.texts, List.flatMap_cons, List.count_append, ih,
      Place.entries]
    omega
  | element tag children rest ihchildren ihrest =>
    cases tag <;>
      (simp only [Html.places, Html.entered, Html.texts, List.flatMap_append, List.count_append,
        ihchildren, ihrest, count_flatMap_cons]
       omega)

theorem entries_places_perm (doc : Html) :
    ((doc.places 0 []).flatMap Place.entries).Perm (doc.entered 0) := by
  apply List.perm_iff_count.mpr
  intro entry
  have hnone : (doc.texts.flatMap fun node =>
      ([] : List Slot).map fun slot => (node, slot)) = [] := by
    apply List.flatMap_eq_nil_iff.mpr
    intro node _
    rfl
  rw [count_entries_places, hnone, List.count_nil, Nat.add_zero]

/-- Of distinct text nodes, one is entered only where it stands. -/
theorem countP_entries {all : List Place} (h : (all.map Place.node).Nodup) (hplace : place ∈ all)
    (pass : Slot → Bool) :
    ((all.flatMap Place.entries).countP fun entry => decide (entry.1 = place.node) && pass entry.2) =
      place.slots.countP pass := by
  induction all with
  | nil => cases hplace
  | cons first all ih =>
    rw [List.map_cons] at h
    obtain ⟨hnew, hrest⟩ := List.nodup_cons.mp h
    have hother {other : Place} (hne : other.node ≠ place.node) : (other.entries.countP fun entry =>
        decide (entry.1 = place.node) && pass entry.2) = 0 := by
      rw [List.countP_eq_zero]
      intro entry hentry
      obtain ⟨slot, -, rfl⟩ := List.mem_map.mp hentry
      simp [hne]
    rw [List.flatMap_cons, List.countP_append]
    rcases List.mem_cons.mp hplace with rfl | hmem
    · have hfirst : (place.entries.countP fun entry =>
          decide (entry.1 = place.node) && pass entry.2) = place.slots.countP pass := by
        rw [Place.entries, List.countP_map]
        simp [Function.comp_def]
      have hothers : ((all.flatMap Place.entries).countP fun entry =>
          decide (entry.1 = place.node) && pass entry.2) = 0 := by
        rw [List.countP_eq_zero]
        intro entry hentry
        obtain ⟨other, hmem, hslot⟩ := List.mem_flatMap.mp hentry
        have hne : other.node ≠ place.node := by
          intro heq
          apply hnew
          rw [← heq]
          exact List.mem_map_of_mem hmem
        exact List.countP_eq_zero.mp (hother hne) entry hslot
      rw [hfirst, hothers, Nat.add_zero]
    · have hne : first.node ≠ place.node := by
        intro heq
        apply hnew
        rw [heq]
        exact List.mem_map_of_mem hmem
      rw [hother hne, ih hrest hmem, Nat.zero_add]

/-! ### The sections that are kept -/

theorem slot_of_mem_entries {entry : TextNode × Slot} (h : entry ∈ draft.entries) :
    entry.2.number = draft.number := by
  have hentry := List.mem_of_mem_filter h
  rcases List.mem_append.mp hentry with htitle | hpart
  · obtain ⟨node, -, rfl⟩ := List.mem_map.mp htitle
    rfl
  · obtain ⟨node, -, rfl⟩ := List.mem_map.mp hpart
    rfl

theorem kept_iff_entry :
    draft.kept = true ↔ ∃ node, (node, (⟨draft.number, false⟩ : Slot)) ∈ draft.entries := by
  have hcontent : draft.kept = true ↔ draft.content ≠ [] := by simp [Draft.kept]
  rw [hcontent, Ne, content_eq_nil_iff]
  push Not
  constructor
  · rintro ⟨node, hnode, hfull⟩
    refine ⟨node, List.mem_filter.mpr ⟨?_, by simpa using hfull⟩⟩
    exact List.mem_append_right _ (List.mem_map_of_mem hnode)
  · rintro ⟨node, hentry⟩
    obtain ⟨hmem, hfull⟩ := List.mem_filter.mp hentry
    rcases List.mem_append.mp hmem with htitle | hpart
    · obtain ⟨other, -, heq⟩ := List.mem_map.mp htitle
      simp at heq
    · obtain ⟨other, hother, heq⟩ := List.mem_map.mp hpart
      obtain ⟨rfl, -⟩ := Prod.mk.inj heq
      exact ⟨other, hother, by simpa using hfull⟩

theorem hasText_iff_entry :
    doc.HasText number ↔ ∃ node, (node, (⟨number, false⟩ : Slot)) ∈ inked (doc.entered 0) := by
  constructor
  · rintro ⟨place, hplace, hfull, hslot⟩
    refine ⟨place.node, List.mem_filter.mpr ⟨?_, by simp [hfull]⟩⟩
    apply (entries_places_perm doc).mem_iff.mp
    exact List.mem_flatMap.mpr ⟨place, hplace, List.mem_map_of_mem hslot⟩
  · rintro ⟨node, hentry⟩
    obtain ⟨hmem, hfull⟩ := List.mem_filter.mp hentry
    obtain ⟨place, hplace, hslot⟩ :=
      List.mem_flatMap.mp ((entries_places_perm doc).mem_iff.mpr hmem)
    obtain ⟨slot, hslots, heq⟩ := List.mem_map.mp hslot
    obtain ⟨rfl, rfl⟩ := Prod.mk.inj heq
    exact ⟨place, hplace, by simpa using hfull, hslots⟩

theorem kept_iff_hasText (h : draft ∈ allDrafts doc) :
    draft.kept = true ↔ doc.HasText draft.number := by
  rw [kept_iff_entry, hasText_iff_entry, ← entries_allDrafts]
  constructor
  · rintro ⟨node, hentry⟩
    exact ⟨node, List.mem_flatMap.mpr ⟨draft, h, hentry⟩⟩
  · rintro ⟨node, hentry⟩
    obtain ⟨other, hother, hmem⟩ := List.mem_flatMap.mp hentry
    have hnumber := slot_of_mem_entries hmem
    rw [List.inj_on_of_nodup_map (numbers_allDrafts doc) h hother hnumber]
    exact ⟨node, hnumber ▸ hmem⟩

/-- A slot of the content, or of the heading of a section with text. -/
def Html.shown (doc : Html) (slot : Slot) : Bool :=
  decide (slot.title = true → doc.HasText slot.number)

theorem filter_entries (h : draft ∈ allDrafts doc) :
    draft.entries.filter (fun entry => doc.shown entry.2) =
      if draft.kept then draft.entries else [] := by
  split
  · rename_i hkept
    apply List.filter_eq_self.mpr
    intro entry hentry
    apply decide_eq_true
    intro _
    rw [slot_of_mem_entries hentry]
    exact (kept_iff_hasText h).mp hkept
  · rename_i hdropped
    apply List.filter_eq_nil_iff.mpr
    rintro ⟨node, ⟨number, title⟩⟩ hentry hshown
    have hnumber : number = draft.number := slot_of_mem_entries hentry
    subst hnumber
    cases title with
    | true => exact hdropped ((kept_iff_hasText h).mpr (of_decide_eq_true hshown rfl))
    | false => exact hdropped (kept_iff_entry.mpr ⟨node, hentry⟩)

theorem occurrences_draftSections (doc : Html) : occurrences (draftSections doc) =
    (inked (doc.entered 0)).filter fun entry => doc.shown entry.2 := by
  have hdrafts (drafts : List Draft) (h : ∀ draft ∈ drafts, draft ∈ allDrafts doc) :
      (drafts.filter Draft.kept).flatMap Draft.entries =
        (drafts.flatMap Draft.entries).filter fun entry => doc.shown entry.2 := by
    induction drafts with
    | nil => rfl
    | cons draft drafts ih =>
      have hrest := ih fun other hother => h other (List.mem_cons_of_mem _ hother)
      rw [List.flatMap_cons, List.filter_append, filter_entries (h draft List.mem_cons_self),
        ← hrest, List.filter_cons]
      cases draft.kept <;> rfl
  rw [occurrences, draftSections_eq, hdrafts _ (fun _ h => h), entries_allDrafts]

/-- A text node occurs once for each element around it that is shown. -/
theorem countP_occurrences (h : doc.texts.Nodup) (hplace : place ∈ doc.places 0 [])
    (hfull : blank place.node.text = false) :
    ((occurrences (draftSections doc)).countP fun entry => decide (entry.1 = place.node)) =
      place.slots.countP doc.shown := by
  rw [← map_node_places doc 0 []] at h
  rw [← countP_entries h hplace, (entries_places_perm doc).countP_eq, occurrences_draftSections,
    inked, List.countP_filter, List.countP_filter]
  apply List.countP_congr
  intro entry _
  by_cases heq : entry.1 = place.node
  · simp [heq, hfull]
  · simp [heq]

theorem mem_occurrences_iff (h : doc.texts.Nodup) (hplace : place ∈ doc.places 0 [])
    (hfull : blank place.node.text = false) :
    (place.node, (⟨number, false⟩ : Slot)) ∈ occurrences (draftSections doc) ↔
      ⟨number, false⟩ ∈ place.slots := by
  rw [← map_node_places doc 0 []] at h
  have hshown : doc.shown ⟨number, false⟩ = true := by simp [Html.shown]
  rw [occurrences_draftSections, List.mem_filter, inked, List.mem_filter,
    ← (entries_places_perm doc).mem_iff, List.mem_flatMap]
  constructor
  · rintro ⟨⟨⟨other, hother, hentry⟩, -⟩, -⟩
    obtain ⟨slot, hslot, heq⟩ := List.mem_map.mp hentry
    obtain ⟨hnode, rfl⟩ := Prod.mk.inj heq
    rw [← List.inj_on_of_nodup_map h hother hplace hnode]
    exact hslot
  · intro hslot
    exact ⟨⟨⟨place, hplace, List.mem_map_of_mem hslot⟩, by simp [hfull]⟩, hshown⟩

theorem occurrences_of_blank (hblank : blank node.text = true) :
    ((occurrences (draftSections doc)).countP fun entry => decide (entry.1 = node)) = 0 := by
  rw [occurrences_draftSections, List.countP_eq_zero]
  intro entry hentry heq
  have hfull := (List.mem_filter.mp (List.mem_of_mem_filter hentry)).2
  rw [of_decide_eq_true heq, hblank] at hfull
  cases hfull

/-- Text is sectioned once exactly where it is flat. -/
theorem sectionedOnce_iff (h : doc.texts.Nodup) : SectionedOnce doc ↔ FlatText doc := by
  constructor
  · intro honce place hplace hfull
    have hnode : place.node ∈ doc.texts := by
      rw [← map_node_places doc 0 []]
      exact List.mem_map_of_mem hplace
    have hcount := honce.once place.node hnode
    rw [countP_occurrences h hplace hfull] at hcount
    refine ⟨hcount, ?_⟩
    intro hblocks slot hslot
    have hmem := honce.placed place hplace hfull (List.ne_nil_of_mem hslot) hblocks
    have hnumber := (mem_occurrences_iff h hplace hfull).mp hmem
    have hlength : place.slots.length ≤ 1 := by
      rw [List.countP_eq_length.mpr] at hcount
      · exact hcount
      · intro other hother
        simp [Html.shown, hblocks other hother]
    obtain ⟨only, honly⟩ := List.length_eq_one_iff.mp
      (Nat.le_antisymm hlength (List.length_pos_of_mem hslot))
    rw [honly, List.mem_singleton] at hslot hnumber
    rw [hslot, ← hnumber]
  · intro hflat
    refine ⟨rfl, ?_, ?_⟩
    · intro node hnode
      cases hblank : blank node.text with
      | true =>
        rw [occurrences_of_blank hblank]
        exact Nat.zero_le 1
      | false =>
        rw [← map_node_places doc 0 []] at hnode
        obtain ⟨place, hplace, rfl⟩ := List.mem_map.mp hnode
        rw [countP_occurrences h hplace hblank]
        exact (hflat place hplace hblank).1
    · intro place hplace hfull hslots hblocks
      apply (mem_occurrences_iff h hplace hfull).mpr
      obtain ⟨⟨number, title⟩, hslot⟩ := List.exists_mem_of_ne_nil _ hslots
      have htitle : title = false := hblocks _ hslot
      have hnumber : number = place.number := (hflat place hplace hfull).2 hblocks _ hslot
      rw [← htitle, ← hnumber]
      exact hslot

/-- A heading, a paragraph with blank space around a link, and text outside of any paragraph. -/
def flatPage : Html :=
  .element (.heading 1) (.text ⟨1, "Methods".toList⟩ .done) <|
    .element .block (.text ⟨2, " ".toList⟩ <|
      .element .other (.text ⟨3, "we sort".toList⟩ .done) .done) <|
    .text ⟨4, "caption".toList⟩ .done

theorem sectionedOnce_iff_flat : SectionedOnce flatPage := by
  refine (sectionedOnce_iff (by decide)).mpr ?_
  unfold FlatText
  decide +kernel

def wrapped : Html :=
  .element .block (.element .block (.text ⟨1, "x".toList⟩ .done) .done) .done

theorem nested_text_twice : ¬ SectionedOnce wrapped := by
  intro h
  have honce := h.once ⟨1, "x".toList⟩ (by decide)
  revert honce
  decide +kernel

end Synthetos.Analysis
