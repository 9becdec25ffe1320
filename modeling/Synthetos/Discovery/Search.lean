import Synthetos.Discovery.Dedupe
import Synthetos.Lib.Except
import Synthetos.Lib.Json

/-!
# The search of a discovery session

The sources are asked for the text of the profile, made sharper by the hints of the intake and by
the patterns of earlier cycles.
-/

namespace Synthetos.Discovery

open Lib Text

structure DiscoveryBudget where
  maxInternalResults : Nat := 200
  maxExternalResults : Nat := 50
  analyzeTopN : Nat := 25

structure SourceQuery where
  text : List Char
  topK : Nat
  categories : List (List Char)
  deriving DecidableEq

structure Scope where
  internalCorpus : Bool := true
  arxivLive : Bool := true
  deriving DecidableEq

def scopeFlags (profileScope : Option Dict) : Scope :=
  let flag (key : String) : Bool := ((profileScope.getD []).get? key).elim true Json.truthy
  ⟨flag "internal_corpus", flag "arxiv_live"⟩

/-! ### Hints -/

/-- `v or default` -/
def orElse (v : Option Json) (default : Json) : Json := (v.filter Json.truthy).getD default

/-- `dict(v)` -/
def asDict : Json → Except String Dict
  | .obj fields => .ok fields
  | _ => .error "ValueError: dictionary update sequence element #0 has a wrong length"

/-- The texts of the items of a value. -/
def itemTexts : Json → Except String (List (List Char))
  | .arr items => .ok (items.map Json.strChars)
  | .str s => .ok (s.toList.map ([·]))
  | .obj fields => .ok (fields.map fun field => field.1.toList)
  | _ => .error "TypeError: object is not iterable"

/-- `[str(item).strip() for item in items if str(item).strip()]` -/
def strippedItems (v : Json) : Except String (List (List Char)) := do
  return ((← itemTexts v).map strip).filter (!·.isEmpty)

structure SearchHints where
  derivedQuery : Option (List Char)
  synonyms : List (List Char)
  categories : List (List Char)
  deriving DecidableEq

def searchHints (profileScope : Option Dict) : Except String SearchHints := do
  let hints ← asDict (orElse ((profileScope.getD []).get? "search_hints") (.obj []))
  let synonyms ← strippedItems (orElse (hints.get? "synonyms") (.arr []))
  let categories ← strippedItems (orElse (hints.get? "categories") (.arr []))
  return {
    derivedQuery := ((hints.get? "derived_query").filter Json.truthy).map fun v => strip v.strChars
    synonyms, categories }

/-- The terms and categories collected so far, with what the query had. -/
structure PatternHints where
  terms : List (List Char) := []
  categories : List (List Char) := []

/-- Add an item that is not empty and not there yet. -/
def addNew (item : List Char) (present : List (List Char)) : List (List Char) :=
  if item.isEmpty || present.contains item then present else present ++ [item]

/-- A text with blanks for underscores; other values are no terms. -/
def termOf : Option Json → List Char
  | some (.str s) => strip (replace "_".toList " ".toList s.toList)
  | _ => []

def PatternHints.add (given : List (List Char)) (hints : PatternHints) (body : Dict) :
    Except String PatternHints := do
  let params : Dict ← match orElse (body.get? "parameters") (.obj []) with
    | .obj fields => pure fields
    | _ => throw "AttributeError: 'get'"
  let categories : List (List Char) := match orElse (body.get? "categories") (.arr []) with
    | .arr items => items.map fun item => strip item.strChars
    | _ => []
  return {
    terms := addNew (termOf (params.get? "next_action"))
      (addNew (termOf (body.get? "heuristic_kind")) hints.terms)
    categories := categories.foldl
      (fun seen item => if given.contains item then seen else addNew item seen) hints.categories }

/-- `_apply_pattern_hints`: the query text and the categories. -/
def applyPatternHints (queryText : List Char) (categories : List (List Char))
    (bodies : List Dict) : Except String (List Char × List (List Char)) := do
  let hints ← bodies.foldlM (PatternHints.add categories) {}
  let text := if hints.terms.isEmpty then queryText
    else strip (join " " (queryText :: hints.terms))
  return (text, categories ++ hints.categories)

def searchText (queryText : List Char) (hints : SearchHints) (bodies : List Dict) :
    Except String (List Char × List (List Char)) :=
  let derived := (hints.derivedQuery.filter (!·.isEmpty)).getD queryText
  let text := if hints.synonyms.isEmpty then derived
    else join " " (derived :: hints.synonyms.take 8)
  applyPatternHints text hints.categories bodies

/-! ### The sources -/

structure Sources where
  internal : SourceQuery → Except String (List SourceHit)
  external : SourceQuery → Except String (List SourceHit)

def noSources : Sources := ⟨fun _ => .ok [], fun _ => .ok []⟩

/-- The hits of the internal corpus; an error ends the search. -/
def internalHits (sources : Sources) (text : List Char) (categories : List (List Char))
    (scope : Scope) (budget : DiscoveryBudget) : Except String (List SourceHit) :=
  if scope.internalCorpus then
    sources.internal ⟨text, budget.maxInternalResults, categories⟩
  else .ok []

/-- The hits of the live source, none where it fails. -/
def externalHits (sources : Sources) (text : List Char) (categories : List (List Char))
    (scope : Scope) (budget : DiscoveryBudget) : List SourceHit :=
  if scope.arxivLive ∧ 0 < budget.maxExternalResults then
    match sources.external ⟨text, budget.maxExternalResults, categories⟩ with
    | .ok hits => hits
    | .error _ => []
  else []

/-- `_run_search`: the deduplicated hits. -/
def runSearch (host : Host) (sources : Sources) (text : List Char)
    (categories : List (List Char)) (scope : Scope) (budget : DiscoveryBudget) :
    Except String (List SourceHit) := do
  let internal ← internalHits sources text categories scope budget
  return searchHits host internal (externalHits sources text categories scope budget)

/-- The search for a profile; only the error of a source is caught. -/
def searchProfile (host : Host) (sources : Sources) (queryText : List Char)
    (sourceScope : Option Dict) (budget : DiscoveryBudget) (bodies : List Dict) :
    Except String (List SourceHit) := do
  let hints ← searchHints sourceScope
  let (text, categories) ← searchText queryText hints bodies
  (runSearch host sources text categories (scopeFlags sourceScope) budget).mapError
    ("discovery_search failed: " ++ ·)

end Synthetos.Discovery
