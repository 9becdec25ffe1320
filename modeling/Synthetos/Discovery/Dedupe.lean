import Synthetos.Lib.Collect
import Synthetos.Lib.Text
import Mathlib.Algebra.Order.Field.Rat

/-!
# Deduplicating search hits

A hit is known by its DOI, else by its arXiv id, else by its title and first author.  Two hits of
one key are merged into the first of them.
-/

namespace Synthetos.Discovery

open Lib Text

/-- What the host provides: `str.lower`, the digits of `\d` and SHA-1 in hexadecimal. -/
structure Host extends Text.Host where
  decimal : Char → Bool
  sha1 : List Char → List Char
  decimal_ascii : ∀ {c}, c.toNat < 128 → decimal c = c.isDigit

structure SourceHit where
  source : List Char
  externalId : List Char
  title : List Char
  abstract : List Char := []
  authors : List (List Char) := []
  categories : List (List Char) := []
  venue : Option (List Char) := none
  year : Option Int := none
  publishedAt : Option Nat := none
  doi : Option (List Char) := none
  sourceUrl : Option (List Char) := none
  pdfUrl : Option (List Char) := none
  embedding : Option (List Rat) := none
  bm25Score : Option Rat := none
  denseScore : Option Rat := none
  firstStageScore : Option Rat := none
  deriving DecidableEq

/-- What a letter of a pattern matches without regard to case. -/
def caseless (c : Char) : Char :=
  if c = 'ſ' then 's' else if c = 'ı' ∨ c = 'İ' then 'i' else c.toLower

/-- `_DOI_PREFIX_RE.sub("", text)` -/
def dropDoiPrefix (text : List Char) : List Char :=
  match ["https://dx.doi.org/", "https://doi.org/", "http://dx.doi.org/", "http://doi.org/"].find?
    fun resolver => resolver.toList.isPrefixOf (text.map caseless) with
  | some resolver => text.drop resolver.toList.length
  | none => text

def orNone (text : List Char) : Option (List Char) := if text.isEmpty then none else some text

/-- `_ARXIV_VERSION_RE.sub("", text)` -/
def dropVersion (decimal : Char → Bool) (text : List Char) : List Char :=
  let kept := text.rdropWhile decimal
  if kept.length < text.length ∧ kept.getLast? = some 'v' then kept.dropLast else text

def removePrefix (word text : List Char) : List Char :=
  if word.isPrefixOf text then text.drop word.length else text

namespace Host

variable (host : Host)

def normalizeDoi (doi : Option (List Char)) : Option (List Char) :=
  (doi.filter (!·.isEmpty)).bind fun doi => orNone (host.lower (dropDoiPrefix (strip doi)))

def normalizeArxivId (arxivId : List Char) : Option (List Char) :=
  if arxivId.isEmpty then none
  else orNone
    (dropVersion host.decimal (removePrefix "arxiv:".toList (host.lower (strip arxivId))))

/-- Handles both `Lastname, First` and `First Last`. -/
def surnameOf (author : List Char) : List Char :=
  let author := strip author
  if ',' ∈ author then host.lower (strip (beforeFirst ',' author))
  else ((words author).getLast?.map fun part => host.lower (strip part)).getD []

/-- The arXiv id of a hit from an arXiv source or the internal corpus. -/
def arxivIdOf (source externalId : List Char) : Option (List Char) :=
  if "arxiv".toList.isPrefixOf source || source == "internal_corpus".toList then
    host.normalizeArxivId externalId
  else none

def titleKey (title : List Char) (authors : List (List Char)) : List Char :=
  "title:".toList ++ host.sha1 (host.lower (strip title) ++ "|".toList ++
    (authors.head?.map host.surnameOf).getD [])

def dedupeKey (hit : SourceHit) : List Char :=
  match host.normalizeDoi hit.doi with
  | some doi => "doi:".toList ++ doi
  | none =>
    match host.arxivIdOf hit.source hit.externalId with
    | some arxivId => "arxiv:".toList ++ arxivId
    | none => host.titleKey hit.title hit.authors

end Host

/-- The value, or the other one where it is missing. -/
def fill {α : Type} (missing : α → Bool) (a b : α) : α := if missing a then b else a

/-- None, or an empty list. -/
def absent {α : Type} (value : Option (List α)) : Bool := value.all List.isEmpty

/-- `primary` wins on every field; `secondary` only fills in missing values. -/
def mergeHits (primary secondary : SourceHit) : SourceHit where
  source := fill List.isEmpty primary.source secondary.source
  externalId := fill List.isEmpty primary.externalId secondary.externalId
  title := fill List.isEmpty primary.title secondary.title
  abstract := fill List.isEmpty primary.abstract secondary.abstract
  authors := fill List.isEmpty primary.authors secondary.authors
  categories := fill List.isEmpty primary.categories secondary.categories
  venue := fill absent primary.venue secondary.venue
  year := fill Option.isNone primary.year secondary.year
  publishedAt := fill Option.isNone primary.publishedAt secondary.publishedAt
  doi := fill absent primary.doi secondary.doi
  sourceUrl := fill absent primary.sourceUrl secondary.sourceUrl
  pdfUrl := fill absent primary.pdfUrl secondary.pdfUrl
  embedding := fill absent primary.embedding secondary.embedding
  bm25Score := fill Option.isNone primary.bm25Score secondary.bm25Score
  denseScore := fill Option.isNone primary.denseScore secondary.denseScore
  firstStageScore := fill Option.isNone primary.firstStageScore secondary.firstStageScore

/-- The dictionary `seen` and the number of hits dropped so far. -/
structure Deduping where
  seen : List (List Char × SourceHit) := []
  dropped : Nat := 0

def Deduping.add (host : Host) (state : Deduping) (hit : SourceHit) : Deduping :=
  let key := host.dedupeKey hit
  { seen := Collect.put mergeHits key hit state.seen
    dropped := state.dropped + if (state.seen.lookup key).isSome then 1 else 0 }

def dedupeHits (host : Host) (hits : List SourceHit) : List SourceHit × Nat :=
  let state := hits.foldl (Deduping.add host) {}
  (state.seen.map Prod.snd, state.dropped)

/-! ### The lookup of fused scores -/

def rankedDedupeKeys (host : Host) (hits : List SourceHit) : List (List Char) :=
  (hits.map host.dedupeKey).eraseDups

/-- `rrf_fuse`: `rank` counts from zero in each ranking. -/
def rrfFuse (rankings : List (List (List Char))) (k : Nat) : List (List Char × Rat) :=
  (rankings.flatMap List.zipIdx).foldl
    (fun fused (key, rank) => Collect.put (· + ·) key (1 / ((k : Rat) + rank + 1)) fused) []

def normalizeScores (scores : List (List Char × Rat)) : List (List Char × Rat) :=
  match scores with
  | [] => []
  | (_, first) :: rest =>
    let lo := rest.foldl (fun lo entry => min lo entry.2) first
    let hi := rest.foldl (fun hi entry => max hi entry.2) first
    scores.map fun (key, value) =>
      (key, if hi - lo < 1 / 1000000000000 then 1 else (value - lo) / (hi - lo))

def fusedScores (host : Host) (internal external : List SourceHit) : List (List Char × Rat) :=
  normalizeScores (rrfFuse
    ([rankedDedupeKeys host internal, rankedDedupeKeys host external].filter (!·.isEmpty)) 60)

/-- The hits of a search: the internal ones go first, so dedupe prefers the embedded copy. -/
def searchHits (host : Host) (internal external : List SourceHit) : List SourceHit :=
  (dedupeHits host (internal ++ external)).1.map fun hit =>
    let score := (fusedScores host internal external).lookup (host.dedupeKey hit)
    { hit with firstStageScore := some (score.getD 0) }

/-- A host that hashes a text to itself. -/
def plainHost : Host where
  toHost := Text.asciiHost
  decimal := Char.isDigit
  sha1 := id
  decimal_ascii _ := rfl

end Synthetos.Discovery
