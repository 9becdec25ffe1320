import Synthetos.Discovery.Dedupe
import Synthetos.Lib.Numerals

/-!
# Papers from arXiv

A hit parsed from an entry of the arXiv API, and one read from the internal corpus.
-/

namespace Synthetos.Discovery

open Lib Text

structure AtomLink where
  rel : Option (List Char)
  title : Option (List Char)
  href : Option (List Char)

/-- An Atom entry: the texts of its elements and the attributes that are read. -/
structure Entry where
  id : Option (List Char)
  title : Option (List Char)
  summary : Option (List Char)
  authors : List (Option (List Char))
  categories : List (Option (List Char))
  published : Option (List Char)
  links : List AtomLink
  doi : Option (List Char)
  journalRef : Option (List Char)

/-- A text that is there and not empty. -/
def truthy (text : Option (List Char)) : Option (List Char) := text.filter (!·.isEmpty)

def oneLine (text : Option (List Char)) : List Char :=
  strip (((text.map strip).getD []).map fun c => if c = '\n' then ' ' else c)

/-- `_parse_entry`; `fromisoformat` gives the time and its year. -/
def parseEntry (fromisoformat : List Char → Option (Nat × Int)) (entry : Entry) : Option SourceHit := do
  let arxivUrl ← truthy (entry.id.map strip)
  let published := (truthy (entry.published.map strip)).bind fun text =>
    fromisoformat (replace "Z".toList "+00:00".toList text)
  let step := fun (urls : Option (List Char) × Option (List Char)) (link : AtomLink) =>
    match truthy link.href with
    | none => urls
    | some href =>
      if link.title = some "pdf".toList then (some href, urls.2)
      else if link.rel = some "alternate".toList then (urls.1, some href)
      else urls
  let (pdfUrl, sourceUrl) := entry.links.foldl step (none, some arxivUrl)
  return {
    source := "arxiv_live".toList
    externalId := afterLast '/' arxivUrl
    title := oneLine entry.title
    abstract := oneLine entry.summary
    authors := (entry.authors.filterMap truthy).map strip
    categories := entry.categories.filterMap truthy
    venue := entry.journalRef.map strip
    year := published.map Prod.snd
    publishedAt := published.map Prod.fst
    doi := entry.doi.map strip
    sourceUrl := sourceUrl
    pdfUrl := pdfUrl }

structure CorpusRow where
  arxivId : List Char
  title : Option (List Char)
  abstract : Option (List Char)
  authors : Option (List (List Char))
  categories : Option (List (List Char))
  createdDate : Option (List Char)
  doi : Option (List Char)
  sourceUrl : Option (List Char)
  pdfUrl : Option (List Char)
  embedding : Option (List Rat)

def rowToHit (row : CorpusRow) (denseScore bm25Score : Option Rat) : SourceHit where
  source := "internal_corpus".toList
  externalId := row.arxivId
  title := row.title.getD []
  abstract := row.abstract.getD []
  authors := row.authors.getD []
  categories := row.categories.getD []
  year := row.createdDate.bind fun created =>
    if 4 ≤ created.length ∧ (created.take 4).all Char.isDigit then
      (natural? (created.take 4)).map Int.ofNat
    else none
  doi := truthy row.doi
  sourceUrl := row.sourceUrl
  pdfUrl := row.pdfUrl
  embedding := row.embedding
  bm25Score := bm25Score
  denseScore := denseScore

/-! ### Ids -/

def Digits (text : List Char) : Prop := ∀ c ∈ text, c.isDigit = true

/-- `YYMM.NNNN` and `YYMM.NNNNN` -/
def NewStyle (id : List Char) : Prop :=
  ∃ month number : List Char, id = month ++ '.' :: number ∧ month.length = 4 ∧
    (number.length = 4 ∨ number.length = 5) ∧ Digits month ∧ Digits number

/-- `archive/NNNNNNN` -/
def OldStyle (id : List Char) : Prop :=
  ∃ archive number : List Char, id = archive ++ '/' :: number ∧ archive ≠ [] ∧
    (∀ c ∈ archive, c.isLower = true ∨ c = '-') ∧ number.length = 7 ∧ Digits number

/-- The id of a paper, without a version. -/
structure PaperId where
  id : List Char
  style : NewStyle id ∨ OldStyle id

/-- Nothing, or `v` and a number. -/
def IsVersion (version : List Char) : Prop :=
  version = [] ∨ ∃ number, version = 'v' :: number ∧ number ≠ [] ∧ Digits number

/-- A hit parsed from an entry with the address of this paper. -/
def LiveHit (hit : SourceHit) (paper : PaperId) : Prop :=
  ∃ fromisoformat entry url base version, parseEntry fromisoformat entry = some hit ∧
    entry.id = some url ∧ strip url = base ++ '/' :: (paper.id ++ version) ∧ IsVersion version

def CorpusHit (hit : SourceHit) (paper : PaperId) : Prop :=
  ∃ row denseScore bm25Score version, hit = rowToHit row denseScore bm25Score ∧
    row.arxivId = paper.id ++ version ∧ IsVersion version

def Denotes (hit : SourceHit) (paper : PaperId) : Prop := LiveHit hit paper ∨ CorpusHit hit paper

/-- The hit has the whole id of its paper: the address of an old-style paper is cut at its slash. -/
def KeepsId (hit : SourceHit) (paper : PaperId) : Prop :=
  LiveHit hit paper ∧ NewStyle paper.id ∨ CorpusHit hit paper

/-- What makes two hits one: their DOIs where both have one, else their papers where neither has. -/
def SameRecord (doi doi' : Option (List Char)) (paper paper' : PaperId) : Prop :=
  match doi, doi' with
  | some doi, some doi' => doi = doi'
  | none, none => paper.id = paper'.id
  | _, _ => False

variable {host : Host} {hit hit' : SourceHit} {paper paper' : PaperId} {version text : List Char}

/-! ### Reading an id -/

/-- A character of an id or a version. -/
def PlainChar (c : Char) : Prop :=
  c.isDigit = true ∨ c.isLower = true ∨ c = '-' ∨ c = '.' ∨ c = '/'

theorem isLower_iff {c : Char} : c.isLower = true ↔ 97 ≤ c.toNat ∧ c.toNat ≤ 122 := by
  change (decide (97 ≤ c.val) && decide (c.val ≤ 122)) = true ↔ _
  simp [UInt32.le_iff_toNat_le, ← Char.toNat_val]

theorem toLower_of_isLower {c : Char} (h : c.isLower = true) : c.toLower = c := by
  obtain ⟨hlow, -⟩ := isLower_iff.mp h
  refine dif_neg ?_
  rintro ⟨-, hhigh⟩
  have hupper : c.toNat ≤ 90 := hhigh
  omega

theorem PlainChar.bounds {c : Char} (h : PlainChar c) :
    c.toNat < 128 ∧ isSpace c = false ∧ c.toLower = c ∧ c ≠ ':' := by
  rcases h with hdigit | hlower | rfl | rfl | rfl
  · have hbounds := isDigit_iff.mp hdigit
    refine ⟨by omega, isSpace_of_isDigit hdigit, toLower_of_isDigit hdigit, ?_⟩
    rintro rfl
    cases hdigit
  · have hbounds := isLower_iff.mp hlower
    refine ⟨by omega, ?_, toLower_of_isLower hlower, ?_⟩
    · simp [isSpace]
      omega
    · rintro rfl
      cases hlower
  · decide
  · decide
  · decide

theorem PaperId.shape (paper : PaperId) : ∃ stem sep number, paper.id = stem ++ sep :: number ∧
    sep.isDigit = false ∧ sep ≠ 'v' ∧ Digits number ∧ ∀ c ∈ paper.id, PlainChar c := by
  rcases paper.style with ⟨month, number, hid, -, -, hmonth, hnumber⟩ |
    ⟨archive, number, hid, -, harchive, -, hnumber⟩
  · refine ⟨month, '.', number, hid, by decide, by decide, hnumber, ?_⟩
    rw [hid]
    intro c hc
    rcases List.mem_append.mp hc with hc | hc
    · exact .inl (hmonth c hc)
    · rcases List.mem_cons.mp hc with rfl | hc
      · exact .inr (.inr (.inr (.inl rfl)))
      · exact .inl (hnumber c hc)
  · refine ⟨archive, '/', number, hid, by decide, by decide, hnumber, ?_⟩
    rw [hid]
    intro c hc
    rcases List.mem_append.mp hc with hc | hc
    · rcases harchive c hc with hlower | hdash
      · exact .inr (.inl hlower)
      · exact .inr (.inr (.inl hdash))
    · rcases List.mem_cons.mp hc with rfl | hc
      · exact .inr (.inr (.inr (.inr rfl)))
      · exact .inl (hnumber c hc)

theorem IsVersion.plain (h : IsVersion version) : ∀ c ∈ version, PlainChar c := by
  rcases h with rfl | ⟨number, rfl, -, hnumber⟩
  · simp
  · intro c hc
    rcases List.mem_cons.mp hc with rfl | hc
    · exact .inr (.inl (by decide))
    · exact .inl (hnumber c hc)

theorem rdropWhile_append {p : Char → Bool} {dropped : List Char}
    (hdropped : ∀ c ∈ dropped, p c = true) (kept : List Char) (hkept : ∀ c ∈ kept.getLast?, p c = false) :
    (kept ++ dropped).rdropWhile p = kept := by
  have hrest : kept.reverse.dropWhile p = kept.reverse := by
    cases hreverse : kept.reverse with
    | nil => rfl
    | cons c rest =>
      have hlast : kept.getLast? = some c := by rw [← List.head?_reverse, hreverse]; rfl
      simp [hkept c hlast]
  rw [List.rdropWhile, List.reverse_append,
    List.dropWhile_append_of_pos (by simpa using hdropped), hrest, List.reverse_reverse]

theorem dropVersion_append {decimal : Char → Bool}
    (hdecimal : ∀ {c : Char}, c.toNat < 128 → decimal c = c.isDigit) (paper : PaperId)
    (h : IsVersion version) : dropVersion decimal (paper.id ++ version) = paper.id := by
  have hdigits {number : List Char} (hnumber : Digits number) :
      ∀ c ∈ number, decimal c = true := by
    intro c hc
    rw [hdecimal (PlainChar.bounds (.inl (hnumber c hc))).1, hnumber c hc]
  rcases h with rfl | ⟨number, rfl, hne, hnumber⟩
  · obtain ⟨stem, sep, number, hid, hsep, hv, hnumber, hplain⟩ := paper.shape
    have hlast : decimal sep = false := by
      rw [hdecimal (hplain sep (by rw [hid]; simp)).bounds.1, hsep]
    have hkept : (stem ++ sep :: number).rdropWhile decimal = stem ++ [sep] := by
      have hdropped := rdropWhile_append (hdigits hnumber) (stem ++ [sep])
        (by simpa using hlast)
      rwa [List.append_assoc] at hdropped
    rw [List.append_nil, hid, dropVersion, hkept, if_neg]
    simp [hv]
  · have hkept : (paper.id ++ 'v' :: number).rdropWhile decimal = paper.id ++ ['v'] := by
      have hlast : decimal 'v' = false := by rw [hdecimal (by decide)]; decide
      have hdropped := rdropWhile_append (hdigits hnumber) (paper.id ++ ['v'])
        (by simpa using hlast)
      rwa [List.append_assoc] at hdropped
    have hlonger : 0 < number.length := List.length_pos_iff.mpr hne
    rw [dropVersion, hkept, if_pos]
    · simp
    · simp
      omega

theorem normalizeArxivId_append (host : Host) (paper : PaperId) (h : IsVersion version) :
    host.normalizeArxivId (paper.id ++ version) = some paper.id := by
  have hplain : ∀ c ∈ paper.id ++ version, PlainChar c := by
    obtain ⟨-, -, -, -, -, -, -, hid⟩ := paper.shape
    exact List.forall_mem_append.mpr ⟨hid, h.plain⟩
  have hne : paper.id ≠ [] := by
    obtain ⟨stem, sep, number, hid, -⟩ := paper.shape
    simp [hid]
  have hstrip : strip (paper.id ++ version) = paper.id ++ version :=
    (trimmed_of_not_space fun c hc => (hplain c hc).bounds.2.1).strip_eq
  have hlower : host.lower (paper.id ++ version) = paper.id ++ version := by
    rw [host.lower_ascii fun c hc => (hplain c hc).bounds.1, Text.lower]
    exact (List.map_congr_left fun c hc => (hplain c hc).bounds.2.2.1).trans (List.map_id _)
  have hprefix : removePrefix "arxiv:".toList (paper.id ++ version) = paper.id ++ version := by
    rw [removePrefix, if_neg]
    intro hprefix
    have hcolon : ':' ∈ paper.id ++ version :=
      (List.isPrefixOf_iff_prefix.mp hprefix).subset (by decide)
    exact (hplain _ hcolon).bounds.2.2.2 rfl
  have hfull : (paper.id ++ version).isEmpty = false := by simp [hne]
  rw [Host.normalizeArxivId, hfull, hstrip, hlower, hprefix,
    dropVersion_append host.decimal_ascii paper h]
  simp [orNone, hne]

/-! ### Two hits -/

theorem slash_not_mem_digits (h : Digits text) : '/' ∉ text := by
  intro hmem
  cases h _ hmem

theorem slash_not_mem (h : NewStyle paper.id) (hversion : IsVersion version) :
    '/' ∉ paper.id ++ version := by
  obtain ⟨month, number, hid, -, -, hmonth, hnumber⟩ := h
  have hslash : '/' ∉ paper.id := by
    have hmonth := slash_not_mem_digits hmonth
    have hnumber := slash_not_mem_digits hnumber
    simp [hid, hmonth, hnumber]
  rcases hversion with rfl | ⟨digits, rfl, -, hdigits⟩
  · simpa using hslash
  · have hdigits := slash_not_mem_digits hdigits
    simp [hslash, hdigits]

theorem afterLast_append_cons {sep : Char} (before : List Char) (h : sep ∉ text) :
    afterLast sep (before ++ sep :: text) = text := by
  have hpass : ∀ c ∈ text.reverse, (c != sep) = true := by
    intro c hc
    have hne : c ≠ sep := fun heq => h (heq ▸ List.mem_reverse.mp hc)
    simpa using hne
  rw [afterLast, List.reverse_append, List.reverse_cons, List.append_assoc,
    List.takeWhile_append_of_pos hpass]
  simp

theorem parseEntry_some {fromisoformat : List Char → Option (Nat × Int)} {entry : Entry}
    {url : List Char} (h : parseEntry fromisoformat entry = some hit) (hid : entry.id = some url) :
    hit.source = "arxiv_live".toList ∧ hit.externalId = afterLast '/' (strip url) := by
  obtain ⟨arxivUrl, hurl, hhit⟩ := Option.bind_eq_some_iff.mp h
  rw [hid] at hurl
  obtain rfl : strip url = arxivUrl := by
    have hfilter := Option.eq_some_of_filter_eq_some hurl
    simpa using hfilter
  cases hhit
  exact ⟨rfl, rfl⟩

theorem arxivIdOf_of_keepsId (host : Host) (h : KeepsId hit paper) :
    host.arxivIdOf hit.source hit.externalId = some paper.id := by
  rcases h with ⟨⟨fromisoformat, entry, url, base, version, hentry, hid, hurl, hversion⟩, hnew⟩ |
    ⟨row, denseScore, bm25Score, version, rfl, hid, hversion⟩
  · obtain ⟨hsource, hexternal⟩ := parseEntry_some hentry hid
    rw [hurl, afterLast_append_cons base (slash_not_mem hnew hversion)] at hexternal
    rw [Host.arxivIdOf, hsource, hexternal, if_pos (by decide)]
    exact normalizeArxivId_append host paper hversion
  · have hsource : (rowToHit row denseScore bm25Score).source = "internal_corpus".toList := rfl
    have hexternal : (rowToHit row denseScore bm25Score).externalId = row.arxivId := rfl
    rw [Host.arxivIdOf, hsource, hexternal, hid, if_pos (by decide)]
    exact normalizeArxivId_append host paper hversion

theorem dedupeKey_of_keepsId (host : Host) (h : KeepsId hit paper) :
    host.dedupeKey hit = match host.normalizeDoi hit.doi with
      | some doi => "doi:".toList ++ doi
      | none => "arxiv:".toList ++ paper.id := by
  rewrite [Host.dedupeKey, arxivIdOf_of_keepsId host h]
  rfl

/-- Two hits that have their whole ids share a key exactly where they are of one record. -/
theorem dedupeKey_eq_iff (host : Host) (h : KeepsId hit paper) (h' : KeepsId hit' paper') :
    host.dedupeKey hit = host.dedupeKey hit' ↔
      SameRecord (host.normalizeDoi hit.doi) (host.normalizeDoi hit'.doi) paper paper' := by
  rw [dedupeKey_of_keepsId host h, dedupeKey_of_keepsId host h']
  cases host.normalizeDoi hit.doi with
  | some doi =>
    cases host.normalizeDoi hit'.doi with
    | some doi' => simp [SameRecord]
    | none => simp [SameRecord]
  | none =>
    cases host.normalizeDoi hit'.doi with
    | some doi' => simp [SameRecord]
    | none => simp [SameRecord]

def entryAt (url : String) (doi : Option String) : Entry :=
  ⟨some url.toList, none, none, [], [], none, [], doi.map String.toList, none⟩

def liveHit (externalId url : String) (doi : Option String) : SourceHit :=
  { source := "arxiv_live".toList, externalId := externalId.toList, title := [],
    doi := (doi.map String.toList).map strip, sourceUrl := some url.toList }

def corpusHit (arxivId : String) : SourceHit :=
  rowToHit ⟨arxivId.toList, none, none, none, none, none, none, none, none, none⟩ none none

theorem digits_of_all {text : List Char} (h : text.all Char.isDigit = true) : Digits text :=
  List.all_eq_true.mp h

theorem archive_of_all {archive : List Char}
    (h : (archive.all fun c => c.isLower || c == '-') = true) :
    ∀ c ∈ archive, c.isLower = true ∨ c = '-' := by
  intro c hc
  simpa using List.all_eq_true.mp h c hc

theorem newStyle_paper : NewStyle "2301.12345".toList :=
  ⟨"2301".toList, "12345".toList, rfl, rfl, .inr rfl, digits_of_all (by decide),
    digits_of_all (by decide)⟩

def newPaper : PaperId := ⟨"2301.12345".toList, .inl newStyle_paper⟩

def oldPaper (archive : List Char) (hne : archive ≠ [])
    (harchive : ∀ c ∈ archive, c.isLower = true ∨ c = '-') : PaperId where
  id := archive ++ "/9901001".toList
  style := .inr ⟨archive, "9901001".toList, rfl, hne, harchive, rfl,
    digits_of_all (by decide)⟩

theorem isVersion_one : IsVersion ['v', '1'] :=
  .inr ⟨['1'], rfl, by decide, digits_of_all (by decide)⟩

theorem newPaper_live (doi : Option String) :
    LiveHit (liveHit "2301.12345v1" "http://arxiv.org/abs/2301.12345v1" doi) newPaper :=
  ⟨fun _ => none, entryAt "http://arxiv.org/abs/2301.12345v1" doi, _,
    "http://arxiv.org/abs".toList, ['v', '1'], rfl, rfl, by decide, isVersion_one⟩

theorem newPaper_corpus : CorpusHit (corpusHit "2301.12345") newPaper :=
  ⟨_, none, none, [], rfl, rfl, .inl rfl⟩

theorem versions_share_key :
    plainHost.dedupeKey (liveHit "2301.12345v1" "http://arxiv.org/abs/2301.12345v1" none) =
      plainHost.dedupeKey (corpusHit "2301.12345") :=
  (dedupeKey_eq_iff plainHost (.inl ⟨newPaper_live none, newStyle_paper⟩)
    (.inr newPaper_corpus)).mpr rfl

/-- A DOI on one side only keeps a paper apart, and two old papers are one where their archives are
cut off. -/
theorem papers_confused :
    (∃ hit hit' paper, Denotes hit paper ∧ Denotes hit' paper ∧
        plainHost.dedupeKey hit ≠ plainHost.dedupeKey hit') ∧
      ∃ hit hit' paper paper', Denotes hit paper ∧ Denotes hit' paper' ∧ paper.id ≠ paper'.id ∧
        plainHost.dedupeKey hit = plainHost.dedupeKey hit' := by
  refine ⟨⟨_, _, newPaper, .inl (newPaper_live (some "10.1000/xyz")), .inr newPaper_corpus,
    by decide +kernel⟩, ?_⟩
  have hphysics : Denotes (liveHit "9901001v1" "http://arxiv.org/abs/hep-th/9901001v1" none)
      (oldPaper "hep-th".toList (by decide) (archive_of_all (by decide))) :=
    .inl ⟨fun _ => none, entryAt "http://arxiv.org/abs/hep-th/9901001v1" none, _,
      "http://arxiv.org/abs".toList, ['v', '1'], rfl, rfl, by decide, isVersion_one⟩
  have hmath : Denotes (liveHit "9901001v1" "http://arxiv.org/abs/math/9901001v1" none)
      (oldPaper "math".toList (by decide) (archive_of_all (by decide))) :=
    .inl ⟨fun _ => none, entryAt "http://arxiv.org/abs/math/9901001v1" none, _,
      "http://arxiv.org/abs".toList, ['v', '1'], rfl, rfl, by decide, isVersion_one⟩
  exact ⟨_, _, _, _, hphysics, hmath, by decide, by decide +kernel⟩

end Synthetos.Discovery
