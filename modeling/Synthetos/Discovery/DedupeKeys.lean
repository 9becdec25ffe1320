import Synthetos.Discovery.Dedupe

/-!
# The keys of deduplicated hits

A hit keeps its DOI and its arXiv id when another is merged into it.  A hit known by its title may
be given an arXiv id, or another title.
-/

namespace Synthetos.Discovery

open Lib Text

def firstOf {α : Type} (field : SourceHit → List α) (hits : List SourceHit) : List α :=
  ((hits.map field).find? fun value => !value.isEmpty).getD []

/-- Of the hits up to any place that are known by one title and author, the first source and the
first external id make no arXiv id, and the first title and the first authors make the same key. -/
def TitlesStay (host : Host) (hits : List SourceHit) : Prop :=
  ∀ seen rest hit, hits = seen ++ rest → hit ∈ seen → host.normalizeDoi hit.doi = none →
    host.arxivIdOf hit.source hit.externalId = none →
      let same := seen.filter fun other => host.dedupeKey other == host.dedupeKey hit
      host.arxivIdOf (firstOf SourceHit.source same) (firstOf SourceHit.externalId same) = none ∧
        host.titleKey (firstOf SourceHit.title same) (firstOf SourceHit.authors same) =
          host.titleKey hit.title hit.authors

structure WellFormed (host : Host) (hits : List SourceHit) : Prop where
  keys : (dedupeHits host hits).1.map host.dedupeKey = (hits.map host.dedupeKey).eraseDups
  count : (dedupeHits host hits).2 + (dedupeHits host hits).1.length = hits.length
  /-- No merge changes the key of the hit it keeps. -/
  kept : ∀ seen rest, hits = seen ++ rest →
    ∀ entry ∈ (seen.foldl (Deduping.add host) {}).seen, host.dedupeKey entry.2 = entry.1
  again : dedupeHits host (dedupeHits host hits).1 = ((dedupeHits host hits).1, 0)
  scored : ∀ internal external, hits = internal ++ external → ∀ hit ∈ (dedupeHits host hits).1,
    ((fusedScores host internal external).lookup (host.dedupeKey hit)).isSome = true

variable {host : Host} {hit other merged : SourceHit} {hits same : List SourceHit}
  {key : List Char}

/-! ### The loop -/

theorem seen_eq (host : Host) (hits : List SourceHit) :
    (hits.foldl (Deduping.add host) {}).seen =
      Collect.collect host.dedupeKey mergeHits hits := by
  induction hits using List.reverseRecOn with
  | nil => rfl
  | append_singleton hits hit ih =>
    rw [List.foldl_append, Collect.collect_snoc, ← ih]
    rfl

theorem add_counts (host : Host) (state : Deduping) (hit : SourceHit) :
    (state.add host hit).dropped + (state.add host hit).seen.length =
      state.dropped + state.seen.length + 1 := by
  unfold Deduping.add
  dsimp only
  rw [Collect.length_put]
  split <;> omega

theorem dropped_add_length (host : Host) (hits : List SourceHit) :
    (hits.foldl (Deduping.add host) {}).dropped +
      (hits.foldl (Deduping.add host) {}).seen.length = hits.length := by
  induction hits using List.reverseRecOn with
  | nil => rfl
  | append_singleton hits hit ih =>
    rw [List.foldl_append, List.foldl_cons, List.foldl_nil, add_counts, ih, List.length_append]
    rfl

/-! ### What hits are merged into -/

theorem firstOf_snoc {α : Type} (field : SourceHit → List α) (hits : List SourceHit)
    (hit : SourceHit) :
    firstOf field (hits ++ [hit]) = fill List.isEmpty (firstOf field hits) (field hit) := by
  unfold firstOf fill
  rw [List.map_append, List.find?_append]
  cases hfind : (hits.map field).find? fun value => !value.isEmpty with
  | none =>
    cases hempty : field hit <;> simp [hempty]
  | some value =>
    have hfull : value.isEmpty = false := by simpa using List.find?_some hfind
    simp [hfull]

theorem firstOf_singleton {α : Type} (field : SourceHit → List α) (hit : SourceHit) :
    firstOf field [hit] = field hit := by
  unfold firstOf
  cases hfield : field hit <;> simp [hfield]

def doiText (hit : SourceHit) : List Char := hit.doi.getD []

theorem doiText_mergeHits : doiText (mergeHits hit other) =
    fill List.isEmpty (doiText hit) (doiText other) := by
  unfold doiText mergeHits fill
  cases hdoi : hit.doi with
  | none => simp [absent]
  | some doi => cases doi <;> simp [absent]

/-- The fields a key is made of are the first that are not empty. -/
structure FirstFields (same : List SourceHit) (merged : SourceHit) : Prop where
  source : merged.source = firstOf SourceHit.source same
  externalId : merged.externalId = firstOf SourceHit.externalId same
  title : merged.title = firstOf SourceHit.title same
  authors : merged.authors = firstOf SourceHit.authors same
  doi : doiText merged = firstOf doiText same

theorem firstFields_of_merged (h : Collect.merged mergeHits same = some merged) :
    FirstFields same merged := by
  induction same using List.reverseRecOn generalizing merged with
  | nil => cases h
  | append_singleton same hit ih =>
    rw [Collect.merged_snoc] at h
    cases hsame : Collect.merged mergeHits same with
    | none =>
      have hnil : same = [] := by
        cases same with
        | nil => rfl
        | cons _ _ => cases hsame
      rw [hsame] at h
      cases h
      subst hnil
      constructor <;> exact (firstOf_singleton _ _).symm
    | some before =>
      obtain ⟨hsource, hexternal, htitle, hauthors, hdoi⟩ := ih hsame
      rw [hsame] at h
      cases h
      constructor
      · rw [firstOf_snoc, ← hsource]
        rfl
      · rw [firstOf_snoc, ← hexternal]
        rfl
      · rw [firstOf_snoc, ← htitle]
        rfl
      · rw [firstOf_snoc, ← hauthors]
        rfl
      · rw [firstOf_snoc, ← hdoi]
        exact doiText_mergeHits

theorem firstOf_cons_of_ne_nil {α : Type} {field : SourceHit → List α} (h : field hit ≠ []) :
    firstOf field (hit :: same) = field hit := by
  have hfull : (field hit).isEmpty = false := by simpa using h
  simp [firstOf, hfull]

theorem firstOf_cases {α : Type} (field : SourceHit → List α) (hits : List SourceHit) :
    firstOf field hits = [] ∨ ∃ hit ∈ hits, firstOf field hits = field hit := by
  unfold firstOf
  cases hfind : (hits.map field).find? fun value => !value.isEmpty with
  | none => exact .inl rfl
  | some value =>
    obtain ⟨hit, hmem, hvalue⟩ := List.mem_map.mp (List.mem_of_find?_eq_some hfind)
    exact .inr ⟨hit, hmem, hvalue.symm⟩

/-! ### Keys -/

theorem normalizeDoi_doiText (host : Host) (hit : SourceHit) :
    host.normalizeDoi hit.doi = host.normalizeDoi (some (doiText hit)) := by
  unfold doiText
  cases hit.doi <;> rfl

theorem dedupeKey_cases (host : Host) (hit : SourceHit) :
    (∃ doi, host.normalizeDoi hit.doi = some doi ∧ host.dedupeKey hit = "doi:".toList ++ doi) ∨
      (∃ arxivId, host.normalizeDoi hit.doi = none ∧
        host.arxivIdOf hit.source hit.externalId = some arxivId ∧
        host.dedupeKey hit = "arxiv:".toList ++ arxivId) ∨
      host.normalizeDoi hit.doi = none ∧ host.arxivIdOf hit.source hit.externalId = none ∧
        host.dedupeKey hit = host.titleKey hit.title hit.authors := by
  unfold Host.dedupeKey
  cases hdoi : host.normalizeDoi hit.doi with
  | some doi => exact .inl ⟨doi, rfl, rfl⟩
  | none =>
    cases harxiv : host.arxivIdOf hit.source hit.externalId with
    | some arxivId => exact .inr (.inl ⟨arxivId, rfl, rfl, rfl⟩)
    | none => exact .inr (.inr ⟨rfl, rfl, rfl⟩)

theorem head?_titleKey (host : Host) (title : List Char) (authors : List (List Char)) :
    (host.titleKey title authors).head? = some 't' := rfl

theorem normalizeDoi_eq_none_iff :
    host.normalizeDoi hit.doi = none ↔ (host.dedupeKey hit).head? ≠ some 'd' := by
  rcases dedupeKey_cases host hit with ⟨doi, hdoi, hkey⟩ | ⟨arxivId, hdoi, -, hkey⟩ | ⟨hdoi, -, hkey⟩
  · simp [hdoi, hkey]
  · simp [hdoi, hkey]
  · simp [hdoi, hkey, head?_titleKey]

theorem arxivIdOf_eq_none_iff (h : host.normalizeDoi hit.doi = none) :
    host.arxivIdOf hit.source hit.externalId = none ↔ (host.dedupeKey hit).head? ≠ some 'a' := by
  rcases dedupeKey_cases host hit with ⟨doi, hdoi, -⟩ | ⟨arxivId, -, hid, hkey⟩ | ⟨-, hid, hkey⟩
  · rw [h] at hdoi
    cases hdoi
  · simp [hid, hkey]
  · simp [hid, hkey, head?_titleKey]

theorem dedupeKey_of_no_doi (h : host.normalizeDoi hit.doi = none) :
    host.dedupeKey hit = match host.arxivIdOf hit.source hit.externalId with
      | some arxivId => "arxiv:".toList ++ arxivId
      | none => host.titleKey hit.title hit.authors := by
  rewrite [Host.dedupeKey, h]
  rfl

theorem firstOf_doi_none (h : ∀ hit ∈ same, host.normalizeDoi hit.doi = none) :
    host.normalizeDoi (some (firstOf doiText same)) = none := by
  rcases firstOf_cases doiText same with hempty | ⟨hit, hmem, hfirst⟩
  · rw [hempty]
    rfl
  · rw [hfirst, ← normalizeDoi_doiText]
    exact h hit hmem

theorem ne_nil_of_doi {doi : List Char} (h : host.normalizeDoi hit.doi = some doi) :
    doiText hit ≠ [] := by
  intro hempty
  rw [normalizeDoi_doiText, hempty] at h
  cases h

theorem ne_nil_of_arxivId {source externalId arxivId : List Char}
    (h : host.arxivIdOf source externalId = some arxivId) : source ≠ [] ∧ externalId ≠ [] := by
  constructor
  · rintro rfl
    have hother : ("arxiv".toList.isPrefixOf [] || [] == "internal_corpus".toList) = false := by
      decide
    rw [Host.arxivIdOf, hother] at h
    cases h
  · rintro rfl
    unfold Host.arxivIdOf at h
    split at h <;> cases h

theorem dedupeKey_merged_iff (hsame : ∀ other ∈ same, host.dedupeKey other = host.dedupeKey hit)
    (hmerged : Collect.merged mergeHits same = some merged) :
    host.dedupeKey merged = host.dedupeKey hit ↔
      (host.normalizeDoi hit.doi = none → host.arxivIdOf hit.source hit.externalId = none →
        host.arxivIdOf (firstOf SourceHit.source same) (firstOf SourceHit.externalId same) = none ∧
          host.titleKey (firstOf SourceHit.title same) (firstOf SourceHit.authors same) =
            host.titleKey hit.title hit.authors) := by
  obtain ⟨hsource, hexternal, htitle, hauthors, hdoiText⟩ := firstFields_of_merged hmerged
  have hdoi := normalizeDoi_doiText host merged
  obtain ⟨first, rest, rfl⟩ : ∃ first rest, same = first :: rest := by
    cases same with
    | nil => cases hmerged
    | cons first rest => exact ⟨first, rest, rfl⟩
  have hfirst := hsame first List.mem_cons_self
  cases hhit : host.normalizeDoi hit.doi with
  | some doi =>
    refine iff_of_true ?_ (fun h => by cases h)
    have hsome : host.normalizeDoi first.doi ≠ none := by
      rw [Ne, normalizeDoi_eq_none_iff, hfirst, ← normalizeDoi_eq_none_iff, hhit]
      simp
    obtain ⟨doi', hdoi'⟩ := Option.ne_none_iff_exists'.mp hsome
    rw [hdoiText, firstOf_cons_of_ne_nil (ne_nil_of_doi hdoi'), ← normalizeDoi_doiText] at hdoi
    rw [← hfirst, Host.dedupeKey, Host.dedupeKey, hdoi, hdoi']
  | none =>
    have hnone : ∀ other ∈ first :: rest, host.normalizeDoi other.doi = none := by
      intro other hother
      rw [normalizeDoi_eq_none_iff, hsame other hother, ← normalizeDoi_eq_none_iff, hhit]
    rw [hdoiText, firstOf_doi_none hnone] at hdoi
    rw [dedupeKey_of_no_doi hdoi, hsource, hexternal, htitle, hauthors]
    cases hid : host.arxivIdOf hit.source hit.externalId with
    | some arxivId =>
      refine iff_of_true ?_ (fun _ h => by cases h)
      have hsome : host.arxivIdOf first.source first.externalId ≠ none := by
        rw [Ne, arxivIdOf_eq_none_iff (hnone first List.mem_cons_self), hfirst,
          ← arxivIdOf_eq_none_iff hhit, hid]
        simp
      obtain ⟨arxivId', hid'⟩ := Option.ne_none_iff_exists'.mp hsome
      obtain ⟨hsource', hexternal'⟩ := ne_nil_of_arxivId hid'
      rw [firstOf_cons_of_ne_nil hsource', firstOf_cons_of_ne_nil hexternal', ← hfirst,
        dedupeKey_of_no_doi (hnone first List.mem_cons_self), hid']
    | none =>
      rw [dedupeKey_of_no_doi hhit, hid]
      cases hmoved : host.arxivIdOf (firstOf SourceHit.source (first :: rest))
          (firstOf SourceHit.externalId (first :: rest)) with
      | some arxivId =>
        refine iff_of_false ?_ ?_
        · intro h
          have hhead := congrArg List.head? h
          rw [head?_titleKey] at hhead
          exact absurd hhead (by simp)
        · intro h
          cases (h rfl rfl).1
      | none => simp

/-! ### Every list of hits -/

theorem mem_seen {seen : List SourceHit} : (key, merged) ∈ (seen.foldl (Deduping.add host) {}).seen ↔
    Collect.merged mergeHits (seen.filter fun other => host.dedupeKey other == key) =
      some merged := by
  rw [seen_eq]
  exact Collect.mem_collect

theorem titlesStay_iff_kept : TitlesStay host hits ↔
    ∀ seen rest, hits = seen ++ rest →
      ∀ entry ∈ (seen.foldl (Deduping.add host) {}).seen, host.dedupeKey entry.2 = entry.1 := by
  have hsame (seen : List SourceHit) (hit : SourceHit) :
      ∀ other ∈ seen.filter (fun other => host.dedupeKey other == host.dedupeKey hit),
        host.dedupeKey other = host.dedupeKey hit := by
    intro other hother
    simpa using (List.mem_filter.mp hother).2
  constructor
  · rintro h seen rest hsplit ⟨key, merged⟩ hentry
    have hmerged := mem_seen.mp hentry
    obtain ⟨hit, hhit, hkey⟩ : ∃ hit ∈ seen, host.dedupeKey hit = key := by
      have hmem := List.mem_map_of_mem (f := Prod.fst) hentry
      rw [seen_eq, Collect.keys_collect, List.mem_eraseDups] at hmem
      exact List.mem_map.mp hmem
    subst hkey
    exact (dedupeKey_merged_iff (hsame seen hit) hmerged).mpr (h seen rest hit hsplit hhit)
  · intro h seen rest hit hsplit hhit hdoi hid
    have hmem : hit ∈ seen.filter fun other => host.dedupeKey other == host.dedupeKey hit :=
      List.mem_filter.mpr ⟨hhit, by simp⟩
    obtain ⟨merged, hmerged⟩ : ∃ merged, Collect.merged mergeHits
        (seen.filter fun other => host.dedupeKey other == host.dedupeKey hit) = some merged := by
      cases hfilter : seen.filter fun other => host.dedupeKey other == host.dedupeKey hit with
      | nil =>
        rw [hfilter] at hmem
        cases hmem
      | cons first same => exact ⟨_, rfl⟩
    have hkept := h seen rest hsplit _ (mem_seen.mpr hmerged)
    exact (dedupeKey_merged_iff (hsame seen hit) hmerged).mp hkept hdoi hid

theorem keys_of_kept (h : ∀ entry ∈ (hits.foldl (Deduping.add host) {}).seen,
    host.dedupeKey entry.2 = entry.1) :
    (dedupeHits host hits).1.map host.dedupeKey = (hits.map host.dedupeKey).eraseDups := by
  have hkeys := Collect.keys_collect host.dedupeKey mergeHits hits
  rw [← seen_eq] at hkeys
  rw [← hkeys, dedupeHits, List.map_map]
  apply List.map_congr_left
  intro entry hentry
  exact h entry hentry

theorem dedupeHits_of_nodup (h : (hits.map host.dedupeKey).Nodup) :
    dedupeHits host hits = (hits, 0) := by
  have hseen := seen_eq host hits
  rw [Collect.collect_of_nodup h] at hseen
  have hcount := dropped_add_length host hits
  rw [hseen, List.length_map] at hcount
  rw [dedupeHits, hseen, List.map_map]
  apply Prod.ext
  · simp [Function.comp_def]
  · dsimp only
    omega

/-! ### Fused scores -/

theorem mem_keys_normalizeScores {scores : List (List Char × Rat)} :
    key ∈ (normalizeScores scores).map Prod.fst ↔ key ∈ scores.map Prod.fst := by
  unfold normalizeScores
  split
  · rfl
  · simp

theorem mem_keys_fuse (k : Nat) (ranks : List (List Char × Nat))
    (fused : List (List Char × Rat)) :
    key ∈ (ranks.foldl (fun fused (key, rank) =>
        Collect.put (· + ·) key (1 / ((k : Rat) + rank + 1)) fused) fused).map Prod.fst ↔
      key ∈ fused.map Prod.fst ∨ key ∈ ranks.map Prod.fst := by
  induction ranks generalizing fused with
  | nil => simp
  | cons entry ranks ih =>
    obtain ⟨next, rank⟩ := entry
    rw [List.foldl_cons, ih, Collect.keys_put, List.map_cons, List.mem_cons]
    split
    · rename_i hold
      have hnext : key = next → key ∈ fused.map Prod.fst := fun heq => heq ▸ hold
      tauto
    · rw [List.mem_append, List.mem_singleton, or_assoc]

theorem mem_keys_rrfFuse {rankings : List (List (List Char))} {k : Nat} :
    key ∈ (rrfFuse rankings k).map Prod.fst ↔ ∃ ranked ∈ rankings, key ∈ ranked := by
  have hranks (ranked : List (List Char)) : ranked.zipIdx.map Prod.fst = ranked :=
    List.zipIdx_map_fst 0 ranked
  rw [rrfFuse, mem_keys_fuse, List.map_flatMap]
  simp only [hranks]
  simp

theorem fused_of_mem {internal external : List SourceHit} (h : hit ∈ internal ++ external) :
    ((fusedScores host internal external).lookup (host.dedupeKey hit)).isSome = true := by
  rw [Entries.isSome_lookup_iff, fusedScores, mem_keys_normalizeScores, mem_keys_rrfFuse]
  have hranked (hits : List SourceHit) (hhit : hit ∈ hits) :
      host.dedupeKey hit ∈ rankedDedupeKeys host hits :=
    List.mem_eraseDups.mpr (List.mem_map_of_mem hhit)
  have hfull (ranked : List (List Char)) (hkey : host.dedupeKey hit ∈ ranked) :
      (!ranked.isEmpty) = true := by
    cases ranked with
    | nil => cases hkey
    | cons _ _ => rfl
  rcases List.mem_append.mp h with hinternal | hexternal
  · have hkey := hranked internal hinternal
    exact ⟨_, List.mem_filter.mpr ⟨by simp, hfull _ hkey⟩, hkey⟩
  · have hkey := hranked external hexternal
    exact ⟨_, List.mem_filter.mpr ⟨by simp, hfull _ hkey⟩, hkey⟩

/-- Deduplication is well formed exactly where titles stay. -/
theorem wellFormed_iff (host : Host) (hits : List SourceHit) :
    WellFormed host hits ↔ TitlesStay host hits := by
  constructor
  · intro h
    exact titlesStay_iff_kept.mpr h.kept
  · intro h
    have hkept := titlesStay_iff_kept.mp h
    have hkeys := keys_of_kept (hkept hits [] (by simp))
    constructor
    · exact hkeys
    · have hcount := dropped_add_length host hits
      rwa [dedupeHits, List.length_map]
    · exact hkept
    · apply dedupeHits_of_nodup
      rw [hkeys]
      exact Distinct.nodup_eraseDups _
    · rintro internal external rfl hit hhit
      have hmem := List.mem_map_of_mem (f := host.dedupeKey) hhit
      rw [hkeys, List.mem_eraseDups] at hmem
      obtain ⟨other, hother, hkey⟩ := List.mem_map.mp hmem
      rw [← hkey]
      exact fused_of_mem hother

/-- An arXiv hit without an id, and a hit of the same title from another source. -/
def sameTitle : List SourceHit :=
  [{ source := "arxiv_live".toList, externalId := [], title := "On Keys".toList },
    { source := "other".toList, externalId := "2301.00001".toList, title := "On keys".toList }]

/-- The merged hit has the arXiv id that only the other one could give, and another key. -/
theorem merge_moves_title :
    sameTitle.map plainHost.dedupeKey = ["title:on keys|".toList, "title:on keys|".toList] ∧
      (dedupeHits plainHost sameTitle).1.map plainHost.dedupeKey =
        ["arxiv:2301.00001".toList] ∧
      ¬ WellFormed plainHost sameTitle := by
  have hmoved : (dedupeHits plainHost sameTitle).1.map plainHost.dedupeKey =
      ["arxiv:2301.00001".toList] := by decide +kernel
  refine ⟨by decide +kernel, hmoved, fun h => ?_⟩
  have hkeys := h.keys
  rw [hmoved] at hkeys
  revert hkeys
  decide +kernel

end Synthetos.Discovery
