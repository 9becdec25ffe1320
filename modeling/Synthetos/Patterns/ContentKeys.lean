import Synthetos.Lib.Separated
import Synthetos.Patterns.Artifacts

/-!
# Content keys

What two content keys of one kind say about the texts they were made of.
-/

namespace Synthetos.Patterns

open Lib Text

/-- The same words in lower case. -/
def SameText (host : Host) (s t : List Char) : Prop := words (host.lower s) = words (host.lower t)

def SameTexts (host : Host) (ss ts : List (List Char)) : Prop := List.Forall₂ (SameText host) ss ts

/-- No text, once normalized, has a separator at which it would come apart. -/
def Whole (host : Host) (texts : List (List Char)) : Prop :=
  ∀ s ∈ texts, ¬ Splits '|' (normalizeText host s)

variable {host : Host} {s t : List Char} {ss ts : List (List Char)}

theorem normalizeText_eq_joined (host : Host) (s : List Char) :
    normalizeText host s = joined ' ' (words (host.lower s)) := rfl

theorem trimmed_normalizeText (host : Host) (s : List Char) : Trimmed (normalizeText host s) :=
  trimmed_joined_words fun _ => isWord_of_mem_words

theorem normalizeText_eq_iff : normalizeText host s = normalizeText host t ↔ SameText host s t := by
  constructor
  · intro h
    have hwords := congrArg words h
    rw [normalizeText_eq_joined, normalizeText_eq_joined,
      words_joined fun _ => isWord_of_mem_words, words_joined fun _ => isWord_of_mem_words] at hwords
    exact hwords
  · intro h
    rw [normalizeText_eq_joined, normalizeText_eq_joined, h]

theorem map_normalizeText_eq_iff :
    ss.map (normalizeText host) = ts.map (normalizeText host) ↔ SameTexts host ss ts := by
  induction ss generalizing ts with
  | nil => cases ts <;> simp [SameTexts]
  | cons s ss ih =>
    cases ts with
    | nil => simp [SameTexts]
    | cons t ts =>
      rw [List.map_cons, List.map_cons, List.cons.injEq, normalizeText_eq_iff, ih, SameTexts,
        SameTexts, List.forall₂_cons]

theorem hash_eq_iff (hsha : Function.Injective host.sha256) (hwhole : Whole host ss)
    (hne : ss ≠ []) (ts : List (List Char)) (hlength : ts.length = ss.length) :
    host.hash (ss.map (normalizeText host)) = host.hash (ts.map (normalizeText host)) ↔
      SameTexts host ss ts := by
  rw [← map_normalizeText_eq_iff]
  constructor
  · intro h
    have htrim (texts : List (List Char)) :
        ∀ part ∈ texts.map (normalizeText host), Trimmed part := by
      intro part hpart
      obtain ⟨text, -, rfl⟩ := List.mem_map.mp hpart
      exact trimmed_normalizeText host text
    have hsplits : ∀ part ∈ ss.map (normalizeText host), ¬ Splits '|' part := by
      intro part hpart
      obtain ⟨text, htext, rfl⟩ := List.mem_map.mp hpart
      exact hwhole text htext
    have hne' : ts ≠ [] := by
      rintro rfl
      exact hne (List.eq_nil_of_length_eq_zero hlength.symm)
    apply (joined_unique (by decide) hsplits (htrim ss) (htrim ts) (by simpa using hne)
      (by simpa using hne') (hsha h)).2
    simpa using hlength
  · intro h
    rw [h]

/-- The keys of one kind are equal exactly where the texts agree one by one, if no text of one side
comes apart at the separator; of a root cause, what the extractor keeps counts. -/
theorem content_keys_agree (host : Host) (hsha : Function.Injective host.sha256) :
    (∀ failureClass rootCause failureClass' rootCause',
      Whole host [failureClass, rootCause] →
        (failureKey host failureClass rootCause = failureKey host failureClass' rootCause' ↔
          SameTexts host [failureClass, rootCause] [failureClass', rootCause'])) ∧
      (∀ failureClass strategy outcome failureClass' strategy' outcome',
        Whole host [failureClass, strategy, outcome] →
          (remediationKey host failureClass strategy outcome =
              remediationKey host failureClass' strategy' outcome' ↔
            SameTexts host [failureClass, strategy, outcome]
              [failureClass', strategy', outcome'])) ∧
      (∀ family metric direction family' metric' direction',
        Whole host [family, metric, direction] →
          (signalTrajectoryKey host family metric direction =
              signalTrajectoryKey host family' metric' direction' ↔
            SameTexts host [family, metric, direction] [family', metric', direction'])) ∧
      (∀ family metric domain family' metric' domain',
        Whole host [family, metric, domain] →
          (successfulLineKey host family metric domain =
              successfulLineKey host family' metric' domain' ↔
            SameTexts host [family, metric, domain] [family', metric', domain'])) ∧
      ∀ pm pm' : FailurePostmortem,
        Whole host [pm.failureClass, normalizeRootCause host pm.rootCause] →
          ((extractFailure host pm).contentKey = (extractFailure host pm').contentKey ↔
            SameTexts host [pm.failureClass, normalizeRootCause host pm.rootCause]
              [pm'.failureClass, normalizeRootCause host pm'.rootCause]) := by
  refine ⟨?_, ?_, ?_, ?_, ?_⟩
  · intro failureClass rootCause failureClass' rootCause' hwhole
    exact hash_eq_iff hsha hwhole (by simp) [failureClass', rootCause'] rfl
  · intro failureClass strategy outcome failureClass' strategy' outcome' hwhole
    exact hash_eq_iff hsha hwhole (by simp) [failureClass', strategy', outcome'] rfl
  · intro family metric direction family' metric' direction' hwhole
    exact hash_eq_iff hsha hwhole (by simp) [family', metric', direction'] rfl
  · intro family metric domain family' metric' domain' hwhole
    exact hash_eq_iff hsha hwhole (by simp) [family', metric', domain'] rfl
  · intro pm pm' hwhole
    exact hash_eq_iff hsha hwhole (by simp)
      [pm'.failureClass, normalizeRootCause host pm'.rootCause] rfl

/-- A host whose hash is its input. -/
def openHost : Host := ⟨id, fun _ => [], false, fun _ => true, Text.lower⟩

def rootCauseOf (rootCause : List Char) : FailurePostmortem :=
  ⟨0, 0, 0, "oom".toList, rootCause, [], [], .null, 0⟩

theorem respelled_failures_agree :
    failureKey openHost "OOM".toList " GPU  memory ".toList =
      failureKey openHost "oom".toList "gpu memory".toList := by
  have hwhole : Whole openHost ["OOM".toList, " GPU  memory ".toList] := by
    have hnone : ∀ s ∈ ["OOM".toList, " GPU  memory ".toList], '|' ∉ normalizeText openHost s := by
      decide +kernel
    exact fun s hs => not_splits_of_not_mem (hnone s hs)
  apply ((content_keys_agree openHost Function.injective_id).1 _ _ _ _ hwhole).mpr
  exact .cons (by unfold SameText; decide +kernel) (.cons (by unfold SameText; decide +kernel) .nil)

/-- The separator is not escaped, and an extracted failure keeps 200 characters of its cause. -/
theorem different_failures_share_key :
    (failureKey openHost "a|b".toList "c".toList = failureKey openHost "a".toList "b|c".toList ∧
        ¬ SameTexts openHost ["a|b".toList, "c".toList] ["a".toList, "b|c".toList]) ∧
      ∃ first second : FailurePostmortem, first.failureClass = second.failureClass ∧
        ¬ SameText openHost first.rootCause second.rootCause ∧
        (extractFailure openHost first).contentKey = (extractFailure openHost second).contentKey := by
  refine ⟨⟨by decide +kernel, ?_⟩, ?_⟩
  · rintro (_ | ⟨hclass, -⟩)
    unfold SameText at hclass
    revert hclass
    decide +kernel
  · refine ⟨rootCauseOf (List.replicate 200 'x'), rootCauseOf (List.replicate 201 'x'), rfl, ?_,
      by decide +kernel⟩
    unfold SameText
    decide +kernel

end Synthetos.Patterns
