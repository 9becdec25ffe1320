import Synthetos.Lib.Text
import Synthetos.Skills.Enforcement

/-!
# Skill prompts

`load_skill_prompt` and `join_skill_prompts`, and what the text they give depends on.
-/

namespace Synthetos.Skills

open Lib

structure SkillPromptResult where
  prompt : Option (List Char)
  warning : Option String := none

/-- The operator is one of those the manifest allows; an empty list allows every operator. -/
def SkillDefinition.permits (skill : SkillDefinition) (operatorType : String) : Bool :=
  let allowedOperators := (skill.manifest.map SkillManifest.allowedOperators).getD []
  allowedOperators.isEmpty || allowedOperators.contains operatorType

/-- The body as a prompt: its text without surrounding white space, if there is any. -/
def promptOf (body : Option (List Char)) : Option (List Char) :=
  some (Text.strip (body.getD [])) |>.filter (!·.isEmpty)

def loadSkillPrompt (store : SkillStore) (skillId operatorType : String) : SkillPromptResult :=
  match store.find? skillId with
  | none => { prompt := none, warning := some s!"skill '{skillId}' not found in registry" }
  | some skill =>
    if !skill.enabled then { prompt := none, warning := some s!"skill '{skillId}' is disabled" }
    else if !skill.permits operatorType then
      { prompt := none
        warning := some s!"skill '{skillId}' is not allowed for operator '{operatorType}'" }
    else
      match promptOf skill.body with
      | none => { prompt := none, warning := some s!"skill '{skillId}' has no prompt body" }
      | some body => { prompt := some body }

def joinSkillPrompts (prompts : List (Option (List Char))) : Option (List Char) :=
  let parts := prompts.filterMap fun prompt => (prompt.map Text.strip).filter (!·.isEmpty)
  if parts.isEmpty then none else some (Text.join "\n\n" parts)

/-- `join_skill_prompts(system_msg, skill_prompt) or system_msg` -/
def systemMessage (system : List Char) (skillPrompt : Option (List Char)) : List Char :=
  (joinSkillPrompts [some system, skillPrompt]).getD system

/-- A prompt that needs no stripping and has a text. -/
def IsPrompt (prompt : Option (List Char)) : Prop :=
  ∀ text, prompt = some text → Text.Trimmed text ∧ text ≠ []

theorem promptOf_isPrompt (body : Option (List Char)) : IsPrompt (promptOf body) := by
  intro text htext
  obtain ⟨hstrip, hne⟩ := Option.filter_eq_some_iff.mp htext
  obtain rfl := Option.some.inj hstrip
  exact ⟨Text.strip_trimmed _, by simpa using hne⟩

theorem IsPrompt.none : IsPrompt none := nofun

theorem IsPrompt.filter_strip {prompt : Option (List Char)} (h : IsPrompt prompt) :
    (prompt.map Text.strip).filter (!·.isEmpty) = prompt := by
  cases prompt with
  | none => rfl
  | some text =>
    obtain ⟨htrimmed, hne⟩ := h text rfl
    simp [htrimmed.strip_eq, hne]

/-- Two prompts with a blank line between them. -/
def together : Option (List Char) → Option (List Char) → Option (List Char)
  | some first, some second => some (first ++ ("\n\n".toList ++ second))
  | some first, none => some first
  | none, second => second

theorem joinSkillPrompts_pair {first second : Option (List Char)} (hfirst : IsPrompt first)
    (hsecond : IsPrompt second) : joinSkillPrompts [first, second] = together first second := by
  simp only [joinSkillPrompts, List.filterMap_cons, List.filterMap_nil, hfirst.filter_strip,
    hsecond.filter_strip]
  cases first <;> cases second <;> simp [together, Text.join]

theorem IsPrompt.together {first second : Option (List Char)} (hfirst : IsPrompt first)
    (hsecond : IsPrompt second) : IsPrompt (together first second) := by
  cases first with
  | none => exact hsecond
  | some a =>
    cases second with
    | none => exact hfirst
    | some b =>
      obtain ⟨ha, hane⟩ := hfirst a rfl
      obtain ⟨hb, hbne⟩ := hsecond b rfl
      intro text htext
      obtain rfl := Option.some.inj htext
      exact ⟨ha.append _ hb hane hbne, by simp [hane]⟩

theorem together_left_inj {first first' second : Option (List Char)} (hfirst : IsPrompt first)
    (hfirst' : IsPrompt first') :
    together first second = together first' second ↔ first = first' := by
  refine ⟨fun h => ?_, fun h => by rw [h]⟩
  cases first with
  | none =>
    cases first' with
    | none => rfl
    | some a =>
      have hane := (hfirst' a rfl).2
      cases second with
      | none => exact absurd h nofun
      | some b =>
        have hlength := congrArg List.length (Option.some.inj h)
        have hpos := List.length_pos_iff.mpr hane
        simp at hlength
        omega
  | some a =>
    cases first' with
    | none =>
      cases second with
      | none => exact absurd h nofun
      | some b =>
        have hlength := congrArg List.length (Option.some.inj h)
        simp at hlength
        omega
    | some a' =>
      cases second with
      | none => exact h
      | some b => exact congrArg some (List.append_cancel_right (Option.some.inj h))

theorem together_right_inj {first second second' : Option (List Char)} (hsecond : IsPrompt second)
    (hsecond' : IsPrompt second') :
    together first second = together first second' ↔ second = second' := by
  refine ⟨fun h => ?_, fun h => by rw [h]⟩
  cases first with
  | none => exact h
  | some a =>
    cases second with
    | none =>
      cases second' with
      | none => rfl
      | some b => simp [together] at h
    | some b =>
      cases second' with
      | none => simp [together] at h
      | some b' =>
        have htext := List.append_cancel_left (Option.some.inj h)
        exact congrArg some (List.append_cancel_left htext)

theorem systemMessage_inj {system : List Char} (hsystem : IsPrompt (some system))
    {prompt prompt' : Option (List Char)} (hprompt : IsPrompt prompt) (hprompt' : IsPrompt prompt') :
    systemMessage system prompt = systemMessage system prompt' ↔ prompt = prompt' := by
  have hsome : ∀ p, IsPrompt p → some (systemMessage system p) = together (some system) p := by
    intro p hp
    rw [systemMessage, joinSkillPrompts_pair hsystem hp]
    cases p <;> rfl
  rw [← Option.some_inj, hsome prompt hprompt, hsome prompt' hprompt',
    together_right_inj hprompt hprompt']

/-! ## What the stored body of one skill changes -/

def SkillDefinition.withBody (row : SkillDefinition) (skillId : String) (body : Option (List Char)) :
    SkillDefinition :=
  if row.skillId == skillId then { row with body } else row

@[simp] theorem SkillDefinition.withBody_skillId (row : SkillDefinition) (skillId : String)
    (body : Option (List Char)) : (row.withBody skillId body).skillId = row.skillId := by
  rw [withBody]
  split_ifs <;> rfl

namespace SkillStore

def withBody (store : SkillStore) (skillId : String) (body : Option (List Char)) : SkillStore where
  rows := store.rows.map (·.withBody skillId body)
  unique := by
    have hids : SkillDefinition.skillId ∘ (·.withBody skillId body) = SkillDefinition.skillId := by
      funext row
      simp
    rw [List.map_map, hids]
    exact store.unique

theorem find?_withBody (store : SkillStore) (skillId : String) (body : Option (List Char))
    (other : String) : (store.withBody skillId body).find? other =
      (store.find? other).map fun row => if other == skillId then { row with body } else row := by
  have hpred : ((fun row : SkillDefinition => row.skillId == other) ∘
      fun row : SkillDefinition => row.withBody skillId body) = fun row => row.skillId == other := by
    funext row
    simp
  rw [find?, withBody, List.find?_map, hpred, find?]
  cases hrow : store.rows.find? (·.skillId == other) with
  | none => rfl
  | some row =>
    have hid : row.skillId = other := by simpa using List.find?_some hrow
    simp [SkillDefinition.withBody, hid]

end SkillStore

theorem loadSkillPrompt_withBody_of_ne {store : SkillStore} {skillId other : String}
    (body : Option (List Char)) (hne : other ≠ skillId) (operatorType : String) :
    loadSkillPrompt (store.withBody skillId body) other operatorType =
      loadSkillPrompt store other operatorType := by
  rw [loadSkillPrompt, loadSkillPrompt, SkillStore.find?_withBody]
  cases store.find? other with
  | none => rfl
  | some row => simp [hne]

/-- The operator uses the text of the skill: it is enabled and allowed for the operator. -/
def SkillStore.usable (store : SkillStore) (skillId operatorType : String) : Bool :=
  (store.find? skillId).any fun skill => skill.enabled && skill.permits operatorType

def SkillStore.body (store : SkillStore) (skillId : String) : Option (List Char) :=
  (store.find? skillId).bind SkillDefinition.body

theorem loadSkillPrompt_prompt (store : SkillStore) (skillId operatorType : String) :
    (loadSkillPrompt store skillId operatorType).prompt =
      if store.usable skillId operatorType then promptOf (store.body skillId) else none := by
  rw [loadSkillPrompt, SkillStore.usable, SkillStore.body]
  cases store.find? skillId with
  | none => rfl
  | some skill =>
    cases henabled : skill.enabled <;> cases hpermits : skill.permits operatorType <;>
      cases hbody : promptOf skill.body <;> simp [henabled, hpermits, hbody]

theorem loadSkillPrompt_isPrompt (store : SkillStore) (skillId operatorType : String) :
    IsPrompt (loadSkillPrompt store skillId operatorType).prompt := by
  rw [loadSkillPrompt_prompt]
  split_ifs
  · exact promptOf_isPrompt _
  · exact .none

end Synthetos.Skills
