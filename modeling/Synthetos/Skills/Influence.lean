import Synthetos.Skills.Operators

/-!
# What a blocked skill changes

Two runs of an operator over stores that differ in the body of one skill, whose binding the cycle's
policy blocks, send the same messages exactly when the operator does not use that body at all.
-/

namespace Synthetos.Skills

open Lib

/-- Recording the use of this skill ends the operator. -/
def SkillStore.stops (store : SkillStore) (cycle : CyclePolicy) (operatorType skillId : String) :
    Bool :=
  (loadSkillPrompt store skillId operatorType).prompt.isSome && store.raises cycle skillId

theorem SkillStore.raises_withBody (store : SkillStore) (cycle : CyclePolicy) (skillId : String)
    (body : Option (List Char)) (other : String) :
    (store.withBody skillId body).raises cycle other = store.raises cycle other := by
  rw [raises, raises, find?_withBody]
  cases store.find? other with
  | none => rfl
  | some row => by_cases h : other = skillId <;> simp [h]

theorem SkillStore.Blocked.not_stops {store : SkillStore} {cycle : CyclePolicy} {skillId : String}
    (hblocked : store.Blocked cycle skillId) (operatorType : String) :
    store.stops cycle operatorType skillId = false := by
  rw [stops, hblocked.not_raises, Bool.and_false]

theorem SkillStore.stops_withBody {store : SkillStore} {cycle : CyclePolicy} {skillId : String}
    (hblocked : store.Blocked cycle skillId) (body : Option (List Char))
    (operatorType other : String) :
    (store.withBody skillId body).stops cycle operatorType other =
      store.stops cycle operatorType other := by
  rw [stops, stops, raises_withBody]
  by_cases h : other = skillId
  · subst h
    simp [hblocked.not_raises]
  · rw [loadSkillPrompt_withBody_of_ne body h]

theorem recordSkillUsage_isOk (store : SkillStore) (cycle : CyclePolicy)
    (operatorType skillId : String) (jobId : Id) (config : Option Dict) (session : Session) :
    (∃ answer, recordSkillUsage store skillId cycle operatorType jobId config false session =
      .ok answer) ↔ store.raises cycle skillId = false := by
  rw [recordSkillUsage, SkillStore.raises]
  cases store.find? skillId with
  | none => exact ⟨fun _ => rfl, fun _ => ⟨_, rfl⟩⟩
  | some skillDef =>
    cases hdecision : evaluate skillId skillDef.trustTier skillDef.manifest cycle.config with
    | error e => simp [hdecision, Bind.bind, Except.bind, Except.isOk, Except.toBool]
    | ok decision =>
      cases hallowed : decision.allowed <;>
        simp [hdecision, hallowed, Bind.bind, Except.bind, pure, Except.pure, Except.isOk, Except.toBool]

theorem recordPrompt_cases (store : SkillStore) (cycle : CyclePolicy) (operatorType : String)
    (jobId : Id) (config : Option Dict) (skillId : String) (session : Session) :
    (store.stops cycle operatorType skillId = false ∧ ∃ session',
      recordPrompt store cycle operatorType jobId config skillId session = .ok session') ∨
    (store.stops cycle operatorType skillId = true ∧ ∃ e,
      recordPrompt store cycle operatorType jobId config skillId session = .error e) := by
  have hrecord := recordSkillUsage_isOk store cycle operatorType skillId jobId config session
  rw [recordPrompt, SkillStore.stops]
  cases (loadSkillPrompt store skillId operatorType).prompt with
  | none => exact .inl ⟨rfl, session, rfl⟩
  | some prompt =>
    cases hraises : store.raises cycle skillId with
    | false =>
      obtain ⟨answer, hanswer⟩ := hrecord.mpr hraises
      exact .inl ⟨rfl, answer.1, by simp [hanswer, Bind.bind, Except.bind, pure, Except.pure]⟩
    | true =>
      cases hanswer : recordSkillUsage store skillId cycle operatorType jobId config false session with
      | ok answer =>
        have hfalse := hrecord.mp ⟨answer, hanswer⟩
        rw [hraises] at hfalse
        exact absurd hfalse (by decide)
      | error e => exact .inr ⟨rfl, e, rfl⟩

/-- The one call of an operator that asks with a system message when it is ready. -/
def asked (ready : Bool) (system : List Char) (skillPrompt : Option (List Char))
    (user : List Char) : List Call :=
  if ready then [messages (systemMessage system skillPrompt) user] else []

theorem asked_inj {ready : Bool} {system user : List Char} (hsystem : IsPrompt (some system))
    {prompt prompt' : Option (List Char)} (hprompt : IsPrompt prompt) (hprompt' : IsPrompt prompt') :
    asked ready system prompt' user = asked ready system prompt user ↔
      ready = false ∨ prompt' = prompt := by
  cases ready with
  | false => simp [asked]
  | true => simp [asked, messages, systemMessage_inj hsystem hprompt' hprompt]

theorem isPrompt_of_ends {first last : List Char} (middle : List Char) (hfirst : ∃ c,
    first.head? = some c ∧ Text.isSpace c = false) (hlast : ∃ c, last.getLast? = some c ∧
    Text.isSpace c = false) : IsPrompt (some (first ++ (middle ++ last))) := by
  obtain ⟨c, hc, hcspace⟩ := hfirst
  obtain ⟨d, hd, hdspace⟩ := hlast
  rintro text htext
  obtain rfl := Option.some.inj htext
  refine ⟨⟨?_, ?_⟩, ?_⟩
  · intro c' hc'
    rw [List.head?_append, hc] at hc'
    exact Option.some.inj hc' ▸ hcspace
  · intro d' hd'
    rw [List.getLast?_append, List.getLast?_append, hd] at hd'
    exact Option.some.inj hd' ▸ hdspace
  · rintro hnil
    rw [(List.append_eq_nil_iff.mp hnil).1] at hc
    exact absurd hc nofun

theorem CompileInput.system_isPrompt : IsPrompt (some system) :=
  isPrompt_of_ends _ ⟨'Y', by simp, by decide⟩ ⟨'.', by simp, by decide⟩

theorem CritiqueInput.system_isPrompt : IsPrompt (some system) :=
  isPrompt_of_ends _ ⟨'Y', by simp, by decide⟩ ⟨'.', by simp, by decide⟩

theorem PostmortemInput.system_isPrompt : IsPrompt (some system) :=
  isPrompt_of_ends _ ⟨'Y', by simp, by decide⟩ ⟨'.', by simp, by decide⟩

/-! ## What each operator sends -/

theorem calls_recordPrompt (store : SkillStore) (cycle : CyclePolicy) (operatorType : String)
    (jobId : Id) (config : Option Dict) (skillId : String) (session : Session)
    {next : Session → Outcome} {calls : List Call} (hnext : ∀ session, (next session).calls = calls) :
    Outcome.calls (recordPrompt store cycle operatorType jobId config skillId session >>= next) =
      if store.stops cycle operatorType skillId then [] else calls := by
  obtain ⟨hstops, session', hok⟩ | ⟨hstops, e, herror⟩ :=
    recordPrompt_cases store cycle operatorType jobId config skillId session
  · rw [hok, hstops]
    exact hnext session'
  · rw [herror, hstops]
    rfl

theorem calls_text (text : Except String (List Char)) (system : List Char) (session : Session) :
    Outcome.calls (text >>= fun user => pure (session, [messages system user])) =
      text.toOption.toList.map (messages system) := by
  cases text <;> rfl

theorem asked_text (ready : Bool) (text : Except String (List Char)) (system : List Char)
    (skillPrompt : Option (List Char)) :
    asked (text.toOption.isSome && ready) system skillPrompt (text.toOption.getD []) =
      if ready then text.toOption.toList.map (messages (systemMessage system skillPrompt)) else [] := by
  cases text <;> cases ready <;> rfl

theorem protocolCompile_calls (input : CompileInput) (store : SkillStore) (cycle : CyclePolicy)
    (jobId : Id) : (protocolCompile input store cycle jobId).calls =
      asked ((!input.cards.isEmpty && input.user.toOption.isSome) &&
          CompileInput.skillIds.all fun id => !store.stops cycle "protocol_compile" id)
        CompileInput.system
        (joinSkillPrompts (CompileInput.skillIds.map fun id =>
          (loadSkillPrompt store id "protocol_compile").prompt))
        (input.user.toOption.getD []) := by
  rw [protocolCompile]
  cases hcards : input.cards.isEmpty with
  | true => rfl
  | false =>
    rw [Bool.not_false, Bool.true_and, asked_text]
    refine (calls_recordPrompt store cycle _ jobId none _ {} fun session =>
      calls_recordPrompt store cycle _ jobId none _ session fun session' =>
        calls_text input.user _ session').trans ?_
    cases hplanning : store.stops cycle "protocol_compile" "ideation.experiment_planning" <;>
      cases hcoding : store.stops cycle "protocol_compile" "coding.experiment_coding" <;>
      simp [CompileInput.skillIds, hplanning, hcoding]

theorem hypothesisGenerate_calls (input : GenerateInput) (store : SkillStore) (cycle : CyclePolicy)
    (jobId : Id) : (hypothesisGenerate input store cycle jobId).calls =
      asked ((!input.evidence.isEmpty && input.user.toOption.isSome) &&
          !store.stops cycle "hypothesis_generate" "ideation.hypothesis_generation")
        input.system
        (loadSkillPrompt store "ideation.hypothesis_generation" "hypothesis_generate").prompt
        (input.user.toOption.getD []) := by
  rw [hypothesisGenerate]
  cases hevidence : input.evidence.isEmpty with
  | true => rfl
  | false =>
    rw [Bool.not_false, Bool.true_and, asked_text]
    refine (calls_recordPrompt store cycle _ jobId none _ {} fun session =>
      calls_text input.user _ session).trans ?_
    cases store.stops cycle "hypothesis_generate" "ideation.hypothesis_generation" <;> rfl

theorem calls_recordPrompt_pure (store : SkillStore) (cycle : CyclePolicy) (operatorType : String)
    (jobId : Id) (config : Option Dict) (skillId : String) (system user : List Char)
    (skillPrompt : Option (List Char)) :
    Outcome.calls (do
      let session ← recordPrompt store cycle operatorType jobId config skillId {}
      return (session, [messages (systemMessage system skillPrompt) user])) =
      asked (!store.stops cycle operatorType skillId) system skillPrompt user := by
  have hcall : ∀ session, Outcome.calls
      (pure (session, [messages (systemMessage system skillPrompt) user])) =
        [messages (systemMessage system skillPrompt) user] := fun _ => rfl
  refine (calls_recordPrompt store cycle operatorType jobId config skillId {} hcall).trans ?_
  cases store.stops cycle operatorType skillId <;> rfl

theorem hypothesisCritique_calls (input : CritiqueInput) (store : SkillStore) (cycle : CyclePolicy)
    (jobId : Id) : (hypothesisCritique input store cycle jobId).calls =
      asked (!input.cards.isEmpty &&
          !store.stops cycle "hypothesis_critique" "ideation.hypothesis_generation")
        CritiqueInput.system
        (loadSkillPrompt store "ideation.hypothesis_generation" "hypothesis_critique").prompt
        input.user := by
  rw [hypothesisCritique]
  cases input.cards.isEmpty with
  | true => rfl
  | false => exact calls_recordPrompt_pure store cycle _ jobId _ _ _ _ _

theorem verificationPostmortem_calls (input : PostmortemInput) (store : SkillStore)
    (cycle : CyclePolicy) (jobId : Id) : (verificationPostmortem input store cycle jobId).calls =
      asked (!store.stops cycle "verification_postmortem" "verification.run_evaluation")
        PostmortemInput.system
        (loadSkillPrompt store "verification.run_evaluation" "verification_postmortem").prompt
        input.user :=
  calls_recordPrompt_pure store cycle _ jobId _ _ _ _ _

theorem GenerateInput.user_raises (input : GenerateInput) :
    (!input.evidence.isEmpty && input.user.toOption.isSome) = false := by
  cases hevidence : input.evidence with
  | nil => rfl
  | cons card rest =>
    have huser : input.user = .error "KeyError: 'summary'" := by
      simp only [user, problemProfile, hevidence, List.map_cons, List.mapM_cons]
      rfl
    rw [huser]
    rfl

theorem hypothesisGenerate_never_asks (input : GenerateInput) (store : SkillStore)
    (cycle : CyclePolicy) (jobId : Id) : (hypothesisGenerate input store cycle jobId).calls = [] := by
  rw [hypothesisGenerate_calls, input.user_raises]
  rfl

/-! ## The operators as requests -/

inductive Request where
  | protocolCompile (input : CompileInput)
  | hypothesisGenerate (input : GenerateInput)
  | hypothesisCritique (input : CritiqueInput)
  | verificationPostmortem (input : PostmortemInput)
  | discoveryFinalize (input : FinalizeInput)

namespace Request

def operatorType : Request → String
  | protocolCompile _ => "protocol_compile"
  | hypothesisGenerate _ => "hypothesis_generate"
  | hypothesisCritique _ => "hypothesis_critique"
  | verificationPostmortem _ => "verification_postmortem"
  | discoveryFinalize _ => "discovery_finalize"

def skillIds : Request → List String
  | protocolCompile _ => CompileInput.skillIds
  | hypothesisGenerate _ => ["ideation.hypothesis_generation"]
  | hypothesisCritique _ => ["ideation.hypothesis_generation"]
  | verificationPostmortem _ => ["verification.run_evaluation"]
  | discoveryFinalize _ => FinalizeInput.skillIds

/-- The calls the operator sends to the model gateway. -/
def calls (request : Request) (store : SkillStore) (cycle : CyclePolicy) (jobId : Id) : List Call :=
  match request with
  | protocolCompile input => (Skills.protocolCompile input store cycle jobId).calls
  | hypothesisGenerate input => (Skills.hypothesisGenerate input store cycle jobId).calls
  | hypothesisCritique input => (Skills.hypothesisCritique input store cycle jobId).calls
  | verificationPostmortem input => (Skills.verificationPostmortem input store cycle jobId).calls
  | discoveryFinalize input => (Skills.discoveryFinalize input store).calls

/-- There is something to ask about, and the text for the user can be built from it. -/
def hasText : Request → Bool
  | protocolCompile input => !input.cards.isEmpty && input.user.toOption.isSome
  | hypothesisGenerate input => !input.evidence.isEmpty && input.user.toOption.isSome
  | hypothesisCritique input => !input.cards.isEmpty
  | verificationPostmortem _ => true
  | discoveryFinalize _ => true

def recorded : Request → List String
  | discoveryFinalize _ => []
  | request => request.skillIds

/-- The operator gets as far as its call. -/
def reaches (request : Request) (store : SkillStore) (cycle : CyclePolicy) : Bool :=
  request.hasText && request.recorded.all fun id => !store.stops cycle request.operatorType id

def prompt (request : Request) (store : SkillStore) : Option (List Char) :=
  let load id := (loadSkillPrompt store id request.operatorType).prompt
  match request with
  | protocolCompile _ => joinSkillPrompts (CompileInput.skillIds.map load)
  | discoveryFinalize _ => joinSkillPrompts (FinalizeInput.skillIds.map load)
  | hypothesisGenerate _ => load "ideation.hypothesis_generation"
  | hypothesisCritique _ => load "ideation.hypothesis_generation"
  | verificationPostmortem _ => load "verification.run_evaluation"

/-- The body of the skill is no part of what the operator asks: it asks nothing, does not load the
skill, may not use it, or the text is the same up to the white space around it. -/
def Ignores (request : Request) (store : SkillStore) (cycle : CyclePolicy) (skillId : String)
    (body : Option (List Char)) : Prop :=
  request.reaches store cycle = false ∨ skillId ∉ request.skillIds ∨
    store.usable skillId request.operatorType = false ∨
    promptOf body = promptOf (store.body skillId)

theorem reaches_withBody {store : SkillStore} {cycle : CyclePolicy} {skillId : String}
    (hblocked : store.Blocked cycle skillId) (request : Request) (body : Option (List Char)) :
    request.reaches (store.withBody skillId body) cycle = request.reaches store cycle := by
  simp only [reaches, SkillStore.stops_withBody hblocked body]

theorem prompt_isPrompt (request : Request) (store : SkillStore) :
    IsPrompt (request.prompt store) := by
  have hload := loadSkillPrompt_isPrompt store
  cases request with
  | protocolCompile input =>
    have hpair := (hload "ideation.experiment_planning" "protocol_compile").together
      (hload "coding.experiment_coding" "protocol_compile")
    rwa [← joinSkillPrompts_pair (hload _ _) (hload _ _)] at hpair
  | discoveryFinalize input =>
    have hpair := (hload "literature.shortlist_critique" "discovery_finalize").together
      (hload "literature.escalation_rationale" "discovery_finalize")
    rwa [← joinSkillPrompts_pair (hload _ _) (hload _ _)] at hpair
  | hypothesisGenerate input => exact hload _ _
  | hypothesisCritique input => exact hload _ _
  | verificationPostmortem input => exact hload _ _

end Request

/-! ## Two runs -/

theorem SkillStore.Blocked.withBody_prompt_iff {store : SkillStore} {cycle : CyclePolicy}
    {skillId : String} (hblocked : store.Blocked cycle skillId) (body : Option (List Char))
    (operatorType : String) :
    (loadSkillPrompt (store.withBody skillId body) skillId operatorType).prompt =
        (loadSkillPrompt store skillId operatorType).prompt ↔
      store.usable skillId operatorType = false ∨ promptOf body = promptOf (store.body skillId) := by
  obtain ⟨skillDef, decision, hfind, -⟩ := hblocked
  have husable : (store.withBody skillId body).usable skillId operatorType =
      store.usable skillId operatorType := by
    simp [usable, find?_withBody, hfind, SkillDefinition.permits]
  have hbody : (store.withBody skillId body).body skillId = body := by
    simp [SkillStore.body, find?_withBody, hfind]
  rw [loadSkillPrompt_prompt, loadSkillPrompt_prompt, husable, hbody]
  cases store.usable skillId operatorType <;> simp

theorem joinSkillPrompts_withBody_iff {store : SkillStore} {cycle : CyclePolicy} {skillId : String}
    (hblocked : store.Blocked cycle skillId) (body : Option (List Char)) (operatorType : String)
    {first second : String} (hne : first ≠ second) :
    joinSkillPrompts ([first, second].map fun id =>
        (loadSkillPrompt (store.withBody skillId body) id operatorType).prompt) =
      joinSkillPrompts ([first, second].map fun id =>
        (loadSkillPrompt store id operatorType).prompt) ↔
      skillId ∉ [first, second] ∨ store.usable skillId operatorType = false ∨
        promptOf body = promptOf (store.body skillId) := by
  have hload := loadSkillPrompt_isPrompt store
  have hload' := loadSkillPrompt_isPrompt (store.withBody skillId body)
  rw [List.map_cons, List.map_cons, List.map_nil, List.map_cons, List.map_cons, List.map_nil,
    joinSkillPrompts_pair (hload' _ _) (hload' _ _), joinSkillPrompts_pair (hload _ _) (hload _ _),
    ← hblocked.withBody_prompt_iff body operatorType]
  by_cases hfirst : first = skillId
  · subst hfirst
    rw [loadSkillPrompt_withBody_of_ne body hne.symm, together_left_inj (hload' _ _) (hload _ _)]
    simp
  · rw [loadSkillPrompt_withBody_of_ne body hfirst]
    by_cases hsecond : second = skillId
    · subst hsecond
      rw [together_right_inj (hload' _ _) (hload _ _)]
      simp
    · rw [loadSkillPrompt_withBody_of_ne body hsecond]
      simp [Ne.symm hfirst, Ne.symm hsecond]

namespace Request

theorem prompt_withBody_iff {store : SkillStore} {cycle : CyclePolicy} {skillId : String}
    (hblocked : store.Blocked cycle skillId) (request : Request) (body : Option (List Char)) :
    request.prompt (store.withBody skillId body) = request.prompt store ↔
      skillId ∉ request.skillIds ∨ store.usable skillId request.operatorType = false ∨
        promptOf body = promptOf (store.body skillId) := by
  have hsingle : ∀ id operatorType,
      (loadSkillPrompt (store.withBody skillId body) id operatorType).prompt =
          (loadSkillPrompt store id operatorType).prompt ↔
        skillId ∉ [id] ∨ store.usable skillId operatorType = false ∨
          promptOf body = promptOf (store.body skillId) := by
    intro id operatorType
    by_cases hid : id = skillId
    · subst hid
      simp [hblocked.withBody_prompt_iff body operatorType]
    · simp [loadSkillPrompt_withBody_of_ne body hid, Ne.symm hid]
  cases request with
  | protocolCompile input => exact joinSkillPrompts_withBody_iff hblocked body _ (by decide)
  | discoveryFinalize input => exact joinSkillPrompts_withBody_iff hblocked body _ (by decide)
  | hypothesisGenerate input => exact hsingle _ _
  | hypothesisCritique input => exact hsingle _ _
  | verificationPostmortem input => exact hsingle _ _

theorem calls_withBody_iff {store : SkillStore} {cycle : CyclePolicy} {skillId : String}
    (hblocked : store.Blocked cycle skillId) (request : Request) (body : Option (List Char))
    (jobId : Id) :
    request.calls (store.withBody skillId body) cycle jobId = request.calls store cycle jobId ↔
      request.reaches store cycle = false ∨
        request.prompt (store.withBody skillId body) = request.prompt store := by
  have hreaches := reaches_withBody hblocked request body
  have hprompt := request.prompt_isPrompt store
  have hprompt' := request.prompt_isPrompt (store.withBody skillId body)
  cases request with
  | protocolCompile input =>
    have hcalls : ∀ store, (protocolCompile input).calls store cycle jobId =
        asked ((protocolCompile input).reaches store cycle) CompileInput.system
          ((protocolCompile input).prompt store) (input.user.toOption.getD []) :=
      fun store => protocolCompile_calls input store cycle jobId
    rw [hcalls, hcalls, hreaches]
    exact asked_inj CompileInput.system_isPrompt hprompt hprompt'
  | hypothesisGenerate input =>
    have hstays : (hypothesisGenerate input).reaches store cycle = false := by
      rw [reaches, hasText, input.user_raises, Bool.false_and]
    simp [calls, hypothesisGenerate_never_asks, hstays]
  | hypothesisCritique input =>
    have hcalls : ∀ store, (hypothesisCritique input).calls store cycle jobId =
        asked ((hypothesisCritique input).reaches store cycle) CritiqueInput.system
          ((hypothesisCritique input).prompt store) input.user := by
      intro store
      simp [calls, hypothesisCritique_calls, reaches, hasText, recorded, skillIds, operatorType, prompt]
    rw [hcalls, hcalls, hreaches]
    exact asked_inj CritiqueInput.system_isPrompt hprompt hprompt'
  | verificationPostmortem input =>
    have hcalls : ∀ store, (verificationPostmortem input).calls store cycle jobId =
        asked ((verificationPostmortem input).reaches store cycle) PostmortemInput.system
          ((verificationPostmortem input).prompt store) input.user := by
      intro store
      simp [calls, verificationPostmortem_calls, reaches, hasText, recorded, skillIds, operatorType,
        prompt]
    rw [hcalls, hcalls, hreaches]
    exact asked_inj PostmortemInput.system_isPrompt hprompt hprompt'
  | discoveryFinalize input =>
    have hcalls : ∀ store, (discoveryFinalize input).calls store cycle jobId =
        ((discoveryFinalize input).prompt store).toList.map fun prompt =>
          messages (FinalizeInput.system ++ "\n\n".toList ++ prompt) input.user := fun _ => rfl
    have hstays : (discoveryFinalize input).reaches store cycle = true := rfl
    rw [hcalls, hcalls, hstays]
    cases (discoveryFinalize input).prompt (store.withBody skillId body) <;>
      cases (discoveryFinalize input).prompt store <;> simp [messages]

theorem blocked_body_ignored_iff (request : Request) (store : SkillStore) (cycle : CyclePolicy)
    (jobId : Id) (skillId : String) (body : Option (List Char))
    (hblocked : store.Blocked cycle skillId) :
    request.calls (store.withBody skillId body) cycle jobId = request.calls store cycle jobId ↔
      request.Ignores store cycle skillId body := by
  rw [calls_withBody_iff hblocked request body jobId, prompt_withBody_iff hblocked request body]
  rfl

end Request

/-! ## A cycle that wants first-party skills -/

def userSkill (body : String) : SkillDefinition where
  id := 0
  skillId := "ideation.hypothesis_generation"
  trustTier := "user_local_trusted"
  manifest := some {}
  body := some body.toList
  enabled := true

def userStore (body : String) : SkillStore where
  rows := [userSkill body]
  unique := List.nodup_singleton _

def firstPartyCycle : CyclePolicy where
  id := 0
  config := some [("skills", .obj [("require_first_party_for_execution", .bool true)])]

theorem userStore_blocked (body : String) :
    (userStore body).Blocked firstPartyCycle "ideation.hypothesis_generation" :=
  ⟨userSkill body, _, rfl, rfl, rfl⟩

def oneCard : HypothesisCard where
  title := ['t']
  statement := ['s']
  rationale := ['r']
  noveltyScore := .null
  feasibilityScore := .null
  impactScore := .null

def oneCritique : Request := .hypothesisCritique ⟨[oneCard], ['p']⟩

theorem userStore_critique_reaches (body : String) :
    oneCritique.reaches (userStore body) firstPartyCycle = true := by
  have hstops := (userStore_blocked body).not_stops "hypothesis_critique"
  rw [oneCritique, Request.reaches, Request.recorded, Request.skillIds, Request.operatorType,
    List.all_cons, hstops]
  · rfl
  · nofun

/-- The critique is asked with the body of a blocked skill in its system message. -/
theorem blocked_body_reaches_critique :
    (userStore "a").Blocked firstPartyCycle "ideation.hypothesis_generation" ∧
    oneCritique.calls
        ((userStore "a").withBody "ideation.hypothesis_generation" (some ['b'])) firstPartyCycle 0 ≠
      oneCritique.calls (userStore "a") firstPartyCycle 0 := by
  have hblocked := userStore_blocked "a"
  refine ⟨hblocked, ?_⟩
  rw [Ne, Request.calls_withBody_iff hblocked, Request.prompt_withBody_iff hblocked]
  rintro (hreaches | hid | husable | hbody)
  · rw [userStore_critique_reaches] at hreaches
    exact absurd hreaches (by decide)
  · exact hid (by decide)
  · exact absurd husable (by decide)
  · exact absurd hbody (by decide)

/-- White space around the body does not reach the call. -/
theorem blocked_body_ignored_iff_padded :
    (userStore "a").body "ideation.hypothesis_generation" ≠ some " a\n".toList ∧
      oneCritique.calls ((userStore "a").withBody "ideation.hypothesis_generation"
          (some " a\n".toList)) firstPartyCycle 0 =
        oneCritique.calls (userStore "a") firstPartyCycle 0 := by
  refine ⟨by decide, (Request.blocked_body_ignored_iff oneCritique (userStore "a") firstPartyCycle 0
    "ideation.hypothesis_generation" _ (userStore_blocked "a")).mpr (.inr (.inr (.inr ?_)))⟩
  decide

end Synthetos.Skills
