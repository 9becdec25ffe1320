import Synthetos.Skills.Prompts

/-!
# The operators that load skills

From the rows an operator has read to the messages it hands to the model gateway: loading the
prompts, recording the use of the skills and building the texts.  Every operator makes at most
one call.
-/

namespace Synthetos.Skills

open Lib

structure Message where
  role : String
  content : List Char
deriving DecidableEq

abbrev Call := List Message

def messages (system user : List Char) : Call := [⟨"system", system⟩, ⟨"user", user⟩]

/-- An operator raises or returns an error before its call, or it has made these calls. -/
abbrev Outcome := Except String (Session × List Call)

def Outcome.calls : Outcome → List Call
  | .ok (_, calls) => calls
  | .error _ => []

/-- `if skill.prompt: record_skill_usage(..)`; the operators ignore the answer. -/
def recordPrompt (store : SkillStore) (cycle : CyclePolicy) (operatorType : String) (jobId : Id)
    (config : Option Dict) (skillId : String) (session : Session) : Except String Session :=
  if (loadSkillPrompt store skillId operatorType).prompt.isSome then do
    let (session, _) ← recordSkillUsage store skillId cycle operatorType jobId config false session
    return session
  else return session

def number (n : Nat) : List Char := (toString n).toList

structure HypothesisCard where
  title : List Char
  statement : List Char
  rationale : List Char
  noveltyScore : Json
  feasibilityScore : Json
  impactScore : Json

def HypothesisCard.header (card : HypothesisCard) (i : Nat) : List Char :=
  Text.join "\n"
    ["Hypothesis ".toList ++ number (i + 1) ++ ": ".toList ++ card.title,
      "Statement: ".toList ++ card.statement, "Rationale: ".toList ++ card.rationale]

/-! ## `protocol_compile` -/

structure CompileInput where
  cards : List HypothesisCard
  problemStatement : List Char
  hardwareProfile : Option Dict
  baseImage : Option (List Char)
  variationContext : Option Dict

namespace CompileInput

def system : List Char :=
  "You are an ML experiment protocol compiler. Given hypotheses and a ".toList ++
    (("research problem, produce fully executable experiment specifications. " ++
    "Each spec must include:\n" ++
    "- A baseline description with expected metrics\n" ++
    "- Metrics to track with direction (maximize/minimize) and optional thresholds\n" ++
    "- A code_plan with entry_point, dependencies, and complete file contents\n" ++
    "- Stop conditions\n" ++
    "- Expected artifacts to produce\n" ++
    "The code should write metrics to /artifacts/metrics.json as a flat ").toList ++
    "\x7bmetric_name: numeric_value\x7d JSON object.".toList)

def hypothesisText (i : Nat) (card : HypothesisCard) : List Char :=
  card.header i ++ "\nScores - novelty: ".toList ++ card.noveltyScore.strChars ++
    ", feasibility: ".toList ++ card.feasibilityScore.strChars ++
    ", impact: ".toList ++ card.impactScore.strChars

def hardwareHint (input : CompileInput) : List Char :=
  let hint := match input.hardwareProfile with
    | some (field :: fields) =>
      "\nHardware profile: ".toList ++ (Json.obj (field :: fields)).strChars
    | _ => []
  match input.baseImage with
  | some (c :: image) => hint ++ "\nBase image: ".toList ++ c :: image
  | _ => hint

/-- `"; ".join(repeated)`: the items of a list, the characters of a text, the keys of a mapping. -/
def joinRepeated : Json → Except String (List Char)
  | .arr items => do
    let texts ← items.mapM fun
      | .str s => .ok s.toList
      | _ => .error "TypeError: sequence item: expected str instance"
    return Text.join "; " texts
  | .str s => .ok (Text.join "; " (s.toList.map fun c => [c]))
  | .obj fields => .ok (Text.join "; " (fields.map fun field => field.1.toList))
  | _ => .error "TypeError: can only join an iterable"

def contextHint (contextSummary : Json) : Except String (List Char) :=
  if !contextSummary.truthy then .ok [] else
    match contextSummary with
    | .obj summary => do
      let keyFindings := Dict.getD summary "key_findings" (.str "")
      let findings := if keyFindings.truthy
        then "\n- Loop findings: ".toList ++ keyFindings.strChars else []
      let repeatedApproaches := Dict.getD summary "repeated_approaches" (.arr [])
      if repeatedApproaches.truthy then
        return findings ++ "\n- Repeated approaches: ".toList ++ (← joinRepeated repeatedApproaches)
      else return findings
    | _ => .error "AttributeError: object has no attribute 'get'"

def variationHint (input : CompileInput) : Except String (List Char) :=
  match input.variationContext with
  | some (field :: fields) => do
    let context : Dict := field :: fields
    let priorMetrics := context.getD "prior_metrics" .null
    let metrics := if priorMetrics.truthy
      then "\n- Metrics achieved: ".toList ++ priorMetrics.strChars else []
    let findings ← contextHint (context.getD "context_summary" .null)
    return "\n\nPrevious attempt results:\n- Signal: ".toList ++
      (context.getD "signal" (.str "unknown")).strChars ++
      "\n- Best frontier value: ".toList ++ (context.getD "frontier_best" (.str "N/A")).strChars ++
      "\n- Recommendation: ".toList ++
      (context.getD "recommendation_action" (.str "")).strChars ++
      "\n- This is variation #".toList ++ (context.getD "variation_number" (.int 1)).strChars ++
      (".\n\nCompile a NEW experiment spec that addresses the stall/regression by " ++
        "varying hyperparameters, architecture choices, or training strategy. " ++
        "Do NOT repeat the same configuration.").toList ++ metrics ++ findings
  | _ => .ok []

def user (input : CompileInput) : Except String (List Char) := do
  let variation ← input.variationHint
  return "Problem: ".toList ++ input.problemStatement ++ "\n\nHypotheses to compile:\n".toList ++
    Text.join "\n\n" (input.cards.mapIdx hypothesisText) ++ ['\n'] ++ input.hardwareHint ++
    "\n\nCompile each hypothesis into a complete, executable experiment spec.".toList ++ variation

def skillIds : List String := ["ideation.experiment_planning", "coding.experiment_coding"]

end CompileInput

def protocolCompile (input : CompileInput) (store : SkillStore) (cycle : CyclePolicy) (jobId : Id) :
    Outcome := do
  if input.cards.isEmpty then
    throw "no hypotheses available to compile"
  let planningSkill := loadSkillPrompt store "ideation.experiment_planning" "protocol_compile"
  let codingSkill := loadSkillPrompt store "coding.experiment_coding" "protocol_compile"
  let combinedSkillPrompt := joinSkillPrompts [planningSkill.prompt, codingSkill.prompt]
  let session ← recordPrompt store cycle "protocol_compile" jobId none
    "ideation.experiment_planning" {}
  let session ← recordPrompt store cycle "protocol_compile" jobId none
    "coding.experiment_coding" session
  let user ← input.user
  return (session, [messages (systemMessage CompileInput.system combinedSkillPrompt) user])

/-! ## `hypothesis_generate` -/

structure EvidenceCard where
  id : List Char
  claim : List Char
  evidenceType : List Char
  confidence : Json

/-- The entry of `evidence_summaries` for a card. -/
def EvidenceCard.summary (card : EvidenceCard) : Dict :=
  [("id", .str (String.ofList card.id)), ("claim", .str (String.ofList card.claim)),
    ("type", .str (String.ofList card.evidenceType)), ("confidence", card.confidence)]

structure PatternHint where
  patternType : List Char
  title : List Char
  effectiveConfidence : Json
  summary : List Char

structure GenerateInput where
  charterTitle : List Char
  problemStatement : List Char
  evidence : List EvidenceCard
  maxHypotheses : Int
  /-- What the injection of patterns gives for the text of the problem profile. -/
  patternHints : List Char → List PatternHint

namespace GenerateInput

def system (input : GenerateInput) : List Char :=
  ("You are a research hypothesis generator. Given a research problem and " ++
    "supporting evidence, generate novel, testable hypotheses. Each hypothesis " ++
    "should be grounded in the evidence and include a clear rationale. " ++
    "Generate up to ").toList ++ (Json.int input.maxHypotheses).strChars ++ " hypotheses.".toList

/-- `item[key]` -/
def item (entry : Dict) (key : String) : Except String Json :=
  match entry.get? key with
  | some v => .ok v
  | none => .error s!"KeyError: '{key}'"

/-- The text that is embedded to look for patterns. -/
def problemProfile (input : GenerateInput) : Except String (List Char) := do
  let summaries ← (input.evidence.map EvidenceCard.summary).mapM fun entry => do
    return (← item entry "summary").strChars
  return Text.join "\n" [input.charterTitle, input.problemStatement, Text.join " " summaries]

def evidenceText (card : EvidenceCard) : List Char :=
  "Evidence [".toList ++ card.id ++ "]: ".toList ++ card.claim ++ " (type: ".toList ++
    card.evidenceType ++ ", confidence: ".toList ++ card.confidence.strChars ++ [')']

def hintLine (hint : PatternHint) : List Char :=
  "- [".toList ++ hint.patternType ++ "] ".toList ++ hint.title ++ " (conf=".toList ++
    hint.effectiveConfidence.strChars ++ "): ".toList ++ hint.summary

def patternText (hints : List PatternHint) : List Char :=
  if hints.isEmpty then [] else
    "\nPrior-cycle patterns to consider (from this system's memory):\n".toList ++
      Text.join "\n" (hints.map hintLine) ++ ['\n']

def user (input : GenerateInput) : Except String (List Char) := do
  let profile ← input.problemProfile
  return "Research problem: ".toList ++ input.charterTitle ++ "\nProblem statement: ".toList ++
    input.problemStatement ++ "\n\nAvailable evidence:\n".toList ++
    Text.join "\n\n" (input.evidence.map evidenceText) ++ ['\n'] ++
    patternText (input.patternHints profile) ++ "\nGenerate up to ".toList ++
    (Json.int input.maxHypotheses).strChars ++
    (" testable hypotheses based on this evidence. " ++
      "For each hypothesis, reference the evidence IDs that support it.").toList

end GenerateInput

def hypothesisGenerate (input : GenerateInput) (store : SkillStore) (cycle : CyclePolicy)
    (jobId : Id) : Outcome := do
  if input.evidence.isEmpty then
    throw "no evidence cards found for cycle"
  let skill := loadSkillPrompt store "ideation.hypothesis_generation" "hypothesis_generate"
  let session ← recordPrompt store cycle "hypothesis_generate" jobId none
    "ideation.hypothesis_generation" {}
  let user ← input.user
  return (session, [messages (systemMessage input.system skill.prompt) user])

/-! ## `hypothesis_critique` -/

structure CritiqueInput where
  cards : List HypothesisCard
  problemStatement : List Char

namespace CritiqueInput

def system : List Char :=
  "You are a rigorous scientific reviewer. Critique each hypothesis on its ".toList ++
    (("novelty (how original is it?), feasibility (can it be tested with standard ML " ++
    "hardware and methods?), and impact (how significant would confirmation be?). " ++
    "Score each dimension from 0.0 to 1.0. Identify strengths, weaknesses, ").toList ++
    "and plausible failure modes.".toList)

def user (input : CritiqueInput) : List Char :=
  "Problem context: ".toList ++ input.problemStatement ++ "\n\nHypotheses to critique:\n".toList ++
    Text.join "\n\n" (input.cards.mapIdx fun i card => card.header i) ++
    "\n\nProvide a critique for each of the ".toList ++ number input.cards.length ++
    " hypotheses, in order.".toList

end CritiqueInput

def hypothesisCritique (input : CritiqueInput) (store : SkillStore) (cycle : CyclePolicy)
    (jobId : Id) : Outcome := do
  if input.cards.isEmpty then
    throw "no candidate hypotheses to critique"
  let skill := loadSkillPrompt store "ideation.hypothesis_generation" "hypothesis_critique"
  let session ← recordPrompt store cycle "hypothesis_critique" jobId
    (some [("mode", .str "critique")]) "ideation.hypothesis_generation" {}
  return (session, [messages (systemMessage CritiqueInput.system skill.prompt) input.user])

/-! ## `verification_postmortem` -/

structure PostmortemInput where
  failureClass : Option (List Char)
  error : Option (List Char)
  errorTrace : List Char
  metricsOutput : Option Dict
  baselineComparison : Option Dict

namespace PostmortemInput

def system : List Char :=
  "You are an ML experiment failure analyst. Given a failed experiment run, ".toList ++
    ("determine the root cause, contributing factors, and recommend next steps. ".toList ++
    "Be specific and actionable.".toList)

/-- `text or default` -/
def orDefault (text : Option (List Char)) (default : String) : List Char :=
  match text with
  | some (c :: rest) => c :: rest
  | _ => default.toList

def dictText (fields : Option Dict) : List Char := ((fields.map Json.obj).getD .null).strChars

def user (input : PostmortemInput) : List Char :=
  "Failure class: ".toList ++ orDefault input.failureClass "unknown" ++ "\nError: ".toList ++
    orDefault input.error "unknown error" ++ "\n\nError trace (last 50 lines):\n".toList ++
    input.errorTrace ++ "\n\nMetrics output: ".toList ++ dictText input.metricsOutput ++
    "\nBaseline comparison: ".toList ++ dictText input.baselineComparison ++
    ("\n\nAnalyze this failure and provide:\n" ++ "1. Root cause\n" ++
      "2. Contributing factors\n" ++ "3. Next step recommendation\n" ++
      "4. Lessons learned").toList

end PostmortemInput

def verificationPostmortem (input : PostmortemInput) (store : SkillStore) (cycle : CyclePolicy)
    (jobId : Id) : Outcome := do
  let skill := loadSkillPrompt store "verification.run_evaluation" "verification_postmortem"
  let session ← recordPrompt store cycle "verification_postmortem" jobId none
    "verification.run_evaluation" {}
  return (session, [messages (systemMessage PostmortemInput.system skill.prompt) input.user])

/-! ## `discovery_finalize` -/

structure PaperCard where
  title : Json
  authors : Json
  year : Json
  venue : Json
  source : Json
  finalScore : Json
  metadataAnalysis : Option Dict

def PaperCard.forPrompt (card : PaperCard) : Json :=
  let analysis := card.metadataAnalysis.getD []
  .obj
    [("title", card.title), ("authors", if card.authors.truthy then card.authors else .arr []),
      ("year", card.year), ("venue", card.venue), ("source", card.source),
      ("final_score", card.finalScore), ("shortlist_fit", analysis.getD "shortlist_fit" .null),
      ("relevance_to_problem", analysis.getD "relevance_to_problem" .null),
      ("summary", analysis.getD "one_line_summary" .null),
      ("escalation_rationale", analysis.getD "escalation_rationale" .null)]

structure FinalizeInput where
  queryText : List Char
  stableView : List PaperCard
  discoveryView : List PaperCard

namespace FinalizeInput

def system : List Char :=
  ("You are reviewing a metadata-only literature shortlist. Be concise, " ++
    "practical, and skeptical. Flag coverage gaps, topic clustering, and weak " ++
    "shortlist evidence without inventing missing facts. Return only the " ++
    "structured fields.").toList

def cardList (cards : List PaperCard) : List Char :=
  (Json.arr (cards.map PaperCard.forPrompt)).strChars

def user (input : FinalizeInput) : List Char :=
  "Problem statement:\n".toList ++ input.queryText ++ "\n\nStable view:\n".toList ++
    cardList input.stableView ++ "\n\nDiscovery view:\n".toList ++
    cardList input.discoveryView ++
    "\n\nProvide a short critique of the combined shortlist.".toList

def skillIds : List String := ["literature.shortlist_critique", "literature.escalation_rationale"]

end FinalizeInput

/-- The operator asks for a critique only when there is a prompt, and records no use of a skill. -/
def discoveryFinalize (input : FinalizeInput) (store : SkillStore) : Outcome :=
  let shortlistSkill := loadSkillPrompt store "literature.shortlist_critique" "discovery_finalize"
  let escalationSkill :=
    loadSkillPrompt store "literature.escalation_rationale" "discovery_finalize"
  let critiquePrompt := joinSkillPrompts [shortlistSkill.prompt, escalationSkill.prompt]
  .ok ({}, critiquePrompt.toList.map fun prompt =>
    messages (FinalizeInput.system ++ "\n\n".toList ++ prompt) input.user)

end Synthetos.Skills
