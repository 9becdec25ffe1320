import Synthetos.Lib.Json

/-!
# Skill bindings

The registry of skills, the trust rules of `enforcement.evaluate` and `record_skill_usage`, which
applies them and writes the binding.
-/

namespace Synthetos.Skills

open Lib

abbrev Id := Nat

inductive TrustTier where
  | firstPartyTrusted
  | userLocalTrusted
  | thirdPartyUntrusted
deriving DecidableEq, Repr

namespace TrustTier

def value : TrustTier → String
  | firstPartyTrusted => "first_party_trusted"
  | userLocalTrusted => "user_local_trusted"
  | thirdPartyUntrusted => "third_party_untrusted"

/-- `TrustTier(text)`; `none` is the `ValueError`. -/
def parse? (text : String) : Option TrustTier :=
  [firstPartyTrusted, userLocalTrusted, thirdPartyUntrusted].find? (·.value == text)

end TrustTier

structure SkillManifest where
  allowedOperators : List String := []
  capabilities : List String := []

/-- A row of `skill_definitions`; the trust tier is a text column. -/
structure SkillDefinition where
  id : Id
  skillId : String
  trustTier : String
  manifest : Option SkillManifest
  body : Option (List Char)
  enabled : Bool

/-- The table `skill_definitions`, where `skill_id` is unique. -/
structure SkillStore where
  rows : List SkillDefinition
  unique : (rows.map SkillDefinition.skillId).Nodup

namespace SkillStore

def find? (store : SkillStore) (skillId : String) : Option SkillDefinition :=
  store.rows.find? (·.skillId == skillId)

end SkillStore

/-- Capabilities that require elevated trust, in sorted order. -/
def elevatedCapabilities : List String :=
  ["fs.write", "network.access", "python.hooks", "run.control"]

structure EnforcementResult where
  allowed : Bool
  reason : List Char
  elevated : Bool
deriving DecidableEq

def capabilities (manifest : Option SkillManifest) : List String :=
  (manifest.map SkillManifest.capabilities).getD []

/-- `(cycle_config or {}).get("skills", {})`, which must be a mapping to be read further. -/
def skillsPolicy (cycleConfig : Option Dict) : Except String Dict :=
  match (cycleConfig.getD []).getD "skills" (.obj []) with
  | .obj fields => .ok fields
  | _ => .error "AttributeError: object has no attribute 'get'"

/-- `evaluate`: may the skill be bound under the policy of the cycle? -/
def evaluate (skillId trustTier : String) (manifest : Option SkillManifest)
    (cycleConfig : Option Dict) : Except String EnforcementResult :=
  match TrustTier.parse? trustTier with
  | none => .ok
      { allowed := false
        reason := "unknown trust tier '".toList ++ trustTier.toList ++ ['\'']
        elevated := false }
  | some tier => do
    let caps := capabilities manifest
    let elevated := caps.any elevatedCapabilities.contains
    let cfg ← skillsPolicy cycleConfig
    let requireFirstParty := (cfg.getD "require_first_party_for_execution" (.bool false)).truthy
    if requireFirstParty && tier != .firstPartyTrusted then
      return {
        allowed := false
        reason := "cycle policy requires first_party_trusted skills but '".toList ++
          skillId.toList ++ "' has trust tier '".toList ++ tier.value.toList ++ ['\'']
        elevated := elevated }
    if elevated && tier == .thirdPartyUntrusted then
      return {
        allowed := false
        reason := "skill declares elevated capabilities ".toList ++
          (Json.arr ((elevatedCapabilities.filter caps.contains).map .str)).reprChars ++
          " but trust tier is third_party_untrusted".toList
        elevated := true }
    return { allowed := true, reason := [], elevated := elevated }

/-- The columns of `research_cycles` that skill enforcement reads. -/
structure CyclePolicy where
  id : Id
  config : Option Dict

/-- The events `skill.blocked` and `skill.invoked`. -/
inductive SkillEvent where
  | blocked (cycleId : Id) (skillId trustTier : String) (reason : List Char)
      (operatorType : String) (jobId : Id)
  | invoked (cycleId : Id) (skillId trustTier operatorType : String) (jobId : Id)

/-- A row of `skill_bindings`. -/
structure SkillBinding where
  skillDefId : Id
  cycleId : Id
  operatorType : String
  config : Option Dict

/-- What an operator has added to its database session. -/
structure Session where
  events : List SkillEvent := []
  bindings : List SkillBinding := []

def Session.emit (session : Session) (event : SkillEvent) : Session :=
  { session with events := session.events ++ [event] }

def Session.add (session : Session) (binding : SkillBinding) : Session :=
  { session with bindings := session.bindings ++ [binding] }

/-- `record_skill_usage`; the answer is the place of the new binding, if there is one. -/
def recordSkillUsage (store : SkillStore) (skillId : String) (cycle : CyclePolicy)
    (operatorType : String) (jobId : Id) (config : Option Dict) (raiseOnBlock : Bool)
    (session : Session) : Except String (Session × Option Nat) :=
  match store.find? skillId with
  | none => .ok (session, none)
  | some skillDef => do
    let decision ← evaluate skillId skillDef.trustTier skillDef.manifest cycle.config
    if !decision.allowed then
      let session := session.emit
        (.blocked cycle.id skillId skillDef.trustTier decision.reason operatorType jobId)
      if raiseOnBlock then throw "SkillTrustViolation" else return (session, none)
    let session := if decision.elevated
      then session.emit (.invoked cycle.id skillId skillDef.trustTier operatorType jobId)
      else session
    return (session.add ⟨skillDef.id, cycle.id, operatorType, config⟩, some session.bindings.length)

def SkillStore.Blocked (store : SkillStore) (cycle : CyclePolicy) (skillId : String) : Prop :=
  ∃ skillDef decision, store.find? skillId = some skillDef ∧
    evaluate skillId skillDef.trustTier skillDef.manifest cycle.config = .ok decision ∧
    decision.allowed = false

/-- The evaluation of a skill raises, since the `skills` entry of the policy is no mapping. -/
def SkillStore.raises (store : SkillStore) (cycle : CyclePolicy) (skillId : String) : Bool :=
  (store.find? skillId).any fun skillDef =>
    !(evaluate skillId skillDef.trustTier skillDef.manifest cycle.config).isOk

theorem SkillStore.Blocked.not_raises {store : SkillStore} {cycle : CyclePolicy} {skillId : String}
    (h : store.Blocked cycle skillId) : store.raises cycle skillId = false := by
  obtain ⟨skillDef, decision, hfind, hdecision, -⟩ := h
  simp [raises, hfind, hdecision, Except.isOk, Except.toBool]

theorem SkillStore.Blocked.recordSkillUsage {store : SkillStore} {cycle : CyclePolicy}
    {skillId : String} (h : store.Blocked cycle skillId) (operatorType : String) (jobId : Id)
    (config : Option Dict) (session : Session) :
    ∃ trustTier reason, recordSkillUsage store skillId cycle operatorType jobId config false session =
      .ok (session.emit (.blocked cycle.id skillId trustTier reason operatorType jobId), none) := by
  obtain ⟨skillDef, decision, hfind, hdecision, hblocked⟩ := h
  refine ⟨skillDef.trustTier, decision.reason, ?_⟩
  simp [Skills.recordSkillUsage, hfind, hdecision, hblocked, Bind.bind, Except.bind, pure, Except.pure]

end Synthetos.Skills
