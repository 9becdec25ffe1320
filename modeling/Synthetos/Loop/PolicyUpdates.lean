import Synthetos.Api.PolicyRequests
import Synthetos.Lib.Fields

/-!
# Policy updates

What a sequence of policy requests leaves in the configuration of a cycle.
-/

namespace Synthetos.Loop

open Synthetos.Core Lib Autonomy Api

variable {readers : Readers}

/-- The policy with the fields and the gates that the request names, and all others unchanged. -/
def amended (policy : PolicyRead) (body : PolicyUpdate) : PolicyRead where
  mode := body.mode.getD policy.mode
  maxTotalRuns := body.maxTotalRuns.or policy.maxTotalRuns
  maxWallClockHours := body.maxWallClockHours.or policy.maxWallClockHours
  maxRunsPerHypothesis := body.maxRunsPerHypothesis.or policy.maxRunsPerHypothesis
  maxWallTimePerRunS := body.maxWallTimePerRunS.or policy.maxWallTimePerRunS
  summaryInterval := body.summaryInterval.getD policy.summaryInterval
  checkpointGates := match body.checkpointGates with
    | some gates => gates.over policy.checkpointGates
    | none => policy.checkpointGates
  costBudgetNote := policy.costBudgetNote

/-- The same with the gates replaced as a whole: a gate that is not named takes its default. -/
def overwritten (policy : PolicyRead) (body : PolicyUpdate) : PolicyRead :=
  { amended policy body with
    checkpointGates := match body.checkpointGates with
      | some gates => gates.over {}
      | none => policy.checkpointGates }

/-- One request changes the named fields and gates only, and its answer is what is read next. -/
structure PartialAndDurable (readers : Readers) (config : Config) (body : PolicyUpdate) : Prop where
  amends : ∀ policy, getPolicy readers config = some policy →
    ∃ row, putPolicy readers config body = .ok (row, amended policy body)
  durable : ∀ row policy, putPolicy readers config body = .ok (row, policy) →
    getPolicy readers row = some policy
  frame : ∀ key, key ≠ "autonomy" →
    (afterPut readers config body).fields.get? key = config.fields.get? key

/-- The configuration has no policy object yet, or the request asks for nothing new: the stored
policy has all the values it names and, where it brings gates, every other gate at its default. -/
def AsksNothingNew (readers : Readers) (config : Config) (body : PolicyUpdate) : Prop :=
  match config.fields.get? "autonomy" with
  | some (.obj current) =>
    match validatePolicy readers (.obj current) with
    | some policy => overwritten policy body = policy
    | none => validatePolicy readers (.obj (Dict.update current (dumpUpdate body))) = none
  | _ => True

/-- A property of every request of a sequence at the configuration it meets. -/
def EveryRequest (readers : Readers) (Holds : Config → PolicyUpdate → Prop) :
    Config → List PolicyUpdate → Prop
  | _, [] => True
  | config, body :: rest =>
    Holds config body ∧ EveryRequest readers Holds (afterPut readers config body) rest

/-! ### Reading back a merged object -/

theorem get?_dumped (key asked : String) (value : Option Json) :
    Dict.get? (dumped key value) asked = if asked = key then value else none := by
  cases value with
  | none => simp [dumped, Dict.get?]
  | some v => by_cases h : asked = key <;> simp [dumped, Dict.get?, h]

theorem readField_update {α β : Type} {reader : Json → Option α} {fields new : Dict} {key : String}
    {default old : α} {value : Option β} {encode : β → Json} (wrap : β → α)
    (hnew : new.get? key = value.map encode) (hreader : ∀ x, reader (encode x) = some (wrap x))
    (hold : readField reader fields key default = some old) :
    readField reader (fields.update new) key default = some ((value.map wrap).getD old) := by
  rw [readField, Dict.get?_update_or, hnew]
  cases value with
  | some x => simp [hreader]
  | none => simpa [readField] using hold

theorem getD_map_some {β : Type} (value old : Option β) :
    (value.map some).getD old = value.or old := by
  cases value <;> rfl

theorem validateGates_dump (hplain : readers.Plain) (gates : CheckpointGateConfig) :
    validateGates readers (.obj (dumpGates gates)) = some gates := by
  rcases gates with ⟨every, n, hardware, promotion, network⟩
  cases n with
  | none =>
    simp [validateGates, readField, dumpGates, Dict.get?_append, get?_dumped, hplain.bool]
  | some n =>
    simp [validateGates, readField, dumpGates, Dict.get?_append, get?_dumped, hplain.bool,
      hplain.optionalInt]

theorem get?_dumpUpdate (body : PolicyUpdate) :
    (dumpUpdate body).get? "mode" = (body.mode.map fun mode => .str (modeText mode)) ∧
      (dumpUpdate body).get? "max_total_runs" = body.maxTotalRuns.map .int ∧
      (dumpUpdate body).get? "max_wall_clock_hours" = body.maxWallClockHours.map .float ∧
      (dumpUpdate body).get? "max_runs_per_hypothesis" = body.maxRunsPerHypothesis.map .int ∧
      (dumpUpdate body).get? "max_wall_time_per_run_s" = body.maxWallTimePerRunS.map .int ∧
      (dumpUpdate body).get? "summary_interval" = body.summaryInterval.map .int ∧
      (dumpUpdate body).get? "checkpoint_gates" =
        (body.checkpointGates.map fun gates => .obj (dumpGates (gates.over {}))) ∧
      (dumpUpdate body).get? "cost_budget_note" = none := by
  simp [dumpUpdate, Dict.get?_append, get?_dumped]

theorem validatePolicy_update (hplain : readers.Plain) {current : Dict} {policy : PolicyRead}
    (h : validatePolicy readers (.obj current) = some policy) (body : PolicyUpdate) :
    validatePolicy readers (.obj (Dict.update current (dumpUpdate body))) =
      some (overwritten policy body) := by
  simp only [validatePolicy, Option.bind_eq_bind, Option.bind_eq_some_iff, Option.pure_def,
    Option.some.injEq] at h
  obtain ⟨mode, hmode, total, htotal, hours, hhours, perCard, hperCard, perRun, hperRun, interval,
    hinterval, gates, hgates, note, hnote, rfl⟩ := h
  obtain ⟨hgetMode, hgetTotal, hgetHours, hgetPerCard, hgetPerRun, hgetInterval, hgetGates, hgetNote⟩ :=
    get?_dumpUpdate body
  simp only [validatePolicy, Option.bind_eq_bind, Option.bind_eq_some_iff, Option.pure_def,
    Option.some.injEq]
  refine ⟨_, readField_update id hgetMode hplain.mode hmode,
    _, readField_update some hgetTotal hplain.optionalInt htotal,
    _, readField_update some hgetHours hplain.optionalFloat hhours,
    _, readField_update some hgetPerCard hplain.optionalInt hperCard,
    _, readField_update some hgetPerRun hplain.optionalInt hperRun,
    _, readField_update id hgetInterval hplain.int hinterval,
    _, readField_update (fun gates => gates.over {}) hgetGates
      (fun gates => validateGates_dump hplain _) hgates,
    note, ?_, ?_⟩
  · rw [readField, Dict.get?_update_or, hgetNote]
    exact hnote
  · simp only [overwritten, amended, getD_map_some, Option.map_id, id]
    cases body.checkpointGates <;> rfl

/-! ### What the flush leaves -/

theorem flushConfig_self (row assigned : Config) : flushConfig row assigned assigned = row := by
  cases assigned with
  | none => rfl
  | some fields => simp [flushConfig, sameConfig, Json.same_refl]

theorem flushConfig_new {config : Config} {updated : Json}
    (h : config.fields.get? "autonomy" = none) :
    flushConfig config config (some (config.fields.set "autonomy" updated)) =
      some (config.fields.set "autonomy" updated) := by
  cases config with
  | none => rfl
  | some fields =>
    rw [flushConfig, if_neg]
    intro hsame
    have hkey := (Json.mem_keys_of_same hsame "autonomy").mp (by simp [Config.fields, Dict.set])
    rw [← Dict.isSome_get?_iff] at hkey
    simp [Config.fields] at h
    simp [h] at hkey

theorem getPolicy_of_entry (readers : Readers) {config : Config} {entry : Json}
    (h : config.fields.get? "autonomy" = some entry) :
    getPolicy readers config = validatePolicy readers entry := by
  rw [getPolicy, Dict.getD, h, Option.getD_some]

theorem putPolicy_new (hplain : readers.Plain) {config : Config}
    (h : config.fields.get? "autonomy" = none) (body : PolicyUpdate) :
    putPolicy readers config body =
      .ok (some (config.fields.set "autonomy" (.obj (Dict.update [] (dumpUpdate body)))),
        overwritten {} body) := by
  have hread : validatePolicy readers (.obj (Dict.update [] (dumpUpdate body))) =
      some (overwritten {} body) := validatePolicy_update hplain rfl body
  simp [putPolicy, Dict.getD, h, hread, flushConfig_new h]

theorem putPolicy_existing (readers : Readers) {config : Config} {current : List (String × Json)}
    (h : config.fields.get? "autonomy" = some (.obj current)) (body : PolicyUpdate) :
    putPolicy readers config body =
      match validatePolicy readers (.obj (Dict.update current (dumpUpdate body))) with
      | some policy => .ok (config, policy)
      | none => .error "ValidationError" := by
  cases config with
  | none => cases h
  | some fields =>
    have hfields : Dict.get? fields "autonomy" = some (.obj current) := h
    cases hvalid : validatePolicy readers (.obj (Dict.update current (dumpUpdate body))) <;>
      simp only [putPolicy, Dict.getD, Config.fields, Option.getD_some, hfields, Option.isSome_some,
        ↓reduceIte, Option.map_some, flushConfig_self, hvalid]

theorem putPolicy_malformed (readers : Readers) {config : Config} {entry : Json}
    (h : config.fields.get? "autonomy" = some entry) (hentry : ∀ fields, entry ≠ .obj fields)
    (body : PolicyUpdate) : (∃ e, putPolicy readers config body = .error e) ∧
      getPolicy readers config = none := by
  rw [getPolicy_of_entry readers h]
  cases entry with
  | obj fields => exact absurd rfl (hentry fields)
  | _ => simp [putPolicy, Dict.getD, h, validatePolicy]

/-! ### One request and all of them -/

theorem amended_of_overwritten {policy : PolicyRead} {body : PolicyUpdate}
    (h : overwritten policy body = policy) : amended policy body = policy := by
  have hgates : (overwritten policy body).checkpointGates = policy.checkpointGates := by rw [h]
  have hsame : (amended policy body).checkpointGates = policy.checkpointGates := by
    cases hnamed : body.checkpointGates with
    | none => simp [amended, hnamed]
    | some gates =>
      simp only [overwritten, hnamed] at hgates
      simp only [amended, hnamed]
      rw [← hgates]
      simp only [GatesUpdate.over]
      cases gates.afterEveryRun <;> cases gates.afterEveryNRuns <;>
        cases gates.beforeHardwareEscalation <;> cases gates.beforeResultPromotion <;>
        cases gates.beforeNetworkExecution <;> rfl
  calc amended policy body
      = { overwritten policy body with
          checkpointGates := (amended policy body).checkpointGates } := rfl
    _ = { policy with checkpointGates := policy.checkpointGates } := by rw [h, hsame]
    _ = policy := rfl

theorem partialAndDurable_new (hplain : readers.Plain) {config : Config}
    (h : config.fields.get? "autonomy" = none) (body : PolicyUpdate) :
    PartialAndDurable readers config body := by
  have hput := putPolicy_new hplain h body
  have hdefault : getPolicy readers config = some {} := by
    rw [getPolicy, Dict.getD, h]
    rfl
  refine ⟨?_, ?_, ?_⟩
  · intro policy hpolicy
    obtain rfl : ({} : PolicyRead) = policy := by rwa [hdefault, Option.some.injEq] at hpolicy
    exact ⟨_, hput⟩
  · intro row policy hanswer
    rw [hput] at hanswer
    cases hanswer
    have hentry : (Config.fields (some (config.fields.set "autonomy"
        (.obj (Dict.update [] (dumpUpdate body)))))).get? "autonomy" =
          some (.obj (Dict.update [] (dumpUpdate body))) := Dict.get?_set
    rw [getPolicy_of_entry readers hentry]
    exact validatePolicy_update hplain rfl body
  · intro key hkey
    rw [afterPut, hput]
    exact Dict.get?_set_ne hkey

theorem partialAndDurable_existing (hplain : readers.Plain) {config : Config}
    {current : List (String × Json)} (h : config.fields.get? "autonomy" = some (.obj current))
    (body : PolicyUpdate) :
    PartialAndDurable readers config body ↔ AsksNothingNew readers config body := by
  have hput := putPolicy_existing readers h body
  have hget := getPolicy_of_entry readers h
  have hafter : afterPut readers config body = config := by
    rw [afterPut, hput]
    cases validatePolicy readers (.obj (Dict.update current (dumpUpdate body))) <;> rfl
  simp only [AsksNothingNew, h]
  cases hold : validatePolicy readers (.obj current) with
  | none =>
    rw [hold] at hget
    constructor
    · intro hholds
      cases hnew : validatePolicy readers (.obj (Dict.update current (dumpUpdate body))) with
      | none => rfl
      | some policy =>
        rw [hnew] at hput
        have hread := hholds.durable config policy hput
        rw [hget] at hread
        cases hread
    · intro hnew
      rw [hnew] at hput
      refine ⟨?_, ?_, fun key _ => by rw [hafter]⟩
      · intro policy hpolicy
        rw [hget] at hpolicy
        cases hpolicy
      · intro row policy hanswer
        rw [hput] at hanswer
        cases hanswer
  | some policy =>
    have hnew := validatePolicy_update hplain hold body
    rw [hold] at hget
    rw [hnew] at hput
    constructor
    · intro hholds
      have hread := hholds.durable config _ hput
      rw [hget] at hread
      exact (Option.some.inj hread).symm
    · intro hsame
      refine ⟨?_, ?_, fun key _ => by rw [hafter]⟩
      · intro policy' hpolicy
        rw [hget] at hpolicy
        cases hpolicy
        rw [amended_of_overwritten hsame]
        exact ⟨config, by rw [hput, hsame]⟩
      · intro row policy' hanswer
        rw [hput] at hanswer
        cases hanswer
        rw [hget, hsame]

theorem partialAndDurable_iff (hplain : readers.Plain) (config : Config) (body : PolicyUpdate) :
    PartialAndDurable readers config body ↔ AsksNothingNew readers config body := by
  cases hentry : config.fields.get? "autonomy" with
  | none =>
    have hnothing : AsksNothingNew readers config body := by
      rw [AsksNothingNew, hentry]
      trivial
    exact iff_of_true (partialAndDurable_new hplain hentry body) hnothing
  | some entry =>
    by_cases hobj : ∃ fields, entry = .obj fields
    · obtain ⟨fields, rfl⟩ := hobj
      exact partialAndDurable_existing hplain hentry body
    · have hne : ∀ fields, entry ≠ .obj fields := fun fields heq => hobj ⟨fields, heq⟩
      obtain ⟨⟨e, hput⟩, hget⟩ := putPolicy_malformed readers hentry hne body
      have hnothing : AsksNothingNew readers config body := by
        rw [AsksNothingNew, hentry]
        cases entry with
        | obj fields => exact absurd rfl (hne fields)
        | _ => trivial
      refine iff_of_true ⟨?_, ?_, ?_⟩ hnothing
      · intro policy hpolicy
        rw [hget] at hpolicy
        cases hpolicy
      · intro row policy hanswer
        rw [hput] at hanswer
        cases hanswer
      · intro key _
        rw [afterPut, hput]

/-- Every request of a sequence is partial and durable exactly when each finds no policy object or
asks for nothing new. -/
theorem everyRequest_partialAndDurable_iff (readers : Readers) (hplain : readers.Plain)
    (config : Config) (bodies : List PolicyUpdate) :
    EveryRequest readers (PartialAndDurable readers) config bodies ↔
      EveryRequest readers (AsksNothingNew readers) config bodies := by
  induction bodies generalizing config with
  | nil => rfl
  | cons body rest ih => rw [EveryRequest, EveryRequest, partialAndDurable_iff hplain, ih]

/-! ### A lost budget extension -/

/-- Readers that accept the values of a field's own type and nothing else. -/
def strictReaders : Readers where
  mode
    | .str "supervised" => some .supervised
    | .str "autonomous" => some .autonomous
    | _ => none
  optionalInt
    | .null => some none
    | .int n => some (some n)
    | _ => none
  optionalFloat
    | .null => some none
    | .float q => some (some q)
    | _ => none
  int
    | .int n => some n
    | _ => none
  bool
    | .bool b => some b
    | _ => none
  str
    | .str s => some s
    | _ => none

theorem strictReaders_plain : strictReaders.Plain :=
  ⟨fun mode => by cases mode <;> rfl, fun _ => rfl, fun _ => rfl, fun _ => rfl, fun _ => rfl⟩

theorem everyRequest_partialAndDurable_fresh :
    EveryRequest strictReaders (PartialAndDurable strictReaders) none
      [{ maxTotalRuns := some 10 }, { maxTotalRuns := some 10 }] :=
  (everyRequest_partialAndDurable_iff strictReaders strictReaders_plain none _).mpr
    ⟨trivial, rfl, trivial⟩

/-- A cycle limited to five runs is extended to ten: the answer says ten, the next read five. -/
theorem budget_extension_lost :
    (putPolicy strictReaders (some [("autonomy", .obj [("max_total_runs", .int 5)])])
        { maxTotalRuns := some 10 }).toOption.map (fun answer => answer.2.maxTotalRuns) =
      some (some 10) ∧
    (getPolicy strictReaders (afterPut strictReaders
        (some [("autonomy", .obj [("max_total_runs", .int 5)])])
        { maxTotalRuns := some 10 })).map (fun policy => policy.maxTotalRuns) = some (some 5) ∧
    ¬ ∀ readers : Readers, readers.Plain → ∀ config bodies,
      EveryRequest readers (PartialAndDurable readers) config bodies := by
  have hput := @putPolicy_existing strictReaders
    (some [("autonomy", .obj [("max_total_runs", .int 5)])]) _ rfl { maxTotalRuns := some 10 }
  have hafter : afterPut strictReaders (some [("autonomy", .obj [("max_total_runs", .int 5)])])
      { maxTotalRuns := some 10 } = some [("autonomy", .obj [("max_total_runs", .int 5)])] := by
    rw [afterPut, hput]
    rfl
  refine ⟨by rw [hput]; rfl, by rw [hafter]; rfl, fun h => ?_⟩
  have hread := (h strictReaders strictReaders_plain
    (some [("autonomy", .obj [("max_total_runs", .int 5)])]) [{ maxTotalRuns := some 10 }]).1.durable
    _ _ hput
  have hruns := congrArg (Option.map fun policy => policy.maxTotalRuns) hread
  exact absurd (show some (some (5 : Int)) = some (some 10) from hruns) (by decide)

end Synthetos.Loop
