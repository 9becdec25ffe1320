import Synthetos.Execution.Preparation
import Synthetos.Lib.Fields
import Synthetos.Lib.Numerals
import Synthetos.Remediation.Strategies
import Mathlib.Data.Rat.Cast.Order
import Mathlib.Tactic.Linarith

/-!
# Raising limits

What the oom and the timeout strategy make of the limits `execution_setup` and earlier attempts
can have stored.
-/

namespace Synthetos.Remediation

open Execution Lib

inductive StoredMemory where
  | bare (n : Nat)
  | gigabytes (n : Nat)
  | megabytes (n : Nat)
  | profile (memoryGb : Option Json)

namespace StoredMemory

def text : StoredMemory → String
  | bare n => toString n
  | gigabytes n => toString n ++ "g"
  | megabytes n => toString n ++ "m"
  | profile memoryGb => memoryText memoryGb

/-- The limit in gigabytes; a bare number counts gigabytes. -/
def size : StoredMemory → Option Rat
  | bare n => some n
  | gigabytes n => some n
  | megabytes n => some (n / 1024)
  | profile (some (.int n)) => some n
  | profile (some (.bool _)) => none
  | profile _ => some 16

def Growable : StoredMemory → Prop
  | bare n => 1 ≤ n
  | gigabytes n => 1 ≤ n
  | megabytes _ => True
  | profile (some (.int n)) => 1 ≤ n
  | profile (some (.bool _)) => False
  | profile _ => True

end StoredMemory

/-- The limits of a run, whose keys may be missing after an escalation without a profile. -/
structure Stored (limits : Dict) (memory : Option StoredMemory) (timeout : Option Int) : Prop where
  memory_eq : limits.get? "memory" = memory.map fun m => .str m.text
  timeout_eq : limits.get? "timeout" = timeout.map .int
  positive : ∀ t ∈ timeout, 1 ≤ t

/-- Skipped at or above the cap, raised to a larger limit within the cap otherwise. -/
def MemoryGrows (size : Option Rat) (result : Except String StrategyResult) : Prop :=
  ∃ strat current, result = .ok strat ∧ size = some current ∧
    (strat.strategy = "skip" ∧ 64 ≤ current ∨
      ∃ n : Int, strat.strategy = "increase_memory" ∧
        strat.overrides =
          [("run_resource_limits", .obj [("memory", .str (toString n ++ "g"))])] ∧
        current < n ∧ n ≤ 64)

def TimeoutGrows (current : Int) (result : Except String StrategyResult) : Prop :=
  ∃ strat, result = .ok strat ∧
    (strat.strategy = "skip" ∧ timeoutCapSeconds ≤ current ∨
      ∃ n : Int, strat.strategy = "extend_timeout" ∧
        strat.overrides = [("run_resource_limits", .obj [("timeout", .int n)])] ∧
        current < n ∧ n ≤ timeoutCapSeconds)

variable {inputs : StrategyInputs} {memory : Option StoredMemory} {timeout : Option Int}
  {limits hw : Dict} {text : List Char} {m : StoredMemory} {current parsed n : Int}

/-! ### Stored limits -/

theorem profileLimits_stored (hw : Dict) (timeout : Option Int)
    (htimeout : hw.get? "timeout_seconds" = timeout.map .int) (hpos : ∀ t ∈ timeout, 1 ≤ t) :
    Stored (profileLimits hw) (some (.profile (hw.get? "memory_gb")))
      (some (timeout.getD 3600)) where
  memory_eq := rfl
  timeout_eq := by
    change some (hw.getD "timeout_seconds" (.int 3600)) = some (.int (timeout.getD 3600))
    rw [Dict.getD, htimeout]
    cases timeout <;> rfl
  positive t ht := by
    obtain rfl := Option.some.inj ht
    cases timeout with
    | none => decide
    | some t => exact hpos t rfl

/-! ### Reading a limit -/

/-- Stripping and folding leave a text alone. -/
def Plain (text : List Char) : Prop := ∀ c ∈ text, Text.isSpace c = false ∧ c.toLower = c

theorem Plain.lower_strip (h : Plain text) : Text.lower (Text.strip text) = text := by
  rw [(Text.trimmed_of_not_space fun c hc => (h c hc).1).strip_eq]
  calc Text.lower text = text.map id := List.map_congr_left fun c hc => (h c hc).2
    _ = text := List.map_id text

theorem plain_toString (n : Int) : Plain (toString n).toList := by
  have digits (k : Nat) : Plain (toString k).toList := fun c hc =>
    ⟨Text.isSpace_of_isDigit (Text.isDigit_of_mem_numeral hc),
      Text.toLower_of_isDigit (Text.isDigit_of_mem_numeral hc)⟩
  rw [Text.toString_int]
  split
  · exact digits _
  · intro c hc
    rcases List.mem_cons.mp hc with rfl | hc
    · exact ⟨rfl, rfl⟩
    · exact digits _ c hc

theorem Plain.snoc (h : Plain text) {c : Char} (hspace : Text.isSpace c = false)
    (hlower : c.toLower = c) : Plain (text ++ [c]) := by
  intro d hd
  rcases List.mem_append.mp hd with hd | hd
  · exact h d hd
  · obtain rfl := List.mem_singleton.mp hd
    exact ⟨hspace, hlower⟩

theorem parseMemory_gigabytes (n : Int) :
    parseMemory (.str (toString n ++ "g")) = .ok n := by
  have htext : (toString n ++ "g").toList = (toString n).toList ++ ['g'] := String.toList_append
  unfold parseMemory
  rw [Json.strChars, htext, ((plain_toString n).snoc rfl rfl).lower_strip]
  simp only [List.getLast?_concat, List.dropLast_concat, Text.int?_toString]

theorem parseMemory_megabytes (n : Nat) :
    parseMemory (.str (toString n ++ "m")) = .ok (max 1 (n / 1024)) := by
  have htext : (toString n ++ "m").toList = (toString (n : Int)).toList ++ ['m'] :=
    String.toList_append
  unfold parseMemory
  rw [Json.strChars, htext, ((plain_toString n).snoc rfl rfl).lower_strip]
  simp only [List.getLast?_concat, List.dropLast_concat, Text.int?_toString]
  rfl

theorem parseMemory_bare (n : Nat) : parseMemory (.str (toString n)) = .ok n := by
  have hplain : Plain (toString n).toList := plain_toString n
  unfold parseMemory
  rw [Json.strChars, hplain.lower_strip]
  dsimp only
  split
  · rename_i hlast
    exact absurd (Text.isDigit_of_mem_numeral (List.mem_of_mem_getLast? hlast)) (by decide)
  · rename_i hlast
    exact absurd (Text.isDigit_of_mem_numeral (List.mem_of_mem_getLast? hlast)) (by decide)
  · rw [Text.int?_numeral]
    rfl

theorem parseMemory_stored (m : StoredMemory) :
    (¬ m.Growable ∧ ∃ e, parseMemory (.str m.text) = .error e) ∨
      ∃ size parsed, m.size = some size ∧ parseMemory (.str m.text) = .ok parsed ∧
        (m.Growable ↔ 1 ≤ parsed) ∧ (64 ≤ size ↔ 64 ≤ parsed) ∧ (1 ≤ parsed → size < 2 * parsed) := by
  have whole (n : Int) {m : StoredMemory} (hsize : m.size = some (n : Rat))
      (htext : parseMemory (.str m.text) = .ok n) (hgrow : m.Growable ↔ 1 ≤ n) :
      ∃ size parsed, m.size = some size ∧ parseMemory (.str m.text) = .ok parsed ∧
        (m.Growable ↔ 1 ≤ parsed) ∧ (64 ≤ size ↔ 64 ≤ parsed) ∧ (1 ≤ parsed → size < 2 * parsed) := by
    refine ⟨n, n, hsize, htext, hgrow, by norm_cast, fun hpos => ?_⟩
    norm_cast
    omega
  cases m with
  | bare n =>
    exact .inr (whole n rfl (parseMemory_bare n) (by simp [StoredMemory.Growable]))
  | gigabytes n =>
    exact .inr (whole n rfl (parseMemory_gigabytes n) (by simp [StoredMemory.Growable]))
  | megabytes n =>
    refine .inr ⟨_, _, rfl, parseMemory_megabytes n, by simp [StoredMemory.Growable], ?_, ?_⟩
    · rw [le_div_iff₀ (by norm_num)]
      norm_cast
      omega
    · intro _
      rw [div_lt_iff₀ (by norm_num)]
      norm_cast
      omega
  | profile memoryGb =>
    have hdefault : parseMemory (.str "16g") = .ok 16 := rfl
    rcases memoryGb with - | (- | b | n | q | s | items | fields)
    · exact .inr (whole 16 rfl hdefault (by simp [StoredMemory.Growable]))
    · exact .inr (whole 16 rfl hdefault (by simp [StoredMemory.Growable]))
    · refine .inl ⟨nofun, ?_⟩
      cases b <;> exact ⟨_, rfl⟩
    · exact .inr (whole n rfl (parseMemory_gigabytes n) Iff.rfl)
    · exact .inr (whole 16 rfl hdefault (by simp [StoredMemory.Growable]))
    · exact .inr (whole 16 rfl hdefault (by simp [StoredMemory.Growable]))
    · exact .inr (whole 16 rfl hdefault (by simp [StoredMemory.Growable]))
    · exact .inr (whole 16 rfl hdefault (by simp [StoredMemory.Growable]))

/-! ### The two strategies -/

theorem getD_memory (hstored : Stored limits memory timeout) :
    limits.getD "memory" (.str "16g") = .str (memory.getD (.gigabytes 16)).text := by
  rw [Dict.getD, hstored.memory_eq]
  cases memory <;> rfl

theorem getD_timeout (hstored : Stored limits memory timeout) :
    limits.getD "timeout" (.int 3600) = .int (timeout.getD 3600) := by
  rw [Dict.getD, hstored.timeout_eq]
  cases timeout <;> rfl

theorem selectStrategy_oom (hclass : inputs.failureClass = "oom") :
    selectStrategy inputs = oomStrategy inputs := by
  simp [selectStrategy, hclass]

theorem selectStrategy_timeout (hclass : inputs.failureClass = "timeout") :
    selectStrategy inputs = timeoutStrategy inputs := by
  simp [selectStrategy, hclass]

theorem oom_grows_iff (hfocused : needsEscalation inputs = false)
    (hmemory : inputs.limits.getD "memory" (.str "16g") = .str m.text) :
    MemoryGrows m.size (oomStrategy inputs) ↔ m.Growable := by
  rw [oomStrategy, if_neg (by simp [hfocused]), hmemory]
  rcases parseMemory_stored m with ⟨hnot, e, herror⟩ |
    ⟨size, parsed, hsize, hparsed, hgrow, hcap, hbound⟩
  · rw [herror]
    exact iff_of_false (fun ⟨_, _, h, _⟩ => nomatch h) hnot
  · rw [hparsed, hgrow, hsize]
    change MemoryGrows _ (if min (parsed * 2) 64 ≤ parsed then _ else _) ↔ _
    by_cases hskip : min (parsed * 2) 64 ≤ parsed
    · rw [if_pos hskip]
      constructor
      · rintro ⟨strat, current, hstrat, hcurrent, ⟨-, hle⟩ | ⟨n, hname, -⟩⟩
        · obtain rfl := Option.some.inj hcurrent
          have := hcap.mp hle
          omega
        · obtain rfl := Except.ok.inj hstrat
          exact absurd hname (by decide)
      · intro hpos
        exact ⟨_, size, rfl, rfl, .inl ⟨rfl, hcap.mpr (by omega)⟩⟩
    · rw [if_neg hskip]
      refine iff_of_true ⟨_, size, rfl, rfl, .inr ⟨min (parsed * 2) 64, rfl, ?_, ?_, by omega⟩⟩
        (by omega)
      · simp only [ToString.toString]
      · have hbelow : size < 64 := by
          by_contra hle
          have := hcap.mp (not_lt.mp hle)
          omega
        have hdouble := hbound (by omega)
        push_cast
        exact lt_min (by linarith) hbelow

theorem timeout_grows_iff (hfocused : needsEscalation inputs = false) (hpos : 1 ≤ current)
    (htimeout : inputs.limits.getD "timeout" (.int 3600) = .int current) :
    TimeoutGrows current (timeoutStrategy inputs) ↔
      2 ≤ current ∧ current ≤ timesThreeHalvesLimit := by
  rw [timeoutStrategy, if_neg (by simp [hfocused]), htimeout]
  change TimeoutGrows current (timesThreeHalves current >>= _) ↔ _
  rw [timesThreeHalves]
  by_cases hlimit : current.natAbs ≤ timesThreeHalvesLimit
  · have hnat : current ≤ timesThreeHalvesLimit := by omega
    have hproduct : (current * 3).tdiv 2 = current * 3 / 2 := Int.tdiv_eq_ediv_of_nonneg (by omega)
    rw [if_pos hlimit, hproduct]
    change TimeoutGrows _ (if min (current * 3 / 2) timeoutCapSeconds ≤ current then _ else _) ↔ _
    have hcap : timeoutCapSeconds = 14400 := rfl
    by_cases hskip : min (current * 3 / 2) timeoutCapSeconds ≤ current
    · rw [if_pos hskip]
      constructor
      · rintro ⟨strat, hstrat, ⟨-, hle⟩ | ⟨n, hname, -⟩⟩
        · omega
        · obtain rfl := Except.ok.inj hstrat
          exact absurd hname (by decide)
      · rintro ⟨hle, -⟩
        exact ⟨_, rfl, .inl ⟨rfl, by omega⟩⟩
    · rw [if_neg hskip]
      exact iff_of_true ⟨_, rfl, .inr ⟨_, rfl, rfl, by omega, by omega⟩⟩ ⟨by omega, hnat⟩
  · rw [if_neg hlimit]
    refine iff_of_false (fun ⟨_, h, _⟩ => nomatch h) ?_
    rintro ⟨-, hle⟩
    omega

/-- Both strategies grow the limits they find, unless a memory limit counts no gigabytes or is
spelled after a boolean, or the timeout is one second or beyond what a float can scale. -/
theorem escalation_grows_iff (hstored : Stored inputs.limits memory timeout)
    (hoom : needsEscalation { inputs with failureClass := "oom" } = false)
    (htimeout : needsEscalation { inputs with failureClass := "timeout" } = false) :
    (MemoryGrows (memory.getD (.gigabytes 16)).size
          (selectStrategy { inputs with failureClass := "oom" }) ∧
        TimeoutGrows (timeout.getD 3600)
          (selectStrategy { inputs with failureClass := "timeout" })) ↔
      (memory.getD (.gigabytes 16)).Growable ∧ 2 ≤ timeout.getD 3600 ∧
        timeout.getD 3600 ≤ timesThreeHalvesLimit := by
  have hpos : 1 ≤ timeout.getD 3600 := by
    cases timeout with
    | none => decide
    | some t => exact hstored.positive t rfl
  rw [selectStrategy_oom rfl, selectStrategy_timeout rfl,
    oom_grows_iff hoom (getD_memory hstored), timeout_grows_iff htimeout hpos (getD_timeout hstored)]

theorem le_timesThreeHalvesLimit {n : Nat} (h : n ≤ 2 ^ 53) : n ≤ timesThreeHalvesLimit := by
  unfold timesThreeHalvesLimit
  generalize hscale : (2 ^ 970 : Nat) = scale
  have hpos : 0 < scale := hscale ▸ pow_pos (by decide) 970
  calc n ≤ (2 ^ 55 - 5) / 3 := by omega
    _ ≤ (2 ^ 55 - 5) / 3 * scale := Nat.le_mul_of_pos_right _ hpos

/-- A run without remediation history, with the limits of a hardware profile. -/
def freshInputs (limits : Dict) : StrategyInputs :=
  { failureClass := "unknown", stderrTail := "", limits := limits, priorStrategies := []
    priorFailureClasses := [], expectedArtifacts := [], artifactManifest := [], codePlan := [] }

theorem escalation_grows_profile :
    MemoryGrows (some 24)
        (selectStrategy { freshInputs (profileLimits [("memory_gb", .int 24)]) with
          failureClass := "oom" }) ∧
      TimeoutGrows 3600
        (selectStrategy { freshInputs (profileLimits [("memory_gb", .int 24)]) with
          failureClass := "timeout" }) := by
  have hstored : Stored (freshInputs (profileLimits [("memory_gb", .int 24)])).limits _ _ :=
    profileLimits_stored [("memory_gb", .int 24)] none rfl nofun
  have hlimit : (3600 : Int) ≤ timesThreeHalvesLimit := by
    exact_mod_cast le_timesThreeHalvesLimit (n := 3600) (by decide)
  exact (escalation_grows_iff hstored rfl rfl).mpr
    ⟨by simp [StoredMemory.Growable, Dict.get?], by decide, hlimit⟩

/-- A profile that asks for a boolean of memory and for one second: out of memory, the strategy
raises; out of time, it gives up below the cap. -/
theorem boolean_profile_stuck :
    let hw : Dict := [("memory_gb", .bool true), ("timeout_seconds", .int 1)]
    Stored (profileLimits hw) (some (.profile (some (.bool true)))) (some 1) ∧
      (∃ e, selectStrategy { freshInputs (profileLimits hw) with failureClass := "oom" } =
        .error e) ∧
      ∃ strat, selectStrategy { freshInputs (profileLimits hw) with failureClass := "timeout" } =
        .ok strat ∧ strat.strategy = "skip" ∧ (1 : Int) < timeoutCapSeconds := by
  refine ⟨profileLimits_stored _ (some 1) rfl ?_, ⟨_, rfl⟩, ?_⟩
  · rintro t ht
    obtain rfl := Option.some.inj ht
    decide
  · have hlimit : (1 : Int).natAbs ≤ timesThreeHalvesLimit := le_timesThreeHalvesLimit (by decide)
    refine ⟨skipResult s!"Timeout already at cap ({timeoutCapSeconds}s).", ?_, rfl, by decide⟩
    rw [selectStrategy_timeout rfl]
    change timesThreeHalves 1 >>= _ = _
    rw [timesThreeHalves, if_pos hlimit]
    rfl

end Synthetos.Remediation
