import Synthetos.Execution.Operators
import Synthetos.Lib.Words
import Synthetos.Remediation.Strategies

/-!
# The failure class of a run

The class decides which remediation strategy is tried.  It is read off the last lines of the log,
in which the runner's own `timeout` message is one line among the program's.
-/

namespace Synthetos.Runs

open Lib Execution Remediation

/-- How the runner's loop ended. -/
inductive Ending where
  | timedOut
  | exited (code : Int)
  deriving DecidableEq, Repr

/-- `outcome.exit_code`: a container stopped by the runner leaves the initial `-1`. -/
def Ending.exitCode : Ending → Int
  | .timedOut => -1
  | .exited code => code

/-- `log_lines`: every message the runner passed to `telemetry_callback`, in order. -/
def logLines (resumed : Bool) (output : List String) (ending : Ending) : List String :=
  (if resumed then "container_resumed" else "container_started") :: output ++
    match ending with
    | .timedOut => ["timeout"]
    | .exited _ => []

/-- `log_lines[-50:]` -/
def lastLines (lines : List String) : List String := lines.drop (lines.length - 50)

def stderrTail (lines : List String) : String := "\n".intercalate (lastLines lines)

/-- `run.failure_class` of a run that left a non-zero exit code. -/
def failureClass (resumed : Bool) (output : List String) (ending : Ending) : String :=
  classifyFailure ending.exitCode (stderrTail (logLines resumed output ending))

theorem executionRunRecord_failureClass (db : Storage.Db) (run : Storage.RunRecord)
    (runId : Storage.RunId) (container : Storage.ContainerId) (world : Core.External) {code : Int}
    (hcode : code ≠ 0) :
    ((executionRunRecord db run runId container (.exited code) world).1.runUpdate.map
        fun update => (update.2 run).failureClass) =
      some (some (classifyFailure code world.logTail)) := by
  simp [executionRunRecord, hcode, Core.succeedWith, markFailed]

/-! ### Words that merely contain a marker -/

def markers : List String := oomSignals ++ timeoutSignals ++ dependencySignals ++ artifactSignals

/-- A letter, a digit or an underscore; `letter` tells the letters beyond ASCII. -/
def isWordChar (letter : Char → Bool) (c : Char) : Bool :=
  c.isAlphanum || c == '_' || (128 ≤ c.toNat && letter c)

/-- A word that contains a marker and is none. -/
def incidental (letter : Char → Bool) (token : List Char) : Bool :=
  token.all (isWordChar letter) && mentions markers token &&
    !(markers.map String.toList).contains (token.flatMap Text.lowerChar)

/-- The words of a line and the runs between them. -/
def lineTokens (letter : Char → Bool) (line : String) : List (List Char) :=
  Words.tokens (isWordChar letter) line.toList

/-- Two logs that differ only inside words that merely contain a marker. -/
def SameButIncidental (letter : Char → Bool) (left right : List String) : Prop :=
  List.Forall₂ (fun line line' => List.Forall₂ (Words.Interchangeable (incidental letter))
    (lineTokens letter line) (lineTokens letter line')) left right

/-- The line with every incidental word replaced by `new`. -/
def disguised (letter : Char → Bool) (new line : String) : String :=
  String.ofList
    (Words.replaced (incidental letter) new.toList (lineTokens letter line)).flatten

variable {letter : Char → Bool}

theorem mentions_iff {signals : List String} {text : List Char} :
    mentions signals text = true ↔
      ∃ signal ∈ signals, signal.toList <:+: text.flatMap Text.lowerChar := by
  simp only [mentions, containsText, List.any_eq_true, List.isPrefixOf_iff_prefix,
    List.infix_iff_prefix_suffix, List.mem_tails, and_comm]

theorem mentions_of_infix {signals : List String} {part text : List Char} (h : part <:+: text)
    (hpart : mentions signals part = true) : mentions signals text = true := by
  obtain ⟨signal, hmem, hinfix⟩ := mentions_iff.mp hpart
  obtain ⟨front, back, rfl⟩ := h
  refine mentions_iff.mpr ⟨signal, hmem, hinfix.trans ?_⟩
  simp only [List.flatMap_append]
  exact ⟨_, _, rfl⟩

theorem markers_plain : ∀ signal ∈ markers,
    '\n' ∉ signal.toList ∧ 'z' ∉ signal.toList ∧ signal.toList ≠ [] := by
  decide +kernel

theorem mentions_stderrTail {signals : List String} (hsignals : ∀ signal ∈ signals, signal ∈ markers)
    (lines : List String) :
    mentions signals (stderrTail lines).toList = true ↔
      ∃ line ∈ lastLines lines, mentions signals line.toList = true := by
  have hfold : ("\n".toList).flatMap Text.lowerChar = ['\n'] := by decide +kernel
  have hsignal : ∀ signal ∈ signals,
      (signal.toList <:+: (stderrTail lines).toList.flatMap Text.lowerChar ↔
        ∃ line ∈ lastLines lines, signal.toList <:+: line.toList.flatMap Text.lowerChar) := by
    intro signal hmem
    obtain ⟨hnewline, _, hne⟩ := markers_plain signal (hsignals signal hmem)
    rw [stderrTail, String.toList_intercalate, Words.flatMap_intercalate, hfold,
      Words.infix_intercalate hnewline hne]
    simp
  simp only [mentions_iff]
  constructor
  · rintro ⟨signal, hmem, hinfix⟩
    obtain ⟨line, hline, hin⟩ := (hsignal signal hmem).mp hinfix
    exact ⟨line, hline, signal, hmem, hin⟩
  · rintro ⟨line, hline, signal, hmem, hin⟩
    exact ⟨signal, hmem, (hsignal signal hmem).mpr ⟨line, hline, hin⟩⟩

theorem classifyFailure_eq_oom {code : Int} {tail : String} :
    classifyFailure code tail = "oom" ↔ code = 137 ∨ mentions oomSignals tail.toList = true := by
  by_cases h : code = 137 ∨ mentions oomSignals tail.toList = true
  · simp [classifyFailure, h]
  · simp only [classifyFailure, h, ↓reduceIte, iff_false]
    split_ifs <;> decide

theorem incidental_mentions {token : List Char} (h : incidental letter token = true) :
    mentions markers token = true := by
  simp only [incidental, Bool.and_eq_true] at h
  exact h.1.2

theorem incidental_of_alphanum {token : List Char}
    (h : (token.all Char.isAlphanum && mentions markers token &&
      !(markers.map String.toList).contains (token.flatMap Text.lowerChar)) = true) :
    incidental letter token = true := by
  simp only [Bool.and_eq_true, List.all_eq_true] at h
  have hword : token.all (isWordChar letter) = true := by
    rw [List.all_eq_true]
    intro c hmem
    simp only [isWordChar, h.1.1 c hmem, Bool.true_or]
  simp only [incidental, Bool.and_eq_true]
  exact ⟨⟨hword, h.1.2⟩, h.2⟩

theorem incidental_isWord (token : List Char) (h : incidental letter token = true) :
    Words.IsWord (isWordChar letter) token := by
  constructor
  · rintro rfl
    have hmentions := incidental_mentions h
    have hnone : mentions markers [] = false := by decide +kernel
    simp [hnone] at hmentions
  · simp only [incidental, Bool.and_eq_true, List.all_eq_true] at h
    exact h.1.1

theorem lineTokens_disguised {new : String} (hnew : incidental letter new.toList = true)
    (line : String) :
    lineTokens letter (disguised letter new line) =
      Words.replaced (incidental letter) new.toList (lineTokens letter line) := by
  rw [disguised, lineTokens, String.toList_ofList]
  exact Words.tokens_replaced incidental_isWord (incidental_isWord _ hnew) _

theorem sameButIncidental_disguised {new : String} (hnew : incidental letter new.toList = true)
    (output : List String) :
    SameButIncidental letter output (output.map (disguised letter new)) := by
  rw [SameButIncidental, List.forall₂_map_right_iff]
  apply List.forall₂_same.mpr
  intro line _
  rw [lineTokens_disguised hnew]
  exact Words.replaced_interchangeable hnew _

/-- What occurs in a disguised line: what occurs between its incidental words, and what every
incidental word now holds. -/
theorem mentions_disguised {new inner : String}
    (hnew : new.toList.flatMap Text.lowerChar = 'z' :: (inner.toList.flatMap Text.lowerChar ++ ['z']))
    {signals : List String} (hsignals : ∀ signal ∈ signals, signal ∈ markers) (line : String) :
    mentions signals (disguised letter new line).toList = true ↔
      (∃ piece ∈ Words.between (incidental letter) [] (lineTokens letter line),
        mentions signals piece = true) ∨
      (∃ token ∈ lineTokens letter line, incidental letter token = true) ∧
        mentions signals inner.toList = true := by
  have hsignal : ∀ signal ∈ signals,
      (signal.toList <:+: (disguised letter new line).toList.flatMap Text.lowerChar ↔
        (∃ piece ∈ Words.between (incidental letter) [] (lineTokens letter line),
          signal.toList <:+: piece.flatMap Text.lowerChar) ∨
        (∃ token ∈ lineTokens letter line, incidental letter token = true) ∧
          signal.toList <:+: inner.toList.flatMap Text.lowerChar) := by
    intro signal hmem
    have hz := (markers_plain signal (hsignals signal hmem)).2.1
    rw [disguised, String.toList_ofList]
    exact Words.infix_replaced hz hnew (lineTokens letter line) []
  simp only [mentions_iff]
  constructor
  · rintro ⟨signal, hmem, hin⟩
    rcases (hsignal signal hmem).mp hin with ⟨piece, hpiece, hin⟩ | ⟨htoken, hin⟩
    · exact .inl ⟨piece, hpiece, signal, hmem, hin⟩
    · exact .inr ⟨htoken, signal, hmem, hin⟩
  · rintro (⟨piece, hpiece, signal, hmem, hin⟩ | ⟨htoken, signal, hmem, hin⟩)
    · exact ⟨signal, hmem, (hsignal signal hmem).mpr (.inl ⟨piece, hpiece, hin⟩)⟩
    · exact ⟨signal, hmem, (hsignal signal hmem).mpr (.inr ⟨htoken, hin⟩)⟩

/-! ### The last lines -/

theorem mem_lastLines_concat (lines : List String) (last : String) :
    last ∈ lastLines (lines ++ [last]) := by
  have hle : (lines ++ [last]).length - 50 ≤ lines.length := by
    rw [List.length_append, List.length_singleton]
    omega
  rw [lastLines, List.drop_append_of_le_length hle]
  simp

theorem lastLines_map (f : String → String) (lines : List String) :
    lastLines (lines.map f) = (lastLines lines).map f := by
  rw [lastLines, lastLines, List.length_map, List.map_drop]

theorem disguised_of_unmentioned {new line : String} (h : mentions markers line.toList = false) :
    disguised letter new line = line := by
  have hnone : ∀ token ∈ lineTokens letter line, incidental letter token = false := by
    intro token hmem
    by_contra htoken
    have hin := mentions_of_infix (Words.infix_of_mem_tokens hmem)
      (incidental_mentions (Bool.not_eq_false _ ▸ htoken))
    exact absurd (h.symm.trans hin) Bool.false_ne_true
  rw [disguised, Words.replaced_of_unmarked hnone, lineTokens, Words.flatten_tokens,
    String.ofList_toList]

theorem logLines_disguised (resumed : Bool) (output : List String) (code : Int) (new : String) :
    logLines resumed (output.map (disguised letter new)) (.exited code) =
      (logLines resumed output (.exited code)).map (disguised letter new) := by
  have hlaunch : ∀ b : Bool, mentions markers
      (if b then "container_resumed" else "container_started").toList = false := by
    decide +kernel
  simp only [logLines, List.append_nil, List.map_cons]
  rw [disguised_of_unmentioned (hlaunch resumed)]

/-! ### The class and the outcome -/

/-- The class, and with it the strategy, tells what happened to the run. -/
structure ReflectsOutcome (letter : Char → Bool) (resumed : Bool) (output : List String)
    (ending : Ending) : Prop where
  timedOut : ending = .timedOut → failureClass resumed output ending = "timeout" ∧
    ∀ inputs : StrategyInputs, inputs.failureClass = failureClass resumed output ending →
      selectStrategy inputs = timeoutStrategy inputs
  outOfMemory : ending = .exited 137 → failureClass resumed output ending = "oom" ∧
    ∀ inputs : StrategyInputs, inputs.failureClass = failureClass resumed output ending →
      selectStrategy inputs = oomStrategy inputs
  sameClass : ∀ code, ending = .exited code → code ≠ 0 →
    ∀ output', SameButIncidental letter output output' →
      failureClass resumed output' ending = failureClass resumed output ending

/-- The log text that the classification reads cannot hide what happened. -/
def Undisguised (letter : Char → Bool) (resumed : Bool) (output : List String) (ending : Ending) :
    Prop :=
  let tail := lastLines (logLines resumed output ending)
  match ending with
  | .timedOut => ∀ line ∈ tail, mentions oomSignals line.toList = false
  | .exited code => code = 0 ∨ code = 137 ∨
      (∀ line ∈ tail, ∀ token ∈ lineTokens letter line, incidental letter token = false) ∨
      ∃ line ∈ tail, ∃ piece ∈ Words.between (incidental letter) [] (lineTokens letter line),
        mentions oomSignals piece = true

theorem mem_markers_of_oom {signal : String} (h : signal ∈ oomSignals) : signal ∈ markers := by
  simp only [markers, List.mem_append]
  exact .inl (.inl (.inl h))

theorem failureClass_exited_eq_oom {resumed : Bool} {output : List String} {code : Int} :
    failureClass resumed output (.exited code) = "oom" ↔ code = 137 ∨
      ∃ line ∈ lastLines (logLines resumed output (.exited code)),
        mentions oomSignals line.toList = true := by
  rw [failureClass, classifyFailure_eq_oom, mentions_stderrTail fun _ => mem_markers_of_oom]
  rfl

theorem failureClass_timedOut {resumed : Bool} {output : List String} :
    failureClass resumed output .timedOut = "timeout" ↔
      ∀ line ∈ lastLines (logLines resumed output .timedOut),
        mentions oomSignals line.toList = false := by
  have hoom := mentions_stderrTail (fun _ => mem_markers_of_oom)
    (logLines resumed output .timedOut)
  have htimeout : mentions timeoutSignals
      (stderrTail (logLines resumed output .timedOut)).toList = true := by
    refine (mentions_stderrTail (fun signal hmem => ?_) _).mpr
      ⟨"timeout", mem_lastLines_concat _ _, by decide +kernel⟩
    simp only [markers, List.mem_append]
    exact .inl (.inl (.inr hmem))
  constructor
  · intro hclass line hline
    by_contra hmentions
    have hreads := classifyFailure_eq_oom.mpr
      (.inr (hoom.mpr ⟨line, hline, Bool.not_eq_false _ ▸ hmentions⟩) :
        Ending.timedOut.exitCode = 137 ∨ _)
    exact absurd (hreads.symm.trans hclass) (by decide)
  · intro hnone
    have hnot : mentions oomSignals
        (stderrTail (logLines resumed output .timedOut)).toList = false := by
      rw [Bool.eq_false_iff, ne_eq, hoom]
      rintro ⟨line, hline, hmentions⟩
      exact absurd ((hnone line hline).symm.trans hmentions) Bool.false_ne_true
    simp [failureClass, classifyFailure, hnot, htimeout, Ending.exitCode]

theorem mentions_disguised_log {new : String} (inner : String)
    (hnew : new.toList.flatMap Text.lowerChar =
      'z' :: (inner.toList.flatMap Text.lowerChar ++ ['z'])) (resumed : Bool)
    (output : List String) {code : Int} (hcode : code ≠ 137) :
    failureClass resumed (output.map (disguised letter new)) (.exited code) = "oom" ↔
      ∃ line ∈ lastLines (logLines resumed output (.exited code)),
        (∃ piece ∈ Words.between (incidental letter) [] (lineTokens letter line),
          mentions oomSignals piece = true) ∨
        (∃ token ∈ lineTokens letter line, incidental letter token = true) ∧
          mentions oomSignals inner.toList = true := by
  rw [failureClass_exited_eq_oom, logLines_disguised, lastLines_map]
  simp only [hcode, false_or, List.mem_map, exists_exists_and_eq_and,
    mentions_disguised hnew fun _ => mem_markers_of_oom]

theorem lastLines_sameButIncidental {output output' : List String}
    (h : SameButIncidental letter output output') (resumed : Bool) (code : Int) :
    SameButIncidental letter (lastLines (logLines resumed output (.exited code)))
      (lastLines (logLines resumed output' (.exited code))) := by
  have hlength : output.length = output'.length := h.length_eq
  simp only [lastLines, logLines, List.append_nil, List.length_cons, hlength]
  apply List.forall₂_drop
  exact .cons (List.forall₂_same.mpr fun _ _ => .inl rfl) h

theorem eq_of_clean {lines lines' : List String} (h : SameButIncidental letter lines lines')
    (hclean : ∀ line ∈ lines, ∀ token ∈ lineTokens letter line, incidental letter token = false) :
    lines = lines' := by
  induction h with
  | nil => rfl
  | cons hhead _ ih =>
    have htokens := Words.eq_of_interchangeable hhead (hclean _ List.mem_cons_self)
    have htext := congrArg List.flatten htokens
    simp only [lineTokens, Words.flatten_tokens] at htext
    rw [String.toList_inj.mp htext, ih fun line hmem => hclean line (List.mem_cons_of_mem _ hmem)]

theorem exists_piece_of_same {lines lines' : List String} {signals : List String}
    (h : SameButIncidental letter lines lines')
    (hpiece : ∃ line ∈ lines, ∃ piece ∈ Words.between (incidental letter) []
      (lineTokens letter line), mentions signals piece = true) :
    ∃ line ∈ lines', ∃ piece ∈ Words.between (incidental letter) [] (lineTokens letter line),
      mentions signals piece = true := by
  induction h with
  | nil => exact hpiece
  | cons hhead _ ih =>
    obtain ⟨line, hline, piece, hmem, hmentions⟩ := hpiece
    rcases List.mem_cons.mp hline with rfl | hrest
    · rw [Words.between_interchangeable hhead] at hmem
      exact ⟨_, List.mem_cons_self, piece, hmem, hmentions⟩
    · obtain ⟨line', hline', hfound⟩ := ih ⟨line, hrest, piece, hmem, hmentions⟩
      exact ⟨line', List.mem_cons_of_mem _ hline', hfound⟩

theorem failureClass_of_piece {resumed : Bool} {output : List String} {code : Int}
    (h : ∃ line ∈ lastLines (logLines resumed output (.exited code)),
      ∃ piece ∈ Words.between (incidental letter) [] (lineTokens letter line),
        mentions oomSignals piece = true) :
    failureClass resumed output (.exited code) = "oom" := by
  obtain ⟨line, hline, piece, hpiece, hmentions⟩ := h
  refine failureClass_exited_eq_oom.mpr (.inr ⟨line, hline, mentions_of_infix ?_ hmentions⟩)
  have hinfix := Words.infix_of_mem_between hpiece
  rwa [List.nil_append, lineTokens, Words.flatten_tokens] at hinfix

theorem sameClass_of_undisguised {resumed : Bool} {output output' : List String} {code : Int}
    (h : Undisguised letter resumed output (.exited code)) (hzero : code ≠ 0)
    (hsame : SameButIncidental letter output output') :
    failureClass resumed output' (.exited code) = failureClass resumed output (.exited code) := by
  have htail := lastLines_sameButIncidental hsame resumed code
  rcases h with h | hkilled | hclean | hpiece
  · exact absurd h hzero
  · rw [failureClass_exited_eq_oom.mpr (.inl hkilled), failureClass_exited_eq_oom.mpr (.inl hkilled)]
  · rw [failureClass, failureClass, stderrTail, stderrTail, eq_of_clean htail hclean]
  · rw [failureClass_of_piece hpiece, failureClass_of_piece (exists_piece_of_same htail hpiece)]

theorem undisguised_of_sameClass {resumed : Bool} {output : List String} {code : Int}
    (hkilled : code ≠ 137)
    (h : ∀ output', SameButIncidental letter output output' →
      failureClass resumed output' (.exited code) = failureClass resumed output (.exited code)) :
    Undisguised letter resumed output (.exited code) := by
  have hroom : incidental letter "zoomz".toList = true :=
    incidental_of_alphanum (by decide +kernel)
  have hartifact : incidental letter "zartifactz".toList = true :=
    incidental_of_alphanum (by decide +kernel)
  by_cases hclean : ∀ line ∈ lastLines (logLines resumed output (.exited code)),
      ∀ token ∈ lineTokens letter line, incidental letter token = false
  · exact .inr (.inr (.inl hclean))
  · push Not at hclean
    obtain ⟨line, hline, token, htoken, hincidental⟩ := hclean
    have hclass : failureClass resumed (output.map (disguised letter "zoomz")) (.exited code) =
        "oom" := by
      rw [mentions_disguised_log "oom" (by decide +kernel) resumed output hkilled]
      exact ⟨line, hline, .inr ⟨⟨token, htoken, by simpa using hincidental⟩, by decide +kernel⟩⟩
    have hclass' : failureClass resumed (output.map (disguised letter "zartifactz"))
        (.exited code) = "oom" := by
      rw [h _ (sameButIncidental_disguised hartifact output),
        ← h _ (sameButIncidental_disguised hroom output), hclass]
    rw [mentions_disguised_log "artifact" (by decide +kernel) resumed output hkilled]
      at hclass'
    obtain ⟨line, hline, hpiece | ⟨_, hinner⟩⟩ := hclass'
    · exact .inr (.inr (.inr ⟨line, hline, hpiece⟩))
    · have hnone : mentions oomSignals "artifact".toList = false := by decide +kernel
      exact absurd (hnone.symm.trans hinner) Bool.false_ne_true

/-- The class reflects the outcome exactly when the last lines of the log do not disguise it. -/
theorem reflectsOutcome_iff_undisguised (letter : Char → Bool) (resumed : Bool)
    (output : List String) (ending : Ending) :
    ReflectsOutcome letter resumed output ending ↔ Undisguised letter resumed output ending := by
  cases ending with
  | timedOut =>
    constructor
    · intro h
      exact failureClass_timedOut.mp (h.timedOut rfl).1
    · intro h
      have hclass := failureClass_timedOut.mpr h
      refine ⟨fun _ => ⟨hclass, fun inputs hinputs => ?_⟩, nofun, nofun⟩
      rw [hclass] at hinputs
      simp [selectStrategy, hinputs]
  | exited code =>
    constructor
    · intro h
      by_cases hzero : code = 0
      · exact .inl hzero
      · by_cases hkilled : code = 137
        · exact .inr (.inl hkilled)
        · exact undisguised_of_sameClass hkilled (h.sameClass code rfl hzero)
    · intro h
      refine ⟨nofun, ?_, ?_⟩
      · rintro ⟨⟩
        have hclass : failureClass resumed output (.exited 137) = "oom" :=
          failureClass_exited_eq_oom.mpr (.inl rfl)
        refine ⟨hclass, fun inputs hinputs => ?_⟩
        rw [hclass] at hinputs
        simp [selectStrategy, hinputs]
      · rintro _ ⟨⟩ hzero output' hsame
        exact sameClass_of_undisguised h hzero hsame

/-- A run that timed out after it named a bloom filter is recorded as out of memory. -/
theorem bloom_filter_timeout_is_oom : failureClass false ["bloom filter built"] .timedOut = "oom" ∧
    ¬ ∀ letter resumed output ending, ReflectsOutcome letter resumed output ending := by
  have hline : "bloom filter built" ∈ lastLines (logLines false ["bloom filter built"] .timedOut) :=
    by decide
  have hclass : failureClass false ["bloom filter built"] .timedOut = "oom" := by
    refine classifyFailure_eq_oom.mpr (.inr ?_)
    exact (mentions_stderrTail (fun _ => mem_markers_of_oom) _).mpr
      ⟨"bloom filter built", hline, by decide +kernel⟩
  refine ⟨hclass, fun h => ?_⟩
  have htimeout := ((h (fun _ => false) false ["bloom filter built"] .timedOut).timedOut rfl).1
  exact absurd (hclass.symm.trans htimeout) (by decide)

end Synthetos.Runs
