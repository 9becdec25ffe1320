import Synthetos.Lib.Distinct
import Synthetos.Lib.Lines
import Synthetos.Lib.Transition

/-!
# Capturing the log of a container

`DockerRunner.run` polls the log of the container, asking docker for what was printed since a
cursor in whole seconds, and the telemetry callback of `execution_run` stores the lines it has not
seen.  A paused run is resumed by another call of the runner.
-/

namespace Synthetos.Execution

open Lib Lib.Lines

/-- A line of the container as docker prints it, with its time stamp in front.  The stamp and all
clocks are in nanoseconds. -/
structure LogLine where
  stamp : Int
  text : List Char
  deriving DecidableEq

inductive TelemetryType where
  | log
  | statusChange
  deriving DecidableEq

inductive CapturePhase where
  | created
  | paused
  | unpaused
  | looping
  | asked (since : Int)
  | delivering (decoded : Bool) (lines : List (List Char))
  | polled
  | ended
  deriving DecidableEq

/-- The runner, the operator that called it and the log of the container. -/
structure Capture where
  clock : Int
  phase : CapturePhase := .created
  old : List LogLine := []  -- printed before the last fetch
  new : List LogLine := []
  logCursor : Int := 0
  seenLogLines : List (List Char) := []
  telemetry : List (TelemetryType × List Char) := []
  logLines : List (List Char) := []
  stdoutLog : Option (List Char) := none

namespace Capture

def printed (s : Capture) : List LogLine := s.old ++ s.new

def delivered (s : Capture) : List (List Char) :=
  s.telemetry.filterMap fun row => if row.1 = .log then some row.2 else none

def telemetryCallback (s : Capture) (eventType : TelemetryType) (message : List Char) : Capture :=
  { s with
    telemetry := s.telemetry ++ [(eventType, message)]
    logLines := s.logLines ++ [message] }

def writeLog (s : Capture) (phase : CapturePhase) : Capture :=
  { s with
    phase
    stdoutLog := some (['\n'].intercalate s.logLines) }

end Capture

/-- `int(time.time())`, after the epoch -/
def seconds (time : Int) : Int := time / 1000000000

def printedSince (since : Int) (line : LogLine) : Bool := decide (since * 1000000000 ≤ line.stamp)

/-- `container.logs(stdout=True, stderr=True, timestamps=True, since=since)` -/
def containerLogs (since : Int) (lines : List LogLine) : List Char :=
  ((lines.filter (printedSince since)).map LogLine.text).flatMap fun text => text ++ ['\n']

inductive CaptureLabel where
  | clock (now : Int)
  | print (line : LogLine)
  | start
  | resume
  | enter
  | pause
  | cancel
  | ask
  | fetch
  | deliver
  | advance
  | timeout
  | exit
  | sleep
  | raise

def CapturePhase.running : CapturePhase → Bool
  | .created | .paused | .ended => false
  | _ => true

def captureStep (s : Capture) (label : CaptureLabel) : Option Capture :=
  match label, s.phase with
  | .clock now, _ => some { s with clock := now }
  | .print line, phase => if phase.running then some { s with new := s.new ++ [line] } else none
  | .start, .created => some <| Capture.telemetryCallback
      { s with
        phase := .looping
        logCursor := seconds s.clock - 1
        seenLogLines := []
        logLines := [] } .statusChange "container_started".toList
  | .resume, .paused => some <| Capture.telemetryCallback
      { s with
        phase := .unpaused
        logLines := [] } .statusChange "container_resumed".toList
  | .enter, .unpaused => some
      { s with
        phase := .looping
        logCursor := seconds s.clock - 1
        seenLogLines := [] }
  | .pause, .looping => some <|
      (s.telemetryCallback .statusChange "container_paused".toList).writeLog .paused
  | .cancel, .looping => some <|
      (s.telemetryCallback .statusChange "container_cancelled".toList).writeLog .ended
  | .ask, .looping => some { s with phase := .asked (max s.logCursor (seconds s.clock - 1)) }
  | .fetch, .asked since =>
    let decoded := containerLogs since s.printed
    some
      { s with
        phase := .delivering (!decoded.isEmpty) (splitlines decoded)
        old := s.printed
        new := [] }
  | .deliver, .delivering decoded (line :: lines) =>
    if line.isEmpty || s.seenLogLines.contains line then
      some { s with phase := .delivering decoded lines }
    else some <| Capture.telemetryCallback
      { s with
        phase := .delivering decoded lines
        seenLogLines := line :: s.seenLogLines } .log line
  | .advance, .delivering true [] => some
      { s with
        phase := .polled
        logCursor := seconds s.clock
        seenLogLines := if s.seenLogLines.length > 500 then [] else s.seenLogLines }
  | .advance, .delivering false [] => some { s with phase := .polled }
  | .timeout, .polled => some <|
      (s.telemetryCallback .statusChange "timeout".toList).writeLog .ended
  | .exit, .polled => some (s.writeLog .ended)
  | .sleep, .polled => some { s with phase := .looping }
  -- An exception kills the container and leaves the log file as it was.
  | .raise, phase => if phase.running then some { s with phase := .ended } else none
  | _, _ => none

/-- Every line is delivered once and in order, and the log file of a run that ended has it. -/
structure Capture.ExactlyOnce (s : Capture) : Prop where
  inOrder : s.delivered <+: s.printed.map LogLine.text
  complete : s.phase = .ended → s.delivered = s.printed.map LogLine.text
  logged : s.phase = .ended → ∃ file, s.stdoutLog = some file ∧
    ∀ line ∈ s.printed, line.text ∈ splitlines file

/-- A fetch asks for all lines since the last one, and of the older lines only for those that are
still remembered. -/
def Capture.KeepsUp (s : Capture) (since : Int) : Prop :=
  (∀ line ∈ s.new, printedSince since line = true) ∧
    ∀ line ∈ s.old, printedSince since line = true → line.text ∈ s.seenLogLines

instance (s : Capture) (since : Int) : Decidable (s.KeepsUp since) :=
  inferInstanceAs (Decidable (_ ∧ _))

/-- Docker prints every line as one and no two alike, every fetch keeps up, the run ends behind
one, and where it is resumed nothing had been delivered. -/
def Lossless (s : Capture) : CaptureLabel → Prop
  | .print line => IsLine line.text ∧ line.text ∉ s.printed.map LogLine.text
  | .resume => s.delivered = []
  | .fetch =>
    match s.phase with
    | .asked since => s.KeepsUp since
    | _ => True
  | .cancel | .timeout | .exit => s.new = []
  | .raise => False
  | _ => True

instance (s : Capture) : (label : CaptureLabel) → Decidable (Lossless s label)
  | .print line =>
    inferInstanceAs (Decidable (IsLine line.text ∧ line.text ∉ s.printed.map LogLine.text))
  | .resume => inferInstanceAs (Decidable (s.delivered = []))
  | .fetch =>
    match hphase : s.phase with
    | .asked since => decidable_of_iff (s.KeepsUp since) (by rw [Lossless, hphase])
    | .created | .paused | .unpaused | .looping | .delivering _ _ | .polled | .ended =>
      .isTrue (by rw [Lossless, hphase]; trivial)
  | .cancel | .timeout | .exit => inferInstanceAs (Decidable (s.new = []))
  | .raise => .isFalse id
  | .clock _ | .start | .enter | .pause | .ask | .deliver | .advance | .sleep => .isTrue trivial

namespace Capture

/-- What the lines of the last fetch still have to deliver. -/
def pending (s : Capture) : List (List Char) :=
  match s.phase with
  | .delivering _ lines => Distinct.unseen s.seenLogLines (lines.filter fun line => !line.isEmpty)
  | _ => []

structure Inv (s : Capture) : Prop where
  fresh : s.phase = .created → s.delivered = []
  lines : ∀ line ∈ s.printed, IsLine line.text
  distinct : (s.printed.map LogLine.text).Nodup
  seen : ∀ text ∈ s.seenLogLines, text ∈ s.old.map LogLine.text
  messages : ∀ message ∈ s.logLines, IsLine message
  read : s.delivered ++ s.pending = s.old.map LogLine.text
  logged : s.phase ≠ .paused → ∀ text ∈ s.delivered, text ∈ s.logLines
  ended : s.phase = .ended → s.new = [] ∧ s.stdoutLog = some (['\n'].intercalate s.logLines)

variable {s t : Capture} {line : LogLine} {message : List Char} {phase : CapturePhase}

@[simp] theorem delivered_log : (s.telemetryCallback .log message).delivered =
    s.delivered ++ [message] := by
  simp [delivered, telemetryCallback]

@[simp] theorem delivered_statusChange : (s.telemetryCallback .statusChange message).delivered =
    s.delivered := by
  simp [delivered, telemetryCallback]

theorem Inv.status (h : s.Inv) (hmessage : IsLine message) (hphase : s.phase ≠ .ended) :
    (s.telemetryCallback .statusChange message).Inv where
  fresh := by
    rw [delivered_statusChange]
    exact h.fresh
  lines := h.lines
  distinct := h.distinct
  seen := h.seen
  messages := by
    intro other hother
    rcases List.mem_append.mp hother with hother | hother
    · exact h.messages other hother
    · rwa [List.mem_singleton.mp hother]
  read := by
    rw [delivered_statusChange]
    exact h.read
  logged := by
    intro hpaused text htext
    rw [delivered_statusChange] at htext
    exact List.mem_append_left _ (h.logged hpaused text htext)
  ended := fun hended => absurd hended hphase

theorem Inv.moved (h : s.Inv) (hpending : s.pending = [])
    (ht : t.old = s.old ∧ t.new = s.new ∧ t.telemetry = s.telemetry ∧ t.logLines = s.logLines)
    (hseen : ∀ text ∈ t.seenLogLines, text ∈ s.seenLogLines) (hnothing : t.pending = [])
    (hpaused : s.phase ≠ .paused) (hrunning : t.phase.running = true) : t.Inv := by
  obtain ⟨hold, hnew, htelemetry, hlog⟩ := ht
  have hprinted : t.printed = s.printed := by rw [printed, printed, hold, hnew]
  have hdelivered : t.delivered = s.delivered := by rw [delivered, delivered, htelemetry]
  constructor
  · intro hcreated
    rw [hcreated] at hrunning
    exact absurd hrunning nofun
  · rw [hprinted]
    exact h.lines
  · rw [hprinted]
    exact h.distinct
  · intro text htext
    rw [hold]
    exact h.seen text (hseen text htext)
  · rw [hlog]
    exact h.messages
  · rw [hdelivered, hnothing, hold, ← h.read, hpending]
  · intro _ text htext
    rw [hlog]
    exact h.logged hpaused text (hdelivered ▸ htext)
  · intro hended
    rw [hended] at hrunning
    exact absurd hrunning nofun

theorem Inv.writeLog (h : s.Inv) (hpending : s.pending = []) (hpaused : s.phase ≠ .paused)
    (hphase : phase = .paused ∨ phase = .ended) (hnew : phase = .ended → s.new = []) :
    (s.writeLog phase).Inv where
  fresh := by rcases hphase with rfl | rfl <;> nofun
  lines := h.lines
  distinct := h.distinct
  seen := h.seen
  messages := h.messages
  read := by
    have hnothing : (s.writeLog phase).pending = [] := by
      rcases hphase with rfl | rfl <;> rfl
    rw [hnothing, ← hpending]
    exact h.read
  logged := fun _ => h.logged hpaused
  ended := fun hended => ⟨hnew hended, rfl⟩

/-- What a fetch leaves to deliver is what was printed since the last one exactly where it asks for
all of that, and of the older lines only for those still remembered. -/
theorem pending_fetch_iff (h : s.Inv) (since : Int) :
    Distinct.unseen s.seenLogLines
        ((splitlines (containerLogs since s.printed)).filter fun line => !line.isEmpty) =
      s.new.map LogLine.text ↔ s.KeepsUp since := by
  have hlines : ∀ text ∈ (s.printed.filter (printedSince since)).map LogLine.text, IsLine text := by
    intro text htext
    obtain ⟨line, hline, rfl⟩ := List.mem_map.mp htext
    exact h.lines line (List.mem_filter.mp hline).1
  have hkept : ((s.printed.filter (printedSince since)).map LogLine.text).filter
      (fun line => !line.isEmpty) = (s.printed.filter (printedSince since)).map LogLine.text := by
    apply List.filter_eq_self.mpr
    intro text htext
    simpa using (hlines text htext).1
  rw [containerLogs, splitlines_flatMap hlines, hkept]
  exact Distinct.unseen_eq_new_iff h.distinct h.seen

theorem Inv.fetch (h : s.Inv) {since : Int} (hphase : s.phase = .asked since)
    (hok : s.KeepsUp since) (decoded : Bool) :
    Inv { s with
      phase := .delivering decoded (splitlines (containerLogs since s.printed))
      old := s.printed
      new := [] } where
  fresh := nofun
  lines := by simpa [printed] using h.lines
  distinct := by simpa [printed] using h.distinct
  seen := by
    intro text htext
    rw [printed, List.map_append]
    exact List.mem_append_left _ (h.seen text htext)
  messages := h.messages
  read := by
    have hread : s.delivered ++ [] = s.old.map LogLine.text := by
      rw [← h.read, pending, hphase]
    rw [List.append_nil] at hread
    calc
      _ = s.old.map LogLine.text ++ s.new.map LogLine.text := by
        rw [← hread, ← (pending_fetch_iff h since).mpr hok]
        rfl
      _ = s.printed.map LogLine.text := by rw [printed, List.map_append]
  logged := fun _ => h.logged (by rw [hphase]; nofun)
  ended := nofun

theorem Inv.skip (h : s.Inv) {decoded : Bool} {text : List Char} {lines : List (List Char)}
    (hphase : s.phase = .delivering decoded (text :: lines))
    (hskip : (text.isEmpty || s.seenLogLines.contains text) = true) :
    Inv { s with phase := .delivering decoded lines } where
  fresh := fun h => by cases h
  lines := h.lines
  distinct := h.distinct
  seen := h.seen
  messages := h.messages
  read := by
    refine Eq.trans ?_ h.read
    simp only [pending, hphase, List.filter_cons]
    cases hempty : text.isEmpty with
    | true => rfl
    | false =>
      rw [hempty, Bool.false_or] at hskip
      simp only [Bool.not_false, if_true, Distinct.unseen, hskip]
      rfl
  logged := fun _ => h.logged (by simp [hphase])
  ended := fun h => by cases h

theorem Inv.deliver (h : s.Inv) {decoded : Bool} {text : List Char} {lines : List (List Char)}
    (hphase : s.phase = .delivering decoded (text :: lines))
    (hskip : (text.isEmpty || s.seenLogLines.contains text) = false) :
    Inv (Capture.telemetryCallback
      { s with
        phase := .delivering decoded lines
        seenLogLines := text :: s.seenLogLines } .log text) := by
  obtain ⟨hempty, hunseen⟩ := Bool.or_eq_false_iff.mp hskip
  have hpending : s.pending = text :: Distinct.unseen (text :: s.seenLogLines)
      (lines.filter fun line => !line.isEmpty) := by
    simp only [pending, hphase, List.filter_cons, hempty, Bool.not_false, if_true, Distinct.unseen,
      hunseen]
    rfl
  have hread := h.read
  rw [hpending] at hread
  have hmem : text ∈ s.old.map LogLine.text := by
    rw [← hread]
    exact List.mem_append_right _ (List.mem_cons_self ..)
  have hprinted : ∀ text ∈ s.old.map LogLine.text, IsLine text := by
    intro text htext
    obtain ⟨line, hline, rfl⟩ := List.mem_map.mp htext
    exact h.lines line (List.mem_append_left _ hline)
  refine ⟨(fun h => by cases h), h.lines, h.distinct, ?_, ?_, ?_, ?_, (fun h => by cases h)⟩
  · intro other hother
    rcases List.mem_cons.mp hother with rfl | hother
    · exact hmem
    · exact h.seen other hother
  · intro other hother
    rcases List.mem_append.mp hother with hother | hother
    · exact h.messages other hother
    · rw [List.mem_singleton.mp hother]
      exact hprinted text hmem
  · rw [delivered_log, List.append_assoc]
    exact hread
  · intro _ other hother
    rw [delivered_log] at hother
    rcases List.mem_append.mp hother with hother | hother
    · exact List.mem_append_left _ (h.logged (by simp [hphase]) other hother)
    · exact List.mem_append_right _ hother

theorem Inv.print (h : s.Inv) (hline : IsLine line.text)
    (hnew : line.text ∉ s.printed.map LogLine.text) (hrunning : s.phase.running = true) :
    Inv { s with new := s.new ++ [line] } := by
  have hprinted : printed { s with new := s.new ++ [line] } = s.printed ++ [line] := by
    simp [printed]
  refine ⟨h.fresh, ?_, ?_, h.seen, h.messages, h.read, h.logged, ?_⟩
  · rw [hprinted]
    intro other hother
    rcases List.mem_append.mp hother with hother | hother
    · exact h.lines other hother
    · rwa [List.mem_singleton.mp hother]
  · rw [hprinted, List.map_append]
    exact List.nodup_append.mpr ⟨h.distinct, List.pairwise_singleton _ _, by
      intro a ha b hb hab
      obtain rfl := List.mem_singleton.mp hb
      exact hnew (hab ▸ ha)⟩
  · intro hended
    rw [show s.phase = .ended from hended] at hrunning
    exact absurd hrunning nofun

theorem Inv.opened (h : s.Inv) (hnone : s.delivered = []) (hpending : s.pending = [])
    (hphase : phase = .unpaused ∨ phase = .looping) (cursor : Int) {remembered : List (List Char)}
    (hremembered : ∀ text ∈ remembered, text ∈ s.seenLogLines) :
    Inv { s with
      phase
      logCursor := cursor
      seenLogLines := remembered
      logLines := [] } where
  fresh := fun _ => hnone
  lines := h.lines
  distinct := h.distinct
  seen := fun text htext => h.seen text (hremembered text htext)
  messages := nofun
  read := by
    refine Eq.trans ?_ h.read
    rw [hpending]
    rcases hphase with rfl | rfl <;> rfl
  logged := by
    intro _ text htext
    have hdelivered : text ∈ s.delivered := htext
    rw [hnone] at hdelivered
    exact absurd hdelivered List.not_mem_nil
  ended := by rcases hphase with rfl | rfl <;> nofun

theorem Inv.step {label : CaptureLabel} (h : s.Inv) (hok : Lossless s label)
    (hstep : captureStep s label = some t) : t.Inv := by
  have hidle (hphase : s.phase = .looping ∨ s.phase = .polled ∨ s.phase = .created ∨
      s.phase = .paused ∨ s.phase = .unpaused) : s.pending = [] := by
    unfold pending
    rcases hphase with hphase | hphase | hphase | hphase | hphase <;> rw [hphase]
  unfold captureStep at hstep
  split at hstep
  · obtain rfl := Option.some.inj hstep
    exact ⟨h.fresh, h.lines, h.distinct, h.seen, h.messages, h.read, h.logged, h.ended⟩
  · split at hstep
    · rename_i hrunning
      obtain rfl := Option.some.inj hstep
      exact h.print hok.1 hok.2 hrunning
    · cases hstep
  · rename_i hphase
    obtain rfl := Option.some.inj hstep
    have hnone : ∀ text ∈ ([] : List (List Char)), text ∈ s.seenLogLines := nofun
    have hopened := h.opened (h.fresh hphase) (hidle (by simp [hphase])) (.inr rfl)
      (seconds s.clock - 1) hnone
    exact hopened.status (by decide +kernel) nofun
  · rename_i hphase
    obtain rfl := Option.some.inj hstep
    have hopened := h.opened hok (hidle (by simp [hphase])) (.inl rfl) s.logCursor
      (fun _ htext => htext)
    exact hopened.status (by decide +kernel) nofun
  · rename_i hphase
    obtain rfl := Option.some.inj hstep
    exact h.moved (hidle (by simp [hphase])) ⟨rfl, rfl, rfl, rfl⟩ nofun rfl (by simp [hphase]) rfl
  · rename_i hphase
    obtain rfl := Option.some.inj hstep
    have hmessage : IsLine "container_paused".toList := by decide +kernel
    exact (h.status hmessage (by simp [hphase])).writeLog (hidle (by simp [hphase]))
      (by simp [telemetryCallback, hphase]) (.inl rfl) nofun
  · rename_i hphase
    obtain rfl := Option.some.inj hstep
    have hmessage : IsLine "container_cancelled".toList := by decide +kernel
    exact (h.status hmessage (by simp [hphase])).writeLog (hidle (by simp [hphase]))
      (by simp [telemetryCallback, hphase]) (.inr rfl) fun _ => hok
  · rename_i hphase
    obtain rfl := Option.some.inj hstep
    exact h.moved (hidle (by simp [hphase])) ⟨rfl, rfl, rfl, rfl⟩ (fun _ htext => htext) rfl
      (by simp [hphase]) rfl
  · rename_i since hphase
    obtain rfl := Option.some.inj hstep
    unfold Lossless at hok
    rw [hphase] at hok
    exact h.fetch hphase hok _
  · rename_i decoded text lines hphase
    split at hstep
    · rename_i hskip
      obtain rfl := Option.some.inj hstep
      exact h.skip hphase hskip
    · rename_i hskip
      obtain rfl := Option.some.inj hstep
      exact h.deliver hphase (Bool.not_eq_true _ ▸ hskip)
  · rename_i hphase
    obtain rfl := Option.some.inj hstep
    refine h.moved (by simp [pending, hphase, Distinct.unseen]) ⟨rfl, rfl, rfl, rfl⟩ ?_ rfl
      (by simp [hphase]) rfl
    intro text htext
    dsimp only at htext
    split at htext
    · exact absurd htext List.not_mem_nil
    · exact htext
  · rename_i hphase
    obtain rfl := Option.some.inj hstep
    exact h.moved (by simp [pending, hphase, Distinct.unseen]) ⟨rfl, rfl, rfl, rfl⟩
      (fun _ htext => htext) rfl (by simp [hphase]) rfl
  · rename_i hphase
    obtain rfl := Option.some.inj hstep
    have hmessage : IsLine "timeout".toList := by decide +kernel
    exact (h.status hmessage (by simp [hphase])).writeLog (hidle (by simp [hphase]))
      (by simp [telemetryCallback, hphase]) (.inr rfl) fun _ => hok
  · rename_i hphase
    obtain rfl := Option.some.inj hstep
    exact h.writeLog (hidle (by simp [hphase])) (by simp [hphase]) (.inr rfl) fun _ => hok
  · rename_i hphase
    obtain rfl := Option.some.inj hstep
    exact h.moved (hidle (by simp [hphase])) ⟨rfl, rfl, rfl, rfl⟩ (fun _ htext => htext) rfl
      (by simp [hphase]) rfl
  · exact absurd hok id
  · cases hstep

theorem Inv.exactlyOnce (h : s.Inv) : s.ExactlyOnce := by
  have hread : s.delivered <+: s.printed.map LogLine.text := by
    rw [printed, List.map_append, ← h.read, List.append_assoc]
    exact List.prefix_append _ _
  have hcomplete (hended : s.phase = .ended) : s.delivered = s.printed.map LogLine.text := by
    have hpending : s.pending = [] := by
      unfold pending
      rw [hended]
    rw [printed, (h.ended hended).1, List.append_nil, ← h.read, hpending, List.append_nil]
  refine ⟨hread, hcomplete, fun hended => ⟨_, (h.ended hended).2, fun line hline => ?_⟩⟩
  rw [splitlines_intercalate h.messages]
  apply h.logged (by simp [hended])
  rw [hcomplete hended]
  exact List.mem_map_of_mem hline

end Capture

theorem exactlyOnce_of_lossless {clock : Int} {s : Capture}
    (h : Reaches Lossless captureStep { clock } s) : s.ExactlyOnce := by
  have hstart : Capture.Inv { clock } :=
    ⟨fun _ => rfl, nofun, List.nodup_nil, nofun, nofun, rfl, fun _ => nofun, nofun⟩
  exact (h.invariant Capture.Inv (fun _ _ _ hinv hok hstep => hinv.step hok hstep) hstart).exactlyOnce

/-! ### Two runs -/

def midnight : Int := 1735689600000000000

def loading : LogLine := ⟨midnight + 200000000, "2025-01-01T00:00:00.200000000Z loading".toList⟩

def loaded : LogLine := ⟨midnight + 1400000000, "2025-01-01T00:00:01.400000000Z loaded".toList⟩

def shortRun : List CaptureLabel :=
  [.start, .print loading, .ask, .fetch, .deliver, .advance, .sleep,
    .clock (midnight + 1500000000), .print loaded, .ask, .fetch, .deliver, .deliver, .advance, .exit]

/-- Docker prints the first line to both fetches, and the callback is given it once. -/
theorem captured_shortRun : ∃ s : Capture, s.phase = .ended ∧ s.printed = [loading, loaded] ∧
    s.ExactlyOnce := by
  have hrun : (perform (fun s label => decide (Lossless s label)) captureStep { clock := midnight }
      shortRun).any (fun s => decide (s.phase = .ended ∧ s.printed = [loading, loaded])) = true := by
    decide +kernel
  have hguard (s : Capture) (label : CaptureLabel) (_ : True) (h : decide (Lossless s label) = true) :
      Lossless s label := of_decide_eq_true h
  obtain ⟨s, hreached, -, htest⟩ := Reaches.of_perform_any (fun _ => True) hguard
    (fun _ _ _ _ _ _ => trivial) trivial hrun
  obtain ⟨hended, hprinted⟩ := of_decide_eq_true htest
  exact ⟨s, hended, hprinted, exactlyOnce_of_lossless hreached⟩

def pausedRun : List CaptureLabel :=
  [.start, .print loading, .ask, .fetch, .deliver, .advance, .sleep,
    .clock (midnight + 1500000000), .print loaded, .pause,
    .clock (midnight + 60000000000), .resume, .enter, .ask, .fetch, .advance, .exit]

/-- A line printed right before a pause is never delivered, and the log file written after the
run is resumed lacks those delivered before. -/
theorem paused_lines_lost : ∃ s, Reaches Unguarded captureStep { clock := midnight } s ∧
    s.phase = .ended ∧ s.printed = [loading, loaded] ∧ s.delivered = [loading.text] ∧
    (∀ file, s.stdoutLog = some file → loading.text ∉ splitlines file) ∧ ¬ s.ExactlyOnce := by
  have hrun : (perform (fun _ _ => true) captureStep { clock := midnight } pausedRun).any (fun s =>
      decide (s.phase = .ended ∧ s.printed = [loading, loaded] ∧ s.delivered = [loading.text] ∧
        (s.stdoutLog.all fun file => !(splitlines file).contains loading.text) = true)) = true := by
    decide +kernel
  obtain ⟨s, hreached, htest⟩ := Reaches.of_perform_all hrun
  obtain ⟨hended, hprinted, hdelivered, hfile⟩ := of_decide_eq_true htest
  refine ⟨s, hreached, hended, hprinted, hdelivered, ?_, fun h => ?_⟩
  · intro file hwritten
    rw [hwritten] at hfile
    simpa using hfile
  · have hlost := h.complete hended
    rw [hdelivered, hprinted] at hlost
    exact absurd hlost (by decide +kernel)

end Synthetos.Execution
