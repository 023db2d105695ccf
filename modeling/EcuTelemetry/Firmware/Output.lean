import EcuTelemetry.Console.Log
import EcuTelemetry.Console.Texts
import EcuTelemetry.Firmware.Command
import EcuTelemetry.Firmware.FrameText

/-!
# What the firmware prints

The console output of `main.c` apart from the frames: the messages of the processor and the
watchdog, the answers to the commands, and the script of the diagnostics task. Every call has room
in its buffer for what it prints, whatever the values, and prints no bracket but that at the start
of the messages of the tasks.
-/

namespace EcuTelemetry.Firmware

open EcuTelemetry.Core Console

/-! ### Messages of the tasks -/

/-- The format of `prvProcessorTask` on a forced stall. -/
def stallFormat : List Char := "[processor] forced stall at sample %lu\n".toList

/-- The format of `prvWatchdogTask` when all tasks have reported. -/
def healthyFormat : List Char :=
  "[watchdog] healthy: sensor=%lu processor=%lu logger=%lu\n".toList

/-- The format of `prvWatchdogTask` otherwise. -/
def warningFormat : List Char := "[watchdog] warning bits=0x%lx\n".toList

/-- The message of `prvProcessorTask`. -/
def stallCall (sequence : UInt32) : Call := ⟨stallFormat, [.word sequence]⟩

/-- The message of `prvWatchdogTask` when all tasks have reported. -/
def healthyCall (sensor processor logger : UInt32) : Call :=
  ⟨healthyFormat, [.word sensor, .word processor, .word logger]⟩

/-- The message of `prvWatchdogTask` otherwise. -/
def warningCall (bits : UInt32) : Call := ⟨warningFormat, [.word bits]⟩

/-! ### Answers to the commands -/

/-- `prvFaultName`. -/
def prvFaultName : FaultMode → List Char
  | .overflow => "overflow".toList
  | .sensor   => "sensor".toList
  | .stall    => "stall".toList
  | .none     => "none".toList

/-- The tasks with a stack of their own. -/
inductive TaskName where
  | sensor
  | processor
  | logger
  | watchdog
  | diagnostics
  deriving DecidableEq, Repr

/-- The values that the answers read: the statistics, `uxQueueMessagesWaiting`,
`uxTaskGetStackHighWaterMark`, and the sum of the `sizeof` in `prvPrintHeap`. -/
structure Readings where
  stats : AppStats
  sensorWaiting : UInt32
  telemetryWaiting : UInt32
  stackMark : TaskName → UInt32
  footprint : UInt32

/-- A write to the console. -/
inductive Output where
  /-- `console_writef`. -/
  | writef (call : Call)
  /-- `console_writeln`. -/
  | writeln (text : List Char)
  /-- `prvLogWrite`. -/
  | logWrite (text : List Char)

/-- A call of `console_writef`. -/
def printf (format : String) (args : List Arg) : Output := .writef ⟨format.toList, args⟩

/-- `prvPrintStatus`. -/
def prvPrintStatus (r : Readings) : List Output :=
  let sample := r.stats.lastSample
  let frame := r.stats.lastFrame
  [ printf "fault mode: %s\n" [.text (some (prvFaultName r.stats.faultMode))],
    printf "samples in: %lu\n" [.word r.stats.sensorSamples],
    printf "frames out: %lu\n" [.word r.stats.telemetryFrames],
    printf "sensor drops: %lu\n" [.word r.stats.sensorDrops],
    printf "telemetry drops: %lu\n" [.word r.stats.telemetryDrops],
    printf "sensor faults: %lu\n" [.word r.stats.sensorFaults],
    printf "watchdog warnings: %lu\n" [.word r.stats.watchdogWarnings],
    printf "queue depth: sensor=%u telemetry=%u\n"
      [.word r.sensorWaiting, .word r.telemetryWaiting],
    printf "latest sample: seq=%lu temp=%d.%dC ax=%d ay=%d az=%d valid=%s\n"
      [ .word sample.sequence,
        .word (sample.temperatureCX10.toInt32 / 10).toUInt32,
        .word (if sample.temperatureCX10 < 0 then (-sample.temperatureCX10.toInt32) % 10
          else sample.temperatureCX10.toInt32 % 10).toUInt32,
        .word sample.accelXX100.toInt32.toUInt32,
        .word sample.accelYX100.toInt32.toUInt32,
        .word sample.accelZX100.toInt32.toUInt32,
        .text (some (validText sample.valid)) ],
    printf "latest frame: seq=%lu rpm=%u thr=%u.%u%% spd=%u.%u valid=%s\n"
      [ .word frame.sequence,
        .word frame.rpm.toUInt32,
        .word (frame.throttlePctX10 / 10).toUInt32,
        .word (frame.throttlePctX10 % 10).toUInt32,
        .word (frame.speedKmhX10 / 10).toUInt32,
        .word (frame.speedKmhX10 % 10).toUInt32,
        .text (some (validText frame.valid)) ] ]

/-- `prvPrintTasks`. -/
def prvPrintTasks (r : Readings) : List Output :=
  [ printf "sensor beats=%lu stack=%u\n"
      [.word r.stats.taskSensorBeats, .word (r.stackMark .sensor)],
    printf "processor beats=%lu stack=%u\n"
      [.word r.stats.taskProcessorBeats, .word (r.stackMark .processor)],
    printf "logger beats=%lu stack=%u\n"
      [.word r.stats.taskLoggerBeats, .word (r.stackMark .logger)],
    printf "watchdog stack=%u\n" [.word (r.stackMark .watchdog)],
    printf "diagnostics stack=%u\n" [.word (r.stackMark .diagnostics)] ]

/-- `prvPrintHeap`. -/
def prvPrintHeap (r : Readings) : List Output :=
  [ printf "static footprint approx %u bytes\n" [.word r.footprint],
    .writeln "dynamic heap is disabled in this firmware build".toList ]

/-- `prvPrintStats`. -/
def prvPrintStats (r : Readings) : List Output :=
  [ printf "sensor queue used=%u / 6\n" [.word r.sensorWaiting],
    printf "telemetry queue used=%u / 6\n" [.word r.telemetryWaiting],
    printf "sensor samples=%lu telemetry frames=%lu\n"
      [.word r.stats.sensorSamples, .word r.stats.telemetryFrames],
    printf "drops sensor=%lu telemetry=%lu\n"
      [.word r.stats.sensorDrops, .word r.stats.telemetryDrops] ]

/-- What `prvHandleCommand` prints for a command. -/
def Command.output (r : Readings) : Command → List Output
  | .help       =>
    [ .writeln ("commands: status tasks heap stats fault none fault overflow fault sensor " ++
        "fault stall reset quit").toList ]
  | .status     => prvPrintStatus r
  | .tasks      => prvPrintTasks r
  | .heap       => prvPrintHeap r
  | .stats      => prvPrintStats r
  | .reset      => [.writeln "state reset".toList]
  | .fault mode => [printf "fault mode set to %s\n" [.text (some (prvFaultName mode))]]
  | .unknown    => [.writeln "unknown command, type help".toList]

/-! ### The diagnostics task -/

/-- `cmds` of `prvDiagnosticsTask`. -/
def cmds : List (List Char) :=
  [ "status".toList, "tasks".toList, "heap".toList, "stats".toList, "help".toList,
    "fault sensor".toList, "status".toList,
    "fault overflow".toList, "stats".toList,
    "fault stall".toList, "status".toList,
    "fault none".toList, "status".toList,
    "reset".toList, "status".toList ]

/-- One command of the script: `buf` takes 31 characters of it. -/
def runCommand (cmd : List Char) (r : Readings) : List Output :=
  [.logWrite "==> ".toList, .logWrite (cmd.take 31), .logWrite "\n".toList] ++
    (prvHandleCommand (cmd.take 31)).output r

/-- What `prvDiagnosticsTask` prints, when command number `i` reads `r i`. -/
def prvDiagnosticsTask (r : ℕ → Readings) : List Output :=
  [.logWrite "=== SELF-TEST BEGIN ===\n".toList] ++
    (cmds.zipIdx.flatMap fun c => runCommand c.1 (r c.2)) ++
    [.logWrite "=== SELF-TEST END ===\n".toList]

/-- What `main` prints before it starts the scheduler. -/
def banner : List Output :=
  [ .writeln "real-time vehicle telemetry ECU simulator".toList,
    .writeln "target: STM32VLDISCOVERY / FreeRTOS / QEMU".toList,
    .writeln "type help for commands".toList ]

/-! ### No brackets -/

/-- No character is a bracket, a carriage return or the terminator. -/
def Unbracketed (s : List Char) : Prop := ∀ c ∈ s, c ≠ '[' ∧ c ≠ '\r' ∧ c ≠ nul

-- over the list: characters are finitely many too
instance (s : List Char) : Decidable (Unbracketed s) := List.decidableBAll _ s

/-- Everything but a bracket, a carriage return and the terminator. -/
def unbracketed : CharClass where
  Has c := c ≠ '[' ∧ c ≠ '\r' ∧ c ≠ nul
  numerals := show Unbracketed "0123456789abcdef- %".toList by decide
  nul_not := fun h => h.2.2 rfl

instance (c : Char) : Decidable (unbracketed.Has c) :=
  inferInstanceAs (Decidable (c ≠ '[' ∧ c ≠ '\r' ∧ c ≠ nul))

/-- The write writes `s`, whatever is on the stack. -/
def Output.Writes : Output → List Char → Prop
  | .writef call, s   => call.Writes s
  | .writeln text, s  => ∀ stack, consoleWriteln stack text = .ok s
  | .logWrite text, s => s = semihostWrite0 (text ++ [nul])

/-- The write writes one text, without a bracket. -/
def Output.Plain (o : Output) : Prop := ∃ s, (∀ c ∈ s, unbracketed.Has c) ∧ o.Writes s

/-- A format without a bracket that takes such arguments and leaves room for short strings. -/
def Sound (format : String) (ks : List Kind) : Prop :=
  declares format.toList ks 200 = true ∧ Unbracketed format.toList

instance (format : String) (ks : List Kind) : Decidable (Sound format ks) :=
  inferInstanceAs (Decidable (declares format.toList ks 200 = true ∧ Unbracketed format.toList))

/-- A string without a bracket that is short. -/
def Short (s : List Char) : Prop := Unbracketed s ∧ s.length ≤ 55

lemma short_prvFaultName (mode : FaultMode) : Short (prvFaultName mode) := by
  cases mode <;> exact ⟨by decide, by decide⟩

lemma short_validText (valid : Bool) : Short (validText valid) := by
  cases valid <;> exact ⟨by decide, by decide⟩

/-- An argument that is a number or a short string. -/
def PlainArg : Arg → Prop
  | .word _        => True
  | .text none     => False
  | .text (some s) => Short s

lemma PlainArg.of {a : Arg} (h : PlainArg a) : a.Of unbracketed := by
  cases a with
  | word w => trivial
  | text t =>
    cases t with
    | none => exact h
    | some s => exact h.1

/-- Numbers, and one short string at the end if any. -/
lemma plain_printf {format : String} {args : List Arg} (ks : List Kind) (h : Sound format ks)
    (hkinds : args.map Arg.kind = ks) (hlast : ∀ k ∈ ks.dropLast, k = .word)
    (hargs : ∀ a ∈ args, PlainArg a) : (printf format args).Plain := by
  refine Call.writes_of_declares h.1 hkinds h.2 (fun a ha => (hargs a ha).of) ?_
  show 200 + (args.map Arg.length).sum ≤ 255
  rcases List.eq_nil_or_concat args with rfl | ⟨init, a, rfl⟩
  · exact Nat.le_add_right 200 55
  · have hinit : (init.map Arg.length).sum = 0 := by
      refine List.sum_eq_zero fun n hn => ?_
      obtain ⟨b, hb, rfl⟩ := List.mem_map.mp hn
      have hkind : b.kind = .word := by
        refine hlast _ ?_
        rw [← hkinds, List.concat_eq_append, List.map_append, List.map_singleton,
          List.dropLast_concat]
        exact List.mem_map_of_mem hb
      cases b with
      | word w => rfl
      | text t => cases hkind
    have hlen : a.length ≤ 55 := by
      have ha := hargs a (by simp)
      cases a with
      | word w => exact Nat.zero_le _
      | text t =>
        cases t with
        | none => exact ha.elim
        | some s => exact ha.2
    rw [List.concat_eq_append, List.map_append, List.sum_append, hinit, List.map_singleton,
      List.sum_singleton]
    omega

/-- A line of `console_writeln`. -/
lemma plain_writeln {text : List Char}
    (h : Unbracketed text ∧ text.length < 255) : (Output.writeln text).Plain := by
  refine ⟨text ++ ['\n'], List.forall_mem_append.mpr ⟨h.1, show Unbracketed ['\n'] by decide⟩,
    fun stack => ?_⟩
  exact consoleWriteln_eq stack (fun hnul => unbracketed.nul_not (h.1 _ hnul)) h.2

/-- A piece of text of `prvLogWrite`. -/
lemma plain_logWrite {text : List Char} (h : Unbracketed text) :
    (Output.logWrite text).Plain := by
  refine ⟨text, h, ?_⟩
  have hkeep : ∀ c ∈ text, decide (c ≠ nul) = true := by
    intro c hc
    exact decide_eq_true (h c hc).2.2
  show text = (text ++ [nul]).takeWhile (· ≠ nul)
  rw [List.takeWhile_append_of_pos hkeep]
  simp

/-! ### The answers -/

/-- One number. -/
lemma plain_word {format : String} (h : Sound format [.word]) (w : UInt32) :
    (printf format [.word w]).Plain :=
  plain_printf [.word] h rfl (by decide) (by simp [PlainArg])

/-- Two numbers. -/
lemma plain_words {format : String} (h : Sound format [.word, .word]) (v w : UInt32) :
    (printf format [.word v, .word w]).Plain :=
  plain_printf [.word, .word] h rfl (by decide) (by simp [PlainArg])

/-- One short string. -/
lemma plain_text {format : String} (h : Sound format [.text]) {s : List Char} (hs : Short s) :
    (printf format [.text (some s)]).Plain :=
  plain_printf [.text] h rfl (by decide) (by simpa [PlainArg])

lemma plain_prvPrintStatus (r : Readings) : ∀ o ∈ prvPrintStatus r, o.Plain := by
  have hsample := short_validText r.stats.lastSample.valid
  have hframe := short_validText r.stats.lastFrame.valid
  simp only [prvPrintStatus, List.forall_mem_cons]
  refine ⟨plain_text (by decide +kernel) (short_prvFaultName _), plain_word (by decide +kernel) _,
    plain_word (by decide +kernel) _, plain_word (by decide +kernel) _,
    plain_word (by decide +kernel) _, plain_word (by decide +kernel) _,
    plain_word (by decide +kernel) _, plain_words (by decide +kernel) _ _, ?_, ?_,
    List.forall_mem_nil _⟩
  · exact plain_printf [.word, .word, .word, .word, .word, .word, .text] (by decide +kernel) rfl
      (by decide) (by simpa [PlainArg])
  · exact plain_printf [.word, .word, .word, .word, .word, .word, .text] (by decide +kernel) rfl
      (by decide) (by simpa [PlainArg])

lemma plain_prvPrintTasks (r : Readings) : ∀ o ∈ prvPrintTasks r, o.Plain := by
  simp only [prvPrintTasks, List.forall_mem_cons]
  exact ⟨plain_words (by decide +kernel) _ _, plain_words (by decide +kernel) _ _,
    plain_words (by decide +kernel) _ _, plain_word (by decide +kernel) _,
    plain_word (by decide +kernel) _, List.forall_mem_nil _⟩

lemma plain_prvPrintHeap (r : Readings) : ∀ o ∈ prvPrintHeap r, o.Plain := by
  simp only [prvPrintHeap, List.forall_mem_cons]
  exact ⟨plain_word (by decide +kernel) _, plain_writeln (by decide +kernel),
    List.forall_mem_nil _⟩

lemma plain_prvPrintStats (r : Readings) : ∀ o ∈ prvPrintStats r, o.Plain := by
  simp only [prvPrintStats, List.forall_mem_cons]
  exact ⟨plain_word (by decide +kernel) _, plain_word (by decide +kernel) _,
    plain_words (by decide +kernel) _ _, plain_words (by decide +kernel) _ _,
    List.forall_mem_nil _⟩

/-- Whatever it reads, the answer to a command is written whole and without a bracket. -/
theorem plain_output (command : Command) (r : Readings) : ∀ o ∈ command.output r, o.Plain := by
  cases command with
  | help => exact List.forall_mem_singleton.mpr (plain_writeln (by decide +kernel))
  | status => exact plain_prvPrintStatus r
  | tasks => exact plain_prvPrintTasks r
  | heap => exact plain_prvPrintHeap r
  | stats => exact plain_prvPrintStats r
  | reset => exact List.forall_mem_singleton.mpr (plain_writeln (by decide +kernel))
  | fault mode =>
    exact List.forall_mem_singleton.mpr
      (plain_text (by decide +kernel) (short_prvFaultName mode))
  | unknown => exact List.forall_mem_singleton.mpr (plain_writeln (by decide +kernel))

lemma plain_runCommand {cmd : List Char} (hcmd : Unbracketed cmd) (r : Readings) :
    ∀ o ∈ runCommand cmd r, o.Plain := by
  have hbuf : Unbracketed (cmd.take 31) := fun c hc => hcmd c (List.mem_of_mem_take hc)
  refine List.forall_mem_append.mpr ⟨?_, plain_output _ r⟩
  simp only [List.forall_mem_cons]
  exact ⟨plain_logWrite (by decide), plain_logWrite hbuf, plain_logWrite (by decide),
    List.forall_mem_nil _⟩

/-- What the diagnostics task prints is written whole and without a bracket. -/
theorem plain_prvDiagnosticsTask (r : ℕ → Readings) : ∀ o ∈ prvDiagnosticsTask r, o.Plain := by
  have hcmds : ∀ cmd ∈ cmds, Unbracketed cmd := by decide +kernel
  refine List.forall_mem_append.mpr ⟨List.forall_mem_append.mpr ⟨?_, fun o ho => ?_⟩, ?_⟩
  · exact List.forall_mem_singleton.mpr (plain_logWrite (by decide +kernel))
  · obtain ⟨⟨cmd, i⟩, hmem, ho⟩ := List.mem_flatMap.mp ho
    exact plain_runCommand (hcmds cmd (List.fst_mem_of_mem_zipIdx hmem)) (r i) o ho
  · exact List.forall_mem_singleton.mpr (plain_logWrite (by decide +kernel))

lemma plain_banner : ∀ o ∈ banner, o.Plain := by
  simp only [banner, List.forall_mem_cons]
  exact ⟨plain_writeln (by decide +kernel), plain_writeln (by decide +kernel),
    plain_writeln (by decide +kernel), List.forall_mem_nil _⟩

end EcuTelemetry.Firmware
