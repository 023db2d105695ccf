import EcuTelemetry.Formats.Lines
import EcuTelemetry.Lm3s.Uart
import EcuTelemetry.Printf.Printable

/-!
# What the tasks send to UART0

The messages of `telemetry_task`, `health_monitor_task` and `do_cmd`. Each is one line, and what
`uart_puts` sends is all of it: the buffers are large enough whatever the values printed, and no
message has a NUL in it.
-/

namespace EcuTelemetry.Lm3s

open EcuTelemetry.Core Formats Printf

/-! ### Lines -/

/-- A line with its end, and no other control character in it. -/
def OneLine (s : List Char) : Prop := ∃ body, IsLine body ∧ s = body ++ "\r\n".toList

lemma OneLine.nul_notMem {s : List Char} (h : OneLine s) : nul ∉ s := by
  obtain ⟨body, hbody, rfl⟩ := h
  rw [List.mem_append, not_or]
  exact ⟨hbody.nul_notMem, by decide⟩

/-- The text of a format. -/
def formatted (ps : List Piece) (args : List Arg) : List Char :=
  (render ps args).toOption.getD []

/-- A call of `mini_snprintf` on a buffer of `size` places, whatever is in it, and then of
`uart_puts`, sends `s`. -/
def Sends (call : (ℕ → Char) → Except Undefined ((ℕ → Char) × Int32)) (size : ℕ)
    (s : List Char) : Prop :=
  ∀ buf, ∃ mem r, call buf = .ok (mem, r) ∧ uartPuts mem size = some s

/-- A format that ends a line, whose text stands whole in the buffer. -/
lemma sends_formatted {ps : List Piece} {args : List Arg}
    {call : (ℕ → Char) → Except Undefined ((ℕ → Char) × Int32)} {size : ℕ}
    (hend : ps = ps.dropLast ++ [.plain "\r\n".toList]) (hps : ∀ p ∈ ps.dropLast, p.IsLine)
    (hargs : ∀ a ∈ args, a.IsLine)
    (h : ∃ s, render ps args = .ok s ∧ Whole call size s) :
    OneLine (formatted ps args) ∧ Sends call size (formatted ps args) := by
  obtain ⟨s, hs, hsize, hwhole⟩ := h
  have htext : formatted ps args = s := by rw [formatted, hs]; rfl
  have hline : OneLine s := by
    rw [hend, render_concat] at hs
    obtain ⟨body, hbody, rfl⟩ := map_ok hs
    exact ⟨body, isLine_render hps hargs hbody, rfl⟩
  rw [htext]
  refine ⟨hline, fun buf => ?_⟩
  obtain ⟨mem, r, hcall, -, hholds⟩ := hwhole buf
  exact ⟨mem, r, hcall, putsLoop_holds hline.nul_notMem hsize hholds⟩

/-! ### `telemetry_task` and `health_monitor_task` -/

/-- The message of `telemetry_task` for a frame. -/
def telemText (telem : TelemetryData) : List Char := formatted telemPieces (telemArgs telem)

/-- The message of `health_monitor_task` when all tasks have reported. -/
def okText (beatCount : Beat → UInt32) (freeHeap : UInt32) : List Char :=
  formatted okPieces (okArgs beatCount freeHeap)

/-- The message of `health_monitor_task` on a timeout. -/
def timeoutText (warnings : UInt32) (bits : Finset Beat) : List Char :=
  formatted timeoutPieces (timeoutArgs warnings bits)

lemma telemText_sent (telem : TelemetryData) :
    OneLine (telemText telem) ∧ Sends (telemetryTask telem) 200 (telemText telem) := by
  refine sends_formatted rfl (by decide +kernel) ?_ (telemetryTask_whole telem)
  simp [telemArgs, fixedArgs, tenthsArgs, Arg.IsLine]

lemma okText_sent (beatCount : Beat → UInt32) (freeHeap : UInt32) :
    OneLine (okText beatCount freeHeap) ∧
      Sends (healthMonitorOk beatCount freeHeap) 128 (okText beatCount freeHeap) := by
  refine sends_formatted rfl (by decide +kernel) ?_ (healthMonitorOk_whole beatCount freeHeap)
  simp [okArgs, Arg.IsLine]

lemma isLine_missingText (bits : Finset Beat) (beat : Beat) {name : String}
    (hname : IsLine name.toList) : IsLine (missingText bits beat name) := by
  rw [missingText]
  split_ifs
  · exact isLine_nil
  · exact hname

lemma timeoutText_sent (warnings : UInt32) (bits : Finset Beat) :
    OneLine (timeoutText warnings bits) ∧
      Sends (healthMonitorTimeout warnings bits) 192 (timeoutText warnings bits) := by
  refine sends_formatted rfl (by decide +kernel) ?_ (healthMonitorTimeout_whole warnings bits)
  have hmissing (beat : Beat) {name : String} (hname : IsLine name.toList) :=
    isLine_missingText bits beat hname
  simp only [timeoutArgs, List.forall_mem_cons, Arg.IsLine, true_and]
  exact ⟨hmissing _ (by decide), hmissing _ (by decide), hmissing _ (by decide),
    List.forall_mem_nil _⟩

/-! ### `do_cmd` -/

/-- The bytes of a literal. -/
def bytes (s : String) : List UInt8 := s.toList.map fun c => UInt8.ofNat c.toNat

/-- What a command line asks `do_cmd` for. -/
inductive DiagCommand where
  | status
  | tasks
  | heap
  | stats
  | fault (fault : FaultType)
  | reset
  | help
  | unknown
  deriving DecidableEq, Repr

/-- The comparisons of `do_cmd`. -/
def diagCommand (cmd : List UInt8) : DiagCommand :=
  if cmd = bytes "status" then .status
  else if cmd = bytes "tasks" then .tasks
  else if cmd = bytes "heap" then .heap
  else if cmd = bytes "stats" then .stats
  else if cmd = bytes "fault none" then .fault .none
  else if cmd = bytes "fault overflow" then .fault .queueOverflow
  else if cmd = bytes "fault sensor" ∨ cmd = bytes "fault" then .fault .sensorFailure
  else if cmd = bytes "fault process" then .fault .taskDelay
  else if cmd = bytes "reset" then .reset
  else if cmd = bytes "help" then .help
  else .unknown

/-- The values `do_cmd` prints: of `xTaskGetTickCount`, at a tick of a millisecond, of
`xPortGetFreeHeapSize` and of `uxTaskGetNumberOfTasks`. -/
structure Readings where
  uptimeMs : UInt32
  freeHeap : UInt32
  tasks : UInt32

/-- The end of the text of `help` and of the greeting of `diagnostics_task`. -/
def commandList : String :=
  "Commands: status tasks heap stats fault none/overflow/sensor/process reset help\r\n"

/-- What `do_cmd` passes to `uart_puts` as it stands. -/
def DiagCommand.literal : DiagCommand → List Char
  | .fault .none          => "[DIAG] Fault cleared\r\n".toList
  | .fault .queueOverflow => "[DIAG] Fault: QUEUE_OVERFLOW\r\n".toList
  | .fault .sensorFailure => "[DIAG] Fault: SENSOR_FAILURE\r\n".toList
  | .fault .taskDelay     => "[DIAG] Fault: TASK_DELAY (process stall)\r\n".toList
  | .help                 => ("[DIAG] " ++ commandList).toList
  | _                     => "[DIAG] Unknown cmd. Type 'help'\r\n".toList

/-- What `do_cmd` formats into its array: the pieces of the format and the arguments. -/
def DiagCommand.format (r : Readings) : DiagCommand → Option (List Piece × List Arg)
  | .status =>
    some
      ([ .plain "[DIAG] Uptime=".toList, .conv false false [] true 'u',
          .plain " ms  FreeHeap=".toList, .conv false false [] false 'u', .plain "\r\n".toList ],
        [.word r.uptimeMs, .word r.freeHeap])
  | .tasks =>
    some
      ([ .plain "[DIAG] Tasks running: ".toList, .conv false false [] false 'u',
          .plain "\r\n".toList ],
        [.word r.tasks])
  | .heap =>
    some
      ([ .plain "[DIAG] FreeHeap=".toList, .conv false false [] false 'u',
          .plain "\r\n".toList ],
        [.word r.freeHeap])
  | .stats =>
    some
      ([ .plain "[DIAG] Heap=".toList, .conv false false [] false 'u', .plain " Tasks=".toList,
          .conv false false [] false 'u', .plain "\r\n".toList ],
        [.word r.freeHeap, .word r.tasks])
  | _ => none

/-- The message of `do_cmd`. -/
def DiagCommand.text (r : Readings) (c : DiagCommand) : List Char :=
  match c.format r with
  | some (ps, args) => formatted ps args
  | none            => c.literal

/-- The formats as the source writes them. -/
example (r : Readings) : (DiagCommand.status.format r).map (fun f => f.1.flatMap Piece.format) =
    some "[DIAG] Uptime=%lu ms  FreeHeap=%u\r\n".toList := by rfl

lemma literal_oneLine (c : DiagCommand) : OneLine c.literal := by
  have hline (s : String) (h : IsLine (s.toList.dropLast.dropLast) ∧
      s.toList = s.toList.dropLast.dropLast ++ "\r\n".toList) : OneLine s.toList := ⟨_, h⟩
  unfold DiagCommand.literal
  split <;> exact hline _ (by decide +kernel)

/-- A bounded format of words that ends a line fits the array of `do_cmd`. -/
lemma sends_words {ps : List Piece} {args : List Arg} {n : ℕ}
    (hend : ps = ps.dropLast ++ [.plain "\r\n".toList]) (hps : ∀ p ∈ ps.dropLast, p.IsLine)
    (hformed : ∀ p ∈ ps, p.WellFormed) (hargs : ∀ a ∈ args, a.IsLine) (h : Bounded ps args n)
    (hn : n < 256) :
    OneLine (formatted ps args) ∧
      Sends (miniVsnprintf · 256 (ps.flatMap Piece.format) args) 256 (formatted ps args) :=
  sends_formatted hend hps hargs (h.whole hformed (hn.trans (by decide)) 256 hn)

/-- A message of `do_cmd` is one line, and what it formats fits its array. -/
lemma text_sent (c : DiagCommand) (r : Readings) :
    OneLine (c.text r) ∧ ∀ ps args, c.format r = some (ps, args) →
      Sends (miniVsnprintf · 256 (ps.flatMap Piece.format) args) 256 (c.text r) := by
  have hsome {ps : List Piece} {args : List Arg} {n : ℕ} (hf : c.format r = some (ps, args))
      (hend : ps = ps.dropLast ++ [.plain "\r\n".toList]) (hps : ∀ p ∈ ps.dropLast, p.IsLine)
      (hformed : ∀ p ∈ ps, p.WellFormed) (hargs : ∀ a ∈ args, a.IsLine) (h : Bounded ps args n)
      (hn : n < 256) :
      OneLine (c.text r) ∧ ∀ ps args, c.format r = some (ps, args) →
        Sends (miniVsnprintf · 256 (ps.flatMap Piece.format) args) 256 (c.text r) := by
    obtain ⟨hline, hsends⟩ := sends_words hend hps hformed hargs h hn
    rw [DiagCommand.text, hf]
    refine ⟨hline, fun ps' args' h' => ?_⟩
    obtain ⟨rfl, rfl⟩ := Prod.mk.inj (Option.some.inj h')
    exact hsends
  have hnone (hf : c.format r = none) :
      OneLine (c.text r) ∧ ∀ ps args, c.format r = some (ps, args) →
        Sends (miniVsnprintf · 256 (ps.flatMap Piece.format) args) 256 (c.text r) := by
    rw [DiagCommand.text, hf]
    exact ⟨literal_oneLine c, fun ps args h => by cases h⟩
  cases c with
  | status =>
    exact hsome rfl rfl (by decide) (by decide) (by simp [Arg.IsLine])
      (.plain _ <| .word _ <| .plain _ <| .word _ <| .plain _ .nil) (by decide)
  | tasks | heap =>
    exact hsome rfl rfl (by decide) (by decide) (by simp [Arg.IsLine])
      (.plain _ <| .word _ <| .plain _ .nil) (by decide)
  | stats =>
    exact hsome rfl rfl (by decide) (by decide) (by simp [Arg.IsLine])
      (.plain _ <| .word _ <| .plain _ <| .word _ <| .plain _ .nil) (by decide)
  | fault fault => exact hnone rfl
  | reset | help | unknown => exact hnone rfl

/-- The greeting of `diagnostics_task`. -/
def greeting : List Char := ("[DIAG] Ready. " ++ commandList).toList

/-- What `poll_uart` sends back when a line is complete. -/
def echo : List Char := "\r\n".toList

lemma greeting_oneLine : OneLine greeting :=
  ⟨greeting.dropLast.dropLast, by decide +kernel, by decide +kernel⟩

lemma echo_oneLine : OneLine echo := ⟨[], isLine_nil, rfl⟩

end EcuTelemetry.Lm3s
