import EcuTelemetry.Core.Serial
import EcuTelemetry.Lm3s.Messages
import EcuTelemetry.Lm3s.Tasks

/-!
# The LM3S build at the granularity of UART0

The tasks of `Lm3s.Tasks` with `diagnostics_task`, where a message is no longer one step: a task
that prints takes `xUartMutex`, `uart_puts` puts one character after the other into the data
register, and the mutex is given back. The other tasks run in between, and some of them wait for the
mutex. The counters in the messages of `health_monitor_task` are the state's own, and the value of
`xPortGetFreeHeapSize` comes with the action that prints it. `diagnostics_task` reads its commands
byte by byte.

The `reset` command writes `AIRCR`, which restarts the processor: a run ends there.
-/

namespace EcuTelemetry.Lm3s

open EcuTelemetry.Core Watchdog

/-- The tasks that print. -/
inductive Task where
  | telemetry
  | health
  | diagnostics
  deriving DecidableEq, Repr

/-- The program points of `diagnostics_task`: the greeting, the loop of `poll_uart`, the echo of a
complete line, and `do_cmd` before and after it has looked at the line. -/
inductive DiagnosticsPc where
  | greet
  | poll
  | echo (cmd : List UInt8)
  | doCmd (cmd : List UInt8)
  | reply (text : List Char)
  | restarted
  deriving DecidableEq

/-- The state of the board: the tasks, UART0 with its mutex, the static data of `diagnostics_task`
and of `health_monitor_task`. -/
structure Board where
  world : World
  uart : Serial Task Char
  buffer : CommandBuffer
  diagnostics : DiagnosticsPc
  beatCount : Beat → UInt32
  watchdogWarnings : UInt32

/-- The state in which `main` starts the scheduler. -/
def Board.start (rng : UInt32) : Board :=
  { world := .start rng
    uart := .start
    buffer := .init
    diagnostics := .greet
    beatCount := fun _ => 0
    watchdogWarnings := 0 }

/-- A step of one task, with what it reads from outside, the sensor timer, or the end of the
watchdog's block time. -/
inductive BoardAction where
  | timer
  | sensor (tick : UInt32)
  | processing
  | telemetry
  | health (freeHeap : UInt32)
  | timeout
  | diagnostics (received : Option UInt8) (r : Readings)

/-- What an observer sees: the tasks' events, the messages on UART0, and what `diagnostics_task`
reads and executes. -/
inductive BoardEvent where
  | world (e : Event)
  | uart (e : Serial.Event Task Char)
  | read (c : UInt8)
  | executed (cmd : List UInt8)

/-- A step of the other tasks. -/
def Board.run (b : Board) (a : Action) : Board × List BoardEvent :=
  match b.world.step a with
  | (world, events) => ({ b with world }, events.map .world)

/-- Task `i` goes on with its message `text`; `done` is what it does once the mutex is given
back. -/
def Board.print (b : Board) (i : Task) (text : List Char) (done : Board → Board × List BoardEvent) :
    Board × List BoardEvent :=
  match b.uart.write i text with
  | (uart, events) =>
    if .ended i ∈ events then
      match done { b with uart } with
      | (b, more) => (b, events.map .uart ++ more)
    else ({ b with uart }, events.map .uart)

/-- `telemetry_task`. -/
def Board.telemetryStep (b : Board) : Board × List BoardEvent :=
  match b.world.telemetry with
  | .print telem => b.print .telemetry (telemText telem) (·.run .telemetry)
  | _            => b.run .telemetry

/-- The message of `health_monitor_task`, when it has one to print. -/
def Board.healthMessage (b : Board) (freeHeap : UInt32) : Option (List Char) :=
  match b.world.health, b.world.dog.stage, b.world.dog.group.waiter with
  | .loop, .inside, .released bits =>
    if healthMonitorHealthy bits then some (okText (fun i => b.beatCount i + 1) freeHeap) else none
  | .loop, .warned bits, _ => some (timeoutText (b.watchdogWarnings + 1) bits)
  | _, _, _ => none

/-- The counters of `health_monitor_task`, which it prints. -/
def Board.count (b : Board) : Board :=
  match b.world.dog.stage with
  | .warned _ => { b with watchdogWarnings := b.watchdogWarnings + 1 }
  | _         => { b with beatCount := fun i => b.beatCount i + 1 }

/-- `health_monitor_task`. -/
def Board.healthStep (b : Board) (freeHeap : UInt32) : Board × List BoardEvent :=
  match b.healthMessage freeHeap with
  | some text => b.print .health text (·.count.run .health)
  | none      => b.run .health

/-- `fault_inject` and `fault_clear`. -/
def setFault : FaultType → Action
  | .none => .faultClear
  | fault => .faultInject fault

/-- `diagnostics_task`. -/
def Board.diagnosticsStep (b : Board) (received : Option UInt8) (r : Readings) :
    Board × List BoardEvent :=
  match b.diagnostics with
  | .greet =>
    b.print .diagnostics greeting fun b => ({ b with diagnostics := .poll }, [])
  | .poll =>
    match received with
    | none   => (b, [])
    | some c =>
      match pollByte b.buffer c with
      | .ok (buffer, events) =>
        ({ b with
            buffer
            diagnostics :=
              match commands events with
              | cmd :: _ => .echo cmd
              | []       => .poll },
          [.read c])
      | .error _ => (b, [])
  | .echo cmd =>
    b.print .diagnostics echo fun b => ({ b with diagnostics := .doCmd cmd }, [])
  | .doCmd cmd =>
    match diagCommand cmd with
    | .reset       => ({ b with diagnostics := .restarted }, [.executed cmd])
    | .fault fault =>
      match b.run (setFault fault) with
      | (b, events) =>
        ({ b with diagnostics := .reply ((DiagCommand.fault fault).text r) },
          .executed cmd :: events)
    | c            => ({ b with diagnostics := .reply (c.text r) }, [.executed cmd])
  | .reply text =>
    b.print .diagnostics text fun b => ({ b with diagnostics := .poll }, [])
  | .restarted => (b, [])

/-- One step of the board. -/
def Board.step (b : Board) (a : BoardAction) : Board × List BoardEvent :=
  if b.diagnostics = .restarted then (b, [])
  else
    match a with
    | .timer                  => b.run .timer
    | .sensor tick            => b.run (.sensor tick)
    | .processing             => b.run .processing
    | .telemetry              => b.telemetryStep
    | .health freeHeap        => b.healthStep freeHeap
    | .timeout                => b.run .timeout
    | .diagnostics received r => b.diagnosticsStep received r

/-- The board. -/
def board : Machine Board BoardAction BoardEvent := ⟨Board.step⟩

/-! ### What one step can do -/

/-- What a task has to print. -/
def Board.Says (b : Board) : Task → List Char → Prop
  | .telemetry, text   => ∃ telem, b.world.telemetry = .print telem ∧ text = telemText telem
  | .health, text      => ∃ freeHeap, b.healthMessage freeHeap = some text
  | .diagnostics, text =>
    b.diagnostics = .greet ∧ text = greeting ∨
      (∃ cmd, b.diagnostics = .echo cmd ∧ text = echo) ∨ b.diagnostics = .reply text

/-- Where `diagnostics_task` goes when a message is printed. -/
def DiagnosticsPc.printed : DiagnosticsPc → DiagnosticsPc
  | .echo cmd => .doCmd cmd
  | _         => .poll

/-- Where `diagnostics_task` goes with a byte. -/
def pollPc (events : List UartEvent) : DiagnosticsPc :=
  match commands events with
  | cmd :: _ => .echo cmd
  | []       => .poll

/-- The fault that a command sets, if it sets one. -/
def DiagCommand.sets : DiagCommand → Option FaultType
  | .fault f => some f
  | _        => none

/-- Everything one step can do, with what it shows. -/
inductive BoardMove (b : Board) : Board → List BoardEvent → Prop where
  | still : BoardMove b b []
  | run (a : Action) (ht : a = .telemetry → ∀ telem, b.world.telemetry ≠ .print telem)
      (hh : a = .health → ∀ freeHeap, b.healthMessage freeHeap = none)
      (hf : (∀ fault, a ≠ .faultInject fault) ∧ a ≠ .faultClear) :
      BoardMove b { b with world := lm3s.next b.world a } ((lm3s.emit b.world a).map .world)
  | write {i : Task} {text : List Char} (hsaid : b.Says i text)
      (hnot : b.uart.holder ≠ some (i, [])) :
      BoardMove b { b with uart := (b.uart.write i text).1 } ((b.uart.write i text).2.map .uart)
  | printed {telem : TelemetryData} (ht : b.world.telemetry = .print telem)
      (hheld : b.uart.holder = some (.telemetry, [])) :
      BoardMove b { b with uart := ⟨b.uart.out, none⟩, world := lm3s.next b.world .telemetry }
        (.uart (.ended .telemetry) :: (lm3s.emit b.world .telemetry).map .world)
  | reported {freeHeap : UInt32} {text : List Char} (hm : b.healthMessage freeHeap = some text)
      (hheld : b.uart.holder = some (.health, [])) :
      BoardMove b { b.count with uart := ⟨b.uart.out, none⟩, world := lm3s.next b.world .health }
        (.uart (.ended .health) :: (lm3s.emit b.world .health).map .world)
  | answered {text : List Char} (hsaid : b.Says .diagnostics text)
      (hheld : b.uart.holder = some (.diagnostics, [])) :
      BoardMove b { b with uart := ⟨b.uart.out, none⟩, diagnostics := b.diagnostics.printed }
        [.uart (.ended .diagnostics)]
  | read {c : UInt8} {buffer : CommandBuffer} {events : List UartEvent}
      (hp : b.diagnostics = .poll) (hb : pollByte b.buffer c = .ok (buffer, events)) :
      BoardMove b { b with buffer, diagnostics := pollPc events } [.read c]
  | reset {cmd : List UInt8} (hp : b.diagnostics = .doCmd cmd)
      (hc : diagCommand cmd = .reset) :
      BoardMove b { b with diagnostics := .restarted } [.executed cmd]
  | fault {cmd : List UInt8} {fault : FaultType} (r : Readings) (hp : b.diagnostics = .doCmd cmd)
      (hc : diagCommand cmd = .fault fault) :
      BoardMove b
        { b with
          world := lm3s.next b.world (setFault fault)
          diagnostics := .reply ((DiagCommand.fault fault).text r) }
        (.executed cmd :: (lm3s.emit b.world (setFault fault)).map .world)
  | answer {cmd : List UInt8} (r : Readings) (hp : b.diagnostics = .doCmd cmd)
      (hc : (diagCommand cmd).sets = none) (hreset : diagCommand cmd ≠ .reset) :
      BoardMove b { b with diagnostics := .reply ((diagCommand cmd).text r) } [.executed cmd]

variable {b : Board}

/-- Printing is writing, until the mutex is given back. -/
lemma print_cases (b : Board) (i : Task) (text : List Char)
    (done : Board → Board × List BoardEvent) :
    (b.uart.holder ≠ some (i, []) ∧ b.print i text done =
        ({ b with uart := (b.uart.write i text).1 }, (b.uart.write i text).2.map .uart)) ∨
      (b.uart.holder = some (i, []) ∧ b.print i text done =
        ((done { b with uart := ⟨b.uart.out, none⟩ }).1,
          .uart (.ended i) :: (done { b with uart := ⟨b.uart.out, none⟩ }).2)) := by
  by_cases h : b.uart.holder = some (i, [])
  · refine .inr ⟨h, ?_⟩
    simp [Board.print, Serial.write_done h]
  · refine .inl ⟨h, ?_⟩
    have hnot : .ended i ∉ (b.uart.write i text).2 := fun hmem => h (Serial.ended_mem_write.mp hmem)
    simp [Board.print, hnot]

lemma telemetryStep_move (b : Board) : BoardMove b b.telemetryStep.1 b.telemetryStep.2 := by
  rw [Board.telemetryStep]
  split
  · next telem ht =>
    rcases print_cases b .telemetry (telemText telem) (·.run .telemetry) with
      ⟨hnot, heq⟩ | ⟨hheld, heq⟩
    · rw [heq]
      exact .write (i := .telemetry) ⟨telem, ht, rfl⟩ hnot
    · rw [heq]
      exact .printed ht hheld
  · next hne =>
    exact .run .telemetry (fun _ telem ht => hne telem ht) (by simp) (by simp)

/-- Whether there is a message does not depend on the free heap. -/
lemma healthMessage_eq_none {freeHeap : UInt32} (h : b.healthMessage freeHeap = none)
    (freeHeap' : UInt32) : b.healthMessage freeHeap' = none := by
  unfold Board.healthMessage at h ⊢
  split at h
  · split_ifs at h ⊢
    rfl
  · cases h
  · rfl

lemma healthStep_move (b : Board) (freeHeap : UInt32) :
    BoardMove b (b.healthStep freeHeap).1 (b.healthStep freeHeap).2 := by
  rw [Board.healthStep]
  split
  · next text hm =>
    rcases print_cases b .health text (·.count.run .health) with ⟨hnot, heq⟩ | ⟨hheld, heq⟩
    · rw [heq]
      exact .write (i := .health) ⟨freeHeap, hm⟩ hnot
    · rw [heq]
      have hcount : ({ b with uart := ⟨b.uart.out, none⟩ } : Board).count =
          { b.count with uart := ⟨b.uart.out, none⟩ } := by
        unfold Board.count
        cases b.world.dog.stage <;> rfl
      have hworld : b.count.world = b.world := by
        unfold Board.count
        cases b.world.dog.stage <;> rfl
      rw [hcount, Board.run, hworld]
      exact .reported hm hheld
  · next hm =>
    exact .run .health (by simp) (fun _ => healthMessage_eq_none hm) (by simp)

/-- A message of `diagnostics_task`. -/
lemma diagnostics_print_move {text : List Char} (hsaid : b.Says .diagnostics text)
    {pc : DiagnosticsPc} (hpc : b.diagnostics.printed = pc) :
    BoardMove b (b.print .diagnostics text fun b => ({ b with diagnostics := pc }, [])).1
      (b.print .diagnostics text fun b => ({ b with diagnostics := pc }, [])).2 := by
  subst hpc
  rcases print_cases b .diagnostics text (fun b' => ({ b' with diagnostics := _ }, [])) with
    ⟨hnot, heq⟩ | ⟨hheld, heq⟩
  · rw [heq]
    exact .write hsaid hnot
  · rw [heq]
    exact .answered hsaid hheld

lemma diagnosticsStep_move (b : Board) (received : Option UInt8) (r : Readings) :
    BoardMove b (b.diagnosticsStep received r).1 (b.diagnosticsStep received r).2 := by
  cases hp : b.diagnostics with
  | greet =>
    simp only [Board.diagnosticsStep, hp]
    exact diagnostics_print_move (.inl ⟨hp, rfl⟩) (by rw [hp]; rfl)
  | poll =>
    cases received with
    | none =>
      simp only [Board.diagnosticsStep, hp]
      exact .still
    | some c =>
      cases hb : pollByte b.buffer c with
      | error e =>
        simp only [Board.diagnosticsStep, hp, hb]
        exact .still
      | ok r =>
        simp only [Board.diagnosticsStep, hp, hb]
        exact .read hp hb
  | echo cmd =>
    simp only [Board.diagnosticsStep, hp]
    exact diagnostics_print_move (.inr (.inl ⟨cmd, hp, rfl⟩)) (by rw [hp]; rfl)
  | doCmd cmd =>
    simp only [Board.diagnosticsStep, hp]
    split
    · next hc => exact .reset hp hc
    · next fault hc => exact .fault r hp hc
    · next hreset hfault =>
      refine .answer r hp ?_ hreset
      cases hc : diagCommand cmd with
      | fault f => exact absurd hc (hfault f)
      | _ => rfl
  | reply text =>
    simp only [Board.diagnosticsStep, hp]
    exact diagnostics_print_move (.inr (.inr hp)) (by rw [hp]; rfl)
  | restarted =>
    simp only [Board.diagnosticsStep, hp]
    exact .still

/-- `BoardMove` describes the step function. -/
theorem board_move (b : Board) (a : BoardAction) :
    BoardMove b (board.next b a) (board.emit b a) := by
  simp only [board, Machine.next, Machine.emit, Board.step]
  split_ifs
  · exact .still
  · have hrun (a : Action) (ht : a ≠ .telemetry) (hh : a ≠ .health)
        (hf : (∀ fault, a ≠ .faultInject fault) ∧ a ≠ .faultClear) :
        BoardMove b (b.run a).1 (b.run a).2 :=
      .run a (fun h => absurd h ht) (fun h => absurd h hh) hf
    cases a with
    | telemetry => exact telemetryStep_move b
    | health freeHeap => exact healthStep_move b freeHeap
    | diagnostics received r => exact diagnosticsStep_move b received r
    | timer | sensor tick | processing | timeout => exact hrun _ (by simp) (by simp) (by simp)

end EcuTelemetry.Lm3s
