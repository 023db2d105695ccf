import EcuTelemetry.Firmware.Command
import EcuTelemetry.Pipeline.Basic
import EcuTelemetry.Watchdog.Basic

/-!
# The tasks of the firmware

The five tasks of `main.c` as one machine. A step is a section under the state mutex or one FreeRTOS
call; what a task computes between two of them on its own data goes with the step after it. The
queues are bounded FIFOs of depth 6, the kick is a binary semaphore, and tick counts come with the
action that reads them.

Queued samples and frames carry, beside the source's fields, the place of their sample among all
samples made; `made` counts these. No step looks at either.
-/

namespace EcuTelemetry.Firmware

open EcuTelemetry.Core Pipeline Watchdog

/-! ### Statistics -/

/-- The counters passed to `prvIncrementCounter`. -/
inductive StatCounter where
  | sensorFaults
  | beats (task : Heartbeat)
  deriving DecidableEq

/-- `prvIncrementCounter`. -/
def prvIncrementCounter (stats : AppStats) : StatCounter → AppStats
  | .sensorFaults     => { stats with sensorFaults := stats.sensorFaults + 1 }
  | .beats .sensor    => { stats with taskSensorBeats := stats.taskSensorBeats + 1 }
  | .beats .processor => { stats with taskProcessorBeats := stats.taskProcessorBeats + 1 }
  | .beats .logger    => { stats with taskLoggerBeats := stats.taskLoggerBeats + 1 }

/-- `prvUpdateStatsFromSample`. -/
def prvUpdateStatsFromSample (stats : AppStats) (sample : SensorSample) : AppStats :=
  { stats with sensorSamples := stats.sensorSamples + 1, lastSample := sample }

/-- `prvUpdateStatsFromFrame`. -/
def prvUpdateStatsFromFrame (stats : AppStats) (frame : TelemetryFrame) : AppStats :=
  { stats with telemetryFrames := stats.telemetryFrames + 1, lastFrame := frame }

/-- `prvIncrementDrop`. -/
def prvIncrementDrop (stats : AppStats) (sensorQueue : Bool) : AppStats :=
  if sensorQueue then { stats with sensorDrops := stats.sensorDrops + 1 }
  else { stats with telemetryDrops := stats.telemetryDrops + 1 }

/-- The section of `prvSetFault`. -/
def prvSetFault (stats : AppStats) (mode : FaultMode) : AppStats := { stats with faultMode := mode }

/-! ### The state of the system -/

/-- Which send of `prvSensorTask` is under way: the single one, or iteration `i` of a burst. -/
inductive Batch where
  | single
  | burst (i : ℕ)
  deriving DecidableEq, Repr

/-- The program points of `prvSensorTask`. -/
inductive SensorPc where
  | take
  | beat
  | setBit
  | test
  | make (b : Batch)
  | fill (b : Batch) (mode : FaultMode)
  | send (b : Batch) (sample : SensorSample)
  | count (b : Batch) (sample : SensorSample) (sent : Bool)
  deriving DecidableEq, Repr

/-- The program points of `prvProcessorTask`. -/
inductive ProcessorPc where
  | receive
  | beat (sample : Stamped SensorSample)
  | setBit (sample : Stamped SensorSample)
  | fault (sample : Stamped SensorSample)
  | test (sample : Stamped SensorSample)
  | stall (sample : Stamped SensorSample)
  | process (sample : Stamped SensorSample)
  | send (frame : Stamped TelemetryFrame)
  | count (frame : Stamped TelemetryFrame) (sent : Bool)
  deriving DecidableEq, Repr

/-- The program points of `prvLoggerTask`. -/
inductive LoggerPc where
  | receive
  | beat (frame : Stamped TelemetryFrame)
  | setBit (frame : Stamped TelemetryFrame)
  | print (frame : Stamped TelemetryFrame)
  deriving DecidableEq, Repr

/-- The program points of the diagnostics task at which a command acts on the state; the last four
are those of `prvResetStats`. -/
inductive DiagnosticsPc where
  | idle
  | setFault (mode : FaultMode)
  | memset
  | resetSensorQueue
  | resetTelemetryQueue
  | clearBits
  deriving DecidableEq, Repr

/-- The shared objects, the task-local data and the program points. -/
structure World where
  stats : AppStats
  sequence : UInt32
  made : ℕ
  sensorKick : Bool
  sensorQueue : List (Stamped SensorSample)
  telemetryQueue : List (Stamped TelemetryFrame)
  dog : Dog Heartbeat
  sensor : SensorPc
  processor : ProcessorPc
  logger : LoggerPc
  diagnostics : DiagnosticsPc
  deriving DecidableEq

/-- The state in which `main` starts the scheduler. -/
def World.start : World :=
  { stats := .zero
    sequence := 0
    made := 0
    sensorKick := false
    sensorQueue := []
    telemetryQueue := []
    dog := .start Heartbeat
    sensor := .take
    processor := .receive
    logger := .receive
    diagnostics := .idle }

/-- A step of one task, the timer, the end of the watchdog's block time, or a command line that
arrives at the diagnostics task. -/
inductive Action where
  | timer
  | sensor (tick : UInt32)
  | processor (tick : UInt32)
  | logger
  | watchdog
  | timeout
  | command (line : List Char)
  | diagnostics
  deriving Repr

/-- What an observer sees: the pipeline's events, heartbeats and watchdog reports. -/
inductive Shown where
  | pipe (e : Event SensorSample TelemetryFrame)
  | dog (r : Report Heartbeat)
  deriving DecidableEq

/-- The depth of both queues. -/
def queueDepth : ℕ := 6

/-! ### Steps -/

/-- Where the sensor task goes when a sample is counted. -/
def Batch.next : Batch → SensorPc
  | .single  => .take
  | .burst i => if i + 1 < 3 then .make (.burst (i + 1)) else .take

/-- `prvSensorTask`. -/
def World.sensorStep (w : World) (tick : UInt32) : World × List Shown :=
  match w.sensor with
  | .take   =>
    if w.sensorKick then ({ w with sensorKick := false, sensor := .beat }, []) else (w, [])
  | .beat   =>
    ({ w with stats := prvIncrementCounter w.stats (.beats .sensor), sensor := .setBit }, [])
  | .setBit =>
    match w.dog.step prvWatchdogHealthy (.beat .sensor) with
    | (dog, reports) => ({ w with dog, sensor := .test }, reports.map .dog)
  | .test   =>
    ({ w with sensor := .make (if w.stats.faultMode = .overflow then .burst 0 else .single) }, [])
  | .make b =>
    ({ w with
        sequence := w.sequence + 1
        made := w.made + 1
        sensor := .fill b w.stats.faultMode },
      [.pipe (.drawn (w.made + 1))])
  | .fill b mode => ({ w with sensor := .send b (prvMakeSample w.sequence mode tick) }, [])
  | .send b sample =>
    match BoundedFifo.push queueDepth w.sensorQueue ⟨w.made, sample⟩ with
    | (sensorQueue, sent) =>
      ({ w with sensorQueue, sensor := .count b sample sent },
        if sent then [.pipe (.accepted ⟨w.made, sample⟩)] else [])
  | .count b sample sent =>
    ({ w with
        stats :=
          if sent then prvUpdateStatsFromSample w.stats sample else prvIncrementDrop w.stats true
        sensor := b.next },
      [.pipe (.counted (sampleCounter sent) w.made)])

/-- `prvProcessorTask`. -/
def World.processorStep (w : World) (tick : UInt32) : World × List Shown :=
  match w.processor with
  | .receive =>
    match w.sensorQueue with
    | []                    => (w, [])
    | sample :: sensorQueue =>
      ({ w with sensorQueue, processor := .beat sample }, [.pipe (.taken sample)])
  | .beat sample =>
    ({ w with
        stats := prvIncrementCounter w.stats (.beats .processor)
        processor := .setBit sample },
      [])
  | .setBit sample =>
    match w.dog.step prvWatchdogHealthy (.beat .processor) with
    | (dog, reports) =>
      ({ w with
          dog
          processor := if sample.val.valid = false then .fault sample else .test sample },
        reports.map .dog)
  | .fault sample =>
    ({ w with stats := prvIncrementCounter w.stats .sensorFaults, processor := .test sample }, [])
  | .test sample =>
    ({ w with
        processor :=
          if w.stats.faultMode = .stall ∧ sample.val.sequence % 6 = 0 then .stall sample
          else .process sample },
      [])
  | .stall sample => ({ w with processor := .process sample }, [])
  | .process sample =>
    ({ w with processor := .send ⟨sample.stamp, prvProcessSample sample.val tick⟩ }, [])
  | .send frame =>
    match BoundedFifo.push queueDepth w.telemetryQueue frame with
    | (telemetryQueue, sent) =>
      ({ w with telemetryQueue, processor := .count frame sent },
        if sent then [.pipe (.outAccepted frame)] else [])
  | .count frame sent =>
    ({ w with
        stats :=
          if sent then prvUpdateStatsFromFrame w.stats frame.val else prvIncrementDrop w.stats false
        processor := .receive },
      [.pipe (.counted (frameCounter sent) frame.stamp)])

/-- `prvLoggerTask`. -/
def World.loggerStep (w : World) : World × List Shown :=
  match w.logger with
  | .receive =>
    match w.telemetryQueue with
    | []                      => (w, [])
    | frame :: telemetryQueue =>
      ({ w with telemetryQueue, logger := .beat frame }, [.pipe (.outTaken frame)])
  | .beat frame =>
    ({ w with stats := prvIncrementCounter w.stats (.beats .logger), logger := .setBit frame }, [])
  | .setBit frame =>
    match w.dog.step prvWatchdogHealthy (.beat .logger) with
    | (dog, reports) => ({ w with dog, logger := .print frame }, reports.map .dog)
  | .print frame => ({ w with logger := .receive }, [.pipe (.printed frame)])

/-- `prvWatchdogTask`; a verdict other than healthy is counted. -/
def World.watchdogStep (w : World) : World × List Shown :=
  match w.dog.step prvWatchdogHealthy .watchdog with
  | (dog, reports) =>
    ({ w with
        dog
        stats :=
          match w.dog.stage, dog.stage with
          | .inside, .warned _ => { w.stats with watchdogWarnings := w.stats.watchdogWarnings + 1 }
          | _, _               => w.stats },
      reports.map .dog)

/-- Where a command takes the diagnostics task; the others only print. -/
def Command.entry : Command → DiagnosticsPc
  | .reset      => .memset
  | .fault mode => .setFault mode
  | _           => .idle

/-- `prvDiagnosticsTask` inside a command. -/
def World.diagnosticsStep (w : World) : World × List Shown :=
  match w.diagnostics with
  | .idle             => (w, [])
  | .setFault mode    => ({ w with stats := prvSetFault w.stats mode, diagnostics := .idle }, [])
  | .memset           =>
    ({ w with stats := .zero, diagnostics := .resetSensorQueue }, [.pipe .zeroed])
  | .resetSensorQueue =>
    ({ w with sensorQueue := [], diagnostics := .resetTelemetryQueue },
      w.sensorQueue.map fun s => .pipe (.flushed s))
  | .resetTelemetryQueue => ({ w with telemetryQueue := [], diagnostics := .clearBits }, [])
  | .clearBits        =>
    match w.dog.step prvWatchdogHealthy .clear with
    | (dog, reports) => ({ w with dog, diagnostics := .idle }, reports.map .dog)

/-- One step of the firmware. -/
def World.step (w : World) : Action → World × List Shown
  | .timer          => ({ w with sensorKick := true }, [])
  | .sensor tick    => w.sensorStep tick
  | .processor tick => w.processorStep tick
  | .logger         => w.loggerStep
  | .watchdog       => w.watchdogStep
  | .timeout        =>
    match w.dog.step prvWatchdogHealthy .timeout with
    | (dog, reports) => ({ w with dog }, reports.map .dog)
  | .command line   =>
    match w.diagnostics with
    | .idle => ({ w with diagnostics := (prvHandleCommand line).entry }, [])
    | _     => (w, [])
  | .diagnostics    => w.diagnosticsStep

/-- The firmware. -/
def firmware : Machine World Action Shown := ⟨World.step⟩

end EcuTelemetry.Firmware
