import EcuTelemetry.Host.Basic

/-!
# The threads of the host simulator

The four worker threads of `ecu_sim.c` and the main thread that calls its interface, as one machine.
A step is a section under a mutex, a call of a queue function or a single access to a shared
variable; what a thread computes in between on its own data goes with the step after it. A pop may
time out at any moment. Sleeps and log lines other than telemetry take a step and do nothing.
-/

namespace EcuTelemetry.Host

open EcuTelemetry.Core Pipeline

/-! ### Program points -/

/-- Which push of `prvSensorThread` is under way: the single one, or iteration `i` of a burst. -/
inductive Batch where
  | single
  | burst (i : ℕ)
  deriving DecidableEq, Repr

/-- The program points of `prvSensorThread`. -/
inductive SensorPc where
  | boot
  | loop
  | mode
  | burst (i : ℕ)
  | check
  | log
  | draw (b : Batch)
  | fill (b : Batch) (seq : UInt64)
  | push (b : Batch) (s : SensorSample)
  | count (b : Batch) (s : SensorSample) (ok : Bool)
  | beat
  | done

/-- The program points of `prvProcessorThread`. -/
inductive ProcessorPc where
  | boot
  | loop
  | pop
  | check (s : Stamped SensorSample)
  | stall (s : Stamped SensorSample)
  | process (s : Stamped SensorSample)
  | push (f : Stamped TelemetryFrame)
  | count (f : Stamped TelemetryFrame) (ok : Bool)
  | beat
  | done

/-- The program points of `prvLoggerThread`. -/
inductive LoggerPc where
  | boot
  | loop
  | pop
  | print (f : Stamped TelemetryFrame)
  | beat
  | done

/-- The program points of `prvWatchdogThread`; the last three are in `prvWarnIfOverdue`. -/
inductive WatchdogPc where
  | boot
  | loop
  | beat
  | done
  | read (task : TaskId)
  | age (task : TaskId) (last : Timespec)
  | warn (task : TaskId)

/-- The program points of the main thread inside `ecu_reset` and `ecu_stop`. -/
inductive MainPc where
  | idle
  | resetSensorQueue
  | resetTelemetryQueue
  | resetBeats
  | stopSensorQueue
  | stopTelemetryQueue
  | join
  deriving DecidableEq, Repr

/-- The simulator, the number of samples made so far, and where each thread is. -/
structure World where
  sim : EcuSim
  made : ℕ
  sensor : SensorPc
  processor : ProcessorPc
  logger : LoggerPc
  watchdog : WatchdogPc
  main : MainPc

/-- The simulator as `ecu_start` leaves it. -/
def World.start : World :=
  { sim := ecuCreate
    made := 0
    sensor := .boot
    processor := .boot
    logger := .boot
    watchdog := .boot
    main := .idle }

/-- A step of one thread, at a clock reading; a pop of the processor or the logger that times out; a
call from the main thread, or its next step in one. -/
inductive Action where
  | sensor (now : Timespec)
  | processor (now : Timespec)
  | processorTimeout
  | logger (now : Timespec)
  | loggerTimeout
  | watchdog (now : Timespec)
  | setFault (mode : FaultMode)
  | reset
  | stop
  | main
  deriving DecidableEq, Repr

/-! ### Steps -/

/-- Where the sensor thread goes when a sample is counted. -/
def Batch.next : Batch → SensorPc
  | .single  => .beat
  | .burst i => .burst (i + 1)

/-- `prvSensorThread`. -/
def World.sensorStep (w : World) (now : Timespec) :
    World × List (Event SensorSample TelemetryFrame) :=
  match w.sensor with
  | .boot    => ({ w with sim := prvBeat w.sim .sensor now, sensor := .loop }, [])
  | .loop    => ({ w with sensor := if w.sim.stopRequested then .done else .mode }, [])
  | .mode    =>
    ({ w with
        sensor :=
          match w.sim.faultMode with
          | .queueOverflow => .burst 0
          | .sensorFailure => .check
          | _              => .draw .single },
      [])
  | .burst i =>
    ({ w with
        sensor := if i < 4 ∧ w.sim.stopRequested = false then .draw (.burst i) else .beat },
      [])
  | .check   =>
    ({ w with sensor := if w.sim.sensorSequence % 10 = 0 then .log else .draw .single }, [])
  | .log     => ({ w with sensor := .draw .single }, [])
  | .draw b  =>
    ({ w with
        sim := { w.sim with sensorSequence := w.sim.sensorSequence + 1 }
        made := w.made + 1
        sensor := .fill b (w.sim.sensorSequence + 1) },
      [.drawn (w.made + 1)])
  | .fill b seq =>
    ({ w with sensor := .push b (prvMakeSensorSample seq w.sim.faultMode now) }, [])
  | .push b s =>
    match BoundedFifo.push queueCapacity w.sim.sensorQueue ⟨w.made, s⟩ with
    | (sensorQueue, ok) =>
      ({ w with sim := { w.sim with sensorQueue }, sensor := .count b s ok },
        if ok then [.accepted ⟨w.made, s⟩] else [])
  | .count b s ok =>
    ({ w with
        sim := if ok then prvUpdateFromSample w.sim s else prvIncrementDrop w.sim true
        sensor := b.next },
      [.counted (sampleCounter ok) w.made])
  | .beat    => ({ w with sim := prvBeat w.sim .sensor now, sensor := .loop }, [])
  | .done    => (w, [])

/-- `prvProcessorThread`. -/
def World.processorStep (w : World) (now : Timespec) :
    World × List (Event SensorSample TelemetryFrame) :=
  match w.processor with
  | .boot => ({ w with sim := prvBeat w.sim .processor now, processor := .loop }, [])
  | .loop => ({ w with processor := if w.sim.stopRequested then .done else .pop }, [])
  | .pop  =>
    match w.sim.sensorQueue with
    | []               => (w, [])
    | s :: sensorQueue =>
      ({ w with sim := { w.sim with sensorQueue }, processor := .check s }, [.taken s])
  | .check s =>
    ({ w with
        processor :=
          if w.sim.faultMode = .processStall ∧ s.val.sequence % 8 = 0 then .stall s
          else .process s },
      [])
  | .stall s => ({ w with processor := .process s }, [])
  | .process s => ({ w with processor := .push ⟨s.stamp, prvProcessSample s.val now⟩ }, [])
  | .push f =>
    match BoundedFifo.push queueCapacity w.sim.telemetryQueue f with
    | (telemetryQueue, ok) =>
      ({ w with sim := { w.sim with telemetryQueue }, processor := .count f ok },
        if ok then [.outAccepted f] else [])
  | .count f ok =>
    ({ w with
        sim := if ok then prvUpdateFromFrame w.sim f.val else prvIncrementDrop w.sim false
        processor := .beat },
      [.counted (frameCounter ok) f.stamp])
  | .beat => ({ w with sim := prvBeat w.sim .processor now, processor := .loop }, [])
  | .done => (w, [])

/-- `prvLoggerThread`. -/
def World.loggerStep (w : World) (now : Timespec) :
    World × List (Event SensorSample TelemetryFrame) :=
  match w.logger with
  | .boot => ({ w with sim := prvBeat w.sim .logger now, logger := .loop }, [])
  | .loop => ({ w with logger := if w.sim.stopRequested then .done else .pop }, [])
  | .pop  =>
    match w.sim.telemetryQueue with
    | []                  => (w, [])
    | f :: telemetryQueue =>
      ({ w with sim := { w.sim with telemetryQueue }, logger := .print f }, [.outTaken f])
  | .print f => ({ w with logger := .beat }, [.printed f])
  | .beat => ({ w with sim := prvBeat w.sim .logger now, logger := .loop }, [])
  | .done => (w, [])

/-- The deadlines of `prvWatchdogThread`, in milliseconds. -/
def deadlineMs : TaskId → ℤ
  | .logger => 1200
  | _       => 900

/-- Where `prvWatchdogThread` goes when a task is checked. -/
def TaskId.nextCheck : TaskId → WatchdogPc
  | .sensor    => .read .processor
  | .processor => .read .logger
  | _          => .beat

/-- `prvWatchdogThread`. -/
def World.watchdogStep (w : World) (now : Timespec) : World :=
  match w.watchdog with
  | .boot      => { w with sim := prvBeat w.sim .watchdog now, watchdog := .loop }
  | .loop      => { w with watchdog := if w.sim.stopRequested then .done else .read .sensor }
  | .read task =>
    { w with
      watchdog :=
        if w.sim.beatInitialized task then .age task (w.sim.lastBeat task) else task.nextCheck }
  | .age task last =>
    { w with
      watchdog := if deadlineMs task < prvDiffMs now last then .warn task else task.nextCheck }
  | .warn task => { w with sim := countWarning w.sim, watchdog := task.nextCheck }
  | .beat      => { w with sim := prvBeat w.sim .watchdog now, watchdog := .loop }
  | .done      => w

/-- The main thread inside `ecu_reset` and `ecu_stop`. -/
def World.mainStep (w : World) : World × List (Event SensorSample TelemetryFrame) :=
  match w.main with
  | .idle => (w, [])
  | .resetSensorQueue =>
    ({ w with sim := { w.sim with sensorQueue := [] }, main := .resetTelemetryQueue },
      w.sim.sensorQueue.map .flushed)
  | .resetTelemetryQueue =>
    ({ w with sim := { w.sim with telemetryQueue := [] }, main := .resetBeats }, [])
  | .resetBeats => ({ w with sim := prvClearBeats w.sim, main := .idle }, [])
  | .stopSensorQueue =>
    ({ w with sim := { w.sim with sensorQueue := [] }, main := .stopTelemetryQueue },
      w.sim.sensorQueue.map .flushed)
  | .stopTelemetryQueue =>
    ({ w with sim := { w.sim with telemetryQueue := [] }, main := .join }, [])
  | .join =>
    match w.sensor, w.processor, w.logger, w.watchdog with
    | .done, .done, .done, .done => ({ w with main := .idle }, [])
    | _, _, _, _                 => (w, [])

/-- One step of the simulator. A call from the main thread makes its first step at once. -/
def World.step (w : World) : Action → World × List (Event SensorSample TelemetryFrame)
  | .sensor now => w.sensorStep now
  | .processor now => w.processorStep now
  | .processorTimeout =>
    match w.processor with
    | .pop => ({ w with processor := .beat }, [])
    | _    => (w, [])
  | .logger now => w.loggerStep now
  | .loggerTimeout =>
    match w.logger with
    | .pop => ({ w with logger := .beat }, [])
    | _    => (w, [])
  | .watchdog now => (w.watchdogStep now, [])
  | .setFault mode =>
    match w.main with
    | .idle => ({ w with sim := ecuSetFault w.sim mode }, [])
    | _     => (w, [])
  | .reset =>
    match w.main with
    | .idle => ({ w with sim := ecuResetState w.sim, main := .resetSensorQueue }, [.zeroed])
    | _     => (w, [])
  | .stop =>
    match w.main with
    | .idle =>
      ({ w with sim := { w.sim with stopRequested := true }, main := .stopSensorQueue }, [])
    | _     => (w, [])
  | .main => w.mainStep

/-- The host simulator. -/
def host : Machine World Action (Event SensorSample TelemetryFrame) := ⟨World.step⟩

end EcuTelemetry.Host
