import EcuTelemetry.Core.Locks
import EcuTelemetry.Host.Threads
import Mathlib.Data.Fintype.Basic

/-!
# The code of the host simulator, lock by lock

The functions of `queue.c` and `ecu_sim.c` that threads run at the same time, with every mutex they
take and release. Sections under a mutex are no longer single steps here: a section that calls
`queue_count` takes the mutex of a queue on the way. A return in the middle of a function is a
branch; a function leaves its result in the locals of its caller. A sleeping thread may be woken at
any moment, so a signal does nothing. Sleeps and the texts of log lines are left out.
-/

namespace EcuTelemetry.Host.Code

open EcuTelemetry.Core Pipeline

/-! ### Threads and data -/

/-- The mutexes of `struct EcuSim` and of its two queues. -/
inductive Mutex where
  | state
  | beat
  | log
  | sensorQueue
  | telemetryQueue
  deriving DecidableEq, Repr

/-- The worker threads and the main thread. -/
inductive Thread where
  | sensor
  | processor
  | logger
  | watchdog
  | main
  deriving DecidableEq, Repr

instance : Fintype Thread :=
  ⟨{.sensor, .processor, .logger, .watchdog, .main}, fun t => by cases t <;> decide⟩

/-- The two queues. -/
inductive QueueId where
  | sensor
  | telemetry
  deriving DecidableEq, Repr

/-- The mutex of a queue. -/
def QueueId.mutex : QueueId → Mutex
  | .sensor    => .sensorQueue
  | .telemetry => .telemetryQueue

/-- What a step finds outside: the clock, and whether a timed wait has timed out. -/
structure Input where
  now : Timespec
  timedOut : Bool

/-- `struct EcuSim`, and the number of samples made so far. -/
structure Shared where
  sim : EcuSim
  running : Bool
  started : Bool
  made : ℕ

/-- The local variables and results of the functions that a thread is in. -/
structure Locals where
  /-- A clock reading. -/
  ts : Timespec
  /-- `mode` of the thread, and what `ecu_get_fault` returned. -/
  mode : FaultMode
  fault : FaultMode
  seq : UInt64
  i : ℕ
  s : Stamped SensorSample
  f : Stamped TelemetryFrame
  timedOut : Bool
  /-- What `queue_push` or `queue_pop` returned. -/
  ok : Bool
  /-- What `queue_count` returned. -/
  count : ℕ
  last : Timespec
  out : EcuSnapshot

/-- What a thread sees. -/
abbrev View : Type := Shared × Locals

/-- The body of a function of the simulator. -/
abbrev Proc : Type := Stmt Mutex Thread Input View

/-- An access to the simulator. -/
def onSim (f : Locals → EcuSim → EcuSim) : Proc :=
  .act fun _ v => ({ v.1 with sim := f v.2 v.1.sim }, v.2)

/-- An access to the snapshot. -/
def onSnapshot (f : Locals → EcuSnapshot → EcuSnapshot) : Proc :=
  onSim fun l sim => { sim with snapshot := f l sim.snapshot }

/-- A local variable gets a value, which may depend on the simulator. -/
def onLocals (f : Input → EcuSim → Locals → Locals) : Proc :=
  .act fun i v => (v.1, f i v.1.sim v.2)

/-! ### `queue.c` -/

/-- The number of items in a queue. -/
def QueueId.length (sim : EcuSim) : QueueId → ℕ
  | .sensor    => sim.sensorQueue.length
  | .telemetry => sim.telemetryQueue.length

/-- The copy of the item at the tail. -/
def QueueId.append (l : Locals) (sim : EcuSim) : QueueId → EcuSim
  | .sensor    => { sim with sensorQueue := sim.sensorQueue ++ [l.s] }
  | .telemetry => { sim with telemetryQueue := sim.telemetryQueue ++ [l.f] }

/-- The copy of the item at the head. -/
def QueueId.head (sim : EcuSim) (l : Locals) : QueueId → Locals
  | .sensor    => { l with s := sim.sensorQueue.headD l.s }
  | .telemetry => { l with f := sim.telemetryQueue.headD l.f }

/-- The head moves on. -/
def QueueId.advance (sim : EcuSim) : QueueId → EcuSim
  | .sensor    => { sim with sensorQueue := sim.sensorQueue.tail }
  | .telemetry => { sim with telemetryQueue := sim.telemetryQueue.tail }

/-- The reset of head, tail and count. -/
def QueueId.empty (sim : EcuSim) : QueueId → EcuSim
  | .sensor    => { sim with sensorQueue := [] }
  | .telemetry => { sim with telemetryQueue := [] }

/-- `queue_push`. -/
def queuePush (q : QueueId) : Proc :=
  .block
    [onLocals fun _ _ l => { l with ok := false },
      .lock q.mutex,
      .ite (fun v => q.length v.1.sim < queueCapacity)
        (.block [onSim fun l sim => q.append l sim, onLocals fun _ _ l => { l with ok := true }])
        .skip,
      .unlock q.mutex]

/-- `queue_pop`. -/
def queuePop (q : QueueId) (timeoutMs : ℤ) : Proc :=
  .block
    [.lock q.mutex,
      onLocals fun _ _ l => { l with timedOut := false },
      .loop (fun v => q.length v.1.sim = 0 ∧ v.2.timedOut = false)
        (.block
          [.wait q.mutex,
            onLocals fun i _ l => { l with timedOut := decide (0 ≤ timeoutMs) && i.timedOut }]),
      .ite (fun v => v.2.timedOut)
        (.block [.unlock q.mutex, onLocals fun _ _ l => { l with ok := false }])
        (.block
          [onLocals fun _ sim l => q.head sim l,
            onSim fun _ sim => q.advance sim,
            .unlock q.mutex,
            onLocals fun _ _ l => { l with ok := true }])]

/-- `queue_count`. -/
def queueCount (q : QueueId) : Proc :=
  .block
    [.lock q.mutex,
      onLocals fun _ sim l => { l with count := q.length sim },
      .unlock q.mutex]

/-- `queue_clear`. -/
def queueClear (q : QueueId) : Proc :=
  .block [.lock q.mutex, onSim fun _ sim => q.empty sim, .unlock q.mutex]

/-! ### Helpers of `ecu_sim.c` -/

/-- `prvNowTs`. -/
def prvNowTs : Proc := onLocals fun i _ l => { l with ts := i.now }

/-- `prvLog`. -/
def prvLog : Proc := .block [.lock .log, .skip, .unlock .log]

/-- `prvBeat`. -/
def prvBeat (task : TaskId) : Proc :=
  .block
    [prvNowTs,
      .lock .beat,
      onSim fun l sim => Host.prvBeat sim task l.ts,
      .unlock .beat]

/-- `prvClearBeats`. -/
def prvClearBeats : Proc :=
  .block [.lock .beat, onSim fun _ sim => Host.prvClearBeats sim, .unlock .beat]

/-- `ecu_get_fault`. -/
def ecuGetFault : Proc :=
  .block
    [.lock .state,
      onLocals fun _ sim l => { l with fault := sim.faultMode },
      .unlock .state]

/-- The read and increment of `sensor_sequence` in the argument of `prvMakeSensorSample`. -/
def drawSequence : Proc :=
  .act fun _ v =>
    ({ v.1 with
        sim := { v.1.sim with sensorSequence := v.1.sim.sensorSequence + 1 }
        made := v.1.made + 1 },
      { v.2 with seq := v.1.sim.sensorSequence + 1, s := ⟨v.1.made + 1, v.2.s.val⟩ })

/-- `prvMakeSensorSample`. -/
def prvMakeSensorSample : Proc :=
  .block
    [prvNowTs,
      ecuGetFault,
      onLocals fun _ _ l =>
        { l with s := ⟨l.s.stamp, Host.prvMakeSensorSample l.seq l.fault l.ts⟩ }]

/-- `prvProcessSample`. -/
def prvProcessSample : Proc :=
  .block
    [prvNowTs,
      onLocals fun _ _ l => { l with f := ⟨l.s.stamp, Host.prvProcessSample l.s.val l.ts⟩ }]

/-- The depths of the two queues, as the last lines of the snapshot helpers write them. -/
def writeDepths : Proc :=
  .block
    [queueCount .sensor,
      onSnapshot fun l snap => { snap with sensorQueueDepth := UInt64.ofNat l.count },
      queueCount .telemetry,
      onSnapshot fun l snap => { snap with telemetryQueueDepth := UInt64.ofNat l.count }]

/-- `prvUpdateFromSample`. -/
def prvUpdateFromSample : Proc :=
  .block
    [.lock .state,
      onSnapshot fun l snap =>
        { snap with
          sensorSamples := snap.sensorSamples + 1
          lastTemperatureC := l.s.val.temperatureC
          lastAccelX := l.s.val.accelX
          lastAccelY := l.s.val.accelY
          lastAccelZ := l.s.val.accelZ
          lastSpeedKmh := l.s.val.speedKmh },
      writeDepths,
      .unlock .state]

/-- `prvUpdateFromFrame`. -/
def prvUpdateFromFrame : Proc :=
  .block
    [.lock .state,
      onSnapshot fun l snap =>
        { snap with
          telemetryFrames := snap.telemetryFrames + 1
          lastTemperatureC := l.f.val.temperatureC
          lastAccelX := l.f.val.accelX
          lastAccelY := l.f.val.accelY
          lastAccelZ := l.f.val.accelZ
          lastSpeedKmh := l.f.val.speedKmh
          lastRpm := l.f.val.rpm
          lastThrottlePct := l.f.val.throttlePct },
      writeDepths,
      .unlock .state]

/-- `prvIncrementDrop`. -/
def prvIncrementDrop (sensorQ : Bool) : Proc :=
  .block [.lock .state, onSim fun _ sim => Host.prvIncrementDrop sim sensorQ, .unlock .state]

/-! ### Threads -/

/-- No stop is requested. -/
def goesOn (v : View) : Bool := !v.1.sim.stopRequested

/-- A sample is made, pushed and counted. -/
def sampleBody : Proc :=
  .block
    [drawSequence,
      prvMakeSensorSample,
      queuePush .sensor,
      .ite (fun v => v.2.ok) prvUpdateFromSample (prvIncrementDrop true)]

/-- The loop of `prvSensorThread`. -/
def prvSensorLoop : Proc :=
  .loop goesOn
    (.block
      [ecuGetFault,
        onLocals fun _ _ l => { l with mode := l.fault },
        .ite (fun v => v.2.mode = .queueOverflow)
          (.block
            [onLocals fun _ _ l => { l with i := 0 },
              .loop (fun v => v.2.i < 4 && goesOn v)
                (.block [sampleBody, onLocals fun _ _ l => { l with i := l.i + 1 }]),
              prvBeat .sensor])
          (.block
            [.ite (fun v => v.2.mode = .sensorFailure ∧ v.1.sim.sensorSequence % 10 = 0) prvLog
                .skip,
              sampleBody,
              prvBeat .sensor])])

/-- `prvSensorThread`. -/
def prvSensorThread : Proc := .block [prvBeat .sensor, prvSensorLoop]

/-- The loop of `prvProcessorThread`. -/
def prvProcessorLoop : Proc :=
  .loop goesOn
    (.block
      [queuePop .sensor 250,
        .ite (fun v => v.2.ok)
          (.block
            [ecuGetFault,
              .ite (fun v => v.2.fault = .processStall ∧ v.2.s.val.sequence % 8 = 0) prvLog .skip,
              prvProcessSample,
              queuePush .telemetry,
              .ite (fun v => v.2.ok) prvUpdateFromFrame (prvIncrementDrop false),
              prvBeat .processor])
          (prvBeat .processor)])

/-- `prvProcessorThread`. -/
def prvProcessorThread : Proc := .block [prvBeat .processor, prvProcessorLoop]

/-- The loop of `prvLoggerThread`. -/
def prvLoggerLoop : Proc :=
  .loop goesOn
    (.block
      [queuePop .telemetry 300,
        .ite (fun v => v.2.ok)
          (.block [.lock .log, .skip, .unlock .log, prvBeat .logger])
          (prvBeat .logger)])

/-- `prvLoggerThread`. -/
def prvLoggerThread : Proc := .block [prvBeat .logger, prvLoggerLoop]

/-- `prvWarnIfOverdue`. -/
def prvWarnIfOverdue (task : TaskId) (deadlineMs : ℤ) : Proc :=
  .block
    [.lock .beat,
      .ite (fun v => !v.1.sim.beatInitialized task)
        (.unlock .beat)
        (.block
          [onLocals fun _ sim l => { l with last := sim.lastBeat task },
            .unlock .beat,
            prvNowTs,
            .ite (fun v => deadlineMs < prvDiffMs v.2.ts v.2.last)
              (.block
                [.lock .state, onSim fun _ sim => countWarning sim, .unlock .state, prvLog])
              .skip])]

/-- The loop of `prvWatchdogThread`. -/
def prvWatchdogLoop : Proc :=
  .loop goesOn
    (.block
      [prvWarnIfOverdue .sensor 900,
        prvWarnIfOverdue .processor 900,
        prvWarnIfOverdue .logger 1200,
        prvBeat .watchdog])

/-- `prvWatchdogThread`. -/
def prvWatchdogThread : Proc := .block [prvBeat .watchdog, prvWatchdogLoop]

/-! ### Calls of the main thread -/

/-- `prvInitSnapshot`. -/
def prvInitSnapshot : Proc :=
  .block
    [onSim fun _ sim =>
        { sim with snapshot := { EcuSnapshot.zero with faultMode := sim.faultMode } },
      writeDepths]

/-- `ecu_reset`. -/
def ecuReset : Proc :=
  .block
    [.lock .state,
      prvInitSnapshot,
      onSim fun _ sim => { sim with sensorSequence := 0, speedKmh := 0.0 },
      .unlock .state,
      queueClear .sensor,
      queueClear .telemetry,
      prvClearBeats]

/-- `ecu_set_fault`. -/
def ecuSetFault (mode : FaultMode) : Proc :=
  .block [.lock .state, onSim fun _ sim => Host.ecuSetFault sim mode, .unlock .state]

/-- `ecu_snapshot`. -/
def ecuSnapshot : Proc :=
  .block
    [.lock .state,
      onLocals fun _ sim l => { l with out := sim.snapshot },
      queueCount .sensor,
      onLocals fun _ _ l =>
        { l with out := { l.out with sensorQueueDepth := UInt64.ofNat l.count } },
      queueCount .telemetry,
      onLocals fun _ _ l =>
        { l with out := { l.out with telemetryQueueDepth := UInt64.ofNat l.count } },
      .unlock .state]

/-- `ecu_stop`. -/
def ecuStop : Proc :=
  .ite (fun v => v.1.started)
    (.block
      [onSim fun _ sim => { sim with stopRequested := true },
        queueClear .sensor,
        queueClear .telemetry,
        .join .sensor,
        .join .processor,
        .join .logger,
        .join .watchdog,
        .act fun _ v => ({ v.1 with started := false, running := false }, v.2)])
    .skip

/-- A call of the main thread, with what it passes. -/
inductive Call where
  | snapshot
  | setFault (mode : FaultMode)
  | getFault
  | reset
  | stop
  | pushSample (s : Stamped SensorSample)
  | pushFrame (f : Stamped TelemetryFrame)
  | pop (q : QueueId) (timeoutMs : ℤ)
  | count (q : QueueId)
  | clear (q : QueueId)

/-- The function called. -/
def Call.body : Call → Proc
  | .snapshot        => ecuSnapshot
  | .setFault mode   => ecuSetFault mode
  | .getFault        => ecuGetFault
  | .reset           => ecuReset
  | .stop            => ecuStop
  | .pushSample s    => .block [onLocals fun _ _ l => { l with s := s }, queuePush .sensor]
  | .pushFrame f     => .block [onLocals fun _ _ l => { l with f := f }, queuePush .telemetry]
  | .pop q timeoutMs => queuePop q timeoutMs
  | .count q         => queueCount q
  | .clear q         => queueClear q

/-! ### The simulator -/

/-- The simulator as `ecu_start` leaves it, when the main thread goes on to make these calls. The
local variables hold anything. -/
def start (calls : List Call) (locals : Thread → Locals) :
    Config Mutex Thread Input Shared Locals where
  owner := fun _ => none
  cont := fun
    | .sensor    => [prvSensorThread]
    | .processor => [prvProcessorThread]
    | .logger    => [prvLoggerThread]
    | .watchdog  => [prvWatchdogThread]
    | .main      => calls.map Call.body
  shared := { sim := ecuCreate, running := true, started := true, made := 0 }
  locals := locals

/-- The threads of the simulator, in any order. -/
abbrev simulator : Machine (Config Mutex Thread Input Shared Locals) (Thread × Input) Empty :=
  threads Mutex Thread Input Shared Locals

end EcuTelemetry.Host.Code
