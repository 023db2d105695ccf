import EcuTelemetry.Pipeline.Basic
import Mathlib.Data.Int.Notation
import Mathlib.Logic.Function.Basic

/-!
# The host simulator: data

The records of `ecu_sim.h`, the state of `struct EcuSim` and the functions of `ecu_sim.c` that read
or write it in one critical section. A `double` is a `Float`, a `uint64_t` a `UInt64`; seconds and
nanoseconds, which nothing here carries to the limits of `long`, are integers. The clock readings a
function takes are arguments.
-/

namespace EcuTelemetry.Host

open Pipeline

/-- `FaultMode` of `ecu_sim.h`. -/
inductive FaultMode where
  | none
  | queueOverflow
  | sensorFailure
  | processStall
  deriving DecidableEq, Repr

/-- `TaskId`. -/
inductive TaskId where
  | sensor
  | processor
  | logger
  | watchdog
  deriving DecidableEq, Repr

/-- `struct timespec`. -/
structure Timespec where
  sec : ℤ
  nsec : ℤ
  deriving DecidableEq, Repr

/-- `SensorSample`. -/
structure SensorSample where
  sequence : UInt64
  temperatureC : Float
  accelX : Float
  accelY : Float
  accelZ : Float
  speedKmh : Float
  faultCode : Int32
  timestamp : Timespec

/-- `TelemetryFrame`. -/
structure TelemetryFrame where
  sequence : UInt64
  temperatureC : Float
  accelX : Float
  accelY : Float
  accelZ : Float
  speedKmh : Float
  rpm : Float
  throttlePct : Float
  faultCode : Int32
  timestamp : Timespec

/-- `EcuSnapshot`. -/
structure EcuSnapshot where
  sensorSamples : UInt64
  telemetryFrames : UInt64
  sensorDrops : UInt64
  telemetryDrops : UInt64
  watchdogWarnings : UInt64
  taskSensorBeats : UInt64
  taskProcessorBeats : UInt64
  taskLoggerBeats : UInt64
  taskWatchdogBeats : UInt64
  sensorQueueDepth : UInt64
  telemetryQueueDepth : UInt64
  lastTemperatureC : Float
  lastAccelX : Float
  lastAccelY : Float
  lastAccelZ : Float
  lastSpeedKmh : Float
  lastRpm : Float
  lastThrottlePct : Float
  faultMode : FaultMode

/-- `struct EcuSim`, without its threads and mutexes. Queued records carry, beside the source's
fields, the place of their sample among all samples made. -/
structure EcuSim where
  stopRequested : Bool
  lastBeat : TaskId → Timespec
  beatInitialized : TaskId → Bool
  sensorQueue : List (Stamped SensorSample)
  telemetryQueue : List (Stamped TelemetryFrame)
  snapshot : EcuSnapshot
  faultMode : FaultMode
  sensorSequence : UInt64
  speedKmh : Float

/-- The capacity `ecu_create` gives both queues. -/
def queueCapacity : ℕ := 24

/-! ### Samples and frames -/

/-- `prvMakeSensorSample`, in fault mode `mode`, at clock reading `now`. -/
def prvMakeSensorSample (seq : UInt64) (mode : FaultMode) (now : Timespec) : SensorSample :=
  let phase := seq.toFloat / 6.0
  let s : SensorSample :=
    { sequence := seq
      temperatureC := 72.0 + 8.0 * Float.sin phase
      accelX := 0.3 + 0.2 * Float.sin (phase * 1.3)
      accelY := -0.1 + 0.15 * Float.sin (phase * 0.9)
      accelZ := 9.8 + 0.2 * Float.sin (phase * 1.7)
      speedKmh := 60.0 + 20.0 * Float.sin (phase * 0.5)
      faultCode := 0
      timestamp := now }
  if mode = .sensorFailure then
    { s with temperatureC := 155.0, accelX := 4.2, accelY := 4.2, accelZ := 4.2, faultCode := 1 }
  else s

@[simp] lemma prvMakeSensorSample_sequence (seq : UInt64) (mode : FaultMode) (now : Timespec) :
    (prvMakeSensorSample seq mode now).sequence = seq := by
  by_cases h : mode = .sensorFailure <;> simp [prvMakeSensorSample, h]

/-- `fmin`. -/
def fmin (x y : Float) : Float :=
  if x.isNaN then y else if y.isNaN then x else if y < x then y else x

/-- `fmax`. -/
def fmax (x y : Float) : Float :=
  if x.isNaN then y else if y.isNaN then x else if x < y then y else x

/-- `prvProcessSample`, at clock reading `now`. -/
def prvProcessSample (s : SensorSample) (now : Timespec) : TelemetryFrame :=
  let accelMag := Float.sqrt (s.accelX * s.accelX + s.accelY * s.accelY + s.accelZ * s.accelZ)
  { sequence := s.sequence
    temperatureC := s.temperatureC
    accelX := s.accelX
    accelY := s.accelY
    accelZ := s.accelZ
    speedKmh := s.speedKmh
    rpm := 700.0 + s.temperatureC * 17.5 + accelMag * 125.0
    throttlePct := fmax 0.0 (fmin 100.0 (12.0 + accelMag * 14.0 + s.temperatureC / 6.0))
    faultCode := s.faultCode
    timestamp := now }

/-! ### Critical sections -/

/-- `prvDiffMs`. -/
def prvDiffMs (a b : Timespec) : ℤ := (a.sec - b.sec) * 1000 + (a.nsec - b.nsec).tdiv 1000000

/-- The increment in `prvBeat`. -/
def EcuSnapshot.beat (snap : EcuSnapshot) : TaskId → EcuSnapshot
  | .sensor    => { snap with taskSensorBeats := snap.taskSensorBeats + 1 }
  | .processor => { snap with taskProcessorBeats := snap.taskProcessorBeats + 1 }
  | .logger    => { snap with taskLoggerBeats := snap.taskLoggerBeats + 1 }
  | .watchdog  => { snap with taskWatchdogBeats := snap.taskWatchdogBeats + 1 }

/-- `prvBeat`, at clock reading `now`. -/
def prvBeat (sim : EcuSim) (task : TaskId) (now : Timespec) : EcuSim :=
  { sim with
    lastBeat := Function.update sim.lastBeat task now
    beatInitialized := Function.update sim.beatInitialized task true
    snapshot := sim.snapshot.beat task }

/-- `prvClearBeats`. -/
def prvClearBeats (sim : EcuSim) : EcuSim :=
  { sim with lastBeat := fun _ => ⟨0, 0⟩, beatInitialized := fun _ => false }

/-- `prvUpdateFromSample`. -/
def prvUpdateFromSample (sim : EcuSim) (s : SensorSample) : EcuSim :=
  { sim with
    snapshot :=
      { sim.snapshot with
        sensorSamples := sim.snapshot.sensorSamples + 1
        lastTemperatureC := s.temperatureC
        lastAccelX := s.accelX
        lastAccelY := s.accelY
        lastAccelZ := s.accelZ
        lastSpeedKmh := s.speedKmh
        sensorQueueDepth := UInt64.ofNat sim.sensorQueue.length
        telemetryQueueDepth := UInt64.ofNat sim.telemetryQueue.length } }

/-- `prvUpdateFromFrame`. -/
def prvUpdateFromFrame (sim : EcuSim) (f : TelemetryFrame) : EcuSim :=
  { sim with
    snapshot :=
      { sim.snapshot with
        telemetryFrames := sim.snapshot.telemetryFrames + 1
        lastTemperatureC := f.temperatureC
        lastAccelX := f.accelX
        lastAccelY := f.accelY
        lastAccelZ := f.accelZ
        lastSpeedKmh := f.speedKmh
        lastRpm := f.rpm
        lastThrottlePct := f.throttlePct
        sensorQueueDepth := UInt64.ofNat sim.sensorQueue.length
        telemetryQueueDepth := UInt64.ofNat sim.telemetryQueue.length } }

/-- `prvIncrementDrop`. -/
def prvIncrementDrop (sim : EcuSim) (sensorQ : Bool) : EcuSim :=
  { sim with
    snapshot :=
      if sensorQ then { sim.snapshot with sensorDrops := sim.snapshot.sensorDrops + 1 }
      else { sim.snapshot with telemetryDrops := sim.snapshot.telemetryDrops + 1 } }

/-- A snapshot with every field zero. -/
def EcuSnapshot.zero : EcuSnapshot :=
  ⟨0, 0, 0, 0, 0, 0, 0, 0, 0, 0, 0, 0.0, 0.0, 0.0, 0.0, 0.0, 0.0, 0.0, .none⟩

/-- `prvInitSnapshot`. -/
def prvInitSnapshot (sim : EcuSim) : EcuSim :=
  { sim with
    snapshot :=
      { EcuSnapshot.zero with
        faultMode := sim.faultMode
        sensorQueueDepth := UInt64.ofNat sim.sensorQueue.length
        telemetryQueueDepth := UInt64.ofNat sim.telemetryQueue.length } }

/-- The section under the state mutex in `ecu_reset`. -/
def ecuResetState (sim : EcuSim) : EcuSim :=
  { prvInitSnapshot sim with sensorSequence := 0, speedKmh := 0.0 }

/-- `ecu_set_fault`. -/
def ecuSetFault (sim : EcuSim) (mode : FaultMode) : EcuSim :=
  { sim with faultMode := mode, snapshot := { sim.snapshot with faultMode := mode } }

/-- `ecu_snapshot`. -/
def ecuSnapshot (sim : EcuSim) : EcuSnapshot :=
  { sim.snapshot with
    sensorQueueDepth := UInt64.ofNat sim.sensorQueue.length
    telemetryQueueDepth := UInt64.ofNat sim.telemetryQueue.length }

/-- The increment in `prvWarnIfOverdue`. -/
def countWarning (sim : EcuSim) : EcuSim :=
  { sim with
    snapshot := { sim.snapshot with watchdogWarnings := sim.snapshot.watchdogWarnings + 1 } }

/-- The simulator that `ecu_create` returns. -/
def ecuCreate : EcuSim :=
  prvInitSnapshot
    { stopRequested := false
      lastBeat := fun _ => ⟨0, 0⟩
      beatInitialized := fun _ => false
      sensorQueue := []
      telemetryQueue := []
      snapshot := .zero
      faultMode := .none
      sensorSequence := 0
      speedKmh := 0.0 }

end EcuTelemetry.Host
