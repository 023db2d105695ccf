import Mathlib.Tactic.Common

/-!
# Samples, frames and statistics of the firmware

The data of `firmware.h` and the arithmetic of `main.c` on it, in the widths of the source. The tick
count and the fault mode a function reads are arguments here; the tasks supply them.
-/

namespace EcuTelemetry.Firmware

/-- `FaultMode` of `firmware.h`. -/
inductive FaultMode where
  | none
  | overflow
  | sensor
  | stall
  deriving DecidableEq, Repr

/-- `SensorSample`. -/
structure SensorSample where
  sequence : UInt32
  temperatureCX10 : Int16
  accelXX100 : Int16
  accelYX100 : Int16
  accelZX100 : Int16
  valid : Bool
  tick : UInt32
  deriving DecidableEq, Repr

/-- `TelemetryFrame`. -/
structure TelemetryFrame where
  sequence : UInt32
  temperatureCX10 : Int16
  accelXX100 : Int16
  accelYX100 : Int16
  accelZX100 : Int16
  rpm : UInt16
  throttlePctX10 : UInt16
  speedKmhX10 : UInt16
  valid : Bool
  tick : UInt32
  deriving DecidableEq, Repr

/-- `AppStats`. -/
structure AppStats where
  sensorSamples : UInt32
  telemetryFrames : UInt32
  sensorDrops : UInt32
  telemetryDrops : UInt32
  sensorFaults : UInt32
  watchdogWarnings : UInt32
  taskSensorBeats : UInt32
  taskProcessorBeats : UInt32
  taskLoggerBeats : UInt32
  faultMode : FaultMode
  lastSample : SensorSample
  lastFrame : TelemetryFrame
  deriving DecidableEq, Repr

/-- The statistics after the `memset` of `prvResetStats`. -/
def AppStats.zero : AppStats :=
  ⟨0, 0, 0, 0, 0, 0, 0, 0, 0, .none, ⟨0, 0, 0, 0, 0, false, 0⟩, ⟨0, 0, 0, 0, 0, 0, 0, 0, false, 0⟩⟩

/-! ### Sample generation -/

/-- `prvLcgNext`. -/
def prvLcgNext (state : UInt32) : UInt32 := state * 1664525 + 1013904223

/-- The sample `prvMakeSample` builds before it looks at the fault mode. -/
def nominalSample (seq tick : UInt32) : SensorSample :=
  let lcg₁ := prvLcgNext (seq + 1)
  let ax := ((lcg₁ &&& 0xFF).toInt32 - 128).toInt16
  let lcg₂ := prvLcgNext lcg₁
  let ay := ((lcg₂ &&& 0xFF).toInt32 - 128).toInt16
  let lcg₃ := prvLcgNext lcg₂
  let az := (100 + (lcg₃ &&& 0x3F).toInt32).toInt16
  { sequence := seq
    temperatureCX10 := (720 + ((seq % 30).toInt32 - 15) * 6).toInt16
    accelXX100 := ax
    accelYX100 := ay
    accelZX100 := az
    valid := true
    tick := tick }

/-- A sample with the readings that stand for a failed sensor. -/
def SensorSample.sentinel (sample : SensorSample) : SensorSample :=
  { sample with
    temperatureCX10 := 1550
    accelXX100 := 420
    accelYX100 := 420
    accelZX100 := 420
    valid := false }

/-- `prvMakeSample`, in fault mode `mode`. -/
def prvMakeSample (seq : UInt32) (mode : FaultMode) (tick : UInt32) : SensorSample :=
  let sample := nominalSample seq tick
  if mode = .sensor then sample.sentinel else sample

@[simp] lemma prvMakeSample_sequence (seq : UInt32) (mode : FaultMode) (tick : UInt32) :
    (prvMakeSample seq mode tick).sequence = seq := by
  by_cases h : mode = .sensor <;> simp [prvMakeSample, h, SensorSample.sentinel, nominalSample]

/-! ### Processing -/

/-- The absolute value of a reading, as an `int32_t`. -/
def absReading (x : Int16) : Int32 := if x < 0 then -x.toInt32 else x.toInt32

/-- `prvAccelMagnitude`. -/
def prvAccelMagnitude (s : SensorSample) : UInt16 :=
  let ax := absReading s.accelXX100
  let ay := absReading s.accelYX100
  let az := absReading s.accelZX100
  let mag := (ax + ay + az) / 3
  let mag := if mag < 0 then 0 else mag
  mag.toUInt32.toUInt16

/-- `prvProcessSample`, at tick count `tick`. -/
def prvProcessSample (sample : SensorSample) (tick : UInt32) : TelemetryFrame :=
  let accelMag := prvAccelMagnitude sample
  let rpm :=
    (700 + sample.temperatureCX10.toInt32.toUInt32 / 2 + accelMag.toUInt32 * 3).toUInt16
  let throttle := (120 + accelMag.toUInt32 / 2).toUInt16
  let throttle := if throttle > 1000 then 1000 else throttle
  let speed := (accelMag.toUInt32 * 2).toUInt16
  let speed := if speed > 2500 then 2500 else speed
  { sequence := sample.sequence
    temperatureCX10 := sample.temperatureCX10
    accelXX100 := sample.accelXX100
    accelYX100 := sample.accelYX100
    accelZX100 := sample.accelZX100
    rpm := rpm
    throttlePctX10 := throttle
    speedKmhX10 := speed
    valid := sample.valid
    tick := tick }

/-! ### Readings -/

/-- Temperature and acceleration of a frame. -/
def TelemetryFrame.readings (f : TelemetryFrame) : Int16 × Int16 × Int16 × Int16 :=
  (f.temperatureCX10, f.accelXX100, f.accelYX100, f.accelZX100)

/-- Temperature and acceleration of a sample. -/
def SensorSample.readings (s : SensorSample) : Int16 × Int16 × Int16 × Int16 :=
  (s.temperatureCX10, s.accelXX100, s.accelYX100, s.accelZX100)

@[simp] lemma prvProcessSample_readings (s : SensorSample) (tick : UInt32) :
    (prvProcessSample s tick).readings = s.readings := rfl

@[simp] lemma prvProcessSample_sequence (s : SensorSample) (tick : UInt32) :
    (prvProcessSample s tick).sequence = s.sequence := rfl

/-- The nominal temperature, on the thirty values it takes. -/
lemma nominal_temperature_range (seq tick : UInt32) :
    630 ≤ (nominalSample seq tick).temperatureCX10.toInt ∧
      (nominalSample seq tick).temperatureCX10.toInt ≤ 804 := by
  have hk : (seq % 30).toNat < 30 := Nat.mod_lt _ (by decide)
  have hwave : ∀ k < 30,
      630 ≤ (720 + ((UInt32.ofNat k).toInt32 - 15) * 6 : Int32).toInt16.toInt ∧
        (720 + ((UInt32.ofNat k).toInt32 - 15) * 6 : Int32).toInt16.toInt ≤ 804 := by decide
  have h := hwave _ hk
  rwa [UInt32.ofNat_toNat] at h

/-- Nominal readings are never the readings of a failed sensor. -/
lemma nominal_readings_ne_sentinel (seq tick : UInt32) (sample : SensorSample) :
    (nominalSample seq tick).readings ≠ sample.sentinel.readings := by
  intro h
  have htemp := congrArg (fun r => r.1.toInt) h
  have hrange := (nominal_temperature_range seq tick).2
  rw [show (nominalSample seq tick).temperatureCX10.toInt = 1550 from htemp] at hrange
  exact absurd hrange (by decide)

end EcuTelemetry.Firmware
