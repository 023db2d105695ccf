import EcuTelemetry.Core.Checked

/-!
# Samples and frames of the LM3S build

The data of `ipc.h` and the arithmetic of `sensor_task.c` and `processing_task.c` on it. Readings
keep the widths of the source. `processing_task` computes in 32 bits, signed and unsigned; here it
computes in the integers and traps where an operation leaves its type, so that a result is also the
machine's. The casts to `uint16_t` at its end truncate.
-/

namespace EcuTelemetry.Lm3s

open EcuTelemetry.Core.Checked

/-- `FaultType_t`. -/
inductive FaultType where
  | none
  | taskDelay
  | queueOverflow
  | sensorFailure
  deriving DecidableEq, Repr

/-- `SensorData_t`. -/
structure SensorData where
  temperatureCX10 : Int16
  accelXX100 : Int16
  accelYX100 : Int16
  accelZX100 : Int16
  timestampMs : UInt32
  deriving DecidableEq, Repr

/-- `TelemetryData_t`. -/
structure TelemetryData where
  sensor : SensorData
  speedKmhX10 : UInt16
  rpm : UInt16
  throttlePctX10 : UInt16
  faultCode : UInt8
  valid : Bool
  timestampMs : UInt32
  deriving DecidableEq, Repr

/-! ### Sample generation -/

/-- `lcg_rand`: the new state, which is also the number drawn. -/
def lcgRand (state : UInt32) : UInt32 := state * 1664525 + 1013904223

/-- The phase of the temperature wave. -/
def phase (nowMs : UInt32) : UInt32 := nowMs / 100 % 63

/-- The temperature wave of `sensor_task`, at a phase. -/
def tempX10 (phase : UInt32) : Int32 :=
  if phase < 32 then 200 + phase.toInt32 * (600 / 31)
  else 800 - (phase - 32).toInt32 * (600 / 31)

/-- A reading of `span` values from the low half of a random number, the first of them `low`. -/
def noise (rng : UInt32) (span : Int32) : Int32 := (rng &&& 0xFFFF).toInt32 * span / 65535

/-- The readings `sensor_task` fills in while no sensor failure is injected, and the state of the
generator after them. -/
def nominalSample (nowMs rng : UInt32) : SensorData × UInt32 :=
  let rng₁ := lcgRand rng
  let ax := (noise rng₁ 200 - 100).toInt16
  let rng₂ := lcgRand rng₁
  let ay := (noise rng₂ 200 - 100).toInt16
  let rng₃ := lcgRand rng₂
  let az := (980 + noise rng₃ 40 - 20).toInt16
  (⟨(tempX10 (phase nowMs)).toInt16, ax, ay, az, nowMs⟩, rng₃)

/-- The sentinel of a failed sensor. -/
def sentinelSample (nowMs : UInt32) : SensorData := ⟨1550, 420, 420, 420, nowMs⟩

/-- The body of `sensor_task` between its two readings of shared data, under fault `fault`. -/
def fillSample (fault : FaultType) (nowMs rng : UInt32) : SensorData × UInt32 :=
  if fault = .sensorFailure then (sentinelSample nowMs, rng) else nominalSample nowMs rng

/-! ### Processing -/

/-- The loop of `isqrt32`. -/
def isqrtLoop (n x y : ℕ) : Except Trap ℕ :=
  if y < x then do
    let q ← quotient n y
    let s ← unsigned 32 (y + q)
    isqrtLoop n y (s / 2)
  else .ok x
termination_by x

/-- `isqrt32`. -/
def isqrt32 (n : ℕ) : Except Trap ℕ :=
  if n = 0 then .ok 0
  else do
    let s ← unsigned 32 (n + 1)
    isqrtLoop n n (s / 2)

/-- What `processing_task` computes from a sample, before the casts to `uint16_t`. -/
structure Calculated where
  magX100 : ℕ
  speedKmhX10 : ℤ
  rpm : ℕ
  throttleX10 : ℤ
  deriving DecidableEq, Repr

/-- The body of `processing_task` from a sample and the accumulated speed up to the casts. -/
def calculate (speedKmhX10 : ℤ) (sensor : SensorData) : Except Trap Calculated := do
  let ax := sensor.accelXX100.toInt
  let ay := sensor.accelYX100.toInt
  let az := sensor.accelZX100.toInt
  let axx ← signed 32 (ax * ax)
  let ayy ← signed 32 (ay * ay)
  let axy ← signed 32 (axx + ayy)
  let azz ← signed 32 (az * az)
  let sum ← signed 32 (axy + azz)
  let magSq ← unsigned 32 sum
  let magX100 ← isqrt32 magSq
  let mag ← signed 32 magX100
  let offset ← signed 32 (mag - 980)
  let delta := offset.tdiv 10
  let speed ← signed 32 (speedKmhX10 + delta)
  let speed := if speed < 0 then 0 else speed
  let speed := if speed > 2000 then 2000 else speed
  let temp := sensor.temperatureCX10.toInt
  let temp175 ← signed 32 (temp * 175)
  let rpmTemp ← unsigned 32 (temp175.tdiv 1000)
  let rpm ← unsigned 32 (700 + rpmTemp)
  let mag125 ← unsigned 32 (magX100 * 125)
  let rpm ← unsigned 32 (rpm + mag125 / 10000)
  let mag140 ← unsigned 32 (magX100 * 140)
  let throttleMag ← signed 32 (mag140 / 10000)
  let throttle ← signed 32 (120 + throttleMag)
  let temp10 ← signed 32 (temp * 10)
  let throttle ← signed 32 (throttle + temp10.tdiv 60)
  let throttle := if throttle < 0 then 0 else throttle
  let throttle := if throttle > 1000 then 1000 else throttle
  return ⟨magX100, speed, rpm, throttle⟩

/-- The frame `processing_task` fills in, with the casts to `uint16_t`; its last two fields say
whether there is a fault. -/
def frame (sensor : SensorData) (c : Calculated) (faulty : Bool) : TelemetryData :=
  { sensor := sensor
    speedKmhX10 := UInt16.ofInt c.speedKmhX10
    rpm := UInt16.ofNat c.rpm
    throttlePctX10 := UInt16.ofInt c.throttleX10
    faultCode := if faulty then 1 else 0
    valid := !faulty
    timestampMs := sensor.timestampMs }

/-- The test of `processing_task` for a fault, under fault `fault`. -/
def faulty (sensor : SensorData) (fault : FaultType) : Bool :=
  sensor.temperatureCX10 > 750 ∨ fault = .sensorFailure

end EcuTelemetry.Lm3s
