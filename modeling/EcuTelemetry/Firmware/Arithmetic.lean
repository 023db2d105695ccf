import EcuTelemetry.Core.Checked
import EcuTelemetry.Firmware.Basic

/-!
# The arithmetic of `prvProcessSample`

`prvProcessSample` in the integers, with a trap where a cast loses something or an unsigned
operation wraps, next to its results in the machine for any sample. On the samples `prvMakeSample`
can make there is no trap and no limit is reached. On any sample the limits are sound, up to the one
corner where the doubled magnitude leaves 16 bits.
-/

namespace EcuTelemetry.Firmware

open EcuTelemetry.Core.Checked

/-! ### Samples -/

/-- The readings of a working sensor. -/
structure SensorSample.Nominal (s : SensorSample) : Prop where
  temperature : 630 ≤ s.temperatureCX10.toInt ∧ s.temperatureCX10.toInt ≤ 804
  accelX : -128 ≤ s.accelXX100.toInt ∧ s.accelXX100.toInt ≤ 127
  accelY : -128 ≤ s.accelYX100.toInt ∧ s.accelYX100.toInt ≤ 127
  accelZ : 100 ≤ s.accelZX100.toInt ∧ s.accelZX100.toInt ≤ 163

/-- The readings that stand for a failed sensor. -/
def SensorSample.Failed (s : SensorSample) : Prop := s.readings = (1550, 420, 420, 420)

/-- A byte as a signed reading around zero. -/
lemma byte_reading (x : UInt32) :
    -128 ≤ ((x &&& 0xFF).toInt32 - 128).toInt16.toInt ∧
      ((x &&& 0xFF).toInt32 - 128).toInt16.toInt ≤ 127 := by
  obtain ⟨hlo, hhi⟩ := @toInt_lowBits x 0xFF 8 (by decide) (by decide)
  have hsub : ((x &&& 0xFF).toInt32 - 128).toInt = (x &&& 0xFF).toInt32.toInt - 128 := by
    rw [Int32.toInt_sub, show (128 : Int32).toInt = 128 from rfl]
    exact Int.bmod_eq_of_le (by omega) (by omega)
  rw [Int32.toInt_toInt16, hsub, Int.bmod_eq_of_le (by omega) (by omega)]
  omega

/-- Six bits on top of 100. -/
lemma gravity_reading (x : UInt32) :
    100 ≤ (100 + (x &&& 0x3F).toInt32).toInt16.toInt ∧
      (100 + (x &&& 0x3F).toInt32).toInt16.toInt ≤ 163 := by
  obtain ⟨hlo, hhi⟩ := @toInt_lowBits x 0x3F 6 (by decide) (by decide)
  have hadd : (100 + (x &&& 0x3F).toInt32).toInt = 100 + (x &&& 0x3F).toInt32.toInt := by
    rw [Int32.toInt_add, show (100 : Int32).toInt = 100 from rfl]
    exact Int.bmod_eq_of_le (by omega) (by omega)
  rw [Int32.toInt_toInt16, hadd, Int.bmod_eq_of_le (by omega) (by omega)]
  omega

lemma nominalSample_nominal (seq tick : UInt32) : (nominalSample seq tick).Nominal where
  temperature := nominal_temperature_range seq tick
  accelX := byte_reading _
  accelY := byte_reading _
  accelZ := gravity_reading _

lemma prvMakeSample_made (seq : UInt32) (mode : FaultMode) (tick : UInt32) :
    (prvMakeSample seq mode tick).Nominal ∨ (prvMakeSample seq mode tick).Failed := by
  rw [prvMakeSample]
  split_ifs
  · exact .inr rfl
  · exact .inl (nominalSample_nominal seq tick)

/-! ### Checked processing -/

/-- The mean of the absolute accelerations, rounded down. -/
def SensorSample.meanAbs (s : SensorSample) : ℕ :=
  (s.accelXX100.toInt.natAbs + s.accelYX100.toInt.natAbs + s.accelZX100.toInt.natAbs) / 3

/-- The absolute value of a reading, checked. -/
def checkedAbs (x : ℤ) : Except Trap ℤ := if x < 0 then signed 32 (-x) else .ok x

/-- `prvAccelMagnitude`, checked. -/
def checkedMagnitude (s : SensorSample) : Except Trap ℕ := do
  let ax ← checkedAbs s.accelXX100.toInt
  let ay ← checkedAbs s.accelYX100.toInt
  let az ← checkedAbs s.accelZX100.toInt
  let axy ← signed 32 (ax + ay)
  let sum ← signed 32 (axy + az)
  let mag := sum.tdiv 3
  let mag := if mag < 0 then 0 else mag
  unsigned 16 mag

/-- What `prvProcessSample` computes from a sample before it looks at the limits. -/
structure Derived where
  accelMag : ℕ
  rpm : ℕ
  throttlePctX10 : ℕ
  speedKmhX10 : ℕ
  deriving DecidableEq, Repr

/-- The casts and operations of `prvProcessSample`, checked. -/
def checkedProcess (s : SensorSample) : Except Trap Derived := do
  let accelMag ← checkedMagnitude s
  let temp ← unsigned 32 s.temperatureCX10.toInt
  let rpmTemp ← unsigned 32 (700 + temp / 2)
  let mag3 ← unsigned 32 (accelMag * 3)
  let rpm ← unsigned 32 (rpmTemp + mag3)
  let rpm ← unsigned 16 rpm
  let throttle ← unsigned 32 (120 + accelMag / 2)
  let throttle ← unsigned 16 throttle
  let mag2 ← unsigned 32 (accelMag * 2)
  let speed ← unsigned 16 mag2
  return ⟨accelMag, rpm, throttle, speed⟩

/-- The derived quantities in unbounded arithmetic, below their limits. -/
structure Derived.Exact (d : Derived) (s : SensorSample) : Prop where
  accelMag : d.accelMag = s.meanAbs
  rpm : (d.rpm : ℤ) = 700 + s.temperatureCX10.toInt / 2 + 3 * d.accelMag
  throttle : d.throttlePctX10 = 120 + d.accelMag / 2 ∧ d.throttlePctX10 ≤ 1000
  speed : d.speedKmhX10 = 2 * d.accelMag ∧ d.speedKmhX10 ≤ 2500

/-- The derived quantities as they stand in a frame. -/
structure Derived.In (d : Derived) (f : TelemetryFrame) : Prop where
  rpm : f.rpm.toNat = d.rpm
  throttle : f.throttlePctX10.toNat = d.throttlePctX10
  speed : f.speedKmhX10.toNat = d.speedKmhX10

/-! ### The machine -/

lemma toInt_absReading (x : Int16) : (absReading x).toInt = x.toInt.natAbs := by
  have hlo := x.le_toInt
  have hhi := x.toInt_lt
  rw [absReading]
  by_cases h : x < 0
  · have h0 := (int16_lt_zero_iff x).mp h
    rw [if_pos h, Int32.toInt_neg, Int16.toInt_toInt32, Int.bmod_eq_of_le (by omega) (by omega)]
    omega
  · have h0 := mt (int16_lt_zero_iff x).mpr h
    rw [if_neg h, Int16.toInt_toInt32]
    omega

lemma natAbs_le (x : Int16) : x.toInt.natAbs ≤ 32768 := by
  have hlo := x.le_toInt
  have hhi := x.toInt_lt
  omega

lemma meanAbs_le (s : SensorSample) : s.meanAbs ≤ 32768 := by
  have hx := natAbs_le s.accelXX100
  have hy := natAbs_le s.accelYX100
  have hz := natAbs_le s.accelZX100
  rw [SensorSample.meanAbs]
  omega

/-- `prvAccelMagnitude` is the mean, for every sample. -/
lemma toNat_prvAccelMagnitude (s : SensorSample) : (prvAccelMagnitude s).toNat = s.meanAbs := by
  have hx := natAbs_le s.accelXX100
  have hy := natAbs_le s.accelYX100
  have hz := natAbs_le s.accelZX100
  have hle := meanAbs_le s
  have hxy : (absReading s.accelXX100 + absReading s.accelYX100).toInt =
      (s.accelXX100.toInt.natAbs + s.accelYX100.toInt.natAbs : ℕ) := by
    rw [Int32.toInt_add, toInt_absReading, toInt_absReading]
    exact Int.bmod_eq_of_le (by omega) (by omega)
  have hsum : (absReading s.accelXX100 + absReading s.accelYX100 +
      absReading s.accelZX100).toInt =
        (s.accelXX100.toInt.natAbs + s.accelYX100.toInt.natAbs +
          s.accelZX100.toInt.natAbs : ℕ) := by
    rw [Int32.toInt_add, hxy, toInt_absReading]
    exact Int.bmod_eq_of_le (by omega) (by omega)
  have hmag : ((absReading s.accelXX100 + absReading s.accelYX100 +
      absReading s.accelZX100) / 3).toInt = s.meanAbs := by
    rw [Int32.toInt_div, hsum, show (3 : Int32).toInt = 3 from rfl,
      Int.tdiv_eq_ediv_of_nonneg (Int.natCast_nonneg _)]
    exact Int.bmod_eq_of_le (by omega) (by omega)
  have hnonneg : 0 ≤ (absReading s.accelXX100 + absReading s.accelYX100 +
      absReading s.accelZX100) / 3 := by
    rw [Int32.le_iff_toInt_le, hmag]
    exact Int.natCast_nonneg _
  rw [prvAccelMagnitude]
  simp only [if_neg (Int32.not_lt.mpr hnonneg)]
  rw [UInt32.toNat_toUInt16, Int32.toNat_toUInt32_of_le hnonneg, ← Int32.toNat_toInt, hmag,
    Int.toNat_natCast]
  exact Nat.mod_eq_of_lt (by omega)

/-- A small word cut down to 16 bits and limited. -/
lemma toNat_limited {x : UInt32} (h : x.toNat < 2 ^ 16) (limit : UInt16) :
    (if x.toUInt16 > limit then limit else x.toUInt16).toNat = min limit.toNat x.toNat := by
  have hx : x.toUInt16.toNat = x.toNat := by
    rw [UInt32.toNat_toUInt16]
    exact Nat.mod_eq_of_lt h
  by_cases hgt : x.toUInt16 > limit
  · have hlt := UInt16.lt_iff_toNat_lt.mp hgt
    rw [if_pos hgt]
    omega
  · have hle := UInt16.le_iff_toNat_le.mp (UInt16.not_lt.mp hgt)
    rw [if_neg hgt, hx]
    omega

/-- A magnitude as a 32-bit word. -/
lemma toNat_magnitudeWord (s : SensorSample) :
    (prvAccelMagnitude s).toUInt32.toNat = s.meanAbs := by
  rw [UInt16.toNat_toUInt32, toNat_prvAccelMagnitude]

/-- The throttle is limited, and nothing else happens to it. -/
lemma prvProcessSample_throttle (s : SensorSample) (tick : UInt32) :
    (prvProcessSample s tick).throttlePctX10.toNat = min 1000 (120 + s.meanAbs / 2) := by
  have hle := meanAbs_le s
  have hword : (120 + (prvAccelMagnitude s).toUInt32 / 2).toNat = 120 + s.meanAbs / 2 := by
    rw [UInt32.toNat_add, UInt32.toNat_div, toNat_magnitudeWord]
    exact Nat.mod_eq_of_lt (by simp; omega)
  have hlimited := @toNat_limited (120 + (prvAccelMagnitude s).toUInt32 / 2) (by omega) 1000
  rw [hword] at hlimited
  exact hlimited

/-- The doubled magnitude. -/
lemma toNat_doubled (s : SensorSample) :
    ((prvAccelMagnitude s).toUInt32 * 2).toNat = 2 * s.meanAbs := by
  have hle := meanAbs_le s
  rw [UInt32.toNat_mul, toNat_magnitudeWord, Nat.mul_comm]
  exact Nat.mod_eq_of_lt (by simp; omega)

/-- The speed is limited, when the doubled magnitude fits 16 bits. -/
lemma prvProcessSample_speed {s : SensorSample} (h : s.meanAbs < 32768) (tick : UInt32) :
    (prvProcessSample s tick).speedKmhX10.toNat = min 2500 (2 * s.meanAbs) := by
  have hlimited := @toNat_limited ((prvAccelMagnitude s).toUInt32 * 2)
    (by rw [toNat_doubled]; omega) 2500
  rw [toNat_doubled] at hlimited
  exact hlimited

/-- The greatest magnitude has speed zero. -/
lemma prvProcessSample_speed_corner {s : SensorSample} (h : s.meanAbs = 32768) (tick : UInt32) :
    (prvProcessSample s tick).speedKmhX10 = 0 := by
  have hmag : prvAccelMagnitude s = 32768 := by
    rw [← UInt16.toNat_inj, toNat_prvAccelMagnitude, h]
    rfl
  simp only [prvProcessSample, hmag]
  decide

lemma prvProcessSample_rpm {s : SensorSample} (ht : 0 ≤ s.temperatureCX10.toInt)
    (h : 700 + s.temperatureCX10.toInt.toNat / 2 + 3 * s.meanAbs < 2 ^ 16) (tick : UInt32) :
    (prvProcessSample s tick).rpm.toNat =
      700 + s.temperatureCX10.toInt.toNat / 2 + 3 * s.meanAbs := by
  have htemp : s.temperatureCX10.toInt32.toUInt32.toNat = s.temperatureCX10.toInt.toNat := by
    have hnonneg : 0 ≤ s.temperatureCX10.toInt32 := by
      rw [Int32.le_iff_toInt_le, Int16.toInt_toInt32]
      exact ht
    rw [Int32.toNat_toUInt32_of_le hnonneg, ← Int32.toNat_toInt, Int16.toInt_toInt32]
  have hword : (700 + s.temperatureCX10.toInt32.toUInt32 / 2 +
      (prvAccelMagnitude s).toUInt32 * 3).toNat =
        700 + s.temperatureCX10.toInt.toNat / 2 + 3 * s.meanAbs := by
    rw [UInt32.toNat_add, UInt32.toNat_add, UInt32.toNat_div, UInt32.toNat_mul, htemp,
      toNat_magnitudeWord, show (700 : UInt32).toNat = 700 from rfl,
      show (2 : UInt32).toNat = 2 from rfl, show (3 : UInt32).toNat = 3 from rfl]
    omega
  show (700 + s.temperatureCX10.toInt32.toUInt32 / 2 +
      (prvAccelMagnitude s).toUInt32 * 3).toUInt16.toNat = _
  rw [UInt32.toNat_toUInt16, hword]
  exact Nat.mod_eq_of_lt h

/-! ### Made samples -/

lemma checkedAbs_eq (x : Int16) : checkedAbs x.toInt = .ok (x.toInt.natAbs : ℤ) := by
  have hlo := x.le_toInt
  have hhi := x.toInt_lt
  rw [checkedAbs]
  split_ifs with hneg
  · rw [signed_ok (by omega), Int.ofNat_natAbs_of_nonpos (Int.le_of_lt hneg)]
  · rw [Int.natAbs_of_nonneg (Int.not_lt.mp hneg)]

/-- The magnitude of a sample never traps. -/
lemma checkedMagnitude_eq (s : SensorSample) : checkedMagnitude s = .ok s.meanAbs := by
  have hx := natAbs_le s.accelXX100
  have hy := natAbs_le s.accelYX100
  have hz := natAbs_le s.accelZX100
  have hle := meanAbs_le s
  have hmag : ((s.accelXX100.toInt.natAbs + s.accelYX100.toInt.natAbs : ℤ) +
      s.accelZX100.toInt.natAbs).tdiv 3 = s.meanAbs := by
    rw [Int.tdiv_eq_ediv_of_nonneg (by omega), SensorSample.meanAbs]
    omega
  rw [checkedMagnitude, checkedAbs_eq, checkedAbs_eq, checkedAbs_eq]
  simp only [ok_bind]
  rw [signed_ok (by omega), ok_bind, signed_ok (by omega), ok_bind]
  simp only [hmag]
  rw [if_neg (by omega), unsigned_ok (by omega)]

/-- Where everything fits, the checked computation ends. -/
lemma checkedProcess_eq {s : SensorSample} (ht : 0 ≤ s.temperatureCX10.toInt)
    (h : 700 + s.temperatureCX10.toInt.toNat / 2 + 3 * s.meanAbs < 2 ^ 16) :
    checkedProcess s = .ok ⟨s.meanAbs, 700 + s.temperatureCX10.toInt.toNat / 2 + 3 * s.meanAbs,
      120 + s.meanAbs / 2, 2 * s.meanAbs⟩ := by
  have hhi := s.temperatureCX10.toInt_lt
  generalize htemp : s.temperatureCX10.toInt = temp at ht h hhi
  have hle := meanAbs_le s
  rw [checkedProcess, checkedMagnitude_eq, ok_bind, htemp]
  simp (disch := omega) only [unsigned_ok_of_nonneg, ok_bind]
  refine congrArg Except.ok ?_
  rw [Derived.mk.injEq]
  omega

/-- Bounds that both tables of readings meet. -/
lemma made_bounds {s : SensorSample} (h : s.Nominal ∨ s.Failed) :
    0 ≤ s.temperatureCX10.toInt ∧ s.temperatureCX10.toInt ≤ 1550 ∧ s.meanAbs ≤ 420 := by
  rw [SensorSample.meanAbs]
  rcases h with hnominal | hfailed
  · have ht := hnominal.temperature
    have hx := hnominal.accelX
    have hy := hnominal.accelY
    have hz := hnominal.accelZ
    omega
  · obtain ⟨ht, hx, hy, hz⟩ : s.temperatureCX10 = 1550 ∧ s.accelXX100 = 420 ∧
        s.accelYX100 = 420 ∧ s.accelZX100 = 420 := by
      simpa [SensorSample.Failed, SensorSample.readings] using hfailed
    rw [ht, hx, hy, hz]
    decide

/-- For every sequence number and fault mode the sample is in the ranges of a working sensor or is
the sentinel, and `prvProcessSample` computes on it as in unbounded arithmetic: no cast loses
anything, no operation wraps, no limit is reached. -/
theorem process_made_exact (seq : UInt32) (mode : FaultMode) (tick tick' : UInt32) :
    ((prvMakeSample seq mode tick).Nominal ∨ (prvMakeSample seq mode tick).Failed) ∧
      ∃ d, checkedProcess (prvMakeSample seq mode tick) = .ok d ∧
        d.Exact (prvMakeSample seq mode tick) ∧
        (prvAccelMagnitude (prvMakeSample seq mode tick)).toNat = d.accelMag ∧
        d.In (prvProcessSample (prvMakeSample seq mode tick) tick') := by
  have hmade := prvMakeSample_made seq mode tick
  generalize prvMakeSample seq mode tick = s at hmade
  obtain ⟨ht, ht', hmag⟩ := made_bounds hmade
  have hfits : 700 + s.temperatureCX10.toInt.toNat / 2 + 3 * s.meanAbs < 2 ^ 16 := by omega
  refine ⟨hmade, _, checkedProcess_eq ht hfits, ?_, toNat_prvAccelMagnitude s, ?_⟩
  · constructor
    case accelMag => rfl
    all_goals
      dsimp only
      omega
  · constructor
    case rpm => exact prvProcessSample_rpm ht hfits tick'
    case throttle =>
      rw [prvProcessSample_throttle]
      exact Nat.min_eq_right (by omega)
    case speed =>
      rw [prvProcessSample_speed (by omega)]
      exact Nat.min_eq_right (by omega)

/-! ### Any sample -/

/-- Throttle and speed are limited without loss, and neither is smaller for a greater magnitude. -/
structure Saturates (s : SensorSample) : Prop where
  throttle : ∀ tick, (prvProcessSample s tick).throttlePctX10.toNat =
    min 1000 (120 + (prvAccelMagnitude s).toNat / 2)
  speed : ∀ tick, (prvProcessSample s tick).speedKmhX10.toNat =
    min 2500 (2 * (prvAccelMagnitude s).toNat)
  monotone : ∀ s' tick tick', prvAccelMagnitude s' ≤ prvAccelMagnitude s →
    (prvProcessSample s' tick').throttlePctX10 ≤ (prvProcessSample s tick).throttlePctX10 ∧
      (prvProcessSample s' tick').speedKmhX10 ≤ (prvProcessSample s tick).speedKmhX10

/-- The greatest magnitude belongs to one reading of the axes. -/
lemma meanAbs_eq_iff (s : SensorSample) :
    s.meanAbs = 32768 ↔
      s.accelXX100 = -32768 ∧ s.accelYX100 = -32768 ∧ s.accelZX100 = -32768 := by
  have hx := natAbs_le s.accelXX100
  have hy := natAbs_le s.accelYX100
  have hz := natAbs_le s.accelZX100
  have hleast (x : Int16) : x = -32768 ↔ x.toInt.natAbs = 32768 := by
    have hhi := x.toInt_lt
    rw [← Int16.toInt_inj, show (-32768 : Int16).toInt = -32768 from rfl]
    omega
  rw [hleast, hleast, hleast, SensorSample.meanAbs]
  omega

lemma not_saturates_corner {s : SensorSample} (h : s.meanAbs = 32768) : ¬ Saturates s := by
  intro hs
  have hspeed := hs.speed 0
  rw [prvProcessSample_speed_corner h, toNat_prvAccelMagnitude, h] at hspeed
  exact absurd hspeed (by decide)

/-- Throttle and speed saturate soundly exactly if not all three axes read the least value. -/
theorem saturates_iff (s : SensorSample) :
    Saturates s ↔
      ¬ (s.accelXX100 = -32768 ∧ s.accelYX100 = -32768 ∧ s.accelZX100 = -32768) := by
  rw [← meanAbs_eq_iff]
  constructor
  · exact fun hs hcorner => not_saturates_corner hcorner hs
  · intro hcorner
    have hlt : s.meanAbs < 32768 := Nat.lt_of_le_of_ne (meanAbs_le s) hcorner
    constructor
    · intro tick
      rw [prvProcessSample_throttle, toNat_prvAccelMagnitude]
    · intro tick
      rw [prvProcessSample_speed hlt, toNat_prvAccelMagnitude]
    · intro s' tick tick' hle
      rw [UInt16.le_iff_toNat_le, toNat_prvAccelMagnitude, toNat_prvAccelMagnitude] at hle
      rw [UInt16.le_iff_toNat_le, UInt16.le_iff_toNat_le, prvProcessSample_throttle,
        prvProcessSample_throttle, prvProcessSample_speed hlt,
        prvProcessSample_speed (Nat.lt_of_le_of_lt hle hlt)]
      omega

/-- The least value on all three axes. -/
theorem least_readings_speed_zero : ¬ Saturates ⟨0, 0, -32768, -32768, -32768, true, 0⟩ :=
  not_saturates_corner (by decide)

/-! ### The documented magnitude -/

/-- The largest absolute acceleration. -/
def SensorSample.largestAbs (s : SensorSample) : ℕ :=
  max s.accelXX100.toInt.natAbs (max s.accelYX100.toInt.natAbs s.accelZX100.toInt.natAbs)

/-- The sum of the other two absolute accelerations. -/
def SensorSample.othersAbs (s : SensorSample) : ℕ :=
  s.accelXX100.toInt.natAbs + s.accelYX100.toInt.natAbs + s.accelZX100.toInt.natAbs -
    s.largestAbs

/-- The approximation in the comment of `prvAccelMagnitude`: the integer part of the largest
absolute acceleration and 3/8 of the other two. -/
def SensorSample.documentedMagnitude (s : SensorSample) : ℕ :=
  (8 * s.largestAbs + 3 * s.othersAbs) / 8

/-- What follows if `prvAccelMagnitude` computes the approximation of its comment. -/
structure DocumentedMagnitude (s : SensorSample) : Prop where
  formula : (prvAccelMagnitude s).toNat = s.documentedMagnitude
  largest_le : s.largestAbs ≤ (prvAccelMagnitude s).toNat
  fits : s.documentedMagnitude < 2 ^ 16

/-- The mean is the documented approximation only when all three axes read zero, or all read one in
absolute value. -/
theorem documentedMagnitude_iff (s : SensorSample) :
    DocumentedMagnitude s ↔
      s.accelXX100.toInt.natAbs = s.accelYX100.toInt.natAbs ∧
        s.accelYX100.toInt.natAbs = s.accelZX100.toInt.natAbs ∧
        s.accelZX100.toInt.natAbs ≤ 1 := by
  have hmean := toNat_prvAccelMagnitude s
  rw [SensorSample.meanAbs] at hmean
  have hdocumented : s.documentedMagnitude = (8 * s.largestAbs + 3 * s.othersAbs) / 8 := rfl
  have hothers : s.othersAbs = s.accelXX100.toInt.natAbs + s.accelYX100.toInt.natAbs +
    s.accelZX100.toInt.natAbs - s.largestAbs := rfl
  have hlargest : s.largestAbs = max s.accelXX100.toInt.natAbs
    (max s.accelYX100.toInt.natAbs s.accelZX100.toInt.natAbs) := rfl
  constructor
  · rintro ⟨hformula, -, -⟩
    -- the mean is at most the largest, so nothing is left for the other two
    omega
  · rintro ⟨hxy, hyz, hz⟩
    exact ⟨by omega, by omega, by omega⟩

/-- One axis alone: the mean is a third of it. -/
theorem one_axis_not_documented : ¬ DocumentedMagnitude ⟨0, 0, 100, 0, 0, true, 0⟩ := by
  intro h
  exact absurd h.largest_le (by decide)

end EcuTelemetry.Firmware
