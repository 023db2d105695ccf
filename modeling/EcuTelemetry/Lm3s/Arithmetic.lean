import EcuTelemetry.Lm3s.Basic

/-!
# Ranges of samples and of what is computed from them

The two tables of readings `sensor_task` can fill in, and the computation of `processing_task` on
them: it never traps, its square root is exact, and its results fit the types they are stored in.
-/

namespace EcuTelemetry.Lm3s

open EcuTelemetry.Core.Checked

/-! ### Samples -/

/-- The readings of a working sensor. -/
structure SensorData.Nominal (s : SensorData) : Prop where
  temperature : 200 ≤ s.temperatureCX10.toInt ∧ s.temperatureCX10.toInt ≤ 800
  accelX : -100 ≤ s.accelXX100.toInt ∧ s.accelXX100.toInt ≤ 100
  accelY : -100 ≤ s.accelYX100.toInt ∧ s.accelYX100.toInt ≤ 100
  accelZ : 960 ≤ s.accelZX100.toInt ∧ s.accelZX100.toInt ≤ 1000

/-- The readings that stand for a failed sensor. -/
def SensorData.Sentinel (s : SensorData) : Prop :=
  s.temperatureCX10 = 1550 ∧ s.accelXX100 = 420 ∧ s.accelYX100 = 420 ∧ s.accelZX100 = 420

/-- A sample as `sensor_task` makes it. -/
def SensorData.Made (s : SensorData) : Prop := s.Nominal ∨ s.Sentinel

lemma sentinelSample_sentinel (nowMs : UInt32) : (sentinelSample nowMs).Sentinel :=
  ⟨rfl, rfl, rfl, rfl⟩

/-- The scaled random number stays in its span, and no product leaves 32 bits. -/
lemma noise_range (rng : UInt32) {span : Int32} (h : 0 ≤ span.toInt) (hs : span.toInt ≤ 1000) :
    0 ≤ (noise rng span).toInt ∧ (noise rng span).toInt ≤ span.toInt := by
  obtain ⟨hlo, hhi⟩ := @toInt_lowBits rng 0xFFFF 16 (by decide) (by decide)
  have hnn : 0 ≤ (rng &&& 0xFFFF).toInt32.toInt * span.toInt := mul_nonneg hlo h
  have hmax : (rng &&& 0xFFFF).toInt32.toInt * span.toInt ≤ 65535 * span.toInt :=
    mul_le_mul_of_nonneg_right (by omega) h
  have hmul : ((rng &&& 0xFFFF).toInt32 * span).toInt =
      (rng &&& 0xFFFF).toInt32.toInt * span.toInt := by
    rw [Int32.toInt_mul]
    exact Int.bmod_eq_of_le (by omega) (by omega)
  have hdiv : (noise rng span).toInt = (rng &&& 0xFFFF).toInt32.toInt * span.toInt / 65535 := by
    rw [noise, Int32.toInt_div, hmul, show (65535 : Int32).toInt = 65535 from rfl,
      Int.tdiv_eq_ediv_of_nonneg hnn]
    exact Int.bmod_eq_of_le (by omega) (by omega)
  rw [hdiv]
  omega

/-- A difference of small numbers survives the cast to `int16_t`. -/
lemma toInt_sub_toInt16 {x y : Int32} (hx : 0 ≤ x.toInt ∧ x.toInt ≤ 2000)
    (hy : 0 ≤ y.toInt ∧ y.toInt ≤ 2000) : (x - y).toInt16.toInt = x.toInt - y.toInt := by
  have hsub : (x - y).toInt = x.toInt - y.toInt := by
    rw [Int32.toInt_sub]
    exact Int.bmod_eq_of_le (by omega) (by omega)
  rw [Int32.toInt_toInt16, hsub]
  exact Int.bmod_eq_of_le (by omega) (by omega)

/-- The temperature wave, on its 63 phases: its range, and where it exceeds 75 degrees. -/
lemma tempX10_cases {ph : UInt32} (h : ph < 63) :
    200 ≤ (tempX10 ph).toInt16.toInt ∧ (tempX10 ph).toInt16.toInt ≤ 800 ∧
      (((tempX10 ph).toInt16 > 750) ↔ 29 ≤ ph ∧ ph ≤ 34) := by
  have hwave : (List.range 63).all (fun k =>
      200 ≤ (tempX10 (UInt32.ofNat k)).toInt16.toInt ∧
        (tempX10 (UInt32.ofNat k)).toInt16.toInt ≤ 800 ∧
        ((tempX10 (UInt32.ofNat k)).toInt16 > 750 ↔
          29 ≤ UInt32.ofNat k ∧ UInt32.ofNat k ≤ 34)) = true := by
    decide
  have h := List.all_eq_true.mp hwave ph.toNat (List.mem_range.mpr h)
  rwa [UInt32.ofNat_toNat, decide_eq_true_eq] at h

lemma phase_lt (nowMs : UInt32) : phase nowMs < 63 := Nat.mod_lt (nowMs / 100).toNat (by decide)

lemma nominalSample_nominal (nowMs rng : UInt32) : (nominalSample nowMs rng).1.Nominal := by
  obtain ⟨hlo, hhi, -⟩ := tempX10_cases (phase_lt nowMs)
  have haccel (r : UInt32) : -100 ≤ (noise r 200 - 100).toInt16.toInt ∧
      (noise r 200 - 100).toInt16.toInt ≤ 100 := by
    have hr : 0 ≤ (noise r 200).toInt ∧ (noise r 200).toInt ≤ 200 :=
      noise_range r (by decide) (by decide)
    have hsub : (noise r 200 - 100).toInt16.toInt = (noise r 200).toInt - 100 :=
      toInt_sub_toInt16 (by omega) (by decide)
    omega
  have hgravity (r : UInt32) : 960 ≤ (980 + noise r 40 - 20).toInt16.toInt ∧
      (980 + noise r 40 - 20).toInt16.toInt ≤ 1000 := by
    have hr : 0 ≤ (noise r 40).toInt ∧ (noise r 40).toInt ≤ 40 :=
      noise_range r (by decide) (by decide)
    have hadd : (980 + noise r 40).toInt = 980 + (noise r 40).toInt := by
      rw [Int32.toInt_add]
      exact Int.bmod_eq_of_le (by rw [show (980 : Int32).toInt = 980 from rfl]; omega)
        (by rw [show (980 : Int32).toInt = 980 from rfl]; omega)
    have hsub : (980 + noise r 40 - 20).toInt16.toInt = (980 + noise r 40).toInt - 20 :=
      toInt_sub_toInt16 (by omega) (by decide)
    omega
  exact ⟨⟨hlo, hhi⟩, haccel _, haccel _, hgravity _⟩

lemma fillSample_made (fault : FaultType) (nowMs rng : UInt32) :
    (fillSample fault nowMs rng).1.Made := by
  rw [fillSample]
  split_ifs with h
  · exact .inr (sentinelSample_sentinel nowMs)
  · exact .inl (nominalSample_nominal nowMs rng)

/-! ### The square root -/

/-- One iteration of the loop of `isqrt32`. -/
lemma isqrtLoop_down {n x y : ℕ} (hy : 0 < y) (hyx : y < x) (hsum : y + n / y < 2 ^ 32) :
    isqrtLoop n x y = isqrtLoop n y (newton n y) := by
  rw [isqrtLoop, if_pos hyx, quotient_ok n hy, ok_bind, ← Nat.cast_add, unsigned_ok hsum, ok_bind,
    newton]

/-- The loop of `isqrt32`, from any `x` that is not below the root. -/
lemma isqrtLoop_eq {n : ℕ} (hn : n + 1 < 2 ^ 32) {x : ℕ} (hx : 0 < x) (hxn : x ≤ n)
    (hlt : n < (x + 1) * (x + 1)) : isqrtLoop n x (newton n x) = .ok n.sqrt := by
  induction x using Nat.strong_induction_on with
  | _ x ih =>
    by_cases hdown : newton n x < x
    · have hpos := newton_pos hx hxn
      have hle : newton n x ≤ n := by omega
      rw [isqrtLoop_down hpos hdown ((newton_sum_le hpos hle).trans_lt hn)]
      exact ih _ hdown hpos hle (lt_newton_succ_sq n hx)
    · rw [isqrtLoop, if_neg hdown, sqrt_of_le_newton hx hlt (Nat.not_lt.mp hdown)]

/-- Below the largest argument, `isqrt32` never traps and is the floor of the square root. -/
lemma isqrt32_eq {n : ℕ} (hn : n + 1 < 2 ^ 32) : isqrt32 n = .ok n.sqrt := by
  rw [isqrt32]
  by_cases h0 : n = 0
  · rw [if_pos h0, h0, Nat.sqrt_zero]
  · have hpos : 0 < n := Nat.pos_of_ne_zero h0
    have hfirst : (n + 1) / 2 = newton n n := by rw [newton, Nat.div_self hpos]
    rw [if_neg h0, ← Nat.cast_add_one, unsigned_ok hn, ok_bind, hfirst]
    exact isqrtLoop_eq hn hpos le_rfl (by nlinarith)

/-- At the largest argument the first sum, `x + 1`, leaves 32 bits. -/
lemma isqrt32_top : isqrt32 (0xFFFFFFFF : UInt32).toNat = .error .overflow := by
  have hsum : unsigned 32 ((0xFFFFFFFF : UInt32).toNat + 1) = .error .overflow :=
    if_neg (by decide)
  rw [isqrt32, if_neg (by decide), hsum]
  rfl

/-- `isqrt32` is the integer square root, without a trap on its way, except at the largest
argument. -/
theorem isqrt32_floor_iff (n : UInt32) :
    (∃ r, isqrt32 n.toNat = .ok r ∧ r * r ≤ n.toNat ∧ n.toNat < (r + 1) * (r + 1)) ↔
      n ≠ 0xFFFFFFFF := by
  constructor
  · rintro ⟨r, hr, -, -⟩ rfl
    rw [isqrt32_top] at hr
    cases hr
  · intro hne
    have hlt : n.toNat + 1 < 2 ^ 32 := by
      have htop : n.toNat ≠ (0xFFFFFFFF : UInt32).toNat := mt UInt32.toNat_inj.mp hne
      rw [show (0xFFFFFFFF : UInt32).toNat = 4294967295 from rfl] at htop
      have := n.toNat_lt
      omega
    exact ⟨n.toNat.sqrt, isqrt32_eq hlt, Nat.sqrt_le _, Nat.lt_succ_sqrt _⟩

/-- The square root of the largest argument is not computed. -/
theorem isqrt32_wraps :
    ¬ ∃ r, isqrt32 (0xFFFFFFFF : UInt32).toNat = .ok r ∧
      r * r ≤ (0xFFFFFFFF : UInt32).toNat ∧ (0xFFFFFFFF : UInt32).toNat < (r + 1) * (r + 1) := by
  rintro ⟨r, hr, -, -⟩
  rw [isqrt32_top] at hr
  cases hr

/-! ### Processing -/

/-- The sum of the squares of the accelerations. -/
def SensorData.magSq (s : SensorData) : ℤ :=
  s.accelXX100.toInt ^ 2 + s.accelYX100.toInt ^ 2 + s.accelZX100.toInt ^ 2

/-- What `processing_task` is to compute from a sample: the floor of the square root, a speed and a
throttle in their ranges, and nothing that the casts to `uint16_t` would change. -/
structure Calculated.Exact (c : Calculated) (s : SensorData) : Prop where
  magX100 : c.magX100 = s.magSq.toNat.sqrt
  speed : 0 ≤ c.speedKmhX10 ∧ c.speedKmhX10 ≤ 2000
  throttle : 0 ≤ c.throttleX10 ∧ c.throttleX10 ≤ 1000
  rpm : c.rpm < 2 ^ 16

/-- Bounds that both tables of readings meet. -/
lemma SensorData.Made.bounds {s : SensorData} (h : s.Made) :
    (0 ≤ s.temperatureCX10.toInt ∧ s.temperatureCX10.toInt ≤ 1550) ∧
      (-420 ≤ s.accelXX100.toInt ∧ s.accelXX100.toInt ≤ 420) ∧
      (-420 ≤ s.accelYX100.toInt ∧ s.accelYX100.toInt ≤ 420) ∧
      (0 ≤ s.accelZX100.toInt ∧ s.accelZX100.toInt ≤ 1000) := by
  rcases h with h | ⟨ht, hx, hy, hz⟩
  · have ht := h.temperature
    have hx := h.accelX
    have hy := h.accelY
    have hz := h.accelZ
    omega
  · rw [ht, hx, hy, hz]
    decide

/-- The squares of the accelerations and their sum. -/
lemma SensorData.Made.squares {s : SensorData} (h : s.Made) :
    (0 ≤ s.accelXX100.toInt ^ 2 ∧ s.accelXX100.toInt ^ 2 ≤ 176400) ∧
      (0 ≤ s.accelYX100.toInt ^ 2 ∧ s.accelYX100.toInt ^ 2 ≤ 176400) ∧
      (0 ≤ s.accelZX100.toInt ^ 2 ∧ s.accelZX100.toInt ^ 2 ≤ 1000000) := by
  obtain ⟨-, hx, hy, hz⟩ := h.bounds
  exact ⟨⟨sq_nonneg _, by nlinarith⟩, ⟨sq_nonneg _, by nlinarith⟩, ⟨sq_nonneg _, by nlinarith⟩⟩

lemma SensorData.Made.magSq_bounds {s : SensorData} (h : s.Made) :
    0 ≤ s.magSq ∧ s.magSq ≤ 1352800 := by
  have hsquares := h.squares
  rw [SensorData.magSq]
  omega

lemma SensorData.Made.sqrt_le {s : SensorData} (h : s.Made) : s.magSq.toNat.sqrt ≤ 1163 := by
  have hle : s.magSq.toNat ≤ 1352800 := by
    have := h.magSq_bounds
    omega
  calc s.magSq.toNat.sqrt ≤ Nat.sqrt 1352800 := Nat.sqrt_le_sqrt hle
    _ = 1163 := (Nat.eq_sqrt.mpr (by decide)).symm

/-- On a sample of `sensor_task` and a speed in its range, `processing_task` never traps; this is
the rpm it computes. -/
lemma calculate_rpm {speed : ℤ} (hspeed : 0 ≤ speed ∧ speed ≤ 2000) {s : SensorData}
    (h : s.Made) : ∃ c, calculate speed s = .ok c ∧ c.Exact s ∧
      (c.rpm : ℤ) = 700 + s.temperatureCX10.toInt * 175 / 1000 + c.magX100 * 125 / 10000 := by
  obtain ⟨ht, -⟩ := h.bounds
  obtain ⟨hxx, hyy, hzz⟩ := h.squares
  have hsum := h.magSq_bounds
  have hroot : isqrt32 s.magSq.toNat = .ok s.magSq.toNat.sqrt := isqrt32_eq (by omega)
  have hmag := h.sqrt_le
  generalize htemp : s.temperatureCX10.toInt = temp at ht
  rw [calculate]
  -- up to the sum of the squares
  simp (disch := omega) only [← sq, htemp, signed_ok, ok_bind]
  rw [← SensorData.magSq, unsigned_ok_of_nonneg (by omega), ok_bind, hroot, ok_bind]
  generalize hm : s.magSq.toNat.sqrt = mag at hmag
  -- the rest is linear in the root, the temperature and the speed
  have hdelta : (((mag : ℤ) - 980).tdiv 10).natAbs ≤ ((mag : ℤ) - 980).natAbs :=
    Int.natAbs_tdiv_le_natAbs _ _
  have hrpm : (temp * 175).tdiv 1000 = temp * 175 / 1000 :=
    Int.tdiv_eq_ediv_of_nonneg (by omega)
  have hthrottle : (temp * 10).tdiv 60 = temp * 10 / 60 := Int.tdiv_eq_ediv_of_nonneg (by omega)
  simp (disch := omega) only [hrpm, hthrottle, signed_ok, unsigned_ok_of_nonneg, ok_bind]
  refine ⟨_, rfl, ?_, ?_⟩
  · constructor
    case magX100 => exact hm.symm
    case rpm =>
      dsimp only
      omega
    all_goals
      dsimp only
      split_ifs <;> omega
  · dsimp only
    omega

lemma calculate_made {speed : ℤ} (hspeed : 0 ≤ speed ∧ speed ≤ 2000) {s : SensorData}
    (h : s.Made) : ∃ c, calculate speed s = .ok c ∧ c.Exact s := by
  obtain ⟨c, hc, hexact, -⟩ := calculate_rpm hspeed h
  exact ⟨c, hc, hexact⟩

/-- The casts of `processing_task` change nothing. -/
lemma Calculated.Exact.frame {c : Calculated} {s : SensorData} (h : c.Exact s) (bad : Bool) :
    ((frame s c bad).speedKmhX10.toNat : ℤ) = c.speedKmhX10 ∧ (frame s c bad).rpm.toNat = c.rpm ∧
      ((frame s c bad).throttlePctX10.toNat : ℤ) = c.throttleX10 := by
  have hcast {x : ℤ} (h0 : 0 ≤ x) (hlt : x < 2 ^ 16) : ((UInt16.ofInt x).toNat : ℤ) = x := by
    have hnat : (x % 2 ^ 16).toNat < 2 ^ 16 := by omega
    rw [UInt16.ofInt, UInt16.toNat_ofNat_of_lt' hnat]
    omega
  obtain ⟨hs0, hs⟩ := h.speed
  obtain ⟨ht0, ht⟩ := h.throttle
  exact ⟨hcast hs0 (by omega), UInt16.toNat_ofNat_of_lt' h.rpm, hcast ht0 (by omega)⟩

end EcuTelemetry.Lm3s
