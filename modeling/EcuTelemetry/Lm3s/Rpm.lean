import EcuTelemetry.Lm3s.Verdict
import Mathlib.Algebra.Order.Field.Rat
import Mathlib.Tactic.NormNum

/-!
# The rpm of `processing_task`

The comment in `processing_task` and the host's `prvProcessSample` state one formula for the rpm.
The code divides by 1000 and by 10000 where the comment derives a division by 100, so that the rpm
of every frame falls far behind the formula.
-/

namespace EcuTelemetry.Lm3s

open EcuTelemetry.Core EcuTelemetry.Core.Checked

/-- The rpm of the host's `prvProcessSample`, and of the comment in `processing_task`, in exact
arithmetic. -/
def rpmFormula (temperatureC accelMag : ℚ) : ℚ := 700 + temperatureC * 17.5 + accelMag * 125

/-- The rpm of a frame differs by at most 2 from the formula, for a magnitude of `magX100`
hundredths. -/
def RpmAgrees (telem : TelemetryData) (magX100 : ℕ) : Prop :=
  |(telem.rpm.toNat : ℚ) - rpmFormula (telem.sensor.temperatureCX10.toInt / 10) (magX100 / 100)| ≤ 2

/-! ### One sample -/

/-- Gravity is in every sample of a working sensor. -/
lemma SensorData.Nominal.le_sqrt {s : SensorData} (h : s.Nominal) : 960 ≤ s.magSq.toNat.sqrt := by
  have hz := h.accelZ
  have hx : 0 ≤ s.accelXX100.toInt ^ 2 := sq_nonneg _
  have hy : 0 ≤ s.accelYX100.toInt ^ 2 := sq_nonneg _
  have hsum : 960 * 960 ≤ s.magSq := by
    rw [SensorData.magSq]
    nlinarith
  rw [Nat.le_sqrt]
  omega

/-- The formula is far up for every sample. -/
lemma SensorData.Made.le_rpmFormula {s : SensorData} (h : s.Made) :
    2250 ≤ rpmFormula (s.temperatureCX10.toInt / 10) (s.magSq.toNat.sqrt / 100) := by
  have hmag : (0 : ℚ) ≤ s.magSq.toNat.sqrt := Nat.cast_nonneg _
  rw [rpmFormula]
  rcases h with hnominal | ⟨ht, -⟩
  · have ht : (200 : ℚ) ≤ s.temperatureCX10.toInt := by exact_mod_cast hnominal.temperature.1
    have hmag : (960 : ℚ) ≤ s.magSq.toNat.sqrt := by exact_mod_cast hnominal.le_sqrt
    linarith
  · have ht : (s.temperatureCX10.toInt : ℚ) = 1550 := by rw [ht]; rfl
    rw [ht]
    linarith

/-- The rpm of `processing_task` is far down. -/
lemma rpm_low {speed : ℤ} (hspeed : 0 ≤ speed ∧ speed ≤ 2000) {s : SensorData} (h : s.Made)
    {c : Calculated} (hc : calculate speed s = .ok c) :
    c.magX100 = s.magSq.toNat.sqrt ∧ ∀ bad, (frame s c bad).rpm.toNat ≤ 1000 := by
  obtain ⟨c', hc', hexact, hrpm⟩ := calculate_rpm hspeed h
  obtain rfl := Except.ok.inj (hc.symm.trans hc')
  have ht := h.bounds.1
  have hmag := h.sqrt_le
  rw [← hexact.magX100] at hmag
  refine ⟨hexact.magX100, fun bad => ?_⟩
  rw [(hexact.frame bad).2.1]
  omega

/-- No frame made of a sample of `sensor_task` agrees with the formula. -/
lemma not_rpmAgrees {speed : ℤ} (hspeed : 0 ≤ speed ∧ speed ≤ 2000) {s : SensorData} (h : s.Made)
    {c : Calculated} (hc : calculate speed s = .ok c) (bad : Bool) :
    ¬ RpmAgrees (frame s c bad) s.magSq.toNat.sqrt := by
  intro hagrees
  have hlow : ((frame s c bad).rpm.toNat : ℚ) ≤ 1000 := by
    exact_mod_cast (rpm_low hspeed h hc).2 bad
  have hhigh := h.le_rpmFormula
  have hle := (abs_le.mp hagrees).1
  have hsensor : (frame s c bad).sensor = s := rfl
  rw [hsensor] at hle
  linarith

/-! ### All frames of a run -/

/-- No frame on its way through `processing_task` agrees with the formula, and none that has left
it. -/
structure OffFormula (w : World) (log : List Event) : Prop where
  made : Carries SensorData.Made (fun telem => telem.sensor.Made) w log
  judged : ∀ s c, w.processing = .judge s c →
    ∀ bad, ¬ RpmAgrees (frame s c bad) s.magSq.toNat.sqrt
  held : ∀ telem, w.processing = .setFault telem ∨ w.processing = .send telem →
    ¬ RpmAgrees telem telem.sensor.magSq.toNat.sqrt
  framed : ∀ telem sent, .framed telem sent ∈ log →
    ¬ RpmAgrees telem telem.sensor.magSq.toNat.sqrt

lemma framed_notMem_dog (reports : List (Watchdog.Report Beat)) (telem : TelemetryData)
    (sent : Bool) : Event.framed telem sent ∉ reports.map Event.dog := by
  intro h
  obtain ⟨r, -, hr⟩ := List.mem_map.mp h
  cases hr

/-- Only `processing_task` moves itself, and only it hands on frames. -/
lemma next_other (w : World) {a : Action} (ha : a ≠ .processing) :
    (lm3s.next w a).processing = w.processing ∧
      ∀ telem sent, .framed telem sent ∉ lm3s.emit w a := by
  have hnone : ∀ telem sent, Event.framed telem sent ∉ ([] : List Event) :=
    fun _ _ => List.not_mem_nil
  cases a with
  | processing => exact absurd rfl ha
  | sensor tick =>
    simp only [lm3s, Machine.next, Machine.emit, World.step, World.sensorStep, World.setBeat]
    split
    · split <;> exact ⟨rfl, hnone⟩
    case h_6 => exact ⟨rfl, fun telem sent => by simp⟩
    case h_9 => exact ⟨rfl, framed_notMem_dog _⟩
    all_goals exact ⟨rfl, hnone⟩
  | telemetry =>
    simp only [lm3s, Machine.next, Machine.emit, World.step, World.telemetryStep, World.setBeat]
    split
    · split <;> exact ⟨rfl, hnone⟩
    · exact ⟨rfl, fun telem sent => by simp⟩
    · exact ⟨rfl, framed_notMem_dog _⟩
  | health =>
    simp only [lm3s, Machine.next, Machine.emit, World.step, World.healthStep]
    split
    · exact ⟨rfl, framed_notMem_dog _⟩
    · exact ⟨rfl, hnone⟩
  | timeout => exact ⟨rfl, framed_notMem_dog _⟩
  | timer | faultInject fault | faultClear => exact ⟨rfl, hnone⟩

variable {w : World} {log : List Event}

/-- No frame is in the hands of `processing_task`, and none was handed on. -/
lemma OffFormula.of_idle {w' : World} {es : List Event} (h : OffFormula w log)
    (hmade : Carries SensorData.Made (fun telem => telem.sensor.Made) w' (log ++ es))
    (hjudged : ∀ s c, w'.processing ≠ .judge s c) (hset : ∀ telem, w'.processing ≠ .setFault telem)
    (hsend : ∀ telem, w'.processing ≠ .send telem)
    (hes : ∀ telem sent, .framed telem sent ∈ es →
      ¬ RpmAgrees telem telem.sensor.magSq.toNat.sqrt) :
    OffFormula w' (log ++ es) where
  made := hmade
  judged s c hj := absurd hj (hjudged s c)
  held telem ht := (ht.elim (hset telem) (hsend telem)).elim
  framed telem sent hmem := (List.mem_append.mp hmem).elim (h.framed telem sent) (hes telem sent)

/-- A step of `processing_task`. -/
lemma OffFormula.processing (h : OffFormula w log) :
    OffFormula (lm3s.next w .processing) (log ++ lm3s.emit w .processing) := by
  have hmade := h.made.next (fun _ hs => hs) (fun nowMs => fillSample_made _ nowMs w.rng)
    (fun _ _ hs _ => hs) .processing
  have hnone : ∀ telem sent, Event.framed telem sent ∈ ([] : List Event) →
      ¬ RpmAgrees telem telem.sensor.magSq.toNat.sqrt :=
    fun telem sent hmem => absurd hmem List.not_mem_nil
  have hdog : ∀ reports telem sent, Event.framed telem sent ∈ List.map Event.dog reports →
      ¬ RpmAgrees telem telem.sensor.magSq.toNat.sqrt :=
    fun reports telem sent hmem => absurd hmem (framed_notMem_dog reports telem sent)
  simp only [lm3s, Machine.next, Machine.emit, World.step] at hmade ⊢
  cases hp : w.processing with
  | take =>
    simp only [World.processingStep, hp] at hmade ⊢
    split_ifs at hmade ⊢
    · exact h.of_idle hmade (by simp) (by simp) (by simp) hnone
    · simpa using h
  | receive =>
    cases hq : w.sensorQueue with
    | nil =>
      simp only [World.processingStep, hp, hq] at hmade ⊢
      exact h.of_idle hmade (by simp) (by simp) (by simp) hnone
    | cons data queue =>
      simp only [World.processingStep, hp, hq] at hmade ⊢
      exact h.of_idle hmade (by simp) (by simp) (by simp) (by simp)
  | compute sensor =>
    have hsensor : sensor.Made := by
      have hcarries := h.made.processing
      rw [hp] at hcarries
      exact hcarries
    obtain ⟨c, hc, -⟩ := calculate_made h.made.speed hsensor
    simp only [World.processingStep, hp, hc] at hmade ⊢
    refine ⟨hmade, ?_, by simp, ?_⟩
    · intro s c' hj bad
      obtain ⟨rfl, rfl⟩ := ProcessingPc.judge.inj hj
      exact not_rpmAgrees h.made.speed hsensor hc bad
    · intro telem sent hmem
      exact h.framed telem sent (by simpa using hmem)
  | judge sensor c =>
    have hoff := h.judged sensor c hp
    simp only [World.processingStep, hp] at hmade ⊢
    split_ifs at hmade ⊢
    · refine ⟨hmade, by simp, ?_, by simpa using h.framed⟩
      rintro telem (ht | ht)
      · obtain rfl := ProcessingPc.setFault.inj ht
        exact hoff true
      · cases ht
    · refine ⟨hmade, by simp, ?_, by simpa using h.framed⟩
      rintro telem (ht | ht)
      · cases ht
      · obtain rfl := ProcessingPc.send.inj ht
        exact hoff false
  | setFault telem =>
    have hoff := h.held telem (.inl hp)
    simp only [World.processingStep, hp] at hmade ⊢
    refine ⟨hmade, by simp, ?_, by simpa using h.framed⟩
    rintro telem' (ht | ht)
    · cases ht
    · obtain rfl := ProcessingPc.send.inj ht
      exact hoff
  | send telem =>
    have hoff := h.held telem (.inr hp)
    simp only [World.processingStep, hp] at hmade ⊢
    refine h.of_idle hmade (by simp) (by simp) (by simp) ?_
    intro telem' sent hmem
    obtain ⟨rfl, -⟩ := Event.framed.inj (List.mem_singleton.mp hmem)
    exact hoff
  | idleBeat | beat =>
    simp only [World.processingStep, hp, World.setBeat] at hmade ⊢
    exact h.of_idle hmade (by simp) (by simp) (by simp) (hdog _)
  | halted =>
    simp only [World.processingStep, hp] at hmade ⊢
    exact h.of_idle hmade (by simp [hp]) (by simp [hp]) (by simp [hp]) hnone

lemma OffFormula.next (h : OffFormula w log) (a : Action) :
    OffFormula (lm3s.next w a) (log ++ lm3s.emit w a) := by
  by_cases ha : a = .processing
  · subst ha
    exact h.processing
  · obtain ⟨hprocessing, hemit⟩ := next_other w ha
    constructor
    · exact h.made.next (fun _ hs => hs) (fun nowMs => fillSample_made _ nowMs w.rng)
        (fun _ _ hs _ => hs) a
    · rw [hprocessing]
      exact h.judged
    · rw [hprocessing]
      exact h.held
    · intro telem sent hmem
      exact h.framed telem sent ((List.mem_append.mp hmem).resolve_right (hemit telem sent))

lemma offFormula_run (rng : UInt32) (as : List Action) :
    OffFormula (lm3s.run (.start rng) as) (lm3s.trace (.start rng) as) := by
  apply lm3s.invariant_always (fun w log a h => h.next a)
  refine ⟨carries_start rng, ?_, ?_, ?_⟩
  · exact fun s c h => nomatch h
  · exact fun telem h => h.elim (fun h => nomatch h) fun h => nomatch h
  · exact fun telem sent h => absurd h List.not_mem_nil

/-- In every run, from every sample that `sensor_task` queues, at whatever speed, `processing_task`
computes an rpm that is off the formula by more than 2, and so is the rpm of every frame it emits,
with the magnitude of its own square root. -/
theorem rpm_never_agrees (rng : UInt32) (as : List Action) :
    (∀ data sent, .sampled data sent ∈ lm3s.trace (.start rng) as →
      ∀ speed, 0 ≤ speed ∧ speed ≤ 2000 →
        ∃ c, calculate speed data = .ok c ∧ ∀ bad, ¬ RpmAgrees (frame data c bad) c.magX100) ∧
    ∀ telem sent, .framed telem sent ∈ lm3s.trace (.start rng) as →
      ∃ magX100, isqrt32 telem.sensor.magSq.toNat = .ok magX100 ∧ ¬ RpmAgrees telem magX100 := by
  have h := offFormula_run rng as
  constructor
  · intro data sent hmem speed hspeed
    have hdata : data.Made := h.made.log _ hmem
    obtain ⟨c, hc, hexact⟩ := calculate_made hspeed hdata
    refine ⟨c, hc, fun bad => ?_⟩
    rw [hexact.magX100]
    exact not_rpmAgrees hspeed hdata hc bad
  · intro telem sent hmem
    have hmade : telem.sensor.Made := h.made.log _ hmem
    have hbounds := hmade.magSq_bounds
    exact ⟨_, isqrt32_eq (by omega), h.framed telem sent hmem⟩

/-- The frame at 2.9 seconds. -/
theorem hotFrame_off_formula :
    .framed hotFrame true ∈ lm3s.trace (.start rngStart) (onePass 2900) ∧
      isqrt32 hotFrame.sensor.magSq.toNat = .ok 983 ∧ ¬ RpmAgrees hotFrame 983 := by
  refine ⟨by decide +kernel, by decide +kernel, ?_⟩
  have hrpm : hotFrame.rpm.toNat = 843 := rfl
  have htemp : hotFrame.sensor.temperatureCX10.toInt = 751 := rfl
  rw [RpmAgrees, hrpm, htemp, rpmFormula]
  norm_num [abs_le]

end EcuTelemetry.Lm3s
