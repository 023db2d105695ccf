import EcuTelemetry.Lm3s.Ranges

/-!
# Verdicts on frames

A frame is faulty when its temperature exceeds 75 degrees or a sensor failure is injected at the
time it is processed. The sentinel of a failed sensor is hotter than that. So is the nominal wave,
which goes up to 80 degrees: `verdicts` says in which six of its 63 phases.
-/

namespace EcuTelemetry.Lm3s

open EcuTelemetry.Core EcuTelemetry.Core.Checked

/-! ### Frames of the sentinel -/

/-- A frame of the sentinel is marked as faulty. -/
def TelemetryData.SentinelFaulty (telem : TelemetryData) : Prop :=
  telem.sensor.Sentinel → telem.valid = false ∧ telem.faultCode = 1

/-- Whatever fault is injected by then, the sentinel is too hot. -/
lemma sentinelFaulty_frame (sensor : SensorData) (c : Calculated) (fault : FaultType) :
    (frame sensor c (faulty sensor fault)).SentinelFaulty := by
  rintro ⟨htemp, -⟩
  have hhot : faulty sensor fault = true := by
    have htemp' : sensor.temperatureCX10 = 1550 := htemp
    rw [faulty, htemp']
    simp
  rw [hhot]
  exact ⟨rfl, rfl⟩

/-- All frames of the sentinel, in any run, are marked as faulty. -/
lemma sentinelFaulty_run (rng : UInt32) (as : List Action) :
    Carries SensorData.Made TelemetryData.SentinelFaulty (lm3s.run (.start rng) as)
      (lm3s.trace (.start rng) as) :=
  lm3s.invariant_always
    (fun w _ a h => h.next (fun _ hs => hs) (fun nowMs => fillSample_made _ nowMs w.rng)
      (fun s c _ _ => sentinelFaulty_frame s c w.activeFault) a)
    (carries_start rng) as

/-! ### Frames of a working sensor -/

/-- The phases in which the nominal wave exceeds 75 degrees. -/
def Hot (timestampMs : UInt32) : Prop := 29 ≤ phase timestampMs ∧ phase timestampMs ≤ 34

instance (timestampMs : UInt32) : Decidable (Hot timestampMs) :=
  inferInstanceAs (Decidable (_ ∧ _))

/-- A sample of a working sensor, with the temperature of the wave at its time. -/
structure SensorData.OnWave (s : SensorData) : Prop where
  nominal : s.Nominal
  temperature : s.temperatureCX10 = (tempX10 (phase s.timestampMs)).toInt16

/-- A frame is marked as faulty exactly in the hot phases of its sample. -/
structure TelemetryData.FaultyIfHot (telem : TelemetryData) : Prop where
  valid : telem.valid = !decide (Hot telem.sensor.timestampMs)
  faultCode : telem.faultCode = if Hot telem.sensor.timestampMs then 1 else 0

lemma fillSample_onWave (nowMs rng : UInt32) : (fillSample .none nowMs rng).1.OnWave :=
  ⟨nominalSample_nominal nowMs rng, rfl⟩

lemma SensorData.OnWave.faulty_iff {s : SensorData} (h : s.OnWave) :
    faulty s .none = true ↔ Hot s.timestampMs := by
  obtain ⟨-, -, hhot⟩ := tempX10_cases (phase_lt s.timestampMs)
  rw [Hot, ← hhot, ← h.temperature, faulty]
  simp

lemma faultyIfHot_frame {s : SensorData} (h : s.OnWave) (c : Calculated) :
    (frame s c (faulty s .none)).FaultyIfHot := by
  by_cases hhot : Hot s.timestampMs
  · rw [h.faulty_iff.mpr hhot]
    exact ⟨by simp [frame, hhot], by simp [frame, hhot]⟩
  · rw [Bool.eq_false_iff.mpr fun hf => hhot (h.faulty_iff.mp hf)]
    exact ⟨by simp [frame, hhot], by simp [frame, hhot]⟩

/-! ### The fault bit -/

/-- A sample of a hot phase has been processed. -/
def HotProcessed (log : List Event) : Prop :=
  ∃ s c, .processed s c ∈ log ∧ Hot s.timestampMs

/-- `EVT_FAULT_DETECTED` is set, or about to be, only after a sample of a hot phase. -/
structure Detected (w : World) (log : List Event) : Prop where
  judge : ∀ s c, w.processing = .judge s c → .processed s c ∈ log
  setFault : ∀ telem, w.processing = .setFault telem → HotProcessed log
  detected : .faultDetected ∈ w.systemEvents → HotProcessed log

lemma HotProcessed.append {log : List Event} (h : HotProcessed log) (log' : List Event) :
    HotProcessed (log ++ log') := by
  obtain ⟨s, c, hmem, hhot⟩ := h
  exact ⟨s, c, List.mem_append_left _ hmem, hhot⟩

/-- Showing more, and steps that leave `processing_task` and the fault bit alone, change nothing. -/
lemma Detected.of_same {w w' : World} {log : List Event} (h : Detected w log)
    (hp : w'.processing = w.processing)
    (he : .faultDetected ∈ w'.systemEvents → .faultDetected ∈ w.systemEvents) (log' : List Event) :
    Detected w' (log ++ log') :=
  ⟨fun s c hj => List.mem_append_left _ (h.judge s c (hp ▸ hj)),
    fun telem hf => (h.setFault telem (hp ▸ hf)).append _, fun hd => (h.detected (he hd)).append _⟩

/-- `processing_task` goes on to a point that neither judges nor sets the fault bit. -/
lemma Detected.of_plain {w w' : World} {log : List Event} (h : Detected w log)
    (hj : ∀ s c, w'.processing ≠ .judge s c) (hf : ∀ telem, w'.processing ≠ .setFault telem)
    (he : w'.systemEvents = w.systemEvents) (log' : List Event) : Detected w' (log ++ log') :=
  ⟨fun s c hp => absurd hp (hj s c), fun telem hp => absurd hp (hf telem),
    fun hd => (h.detected (he ▸ hd)).append _⟩

/-- A step of `processing_task` while no fault is injected. -/
lemma Detected.processingStep {w : World} {log : List Event} (h : Detected w log)
    (hfault : w.activeFault = .none) (honwave : w.processing.Carries SensorData.OnWave
      TelemetryData.FaultyIfHot) :
    Detected w.processingStep.1 (log ++ w.processingStep.2) := by
  cases hp : w.processing with
  | take =>
    simp only [World.processingStep, hp]
    split_ifs
    · exact h.of_plain (by simp) (by simp) (by rfl) _
    · exact h.of_same rfl id _
  | receive =>
    simp only [World.processingStep, hp]
    cases w.sensorQueue with
    | nil => exact h.of_plain (by simp) (by simp) (by rfl) _
    | cons data queue => exact h.of_plain (by simp) (by simp) (by rfl) _
  | compute sensor =>
    simp only [World.processingStep, hp]
    cases calculate w.speedKmhX10 sensor with
    | error _ => exact h.of_plain (by simp) (by simp) (by rfl) _
    | ok c =>
      refine ⟨?_, by simp, fun hd => (h.detected hd).append _⟩
      intro s c' hj
      obtain ⟨rfl, rfl⟩ : sensor = s ∧ c = c' := by simpa using hj
      simp
  | judge sensor c =>
    rw [hp] at honwave
    simp only [World.processingStep, hp, hfault]
    cases hf : faulty sensor .none with
    | true =>
      have hhot : HotProcessed log :=
        ⟨sensor, c, h.judge sensor c hp, honwave.1.faulty_iff.mp hf⟩
      exact ⟨by simp, fun _ _ => hhot.append _, fun hd => (h.detected hd).append _⟩
    | false => exact h.of_plain (by simp) (by simp) (by rfl) _
  | setFault telem =>
    simp only [World.processingStep, hp]
    exact ⟨by simp, by simp, fun _ => (h.setFault telem hp).append _⟩
  | send telem =>
    simp only [World.processingStep, hp]
    exact h.of_plain (by simp) (by simp) (by rfl) _
  | idleBeat | beat =>
    simp only [World.processingStep, hp, World.setBeat]
    exact h.of_plain (by simp) (by simp) (by rfl) _
  | halted =>
    simp only [World.processingStep, hp]
    exact h.of_same rfl id _

/-- The other steps leave `processing_task` and the fault bit alone. -/
lemma next_detected (w : World) {a : Action} (ha : a ≠ .processing) :
    (lm3s.next w a).processing = w.processing ∧
      (.faultDetected ∈ (lm3s.next w a).systemEvents → .faultDetected ∈ w.systemEvents) := by
  cases a with
  | processing => exact absurd rfl ha
  | sensor tick =>
    simp only [lm3s, Machine.next, World.step, World.sensorStep, World.setBeat]
    split
    · split <;> exact ⟨rfl, id⟩
    all_goals simp
  | telemetry =>
    simp only [lm3s, Machine.next, World.step, World.telemetryStep, World.setBeat]
    split
    · split <;> exact ⟨rfl, id⟩
    all_goals exact ⟨rfl, id⟩
  | health =>
    simp only [lm3s, Machine.next, World.step, World.healthStep]
    split <;> simp
  | timer | timeout | faultInject fault | faultClear => exact ⟨rfl, id⟩

lemma Detected.next {w : World} {log : List Event} (h : Detected w log)
    (hfault : w.activeFault = .none)
    (honwave : w.processing.Carries SensorData.OnWave TelemetryData.FaultyIfHot) (a : Action) :
    Detected (lm3s.next w a) (log ++ lm3s.emit w a) := by
  by_cases ha : a = .processing
  · rw [ha]
    exact h.processingStep hfault honwave
  · obtain ⟨hp, he⟩ := next_detected w ha
    exact h.of_same hp he _

/-! ### Runs without a fault -/

/-- The action injects no fault. -/
def Quiet (a : Action) : Prop := ∀ fault, a ≠ .faultInject fault

/-- The state and the log of a run in which no fault is injected. -/
structure Working (w : World) (log : List Event) : Prop where
  activeFault : w.activeFault = .none
  carries : Carries SensorData.OnWave TelemetryData.FaultyIfHot w log
  detected : Detected w log

lemma working_start (rng : UInt32) : Working (.start rng) [] :=
  ⟨rfl, carries_start rng, by simp [World.start], by simp [World.start], by simp [World.start]⟩

/-- Only `fault_inject` and `fault_clear` write the fault. -/
lemma next_activeFault (w : World) {a : Action} (ha : Quiet a) (h : w.activeFault = .none) :
    (lm3s.next w a).activeFault = .none := by
  cases a with
  | sensor tick =>
    simp only [lm3s, Machine.next, World.step, World.sensorStep, World.setBeat]
    split
    · split <;> exact h
    all_goals exact h
  | processing =>
    simp only [lm3s, Machine.next, World.step, World.processingStep, World.setBeat]
    split
    any_goals exact h
    all_goals split <;> exact h
  | telemetry =>
    simp only [lm3s, Machine.next, World.step, World.telemetryStep, World.setBeat]
    split
    · split <;> exact h
    all_goals exact h
  | health =>
    simp only [lm3s, Machine.next, World.step, World.healthStep]
    split <;> exact h
  | faultInject fault => exact absurd rfl (ha fault)
  | faultClear => rfl
  | timer | timeout => exact h

lemma Working.next {w : World} {log : List Event} {a : Action} (ha : Quiet a)
    (h : Working w log) : Working (lm3s.next w a) (log ++ lm3s.emit w a) where
  activeFault := next_activeFault w ha h.activeFault
  carries := by
    refine h.carries.next (fun s hs => .inl hs.nominal) (fun nowMs => ?_) (fun s c hs _ => ?_) a
    · rw [h.activeFault]
      exact fillSample_onWave nowMs w.rng
    · rw [h.activeFault]
      exact faultyIfHot_frame hs c
  detected := h.detected.next h.activeFault h.carries.processing a

/-- The event shows the frame as it leaves `processing_task` or is printed. -/
def Event.Emits (e : Event) (telem : TelemetryData) : Prop :=
  (∃ sent, e = .framed telem sent) ∨ e = .printed telem

lemma Event.Carries.emits {P : SensorData → Prop} {Q : TelemetryData → Prop} {e : Event}
    (h : e.Carries P Q) {telem : TelemetryData} (he : e.Emits telem) : Q telem := by
  obtain ⟨sent, rfl⟩ | rfl := he
  · exact h
  · exact h

/-- However faults are injected and cleared, a frame of the sentinel is marked as faulty. In a run
without injected faults a frame is marked as faulty in the hot phases of the temperature wave and in
no others, and `EVT_FAULT_DETECTED` is set only after a sample of a hot phase is processed. -/
theorem verdicts (rng : UInt32) (as : List Action) :
    (∀ e ∈ lm3s.trace (.start rng) as, ∀ telem, e.Emits telem → telem.sensor.Sentinel →
      telem.valid = false ∧ telem.faultCode = 1) ∧
    ((∀ a ∈ as, Quiet a) →
      (∀ e ∈ lm3s.trace (.start rng) as, ∀ telem, e.Emits telem →
        (Hot telem.sensor.timestampMs → telem.valid = false ∧ telem.faultCode = 1) ∧
        (¬ Hot telem.sensor.timestampMs → telem.valid = true ∧ telem.faultCode = 0)) ∧
      (.faultDetected ∈ (lm3s.run (.start rng) as).systemEvents →
        ∃ sensor c, .processed sensor c ∈ lm3s.trace (.start rng) as ∧
          Hot sensor.timestampMs)) := by
  refine ⟨fun e he telem hemits => ((sentinelFaulty_run rng as).log e he).emits hemits, ?_⟩
  intro hquiet
  have h : Working (lm3s.run (.start rng) as) (lm3s.trace (.start rng) as) :=
    lm3s.invariant (fun w log a ha h => h.next ha) (working_start rng)
      (lm3s.meets_of_forall _ hquiet)
  refine ⟨fun e he telem hemits => ?_, h.detected.detected⟩
  obtain ⟨hvalid, hcode⟩ := (h.carries.log e he).emits hemits
  constructor
  · intro hhot
    exact ⟨by simpa [hhot] using hvalid, by simpa [hhot] using hcode⟩
  · intro hcold
    exact ⟨by simpa [hcold] using hvalid, by simpa [hcold] using hcode⟩

/-- One sample, made at the tick count `tick`, through to the printed frame. -/
def onePass (tick : UInt32) : List Action :=
  .timer :: List.replicate 7 (.sensor tick) ++ List.replicate 6 .processing ++
    List.replicate 2 .telemetry

lemma quiet_onePass (tick : UInt32) : ∀ a ∈ onePass tick, Quiet a := by simp [onePass, Quiet]

/-- The frame of the nominal sample at 2.9 seconds. -/
def hotFrame : TelemetryData :=
  { sensor := ⟨751, 74, -81, 977, 2900⟩
    speedKmhX10 := 0
    rpm := 843
    throttlePctX10 := 258
    faultCode := 1
    valid := false
    timestampMs := 2900 }

lemma hotFrame_printed : .printed hotFrame ∈ lm3s.trace (.start rngStart) (onePass 2900) := by
  decide +kernel

/-- The frame at 2.9 seconds is of a hot phase. -/
theorem verdicts_hotFrame : hotFrame.valid = false ∧ hotFrame.faultCode = 1 :=
  (((verdicts rngStart (onePass 2900)).2 (quiet_onePass 2900)).1 _ hotFrame_printed hotFrame
    (.inr rfl)).1 (by decide)

/-- No fault is injected, and the frame printed is marked as faulty all the same. -/
theorem nominal_frame_faulty :
    ¬ ((∀ a ∈ onePass 2900, Quiet a) →
      (∀ e ∈ lm3s.trace (.start rngStart) (onePass 2900), ∀ telem, e.Emits telem →
        telem.valid = true ∧ telem.faultCode = 0) ∧
      .faultDetected ∉ (lm3s.run (.start rngStart) (onePass 2900)).systemEvents) := by
  intro h
  have hvalid := ((h (quiet_onePass 2900)).1 _ hotFrame_printed hotFrame (.inr rfl)).1
  exact absurd hvalid (by decide)

end EcuTelemetry.Lm3s
