import EcuTelemetry.Lm3s.Arithmetic
import EcuTelemetry.Lm3s.Tasks

/-!
# What the samples and frames of a run are

A property that every sample has when `sensor_task` makes it is a property of every sample in the
system, queued or taken; so is, of every frame, a property that `processing_task` gives it. The
first use of this rule is that the arithmetic of `processing_task` is exact in every run.
-/

namespace EcuTelemetry.Lm3s

open EcuTelemetry.Core EcuTelemetry.Core.Checked

/-! ### Samples and frames under way -/

/-- The sample `sensor_task` is about to send has `P`. -/
def SensorPc.Carries (P : SensorData → Prop) : SensorPc → Prop
  | .send data => P data
  | _          => True

/-- The sample and the frame in the hands of `processing_task` have `P` and `Q`, and what it
computed from the sample is exact. It has not halted. -/
def ProcessingPc.Carries (P : SensorData → Prop) (Q : TelemetryData → Prop) : ProcessingPc → Prop
  | .compute sensor => P sensor
  | .judge sensor c => P sensor ∧ c.Exact sensor
  | .setFault telem => Q telem
  | .send telem     => Q telem
  | .halted         => False
  | _               => True

/-- The frame `telemetry_task` is about to print has `Q`. -/
def TelemetryPc.Carries (Q : TelemetryData → Prop) : TelemetryPc → Prop
  | .print telem => Q telem
  | _            => True

/-- The samples and frames an event shows have `P` and `Q`. -/
def Event.Carries (P : SensorData → Prop) (Q : TelemetryData → Prop) : Event → Prop
  | .sampled data _     => P data
  | .taken sensor       => P sensor
  | .processed sensor c => P sensor ∧ c.Exact sensor
  | .framed telem _     => Q telem
  | .printed telem      => Q telem
  | .dog _              => True

/-- All samples have `P` and all frames `Q`, in the system and in what it has shown, and the speed
is in its range. -/
structure Carries (P : SensorData → Prop) (Q : TelemetryData → Prop) (w : World)
    (log : List Event) : Prop where
  speed : 0 ≤ w.speedKmhX10 ∧ w.speedKmhX10 ≤ 2000
  sensor : w.sensor.Carries P
  sensorQueue : ∀ data ∈ w.sensorQueue, P data
  processing : w.processing.Carries P Q
  telemetryQueue : ∀ telem ∈ w.telemetryQueue, Q telem
  telemetry : w.telemetry.Carries Q
  log : ∀ e ∈ log, e.Carries P Q

variable {P : SensorData → Prop} {Q : TelemetryData → Prop} {w : World} {log : List Event}

lemma carries_start (rng : UInt32) : Carries P Q (.start rng) [] :=
  ⟨⟨le_rfl, Int.natCast_nonneg 2000⟩, trivial, List.forall_mem_nil _, trivial,
    List.forall_mem_nil _, trivial, List.forall_mem_nil _⟩

/-- Showing heartbeats and reports changes nothing. -/
lemma Carries.dog (h : Carries P Q w log) (reports : List (Watchdog.Report Beat)) :
    Carries P Q w (log ++ reports.map .dog) := by
  refine ⟨h.speed, h.sensor, h.sensorQueue, h.processing, h.telemetryQueue, h.telemetry, ?_⟩
  intro e he
  rcases List.mem_append.mp he with he | he
  · exact h.log e he
  · obtain ⟨r, -, rfl⟩ := List.mem_map.mp he
    trivial

/-- One more event. -/
lemma Carries.concat (h : Carries P Q w log) {e : Event} (he : e.Carries P Q) :
    ∀ e' ∈ log ++ [e], e'.Carries P Q := by
  intro e' he'
  rcases List.mem_append.mp he' with he' | he'
  · exact h.log e' he'
  · rw [List.mem_singleton.mp he']
    exact he

/-! ### Steps -/

/-- A step of `sensor_task`, when the sample it would make has `P`. -/
lemma Carries.sensorStep (h : Carries P Q w log)
    (hfill : ∀ nowMs, P (fillSample w.activeFault nowMs w.rng).1) (tick : UInt32) :
    Carries P Q (w.sensorStep tick).1 (log ++ (w.sensorStep tick).2) := by
  have hsensor := h.sensor
  cases hs : w.sensor with
  | take =>
    simp only [World.sensorStep, hs]
    split_ifs
    · simpa using { h with sensor := trivial }
    · simpa using h
  | test =>
    simp only [World.sensorStep, hs, List.append_nil]
    refine { h with sensor := ?_ }
    split_ifs <;> trivial
  | fill nowMs =>
    simp only [World.sensorStep, hs, List.append_nil]
    exact { h with sensor := hfill nowMs }
  | send data =>
    rw [hs] at hsensor
    simp only [World.sensorStep, hs]
    exact { h with
      sensor := trivial
      sensorQueue := BoundedFifo.forall_mem_push h.sensorQueue hsensor queueLen
      log := h.concat hsensor }
  | delay | tick | setReady | give =>
    simp only [World.sensorStep, hs, List.append_nil]
    exact { h with sensor := trivial }
  | beat =>
    simp only [World.sensorStep, hs, World.setBeat]
    refine Carries.dog ?_ _
    exact { h with sensor := trivial }

/-- A step of `processing_task`, when samples with `P` are samples of `sensor_task` and the frame it
would make has `Q`. -/
lemma Carries.processingStep (h : Carries P Q w log) (hmade : ∀ s, P s → s.Made)
    (hframe : ∀ s c, P s → c.Exact s → Q (frame s c (faulty s w.activeFault))) :
    Carries P Q w.processingStep.1 (log ++ w.processingStep.2) := by
  have hprocessing := h.processing
  cases hp : w.processing with
  | take =>
    simp only [World.processingStep, hp]
    split_ifs
    · simpa using { h with processing := trivial }
    · simpa using h
  | receive =>
    cases hq : w.sensorQueue with
    | nil =>
      simp only [World.processingStep, hp, hq, List.append_nil]
      exact { h with sensorQueue := List.forall_mem_nil _, processing := trivial }
    | cons data queue =>
      have hqueue := List.forall_mem_cons.mp (hq ▸ h.sensorQueue)
      simp only [World.processingStep, hp, hq]
      exact { h with
        sensorQueue := hqueue.2
        processing := hqueue.1
        log := h.concat hqueue.1 }
  | compute sensor =>
    rw [hp] at hprocessing
    obtain ⟨c, hc, hexact⟩ := calculate_made h.speed (hmade sensor hprocessing)
    simp only [World.processingStep, hp, hc]
    exact { h with
      speed := hexact.speed
      processing := ⟨hprocessing, hexact⟩
      log := h.concat ⟨hprocessing, hexact⟩ }
  | judge sensor c =>
    rw [hp] at hprocessing
    have hQ := hframe sensor c hprocessing.1 hprocessing.2
    simp only [World.processingStep, hp]
    cases hf : faulty sensor w.activeFault with
    | true =>
      rw [hf] at hQ
      simpa using { h with processing := hQ }
    | false =>
      rw [hf] at hQ
      simpa using { h with processing := hQ }
  | setFault telem =>
    rw [hp] at hprocessing
    simp only [World.processingStep, hp, List.append_nil]
    exact { h with processing := hprocessing }
  | send telem =>
    rw [hp] at hprocessing
    simp only [World.processingStep, hp]
    exact { h with
      processing := trivial
      telemetryQueue := BoundedFifo.forall_mem_push h.telemetryQueue hprocessing queueLen
      log := h.concat hprocessing }
  | idleBeat | beat =>
    simp only [World.processingStep, hp, World.setBeat]
    refine Carries.dog ?_ _
    exact { h with processing := trivial }
  | halted =>
    rw [hp] at hprocessing
    exact hprocessing.elim

/-- A step of `telemetry_task`. -/
lemma Carries.telemetryStep (h : Carries P Q w log) :
    Carries P Q w.telemetryStep.1 (log ++ w.telemetryStep.2) := by
  have htelemetry := h.telemetry
  cases ht : w.telemetry with
  | receive =>
    cases hq : w.telemetryQueue with
    | nil => simpa [World.telemetryStep, ht, hq] using h
    | cons telem queue =>
      have hqueue := List.forall_mem_cons.mp (hq ▸ h.telemetryQueue)
      simp only [World.telemetryStep, ht, hq, List.append_nil]
      exact { h with telemetryQueue := hqueue.2, telemetry := hqueue.1 }
  | print telem =>
    rw [ht] at htelemetry
    simp only [World.telemetryStep, ht]
    exact { h with telemetry := trivial, log := h.concat htelemetry }
  | beat =>
    simp only [World.telemetryStep, ht, World.setBeat]
    refine Carries.dog ?_ _
    exact { h with telemetry := trivial }

/-- Every step, under the same conditions. -/
theorem Carries.next (h : Carries P Q w log) (hmade : ∀ s, P s → s.Made)
    (hfill : ∀ nowMs, P (fillSample w.activeFault nowMs w.rng).1)
    (hframe : ∀ s c, P s → c.Exact s → Q (frame s c (faulty s w.activeFault))) (a : Action) :
    Carries P Q (lm3s.next w a) (log ++ lm3s.emit w a) := by
  cases a with
  | sensor tick => exact h.sensorStep hfill tick
  | processing => exact h.processingStep hmade hframe
  | telemetry => exact h.telemetryStep
  | health =>
    simp only [lm3s, Machine.next, Machine.emit, World.step, World.healthStep]
    cases w.health with
    | loop =>
      refine Carries.dog ?_ _
      exact { h with }
    | setReset => simpa using { h with }
  | timeout =>
    simp only [lm3s, Machine.next, Machine.emit, World.step]
    refine Carries.dog ?_ _
    exact { h with }
  | timer | faultInject fault | faultClear =>
    simp only [lm3s, Machine.next, Machine.emit, World.step, List.append_nil]
    exact { h with }

/-! ### The arithmetic of a run -/

/-- Every sample of a run is a sample as `sensor_task` makes it. -/
lemma made_run (rng : UInt32) (as : List Action) :
    Carries SensorData.Made (fun _ => True) (lm3s.run (.start rng) as)
      (lm3s.trace (.start rng) as) :=
  lm3s.invariant_always
    (fun w _ a h => h.next (fun _ hs => hs) (fun nowMs => fillSample_made _ nowMs w.rng)
      (fun _ _ _ _ => trivial) a)
    (carries_start rng) as

/-- In every run, whatever the ticks, the state of the generator and the faults injected: samples
are in their ranges or the sentinel, the arithmetic of `processing_task` never overflows and never
divides by zero, its square root is exact, the speed and the throttle stay in their ranges, and the
casts to `uint16_t` change nothing. -/
theorem arithmetic_exact (rng : UInt32) (as : List Action) :
    (∀ data sent, .sampled data sent ∈ lm3s.trace (.start rng) as → data.Made) ∧
      (∀ data ∈ (lm3s.run (.start rng) as).sensorQueue, data.Made) ∧
      (lm3s.run (.start rng) as).processing ≠ .halted ∧
      (∀ sensor, (lm3s.run (.start rng) as).processing = .compute sensor →
        ∃ c, calculate (lm3s.run (.start rng) as).speedKmhX10 sensor = .ok c) ∧
      (0 ≤ (lm3s.run (.start rng) as).speedKmhX10 ∧
        (lm3s.run (.start rng) as).speedKmhX10 ≤ 2000) ∧
      ∀ sensor c, .processed sensor c ∈ lm3s.trace (.start rng) as →
        c.magX100 =
          (sensor.accelXX100.toInt ^ 2 + sensor.accelYX100.toInt ^ 2 +
            sensor.accelZX100.toInt ^ 2).toNat.sqrt ∧
        (0 ≤ c.speedKmhX10 ∧ c.speedKmhX10 ≤ 2000) ∧
        (0 ≤ c.throttleX10 ∧ c.throttleX10 ≤ 1000) ∧
        ∀ bad, ((frame sensor c bad).speedKmhX10.toNat : ℤ) = c.speedKmhX10 ∧
          (frame sensor c bad).rpm.toNat = c.rpm ∧
          ((frame sensor c bad).throttlePctX10.toNat : ℤ) = c.throttleX10 := by
  have h := made_run rng as
  have hprocessing := h.processing
  refine ⟨fun data sent hd => h.log _ hd, h.sensorQueue, ?_, ?_, h.speed, ?_⟩
  · intro hhalted
    rw [hhalted] at hprocessing
    exact hprocessing
  · intro sensor hcompute
    rw [hcompute] at hprocessing
    obtain ⟨c, hc, -⟩ := calculate_made h.speed hprocessing
    exact ⟨c, hc⟩
  · intro sensor c hmem
    obtain ⟨-, hc⟩ : Event.Carries SensorData.Made (fun _ => True) (.processed sensor c) :=
      h.log _ hmem
    exact ⟨hc.magX100, hc.speed, hc.throttle, hc.frame⟩

end EcuTelemetry.Lm3s
