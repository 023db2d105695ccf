import EcuTelemetry.Lm3s.Delivery
import EcuTelemetry.Lm3s.Verdict
import EcuTelemetry.Watchdog.Stall

/-!
# What the health monitor tells

The tasks of the LM3S build run the supervised system of the watchdog, so that what holds of its
reports holds of the lines of `health_monitor_task`. `telemetry_task` sets its bit after a line it
prints and nowhere else: a report that all is well stands for a line printed. The bits of
`xSystemEventGroup` are never cleared, and tell what has happened since the start.
-/

namespace EcuTelemetry.Lm3s

open EcuTelemetry.Core Watchdog

/-! ### The build is a supervised system -/

/-- The heartbeats and reports among what is shown. -/
def Event.report : Event → List (Report Beat)
  | .dog r => [r]
  | _      => []

@[simp] lemma flatMap_report_dog (reports : List (Report Beat)) :
    (reports.map Event.dog).flatMap Event.report = reports := by
  induction reports with
  | nil => rfl
  | cons r reports ih => simpa [Event.report] using ih

/-- The step of the supervised system that a step is, if any. -/
def World.dogActs (w : World) : Action → List (Act Beat)
  | .sensor _ =>
    match w.sensor with
    | .beat => [.beat .sensor]
    | _     => []
  | .processing =>
    match w.processing with
    | .idleBeat | .beat => [.beat .processor]
    | _                 => []
  | .telemetry =>
    match w.telemetry with
    | .beat => [.beat .telemetry]
    | _     => []
  | .health =>
    match w.health with
    | .loop     => [.watchdog]
    | .setReset => []
  | .timeout => [.timeout]
  | .timer | .faultInject _ | .faultClear => []

/-- The supervised system as the LM3S build instantiates it. -/
abbrev lm3sWatchdog : Machine (Dog Beat) (Act Beat) (Report Beat) := watchdog healthMonitorHealthy

/-- A step with result `r` makes the supervised steps `acts`, and shows what they show. -/
structure Supervised (w : World) (r : World × List Event) (acts : List (Act Beat)) : Prop where
  dog : r.1.dog = lm3sWatchdog.run w.dog acts
  report : r.2.flatMap Event.report = lm3sWatchdog.trace w.dog acts

lemma sensorStep_supervised (w : World) (tick : UInt32) :
    Supervised w (w.sensorStep tick) (w.dogActs (.sensor tick)) := by
  cases hs : w.sensor with
  | take =>
    simp only [World.sensorStep, World.dogActs, hs]
    split_ifs <;> exact ⟨rfl, rfl⟩
  | beat =>
    simp only [World.sensorStep, World.dogActs, hs]
    exact ⟨rfl, flatMap_report_dog _⟩
  | test | delay | tick | fill nowMs | send data | setReady | give =>
    simp only [World.sensorStep, World.dogActs, hs]
    exact ⟨rfl, rfl⟩

lemma processingStep_supervised (w : World) :
    Supervised w w.processingStep (w.dogActs .processing) := by
  cases hp : w.processing with
  | take =>
    simp only [World.processingStep, World.dogActs, hp]
    split_ifs <;> exact ⟨rfl, rfl⟩
  | receive =>
    simp only [World.processingStep, World.dogActs, hp]
    cases w.sensorQueue <;> exact ⟨rfl, rfl⟩
  | compute sensor =>
    simp only [World.processingStep, World.dogActs, hp]
    cases calculate w.speedKmhX10 sensor <;> exact ⟨rfl, rfl⟩
  | judge sensor c =>
    simp only [World.processingStep, World.dogActs, hp]
    split_ifs <;> exact ⟨rfl, rfl⟩
  | idleBeat | beat =>
    simp only [World.processingStep, World.dogActs, hp]
    exact ⟨rfl, flatMap_report_dog _⟩
  | setFault telem | send telem | halted =>
    simp only [World.processingStep, World.dogActs, hp]
    exact ⟨rfl, rfl⟩

lemma telemetryStep_supervised (w : World) :
    Supervised w w.telemetryStep (w.dogActs .telemetry) := by
  cases ht : w.telemetry with
  | receive =>
    simp only [World.telemetryStep, World.dogActs, ht]
    cases w.telemetryQueue <;> exact ⟨rfl, rfl⟩
  | print telem =>
    simp only [World.telemetryStep, World.dogActs, ht]
    exact ⟨rfl, rfl⟩
  | beat =>
    simp only [World.telemetryStep, World.dogActs, ht]
    exact ⟨rfl, flatMap_report_dog _⟩

/-- Every step is a step of the supervised system, or none. -/
theorem step_supervised (w : World) (a : Action) : Supervised w (w.step a) (w.dogActs a) := by
  cases a with
  | sensor tick => exact sensorStep_supervised w tick
  | processing => exact processingStep_supervised w
  | telemetry => exact telemetryStep_supervised w
  | health =>
    cases hh : w.health with
    | loop =>
      simp only [World.step, World.healthStep, World.dogActs, hh]
      exact ⟨rfl, (flatMap_report_dog _).trans (List.append_nil _).symm⟩
    | setReset =>
      simp only [World.step, World.healthStep, World.dogActs, hh]
      exact ⟨rfl, rfl⟩
  | timer | timeout | faultInject fault | faultClear => exact ⟨rfl, rfl⟩

/-- The LM3S build runs the watchdog. -/
def dogSimulation : Simulation lm3s lm3sWatchdog where
  abs  := World.dog
  acts := World.dogActs
  view := Event.report
  next w a := (step_supervised w a).dog
  emit w a := (step_supervised w a).report

/-! ### Reports and lines printed -/

/-- One for a line printed without its heartbeat. -/
def TelemetryPc.unbeaten : TelemetryPc → ℕ
  | .beat => 1
  | _     => 0

lemma TelemetryPc.unbeaten_le_one : ∀ pc : TelemetryPc, pc.unbeaten ≤ 1
  | .beat => le_rfl
  | .receive | .print _ => Nat.zero_le 1

/-- Only `telemetry_task` moves on its own way. -/
lemma next_telemetry (w : World) {a : Action} (ha : a ≠ .telemetry) :
    (lm3s.next w a).telemetry = w.telemetry := by
  cases a with
  | telemetry => exact absurd rfl ha
  | sensor tick =>
    simp only [lm3s, Machine.next, World.step, World.sensorStep, World.setBeat]
    split
    · split <;> rfl
    all_goals rfl
  | processing =>
    simp only [lm3s, Machine.next, World.step, World.processingStep, World.setBeat]
    split
    any_goals rfl
    all_goals split <;> rfl
  | health =>
    simp only [lm3s, Machine.next, World.step, World.healthStep]
    split <;> rfl
  | timer | timeout | faultInject fault | faultClear => rfl

/-- Only `telemetry_task` prints lines and sets its bit. -/
lemma silent_of_ne_telemetry (w : World) {a : Action} (ha : a ≠ .telemetry) :
    (lm3s.emit w a).flatMap Event.shown = [] ∧ (w.dogActs a).count (.beat .telemetry) = 0 := by
  constructor
  · rw [List.flatMap_eq_nil_iff]
    intro e he
    cases shows_of_mem_emit he with
    | printed ht => exact absurd rfl ha
    | _ => rfl
  · rw [List.count_eq_zero]
    cases a with
    | telemetry => exact absurd rfl ha
    | sensor tick =>
      simp only [World.dogActs]
      split <;> simp
    | processing =>
      simp only [World.dogActs]
      split <;> simp
    | health =>
      simp only [World.dogActs]
      split <;> simp
    | timer | timeout | faultInject fault | faultClear => simp [World.dogActs]

/-- A heartbeat of `telemetry_task` is that of a line it has printed. -/
lemma next_unbeaten (w : World) (a : Action) :
    ((lm3s.emit w a).flatMap Event.report).count (.beat .telemetry) +
        (lm3s.next w a).telemetry.unbeaten =
      ((lm3s.emit w a).flatMap Event.shown).length + w.telemetry.unbeaten := by
  have hreport : (lm3s.emit w a).flatMap Event.report = lm3sWatchdog.trace w.dog (w.dogActs a) :=
    dogSimulation.emit w a
  rw [hreport, count_beat_trace]
  by_cases ha : a = .telemetry
  · subst ha
    simp only [lm3s, Machine.next, Machine.emit, World.step, World.telemetryStep, World.dogActs]
    cases ht : w.telemetry with
    | receive => cases hq : w.telemetryQueue <;> simp [ht, TelemetryPc.unbeaten]
    | print telem => simp [TelemetryPc.unbeaten, Event.shown]
    | beat =>
      simp only [World.setBeat]
      rw [flatMap_dog fun _ => rfl]
      simp [TelemetryPc.unbeaten]
  · obtain ⟨hshown, hcount⟩ := silent_of_ne_telemetry w ha
    rw [hshown, hcount, next_telemetry w ha, List.length_nil]

/-- In a stretch of a run, the heartbeats of `telemetry_task` are those of the lines it prints, but
for one before the first and one after the last. -/
lemma unbeaten_run (w : World) (as : List Action) :
    (dogSimulation.viewLog (lm3s.trace w as)).count (.beat .telemetry) +
        (lm3s.run w as).telemetry.unbeaten =
      ((lm3s.trace w as).flatMap Event.shown).length + w.telemetry.unbeaten := by
  refine lm3s.invariant_always
    (P := fun w' log =>
      (dogSimulation.viewLog log).count (.beat .telemetry) + w'.telemetry.unbeaten =
        (log.flatMap Event.shown).length + w.telemetry.unbeaten)
    (fun w' log a h => ?_) rfl as
  have hstep := next_unbeaten w' a
  rw [Simulation.viewLog_append, List.count_append, List.flatMap_append, List.length_append]
  have hview : dogSimulation.viewLog (lm3s.emit w' a) = (lm3s.emit w' a).flatMap Event.report := rfl
  rw [hview]
  omega

/-- Reports that all is well are never more than the lines printed; and from any point of any run
on, they are at most three more than the lines printed from there on: a telemetry task that prints
nothing is covered for at most three more windows. -/
theorem ok_le_printed (rng : UInt32) (before after : List Action) :
    (dogSimulation.viewLog (lm3s.trace (.start rng) before)).count .healthy ≤
        ((lm3s.trace (.start rng) before).flatMap Event.shown).length ∧
      (dogSimulation.viewLog (lm3s.trace (lm3s.run (.start rng) before) after)).count .healthy ≤
        ((lm3s.trace (lm3s.run (.start rng) before) after).flatMap Event.shown).length + 3 := by
  have hbeats := healthy_le_beats .healthMonitorTask (dogSimulation.actsRun (.start rng) before)
    (dogSimulation.actsRun (lm3s.run (.start rng) before) after) Beat.telemetry
  have hdog : dogSimulation.abs (lm3s.run (.start rng) before) =
      lm3sWatchdog.run (.start Beat) (dogSimulation.actsRun (.start rng) before) :=
    dogSimulation.run (.start rng) before
  have hstart : dogSimulation.viewLog (lm3s.trace (.start rng) before) =
      lm3sWatchdog.trace (.start Beat) (dogSimulation.actsRun (.start rng) before) :=
    dogSimulation.trace (.start rng) before
  have hlater := dogSimulation.trace (lm3s.run (.start rng) before) after
  rw [hdog] at hlater
  have hbefore := unbeaten_run (.start rng) before
  have hafter := unbeaten_run (lm3s.run (.start rng) before) after
  rw [hstart] at hbefore ⊢
  rw [hlater] at hafter ⊢
  constructor
  · have hnone : (World.start rng).telemetry.unbeaten = 0 := rfl
    rw [hnone, Nat.add_zero] at hbefore
    exact hbeats.1.trans ((Nat.le_add_right _ _).trans hbefore.le)
  · have hone := (lm3s.run (.start rng) before).telemetry.unbeaten_le_one
    refine hbeats.2.trans (Nat.add_le_add_right ?_ 2)
    exact (Nat.le_add_right _ _).trans (hafter.le.trans (Nat.add_le_add_left hone _))

/-! ### The bits of the system event group -/

/-- A step sets the bit `e`. -/
def World.Sets (w : World) (e : SystemEvent) : Action → Prop
  | .sensor _ => w.sensor = .setReady ∧ e = .sensorReady
  | .processing => (∃ telem, w.processing = .setFault telem) ∧ e = .faultDetected
  | .health => w.health = .setReset ∧ e = .watchdogReset
  | .timer | .telemetry | .timeout | .faultInject _ | .faultClear => False

/-- Bits are set and never cleared. -/
lemma mem_systemEvents_next (w : World) (a : Action) (e : SystemEvent) :
    e ∈ (lm3s.next w a).systemEvents ↔ e ∈ w.systemEvents ∨ w.Sets e a := by
  simp only [lm3s, Machine.next, World.step]
  cases a with
  | sensor tick =>
    cases hs : w.sensor <;> simp only [World.sensorStep, hs, World.setBeat, World.Sets]
    case take => split_ifs <;> simp
    case setReady => simp [or_comm]
    all_goals simp
  | processing =>
    cases hp : w.processing <;> simp only [World.processingStep, hp, World.setBeat, World.Sets]
    case take | judge => split_ifs <;> simp
    case receive | compute => split <;> simp
    case setFault => simp [or_comm]
    all_goals simp
  | telemetry =>
    cases ht : w.telemetry <;> simp only [World.telemetryStep, ht, World.setBeat, World.Sets]
    case receive => split <;> simp
    all_goals simp
  | health =>
    cases hh : w.health <;> simp only [World.healthStep, hh, World.Sets]
    case loop => simp
    case setReset => simp [or_comm]
  | timer | timeout | faultInject fault | faultClear => simp [World.Sets]

/-- A sample has been offered. -/
def Sampled (log : List Event) : Prop := ∃ data sent, .sampled data sent ∈ log

/-- A frame marked as faulty has been offered. -/
def Faulted (log : List Event) : Prop :=
  ∃ telem sent, .framed telem sent ∈ log ∧ telem.valid = false

/-- A timeout has been reported. -/
def Warned (log : List Event) : Prop := ∃ bits, .dog (.warning bits) ∈ log

/-- Each bit is set when what it stands for has happened, at the latest by the task's next step. -/
structure Told (w : World) (log : List Event) : Prop where
  sensorReady : Sampled log ↔ .sensorReady ∈ w.systemEvents ∨ w.sensor = .setReady
  setFault : ∀ telem, w.processing = .setFault telem → telem.valid = false
  faultDetected : .faultDetected ∈ w.systemEvents ↔
    Faulted log ∨ ∃ telem, w.processing = .send telem ∧ telem.valid = false
  watchdogReset : Warned log ↔ .watchdogReset ∈ w.systemEvents ∨ w.health = .setReset

lemma told_start (rng : UInt32) : Told (.start rng) [] := by
  constructor <;> simp [World.start, Sampled, Faulted, Warned]

variable {w : World} {log : List Event} {a : Action}

lemma sampled_emit : Sampled (lm3s.emit w a) ↔
    ∃ tick data, a = .sensor tick ∧ w.sensor = .send data := by
  constructor
  · rintro ⟨data, sent, h⟩
    cases shows_of_mem_emit h with
    | sampled hs => exact ⟨_, data, rfl, hs⟩
  · rintro ⟨tick, data, rfl, hs⟩
    refine ⟨data, (BoundedFifo.push queueLen w.sensorQueue data).2, ?_⟩
    simp [lm3s, Machine.emit, World.step, World.sensorStep, hs]

lemma faulted_emit : Faulted (lm3s.emit w a) ↔
    ∃ telem, a = .processing ∧ w.processing = .send telem ∧ telem.valid = false := by
  constructor
  · rintro ⟨telem, sent, h, hvalid⟩
    cases shows_of_mem_emit h with
    | framed hp => exact ⟨telem, rfl, hp, hvalid⟩
  · rintro ⟨telem, rfl, hp, hvalid⟩
    refine ⟨telem, (BoundedFifo.push queueLen w.telemetryQueue telem).2, ?_, hvalid⟩
    simp [lm3s, Machine.emit, World.step, World.processingStep, hp]

/-- Reports among what a step shows are reports of the supervised system. -/
lemma dog_mem_emit {r : Report Beat} :
    .dog r ∈ lm3s.emit w a ↔ r ∈ lm3sWatchdog.trace w.dog (w.dogActs a) := by
  have hreport : (lm3s.emit w a).flatMap Event.report = lm3sWatchdog.trace w.dog (w.dogActs a) :=
    dogSimulation.emit w a
  rw [← hreport, List.mem_flatMap]
  constructor
  · exact fun h => ⟨_, h, List.mem_singleton_self r⟩
  · rintro ⟨e, he, hr⟩
    cases e with
    | dog r' => rwa [List.mem_singleton.mp hr]
    | _ => cases hr

lemma warned_emit : Warned (lm3s.emit w a) ↔
    a = .health ∧ w.health = .loop ∧ ∃ bits, w.dog.stage = .warned bits := by
  simp only [Warned, dog_mem_emit]
  constructor
  · rintro ⟨bits, h⟩
    cases a with
    | health =>
      cases hh : w.health with
      | setReset => simp [World.dogActs, hh] at h
      | loop =>
        refine ⟨rfl, rfl, bits, ?_⟩
        simp only [World.dogActs, hh, Machine.trace_cons, Machine.trace_nil, List.append_nil,
          Machine.emit, watchdog, Dog.step] at h
        split at h
        · simp at h
        · split at h
          · split_ifs at h <;> simp at h
          · simp at h
        · next hs => simpa [hs, eq_comm] using h
    | sensor tick =>
      simp only [World.dogActs] at h
      split at h <;> simp [Machine.emit, watchdog, Dog.step] at h
    | processing =>
      simp only [World.dogActs] at h
      split at h <;> simp [Machine.emit, watchdog, Dog.step] at h
    | telemetry =>
      simp only [World.dogActs] at h
      split at h <;> simp [Machine.emit, watchdog, Dog.step] at h
    | timer | timeout | faultInject fault | faultClear =>
      simp [World.dogActs, Machine.emit, watchdog, Dog.step] at h
  · rintro ⟨rfl, hh, bits, hs⟩
    exact ⟨bits, by simp [World.dogActs, hh, Machine.emit, watchdog, Dog.step, hs]⟩

/-- Only `health_monitor_task` moves on its own way. -/
lemma next_health (w : World) {a : Action} (ha : a ≠ .health) :
    (lm3s.next w a).health = w.health := by
  cases a with
  | health => exact absurd rfl ha
  | sensor tick =>
    simp only [lm3s, Machine.next, World.step, World.sensorStep, World.setBeat]
    split
    · split <;> rfl
    all_goals rfl
  | processing =>
    simp only [lm3s, Machine.next, World.step, World.processingStep, World.setBeat]
    split
    any_goals rfl
    all_goals split <;> rfl
  | telemetry =>
    simp only [lm3s, Machine.next, World.step, World.telemetryStep, World.setBeat]
    split
    · split <;> rfl
    all_goals rfl
  | timer | timeout | faultInject fault | faultClear => rfl

lemma sampled_append {log' : List Event} : Sampled (log ++ log') ↔ Sampled log ∨ Sampled log' := by
  simp only [Sampled, List.mem_append, exists_or]

lemma faulted_append {log' : List Event} : Faulted (log ++ log') ↔ Faulted log ∨ Faulted log' := by
  simp only [Faulted, List.mem_append, or_and_right, exists_or]

lemma warned_append {log' : List Event} : Warned (log ++ log') ↔ Warned log ∨ Warned log' := by
  simp only [Warned, List.mem_append, exists_or]

lemma Told.sensorReady_next (h : Told w log) :
    Sampled (log ++ lm3s.emit w a) ↔
      .sensorReady ∈ (lm3s.next w a).systemEvents ∨ (lm3s.next w a).sensor = .setReady := by
  rw [sampled_append, sampled_emit, mem_systemEvents_next, h.sensorReady]
  by_cases ha : ∀ tick, a ≠ .sensor tick
  · have hsets : ¬ w.Sets .sensorReady a := by
      cases a with
      | sensor tick => exact absurd rfl (ha tick)
      | _ => simp [World.Sets]
    have hnot : ¬ ∃ tick data, a = .sensor tick ∧ w.sensor = .send data :=
      fun ⟨tick, _, heq, _⟩ => ha tick heq
    rw [next_sensor w ha]
    simp only [hsets, hnot, or_false]
  · obtain ⟨tick, rfl⟩ := not_forall_not.mp ha
    simp only [lm3s, Machine.next, World.step, World.Sets]
    cases hs : w.sensor with
    | take =>
      simp only [World.sensorStep, hs]
      split_ifs <;> simp [hs]
    | test =>
      simp only [World.sensorStep, hs]
      split_ifs <;> simp
    | _ => simp [World.sensorStep, hs, World.setBeat]

lemma Told.processing_next (h : Told w log) :
    (∀ telem, (lm3s.next w a).processing = .setFault telem → telem.valid = false) ∧
      (.faultDetected ∈ (lm3s.next w a).systemEvents ↔ Faulted (log ++ lm3s.emit w a) ∨
        ∃ telem, (lm3s.next w a).processing = .send telem ∧ telem.valid = false) := by
  rw [faulted_append, faulted_emit, mem_systemEvents_next, h.faultDetected]
  by_cases ha : a = .processing
  · subst ha
    have hset := h.setFault
    simp only [lm3s, Machine.next, World.step, World.Sets]
    cases hp : w.processing with
    | take =>
      simp only [World.processingStep, hp]
      split_ifs <;> simp [hp]
    | receive =>
      simp only [World.processingStep, hp]
      split <;> simp
    | compute sensor =>
      simp only [World.processingStep, hp]
      split <;> simp
    | judge sensor c =>
      simp only [World.processingStep, hp]
      split_ifs <;> simp [frame]
    | setFault telem =>
      have hvalid := hset telem hp
      simp [World.processingStep, hp, hvalid]
    | send telem => simp [World.processingStep, hp]
    | _ => simp [World.processingStep, hp, World.setBeat]
  · have hsets : ¬ w.Sets .faultDetected a := by
      cases a with
      | processing => exact absurd rfl ha
      | _ => simp [World.Sets]
    rw [(next_detected w ha).1]
    exact ⟨h.setFault, by simp [ha, hsets]⟩

lemma Told.watchdogReset_next (h : Told w log) :
    Warned (log ++ lm3s.emit w a) ↔
      .watchdogReset ∈ (lm3s.next w a).systemEvents ∨ (lm3s.next w a).health = .setReset := by
  rw [warned_append, warned_emit, mem_systemEvents_next, h.watchdogReset]
  by_cases ha : a = .health
  · subst ha
    simp only [lm3s, Machine.next, World.step, World.Sets]
    cases hh : w.health with
    | loop => cases hs : w.dog.stage <;> simp [World.healthStep, hh, hs]
    | setReset => simp [World.healthStep, hh]
  · have hsets : ¬ w.Sets .watchdogReset a := by
      cases a with
      | health => exact absurd rfl ha
      | _ => simp [World.Sets]
    rw [next_health w ha]
    simp [ha, hsets]

/-- Every step keeps the bits telling. -/
theorem Told.next (h : Told w log) (a : Action) : Told (lm3s.next w a) (log ++ lm3s.emit w a) where
  sensorReady := h.sensorReady_next
  setFault := h.processing_next.1
  faultDetected := h.processing_next.2
  watchdogReset := h.watchdogReset_next

/-- In every run the bits of `xSystemEventGroup` tell what has happened since the start:
`EVT_SENSOR_READY` that a sample has been offered, `EVT_FAULT_DETECTED` that a frame marked as
faulty has, and `EVT_WATCHDOG_RESET` that a timeout has been reported. The first and the last are
set by the task's next step after the event, the other before it. Once set, a bit stays set. -/
theorem system_events_told (rng : UInt32) (as : List Action) :
    Told (lm3s.run (.start rng) as) (lm3s.trace (.start rng) as) ∧
      ∀ more, (lm3s.run (.start rng) as).systemEvents ⊆
        (lm3s.run (.start rng) (as ++ more)).systemEvents := by
  refine ⟨lm3s.invariant_always (P := Told) (fun w _ a h => h.next a) (told_start rng) as, ?_⟩
  intro more
  rw [Machine.run_append]
  refine lm3s.invariant_always
    (P := fun w _ => (lm3s.run (.start rng) as).systemEvents ⊆ w.systemEvents)
    (fun w _ a h e he => ?_) (Finset.Subset.refl _) more
  exact (mem_systemEvents_next w a e).mpr (.inl (h he))

end EcuTelemetry.Lm3s
