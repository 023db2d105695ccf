import EcuTelemetry.Firmware.Tasks
import EcuTelemetry.Pipeline.Accounting
import EcuTelemetry.Watchdog.Fresh

/-!
# What the firmware refines

The tasks simulate the abstract pipeline with queues of depth 6 and, at the same time, the
supervised system of the watchdog. Each step is at most one move of either.
-/

namespace EcuTelemetry.Firmware

open EcuTelemetry.Core Pipeline Watchdog

/-! ### The firmware is a pipeline -/

/-- What the sensor task holds, when `made` samples have been made. -/
def SensorPc.hand (made : ℕ) : SensorPc → Hand SensorSample
  | .fill _ _            => .drawn made
  | .send _ sample       => .held ⟨made, sample⟩
  | .count _ sample sent => .offered ⟨made, sample⟩ sent
  | _                    => .empty

/-- What the processor task holds. -/
def ProcessorPc.work : ProcessorPc → Work SensorSample TelemetryFrame
  | .receive => .empty
  | .beat sample | .setBit sample | .fault sample | .test sample | .stall sample
  | .process sample   => .held sample
  | .send frame       => .ready frame
  | .count frame sent => .offered frame sent

/-- What the logger task holds. -/
def LoggerPc.sink : LoggerPc → Option (Stamped TelemetryFrame)
  | .receive => none
  | .beat frame | .setBit frame | .print frame => some frame

/-- The pipeline in the firmware. -/
def World.pipe (w : World) : Pipe SensorSample TelemetryFrame :=
  ⟨w.made, w.sensor.hand w.made, w.sensorQueue, w.processor.work, w.telemetryQueue, w.logger.sink⟩

@[simp] lemma Batch.next_hand (b : Batch) (made : ℕ) : b.next.hand made = .empty := by
  cases b with
  | single => rfl
  | burst i => by_cases h : i + 1 < 3 <;> simp [Batch.next, h, SensorPc.hand]

/-- The move of the pipeline that a step makes, if any. -/
def World.pipeOps (w : World) : Action → List (Op SensorSample TelemetryFrame)
  | .sensor tick =>
    match w.sensor with
    | .make _      => [.draw]
    | .fill _ mode => [.make (prvMakeSample w.sequence mode tick)]
    | .send _ _    => [.offer]
    | .count _ _ _ => [.count]
    | _            => []
  | .processor tick =>
    match w.processor with
    | .receive        => [.take]
    | .process sample => [.work (prvProcessSample sample.val tick)]
    | .send _         => [.offerOut]
    | .count _ _      => [.countOut]
    | _               => []
  | .logger =>
    match w.logger with
    | .receive => [.takeOut]
    | .print _ => [.print]
    | _        => []
  | .diagnostics =>
    match w.diagnostics with
    | .memset              => [.zero]
    | .resetSensorQueue    => [.flush]
    | .resetTelemetryQueue => [.flushOut]
    | _                    => []
  | _ => []

/-- The step of the supervised system that a step is, if any. -/
def World.dogActs (w : World) : Action → List (Act Heartbeat)
  | .sensor _ =>
    match w.sensor with
    | .setBit => [.beat .sensor]
    | _       => []
  | .processor _ =>
    match w.processor with
    | .setBit _ => [.beat .processor]
    | _         => []
  | .logger =>
    match w.logger with
    | .setBit _ => [.beat .logger]
    | _         => []
  | .diagnostics =>
    match w.diagnostics with
    | .clearBits => [.clear]
    | _          => []
  | .watchdog => [.watchdog]
  | .timeout  => [.timeout]
  | _ => []

/-- The part of what is shown that belongs to the pipeline. -/
def Shown.pipeView : Shown → List (Event SensorSample TelemetryFrame)
  | .pipe e => [e]
  | .dog _  => []

/-- The part of what is shown that belongs to the watchdog. -/
def Shown.dogView : Shown → List (Report Heartbeat)
  | .pipe _ => []
  | .dog r  => [r]

@[simp] lemma flatMap_pipeView_dog (reports : List (Report Heartbeat)) :
    (reports.map Shown.dog).flatMap Shown.pipeView = [] := by
  induction reports with
  | nil => rfl
  | cons r reports ih => simp [Shown.pipeView]

@[simp] lemma flatMap_dogView_dog (reports : List (Report Heartbeat)) :
    (reports.map Shown.dog).flatMap Shown.dogView = reports := by
  induction reports with
  | nil => rfl
  | cons r reports ih => simpa [Shown.dogView] using ih

@[simp] lemma flatMap_pipeView_flushed (samples : List (Stamped SensorSample)) :
    (samples.map fun s => Shown.pipe (.flushed s)).flatMap Shown.pipeView =
      samples.map .flushed := by
  induction samples with
  | nil => rfl
  | cons s samples ih => simpa [Shown.pipeView] using ih

@[simp] lemma flatMap_dogView_flushed (samples : List (Stamped SensorSample)) :
    (samples.map fun s => Shown.pipe (.flushed s)).flatMap Shown.dogView = [] := by
  induction samples with
  | nil => rfl
  | cons s samples ih => simp [Shown.dogView]

/-! ### Steps and moves -/

/-- The pipeline as the firmware instantiates it. -/
abbrev firmwarePipeline : Machine (Pipe SensorSample TelemetryFrame)
    (Op SensorSample TelemetryFrame) (Event SensorSample TelemetryFrame) :=
  pipeline SensorSample TelemetryFrame queueDepth queueDepth

/-- The supervised system as the firmware instantiates it. -/
abbrev firmwareWatchdog : Machine (Dog Heartbeat) (Act Heartbeat) (Report Heartbeat) :=
  watchdog prvWatchdogHealthy

/-- A step from `w` with result `r` makes the moves `ops` and the supervised steps `acts`, and shows
what they show. -/
structure Runs (w : World) (r : World × List Shown) (ops : List (Op SensorSample TelemetryFrame))
    (acts : List (Act Heartbeat)) : Prop where
  pipe : r.1.pipe = firmwarePipeline.run w.pipe ops
  pipeView : r.2.flatMap Shown.pipeView = firmwarePipeline.trace w.pipe ops
  dog : r.1.dog = firmwareWatchdog.run w.dog acts
  dogView : r.2.flatMap Shown.dogView = firmwareWatchdog.trace w.dog acts

lemma sensorStep_runs (w : World) (tick : UInt32) :
    Runs w (w.sensorStep tick) (w.pipeOps (.sensor tick)) (w.dogActs (.sensor tick)) := by
  rcases w with ⟨stats, sequence, made, kick, queue, out, dog, sensor, processor, logger, diag⟩
  cases sensor with
  | take => cases kick <;> exact ⟨rfl, rfl, rfl, rfl⟩
  | beat => exact ⟨rfl, rfl, rfl, rfl⟩
  | setBit => exact ⟨rfl, rfl, rfl, rfl⟩
  | test =>
    by_cases h : stats.faultMode = .overflow <;>
      simp only [World.sensorStep, h, if_true, if_false] <;> exact ⟨rfl, rfl, rfl, rfl⟩
  | make b => exact ⟨rfl, rfl, rfl, rfl⟩
  | fill b mode => exact ⟨rfl, rfl, rfl, rfl⟩
  | send b sample =>
    rcases h : BoundedFifo.push queueDepth queue ⟨made, sample⟩ with ⟨queue', sent⟩
    cases sent <;> constructor <;>
      simp [World.sensorStep, World.pipeOps, World.dogActs, World.pipe, SensorPc.hand, pipeline,
        Machine.next, Machine.emit, Pipe.step, h, Shown.pipeView, Shown.dogView]
  | count b sample sent =>
    refine ⟨?_, rfl, rfl, rfl⟩
    show (⟨made, b.next.hand made, queue, processor.work, out, logger.sink⟩ : Pipe _ _) = _
    rw [Batch.next_hand]
    rfl

lemma processorStep_runs (w : World) (tick : UInt32) :
    Runs w (w.processorStep tick) (w.pipeOps (.processor tick)) (w.dogActs (.processor tick)) := by
  rcases w with ⟨stats, sequence, made, kick, queue, out, dog, sensor, processor, logger, diag⟩
  cases processor with
  | receive => cases queue <;> exact ⟨rfl, rfl, rfl, rfl⟩
  | beat sample => exact ⟨rfl, rfl, rfl, rfl⟩
  | setBit sample =>
    cases h : sample.val.valid <;> simp only [World.processorStep, h] <;>
      exact ⟨rfl, rfl, rfl, rfl⟩
  | fault sample => exact ⟨rfl, rfl, rfl, rfl⟩
  | test sample =>
    by_cases h : stats.faultMode = .stall ∧ sample.val.sequence % 6 = 0
    · simp only [World.processorStep, if_pos h]
      exact ⟨rfl, rfl, rfl, rfl⟩
    · simp only [World.processorStep, if_neg h]
      exact ⟨rfl, rfl, rfl, rfl⟩
  | stall sample => exact ⟨rfl, rfl, rfl, rfl⟩
  | process sample => exact ⟨rfl, rfl, rfl, rfl⟩
  | send frame =>
    rcases h : BoundedFifo.push queueDepth out frame with ⟨out', sent⟩
    cases sent <;> constructor <;>
      simp [World.processorStep, World.pipeOps, World.dogActs, World.pipe, ProcessorPc.work,
        pipeline, Machine.next, Machine.emit, Pipe.step, h, Shown.pipeView, Shown.dogView]
  | count frame sent => exact ⟨rfl, rfl, rfl, rfl⟩

lemma loggerStep_runs (w : World) :
    Runs w w.loggerStep (w.pipeOps .logger) (w.dogActs .logger) := by
  rcases w with ⟨stats, sequence, made, kick, queue, out, dog, sensor, processor, logger, diag⟩
  cases logger with
  | receive => cases out <;> exact ⟨rfl, rfl, rfl, rfl⟩
  | beat frame => exact ⟨rfl, rfl, rfl, rfl⟩
  | setBit frame => exact ⟨rfl, rfl, rfl, rfl⟩
  | print frame => exact ⟨rfl, rfl, rfl, rfl⟩

lemma diagnosticsStep_runs (w : World) :
    Runs w w.diagnosticsStep (w.pipeOps .diagnostics) (w.dogActs .diagnostics) := by
  rcases w with ⟨stats, sequence, made, kick, queue, out, dog, sensor, processor, logger, diag⟩
  cases diag with
  | idle => exact ⟨rfl, rfl, rfl, rfl⟩
  | setFault mode => exact ⟨rfl, rfl, rfl, rfl⟩
  | memset => exact ⟨rfl, rfl, rfl, rfl⟩
  | resetSensorQueue =>
    refine ⟨rfl, ?_, rfl, flatMap_dogView_flushed queue⟩
    exact (flatMap_pipeView_flushed queue).trans (List.append_nil _).symm
  | resetTelemetryQueue => exact ⟨rfl, rfl, rfl, rfl⟩
  | clearBits => exact ⟨rfl, rfl, rfl, rfl⟩

/-- A step that only moves the watchdog. -/
lemma watchdogStep_runs (w : World) : Runs w w.watchdogStep [] [.watchdog] :=
  ⟨rfl, flatMap_pipeView_dog _, rfl, (flatMap_dogView_dog _).trans (List.append_nil _).symm⟩

/-- Every step refines both. -/
theorem step_runs (w : World) (a : Action) : Runs w (w.step a) (w.pipeOps a) (w.dogActs a) := by
  cases a with
  | timer => exact ⟨rfl, rfl, rfl, rfl⟩
  | sensor tick => exact sensorStep_runs w tick
  | processor tick => exact processorStep_runs w tick
  | logger => exact loggerStep_runs w
  | watchdog => exact watchdogStep_runs w
  | timeout => exact ⟨rfl, rfl, rfl, rfl⟩
  | command line =>
    cases h : w.diagnostics <;> simp only [World.step, h] <;> exact ⟨rfl, rfl, rfl, rfl⟩
  | diagnostics => exact diagnosticsStep_runs w

/-- The firmware runs the pipeline. -/
def pipeSimulation : Simulation firmware firmwarePipeline where
  abs  := World.pipe
  acts := World.pipeOps
  view := Shown.pipeView
  next w a := (step_runs w a).pipe
  emit w a := (step_runs w a).pipeView

/-- The firmware runs the watchdog. -/
def dogSimulation : Simulation firmware firmwareWatchdog where
  abs  := World.dog
  acts := World.dogActs
  view := Shown.dogView
  next w a := (step_runs w a).dog
  emit w a := (step_runs w a).dogView

/-- The frames the logger receives come in the order of their samples, in every run. -/
lemma sorted_run (acts : List Action) :
    Sorted (firmware.run .start acts).pipe
      (pipeSimulation.viewLog (firmware.trace .start acts)) := by
  apply pipeSimulation.invariant_always _ (show Sorted World.start.pipe [] from sorted_start)
  exact fun p log op h => h.move (step_move queueDepth queueDepth p op)

/-- Only the watchdog's own steps are steps of its loop. -/
lemma watchdog_notMem_dogActs (w : World) {a : Action} (h : a ≠ .watchdog) :
    ∀ d ∈ w.dogActs a, d ≠ .watchdog := by
  rcases w with ⟨stats, sequence, made, kick, queue, out, dog, sensor, processor, logger, diag⟩
  cases a with
  | watchdog => exact absurd rfl h
  | sensor tick => cases sensor <;> simp [World.dogActs]
  | processor tick => cases processor <;> simp [World.dogActs]
  | logger => cases logger <;> simp [World.dogActs]
  | diagnostics => cases diag <;> simp [World.dogActs]
  | timer => simp [World.dogActs]
  | command line => simp [World.dogActs]
  | timeout => simp [World.dogActs]

/-- The watchdog's reports are fresh in every run of the firmware in which no heartbeat bit is set
when it writes one. -/
theorem firmware_reports_fresh {acts : List Action}
    (h : firmware.Meets (fun w a => a = .watchdog → w.dog.Reporting prvWatchdogHealthy →
      w.dog.group.bits = ∅) .start acts) :
    Fresh (dogSimulation.viewLog (firmware.trace .start acts)) := by
  rw [dogSimulation.trace]
  apply watchdog_fresh_of_quiet (Supervisor.healthy_iff .prvWatchdogTask)
  apply dogSimulation.meets _ h
  intro w a ha
  by_cases hw : a = .watchdog
  · subst hw
    exact ⟨fun _ => ha rfl, trivial⟩
  · apply firmwareWatchdog.meets_mono _
      (firmwareWatchdog.meets_of_forall _ (watchdog_notMem_dogActs w hw))
    intro d act hact hwatch
    exact absurd hwatch hact

end EcuTelemetry.Firmware
