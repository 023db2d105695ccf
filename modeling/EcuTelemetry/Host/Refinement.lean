import EcuTelemetry.Host.Threads
import EcuTelemetry.Pipeline.Accounting

/-!
# The host simulator is a pipeline

The threads of the host simulator run the abstract pipeline with queues of capacity 24; `ecu_reset`
zeroes its counts and flushes its queues, `ecu_stop` flushes them.
-/

namespace EcuTelemetry.Host

open EcuTelemetry.Core Pipeline

/-- What the sensor thread holds, when `made` samples have been made. -/
def SensorPc.hand (made : ℕ) : SensorPc → Hand SensorSample
  | .fill _ _     => .drawn made
  | .push _ s     => .held ⟨made, s⟩
  | .count _ s ok => .offered ⟨made, s⟩ ok
  | _             => .empty

/-- What the processor thread holds. -/
def ProcessorPc.work : ProcessorPc → Work SensorSample TelemetryFrame
  | .check s | .stall s | .process s => .held s
  | .push f     => .ready f
  | .count f ok => .offered f ok
  | _           => .empty

/-- What the logger thread holds. -/
def LoggerPc.sink : LoggerPc → Option (Stamped TelemetryFrame)
  | .print f => some f
  | _        => none

/-- The pipeline in the simulator. -/
def World.pipe (w : World) : Pipe SensorSample TelemetryFrame :=
  ⟨w.made, w.sensor.hand w.made, w.sim.sensorQueue, w.processor.work, w.sim.telemetryQueue,
    w.logger.sink⟩

/-- The move of the pipeline that a step makes, if any. -/
def World.pipeOps (w : World) : Action → List (Op SensorSample TelemetryFrame)
  | .sensor now =>
    match w.sensor with
    | .draw _      => [.draw]
    | .fill _ seq  => [.make (prvMakeSensorSample seq w.sim.faultMode now)]
    | .push _ _    => [.offer]
    | .count _ _ _ => [.count]
    | _            => []
  | .processor now =>
    match w.processor with
    | .pop       => [.take]
    | .process s => [.work (prvProcessSample s.val now)]
    | .push _    => [.offerOut]
    | .count _ _ => [.countOut]
    | _          => []
  | .logger _ =>
    match w.logger with
    | .pop     => [.takeOut]
    | .print _ => [.print]
    | _        => []
  | .reset =>
    match w.main with
    | .idle => [.zero]
    | _     => []
  | .main =>
    match w.main with
    | .resetSensorQueue | .stopSensorQueue       => [.flush]
    | .resetTelemetryQueue | .stopTelemetryQueue => [.flushOut]
    | _ => []
  | _ => []

/-- The pipeline as the host instantiates it. -/
abbrev hostPipeline : Machine (Pipe SensorSample TelemetryFrame)
    (Op SensorSample TelemetryFrame) (Event SensorSample TelemetryFrame) :=
  pipeline SensorSample TelemetryFrame queueCapacity queueCapacity

@[simp] lemma Batch.next_hand (b : Batch) (made : ℕ) : b.next.hand made = .empty := by
  cases b <;> rfl

/-- A step from `w` with result `r` makes the moves `ops` and shows what they show. -/
structure Runs (w : World) (r : World × List (Event SensorSample TelemetryFrame))
    (ops : List (Op SensorSample TelemetryFrame)) : Prop where
  pipe : r.1.pipe = hostPipeline.run w.pipe ops
  shown : r.2 = hostPipeline.trace w.pipe ops

lemma sensorStep_runs (w : World) (now : Timespec) :
    Runs w (w.sensorStep now) (w.pipeOps (.sensor now)) := by
  rcases w with ⟨sim, made, sensor, processor, logger, watchdog, main⟩
  cases sensor with
  | boot => exact ⟨rfl, rfl⟩
  | loop => cases h : sim.stopRequested <;> simp only [World.sensorStep, h] <;> exact ⟨rfl, rfl⟩
  | mode => cases h : sim.faultMode <;> simp only [World.sensorStep, h] <;> exact ⟨rfl, rfl⟩
  | burst i =>
    by_cases h : i < 4 ∧ sim.stopRequested = false
    · simp only [World.sensorStep, if_pos h]
      exact ⟨rfl, rfl⟩
    · simp only [World.sensorStep, if_neg h]
      exact ⟨rfl, rfl⟩
  | check =>
    by_cases h : sim.sensorSequence % 10 = 0
    · simp only [World.sensorStep, if_pos h]
      exact ⟨rfl, rfl⟩
    · simp only [World.sensorStep, if_neg h]
      exact ⟨rfl, rfl⟩
  | log => exact ⟨rfl, rfl⟩
  | draw b => exact ⟨rfl, rfl⟩
  | fill b seq => exact ⟨rfl, rfl⟩
  | push b s =>
    rcases h : BoundedFifo.push queueCapacity sim.sensorQueue ⟨made, s⟩ with ⟨queue, ok⟩
    cases ok <;> constructor <;>
      simp [World.sensorStep, World.pipeOps, World.pipe, SensorPc.hand, pipeline, Machine.next,
        Machine.emit, Pipe.step, h]
  | count b s ok =>
    refine ⟨?_, rfl⟩
    cases ok <;>
      simp [World.sensorStep, World.pipeOps, World.pipe, pipeline, Machine.next, Pipe.step] <;> rfl
  | beat => exact ⟨rfl, rfl⟩
  | done => exact ⟨rfl, rfl⟩

lemma processorStep_runs (w : World) (now : Timespec) :
    Runs w (w.processorStep now) (w.pipeOps (.processor now)) := by
  rcases w with ⟨⟨stop, last, init, queue, out, snap, fault, seq, speed⟩, made, sensor, processor,
    logger, watchdog, main⟩
  cases processor with
  | boot => exact ⟨rfl, rfl⟩
  | loop => cases stop <;> exact ⟨rfl, rfl⟩
  | pop => cases queue <;> exact ⟨rfl, rfl⟩
  | check s =>
    by_cases h : fault = .processStall ∧ s.val.sequence % 8 = 0
    · simp only [World.processorStep, if_pos h]
      exact ⟨rfl, rfl⟩
    · simp only [World.processorStep, if_neg h]
      exact ⟨rfl, rfl⟩
  | stall s => exact ⟨rfl, rfl⟩
  | process s => exact ⟨rfl, rfl⟩
  | push f =>
    rcases h : BoundedFifo.push queueCapacity out f with ⟨out', ok⟩
    cases ok <;> constructor <;>
      simp [World.processorStep, World.pipeOps, World.pipe, ProcessorPc.work, pipeline,
        Machine.next, Machine.emit, Pipe.step, h]
  | count f ok => cases ok <;> exact ⟨rfl, rfl⟩
  | beat => exact ⟨rfl, rfl⟩
  | done => exact ⟨rfl, rfl⟩

lemma loggerStep_runs (w : World) (now : Timespec) :
    Runs w (w.loggerStep now) (w.pipeOps (.logger now)) := by
  rcases w with ⟨⟨stop, last, init, queue, out, snap, fault, seq, speed⟩, made, sensor, processor,
    logger, watchdog, main⟩
  cases logger with
  | loop => cases stop <;> exact ⟨rfl, rfl⟩
  | pop => cases out <;> exact ⟨rfl, rfl⟩
  | _ => exact ⟨rfl, rfl⟩

lemma watchdogStep_pipe (w : World) (now : Timespec) : (w.watchdogStep now).pipe = w.pipe := by
  cases h : w.watchdog <;> simp only [World.watchdogStep, h] <;> rfl

lemma mainStep_runs (w : World) : Runs w w.mainStep (w.pipeOps .main) := by
  rcases w with ⟨sim, made, sensor, processor, logger, watchdog, main⟩
  cases main with
  | resetSensorQueue => exact ⟨rfl, (List.append_nil _).symm⟩
  | stopSensorQueue => exact ⟨rfl, (List.append_nil _).symm⟩
  | join =>
    simp only [World.mainStep]
    split <;> exact ⟨rfl, rfl⟩
  | _ => exact ⟨rfl, rfl⟩

/-- Every step refines the pipeline. -/
theorem step_runs (w : World) (a : Action) : Runs w (w.step a) (w.pipeOps a) := by
  cases a with
  | sensor now => exact sensorStep_runs w now
  | processor now => exact processorStep_runs w now
  | processorTimeout =>
    rcases w with ⟨sim, made, sensor, processor, logger, watchdog, main⟩
    cases processor <;> exact ⟨rfl, rfl⟩
  | logger now => exact loggerStep_runs w now
  | loggerTimeout =>
    rcases w with ⟨sim, made, sensor, processor, logger, watchdog, main⟩
    cases logger <;> exact ⟨rfl, rfl⟩
  | watchdog now => exact ⟨watchdogStep_pipe w now, rfl⟩
  | setFault mode =>
    rcases w with ⟨sim, made, sensor, processor, logger, watchdog, main⟩
    cases main <;> exact ⟨rfl, rfl⟩
  | reset =>
    rcases w with ⟨sim, made, sensor, processor, logger, watchdog, main⟩
    cases main <;> exact ⟨rfl, rfl⟩
  | stop =>
    rcases w with ⟨sim, made, sensor, processor, logger, watchdog, main⟩
    cases main <;> exact ⟨rfl, rfl⟩
  | main => exact mainStep_runs w

/-- The host simulator runs the pipeline. -/
def pipeSimulation : Simulation host hostPipeline where
  abs  := World.pipe
  acts := World.pipeOps
  view := fun e => [e]
  next w a := (step_runs w a).pipe
  emit w a := (List.flatMap_singleton' _).trans (step_runs w a).shown

/-- The pipeline shows all that the simulator shows. -/
@[simp] lemma viewLog_pipeSimulation (log : List (Event SensorSample TelemetryFrame)) :
    pipeSimulation.viewLog log = log := List.flatMap_singleton' log

/-- What the moves of the pipeline preserve, a step of the simulator preserves. -/
theorem pipe_step {ok : Pipe SensorSample TelemetryFrame → Op SensorSample TelemetryFrame → Prop}
    {P : Pipe SensorSample TelemetryFrame → List (Event SensorSample TelemetryFrame) → Prop}
    (hmove : ∀ {p p' op log evs}, ok p op → P p log →
      Move queueCapacity queueCapacity p op p' evs → P p' (log ++ evs))
    {w : World} {a : Action} {log : List (Event SensorSample TelemetryFrame)}
    (hok : hostPipeline.Meets ok w.pipe (w.pipeOps a)) (h : P w.pipe log) :
    P (host.next w a).pipe (log ++ host.emit w a) := by
  rw [← viewLog_pipeSimulation log] at h
  rw [← viewLog_pipeSimulation (log ++ host.emit w a)]
  apply pipeSimulation.invariant_step _ h hok
  exact fun p log op hop h => hmove hop h (step_move queueCapacity queueCapacity p op)

end EcuTelemetry.Host
