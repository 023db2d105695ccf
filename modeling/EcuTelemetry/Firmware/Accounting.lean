import EcuTelemetry.Firmware.Refinement

/-!
# The firmware's statistics

The four counters of `AppStats` that count samples and frames are the counts of the abstract
pipeline, modulo 2^32, in every run. In a run without `reset` they therefore obey its accounting
law, and the heartbeat and fault counters agree with what the tasks received; each equality has the
term for what is received but not yet counted.
-/

namespace EcuTelemetry.Firmware

open EcuTelemetry.Core Pipeline

/-! ### Counters -/

/-- The field that holds a count of the pipeline. -/
def AppStats.counter (stats : AppStats) : Counter → UInt32
  | .samples  => stats.sensorSamples
  | .drops    => stats.sensorDrops
  | .frames   => stats.telemetryFrames
  | .outDrops => stats.telemetryDrops

/-- The watchdog counts nothing but its warnings. -/
lemma watchdogStep_stats (w : World) :
    ∃ warnings, w.watchdogStep.1.stats = { w.stats with watchdogWarnings := warnings } := by
  simp only [World.watchdogStep]
  split
  · exact ⟨w.stats.watchdogWarnings + 1, rfl⟩
  · exact ⟨w.stats.watchdogWarnings, rfl⟩

/-- A counter follows the events shown, modulo 2^32. -/
lemma counter_next (w : World) (a : Action) (c : Counter) {n : ℕ}
    (h : w.stats.counter c = UInt32.ofNat n) :
    (firmware.next w a).stats.counter c =
      UInt32.ofNat (((firmware.emit w a).flatMap Shown.pipeView).foldl (tallyStep c) n) := by
  rcases w with ⟨stats, sequence, made, kick, queue, out, dog, sensor, processor, logger, diag⟩
  have hsucc : stats.counter c + 1 = UInt32.ofNat (n + 1) :=
    (congrArg (· + 1) h).trans (UInt32.ofNat_add n 1).symm
  cases a with
  | sensor tick =>
    cases sensor with
    | take => cases kick <;> exact h
    | send b sample =>
      rcases hp : BoundedFifo.push queueDepth queue ⟨made, sample⟩ with ⟨queue', sent⟩
      cases sent <;>
        simpa [firmware, Machine.next, Machine.emit, World.step, World.sensorStep, hp,
          Shown.pipeView, tallyStep] using h
    | count b sample sent => cases sent <;> cases c <;> first | exact h | exact hsucc
    | _ => exact h
  | processor tick =>
    cases processor with
    | receive => cases queue <;> exact h
    | send frame =>
      rcases hp : BoundedFifo.push queueDepth out frame with ⟨out', sent⟩
      cases sent <;>
        simpa [firmware, Machine.next, Machine.emit, World.step, World.processorStep, hp,
          Shown.pipeView, tallyStep] using h
    | count frame sent => cases sent <;> cases c <;> first | exact h | exact hsucc
    | fault sample => cases c <;> exact h
    | beat sample => cases c <;> exact h
    | _ => exact h
  | logger =>
    cases logger with
    | receive => cases out <;> exact h
    | beat frame => cases c <;> exact h
    | _ => exact h
  | diagnostics =>
    cases diag with
    | memset => cases c <;> rfl
    | setFault mode => cases c <;> exact h
    | resetSensorQueue =>
      simpa [firmware, Machine.next, Machine.emit, World.step, World.diagnosticsStep,
        foldl_tallyStep_flushed] using h
    | _ => exact h
  | command line => cases diag <;> exact h
  | watchdog =>
    obtain ⟨warnings, hw⟩ := watchdogStep_stats
      ⟨stats, sequence, made, kick, queue, out, dog, sensor, processor, logger, diag⟩
    simp only [firmware, Machine.next, Machine.emit, World.step, hw]
    rw [(watchdogStep_runs _).pipeView]
    cases c <;> exact h
  | timer => exact h
  | timeout => exact h

/-- The counters are the counts of the pipeline. -/
def Tallied (w : World) (log : List Shown) : Prop :=
  ∀ c, w.stats.counter c = UInt32.ofNat (tally c (pipeSimulation.viewLog log))

/-- In every run, resets included, the counters are the counts since the last `memset`. -/
theorem tallied_run (acts : List Action) :
    Tallied (firmware.run .start acts) (firmware.trace .start acts) := by
  have hstart : Tallied .start [] := fun c => by cases c <;> rfl
  apply firmware.invariant_always _ hstart
  intro w log a h c
  rw [pipeSimulation.viewLog_append, tally_append]
  exact counter_next w a c (h c)

/-! ### Heartbeats and faults -/

/-- One for a sample whose heartbeat is still to be counted. -/
def ProcessorPc.beatPending : ProcessorPc → ℕ
  | .beat _ => 1
  | _       => 0

/-- One for an invalid sample that is still to be counted as a fault. -/
def ProcessorPc.faultPending : ProcessorPc → ℕ
  | .beat sample | .setBit sample => if sample.val.valid = false then 1 else 0
  | .fault _ => 1
  | _        => 0

/-- One for a frame whose heartbeat is still to be counted. -/
def LoggerPc.beatPending : LoggerPc → ℕ
  | .beat _ => 1
  | _       => 0

/-- Processor beats, logger beats and faults, each with what is still to be counted. -/
def World.receipts (w : World) : UInt32 × UInt32 × UInt32 :=
  (w.stats.taskProcessorBeats + UInt32.ofNat w.processor.beatPending,
    w.stats.taskLoggerBeats + UInt32.ofNat w.logger.beatPending,
    w.stats.sensorFaults + UInt32.ofNat w.processor.faultPending)

/-- What the two receiving tasks received: samples, frames, and samples with `valid = false`. -/
def receiptsOf (log : List (Event SensorSample TelemetryFrame)) : UInt32 × UInt32 × UInt32 :=
  (UInt32.ofNat (takenOf log).length, UInt32.ofNat (outTakenOf log).length,
    UInt32.ofNat ((takenOf log).filter fun s => s.val.valid = false).length)

/-- Events at which nothing is received add nothing. -/
lemma receiptsOf_append {log evs : List (Event SensorSample TelemetryFrame)}
    (ht : takenOf evs = []) (ho : outTakenOf evs = []) :
    receiptsOf (log ++ evs) = receiptsOf log := by
  simp only [receiptsOf, takenOf_append, outTakenOf_append, ht, ho, List.append_nil]

/-- What is received is pending. -/
lemma pending_of_received {count : UInt32} {n : ℕ}
    (h : count + UInt32.ofNat 0 = UInt32.ofNat n) :
    count + UInt32.ofNat 1 = UInt32.ofNat (n + 1) := by
  rw [UInt32.ofNat_add, ← h]
  exact congrArg (· + UInt32.ofNat 1) (UInt32.add_zero count).symm

/-- What is counted is pending no longer. -/
lemma counted_of_pending (count : UInt32) :
    count + 1 + UInt32.ofNat 0 = count + UInt32.ofNat 1 := UInt32.add_zero _

/-- The sensor task receives nothing. -/
lemma receipts_sensorStep (w : World) (tick : UInt32)
    {log : List (Event SensorSample TelemetryFrame)} (h : w.receipts = receiptsOf log) :
    (w.sensorStep tick).1.receipts =
      receiptsOf (log ++ (w.sensorStep tick).2.flatMap Shown.pipeView) := by
  rcases w with ⟨stats, sequence, made, kick, queue, out, dog, sensor, processor, logger, diag⟩
  cases sensor with
  | take => cases kick <;> exact h.trans (receiptsOf_append rfl rfl).symm
  | send b sample =>
    rcases hp : BoundedFifo.push queueDepth queue ⟨made, sample⟩ with ⟨queue', sent⟩
    simp only [World.sensorStep, hp]
    cases sent <;> exact h.trans (receiptsOf_append rfl rfl).symm
  | count b sample sent => cases sent <;> exact h.trans (receiptsOf_append rfl rfl).symm
  | _ => exact h.trans (receiptsOf_append rfl rfl).symm

/-- What the processor task receives is a heartbeat pending, and with `valid = false` a fault too;
both are counted before the next sample. -/
lemma receipts_processorStep (w : World) (tick : UInt32)
    {log : List (Event SensorSample TelemetryFrame)} (h : w.receipts = receiptsOf log) :
    (w.processorStep tick).1.receipts =
      receiptsOf (log ++ (w.processorStep tick).2.flatMap Shown.pipeView) := by
  rcases w with ⟨stats, sequence, made, kick, queue, out, dog, sensor, processor, logger, diag⟩
  have hstill := h.trans (@receiptsOf_append log [] rfl rfl).symm
  cases processor with
  | receive =>
    cases queue with
    | nil => exact hstill
    | cons sample queue =>
      simp only [World.receipts, receiptsOf, Prod.mk.injEq] at h
      obtain ⟨hproc, hlog, hfault⟩ := h
      simp only [World.processorStep, World.receipts, receiptsOf, List.flatMap_cons,
        List.flatMap_nil, Shown.pipeView, List.append_nil, takenOf_append, takenOf_cons,
        takenOf_nil, outTakenOf_append, outTakenOf_cons, outTakenOf_nil, List.filter_append,
        List.length_append, List.length_singleton, Prod.mk.injEq]
      refine ⟨pending_of_received hproc, hlog, ?_⟩
      by_cases hv : sample.val.valid = false
      · simpa [ProcessorPc.faultPending, hv] using pending_of_received hfault
      · simpa [ProcessorPc.faultPending, hv] using hfault
  | beat sample =>
    refine Eq.trans ?_ hstill
    exact congrArg (·, _, _) (counted_of_pending stats.taskProcessorBeats)
  | setBit sample =>
    refine Eq.trans ?_ hstill
    cases hv : sample.val.valid <;>
      simp only [World.processorStep, World.receipts, hv, ProcessorPc.faultPending,
        ProcessorPc.beatPending] <;> rfl
  | fault sample =>
    refine Eq.trans ?_ hstill
    exact congrArg (_, _, ·) (counted_of_pending stats.sensorFaults)
  | test sample =>
    refine Eq.trans ?_ hstill
    by_cases hs : stats.faultMode = .stall ∧ sample.val.sequence % 6 = 0
    · simp only [World.processorStep, if_pos hs]
      rfl
    · simp only [World.processorStep, if_neg hs]
      rfl
  | send frame =>
    rcases hp : BoundedFifo.push queueDepth out frame with ⟨out', sent⟩
    simp only [World.processorStep, hp]
    cases sent <;> exact h.trans (receiptsOf_append rfl rfl).symm
  | count frame sent => cases sent <;> exact h.trans (receiptsOf_append rfl rfl).symm
  | _ => exact hstill

/-- What the logger task receives is a heartbeat pending, counted before the next frame. -/
lemma receipts_loggerStep (w : World) {log : List (Event SensorSample TelemetryFrame)}
    (h : w.receipts = receiptsOf log) :
    w.loggerStep.1.receipts = receiptsOf (log ++ w.loggerStep.2.flatMap Shown.pipeView) := by
  rcases w with ⟨stats, sequence, made, kick, queue, out, dog, sensor, processor, logger, diag⟩
  have hstill := h.trans (@receiptsOf_append log [] rfl rfl).symm
  cases logger with
  | receive =>
    cases out with
    | nil => exact hstill
    | cons frame out =>
      simp only [World.receipts, receiptsOf, Prod.mk.injEq] at h
      obtain ⟨hproc, hlog, hfault⟩ := h
      simp only [World.loggerStep, World.receipts, receiptsOf, List.flatMap_cons,
        List.flatMap_nil, Shown.pipeView, List.append_nil, takenOf_append, takenOf_cons,
        takenOf_nil, outTakenOf_append, outTakenOf_cons, outTakenOf_nil, List.length_append,
        List.length_singleton, Prod.mk.injEq]
      exact ⟨hproc, pending_of_received hlog, hfault⟩
  | beat frame =>
    refine Eq.trans ?_ hstill
    exact congrArg (_, ·, _) (counted_of_pending stats.taskLoggerBeats)
  | _ => exact h.trans (receiptsOf_append rfl rfl).symm

/-- A step other than the `memset` keeps heartbeats and faults in step with what is received. -/
lemma receipts_next (w : World) (a : Action) (hm : a = .diagnostics → w.diagnostics ≠ .memset)
    {log : List (Event SensorSample TelemetryFrame)} (h : w.receipts = receiptsOf log) :
    (firmware.next w a).receipts =
      receiptsOf (log ++ (firmware.emit w a).flatMap Shown.pipeView) := by
  have hstill := h.trans (@receiptsOf_append log [] rfl rfl).symm
  cases a with
  | sensor tick => exact receipts_sensorStep w tick h
  | processor tick => exact receipts_processorStep w tick h
  | logger => exact receipts_loggerStep w h
  | diagnostics =>
    rcases w with ⟨stats, sequence, made, kick, queue, out, dog, sensor, processor, logger, diag⟩
    cases diag with
    | memset => exact absurd rfl (hm rfl)
    | resetSensorQueue =>
      refine h.trans (receiptsOf_append ?_ ?_).symm
      · simp [firmware, Machine.emit, World.step, World.diagnosticsStep]
      · simp [firmware, Machine.emit, World.step, World.diagnosticsStep]
    | _ => exact hstill
  | command line =>
    rcases w with ⟨stats, sequence, made, kick, queue, out, dog, sensor, processor, logger, diag⟩
    cases diag <;> exact hstill
  | watchdog =>
    obtain ⟨warnings, hw⟩ := watchdogStep_stats w
    simp only [firmware, Machine.next, Machine.emit, World.step]
    rw [(watchdogStep_runs _).pipeView]
    simp only [World.receipts, hw]
    exact hstill
  | timer => exact hstill
  | timeout => exact hstill

/-! ### Runs without reset -/

/-- The action delivers a `reset` command. -/
def Action.Resets : Action → Prop
  | .command line => prvHandleCommand line = .reset
  | _             => False

instance : DecidablePred Action.Resets := fun a =>
  match a with
  | .command line => inferInstanceAs (Decidable (prvHandleCommand line = .reset))
  | .timer | .sensor _ | .processor _ | .logger | .watchdog | .timeout | .diagnostics =>
    isFalse id

/-- The diagnostics task is inside `prvResetStats`. -/
def DiagnosticsPc.Resetting : DiagnosticsPc → Prop
  | .idle | .setFault _ => False
  | _ => True

/-- Only its own step, or a command while it is idle, moves the diagnostics task. -/
lemma diagnostics_next {w : World} {a : Action} (hd : a ≠ .diagnostics)
    (hc : ∀ line, a = .command line → w.diagnostics ≠ .idle) :
    (firmware.next w a).diagnostics = w.diagnostics := by
  rcases w with ⟨stats, sequence, made, kick, queue, out, dog, sensor, processor, logger, diag⟩
  cases a with
  | sensor tick =>
    cases sensor with
    | take => cases kick <;> rfl
    | _ => rfl
  | processor tick =>
    cases processor with
    | receive => cases queue <;> rfl
    | _ => rfl
  | logger =>
    cases logger with
    | receive => cases out <;> rfl
    | _ => rfl
  | diagnostics => exact absurd rfl hd
  | command line =>
    cases diag with
    | idle => exact absurd rfl (hc line rfl)
    | _ => rfl
  | watchdog => rfl
  | timer => rfl
  | timeout => rfl

/-- Only a `reset` command leads into `prvResetStats`. -/
lemma resetting_next {w : World} {a : Action} (ha : ¬ a.Resets) (h : ¬ w.diagnostics.Resetting) :
    ¬ (firmware.next w a).diagnostics.Resetting := by
  cases a with
  | diagnostics =>
    cases hd : w.diagnostics with
    | idle =>
      simp only [firmware, Machine.next, World.step, World.diagnosticsStep, hd]
      exact id
    | setFault mode =>
      simp only [firmware, Machine.next, World.step, World.diagnosticsStep, hd]
      exact id
    | _ =>
      rw [hd] at h
      exact absurd trivial h
  | command line =>
    by_cases hd : w.diagnostics = .idle
    · simp only [firmware, Machine.next, World.step, hd]
      cases hc : prvHandleCommand line with
      | reset => exact absurd hc ha
      | _ => exact id
    · rw [diagnostics_next (by simp) fun _ _ => hd]
      exact h
  | _ =>
    rw [diagnostics_next (by simp) (by simp)]
    exact h

/-- Outside `prvResetStats` the pipeline makes its plain moves only. -/
lemma plain_pipeOps {w : World} (h : ¬ w.diagnostics.Resetting) (a : Action) :
    ∀ op ∈ w.pipeOps a, op.Plain := by
  rcases w with ⟨stats, sequence, made, kick, queue, out, dog, sensor, processor, logger, diag⟩
  cases a with
  | sensor tick => cases sensor <;> simp [World.pipeOps, Op.Plain]
  | processor tick => cases processor <;> simp [World.pipeOps, Op.Plain]
  | logger => cases logger <;> simp [World.pipeOps, Op.Plain]
  | diagnostics =>
    cases diag with
    | idle => simp [World.pipeOps]
    | setFault mode => simp [World.pipeOps]
    | _ => exact absurd trivial h
  | _ => simp [World.pipeOps]

/-- The accounting law of the firmware, with a term for each program point between a call and the
counter it is counted in. -/
structure Accounted (w : World) (log : List (Event SensorSample TelemetryFrame)) : Prop where
  made : UInt32.ofNat w.made =
    w.stats.sensorSamples + w.stats.sensorDrops + UInt32.ofNat (w.sensor.hand w.made).pending
  sensorQueue : (acceptedOf log).length = (takenOf log).length + w.sensorQueue.length
  received : UInt32.ofNat (takenOf log).length =
    w.stats.telemetryFrames + w.stats.telemetryDrops + UInt32.ofNat w.processor.work.pending
  telemetryQueue : (outAcceptedOf log).length = (outTakenOf log).length + w.telemetryQueue.length
  processorBeats : UInt32.ofNat (takenOf log).length =
    w.stats.taskProcessorBeats + UInt32.ofNat w.processor.beatPending
  loggerBeats : UInt32.ofNat (outTakenOf log).length =
    w.stats.taskLoggerBeats + UInt32.ofNat w.logger.beatPending
  sensorFaults : UInt32.ofNat ((takenOf log).filter fun s => s.val.valid = false).length =
    w.stats.sensorFaults + UInt32.ofNat w.processor.faultPending

/-- What a run without reset preserves. -/
structure Undisturbed (w : World) (log : List Shown) : Prop where
  diagnostics : ¬ w.diagnostics.Resetting
  balanced : Balanced w.pipe (pipeSimulation.viewLog log)
  receipts : w.receipts = receiptsOf (pipeSimulation.viewLog log)

lemma undisturbed_start : Undisturbed .start [] := ⟨id, balanced_start, rfl⟩

lemma Undisturbed.next {w : World} {log : List Shown} {a : Action} (ha : ¬ a.Resets)
    (h : Undisturbed w log) : Undisturbed (firmware.next w a) (log ++ firmware.emit w a) := by
  refine ⟨resetting_next ha h.diagnostics, ?_, ?_⟩
  · apply pipeSimulation.invariant_step _ h.balanced
      (firmwarePipeline.meets_of_forall _ (plain_pipeOps h.diagnostics a))
    exact fun p log op hop h => h.move hop (step_move queueDepth queueDepth p op)
  · rw [pipeSimulation.viewLog_append]
    apply receipts_next w a _ h.receipts
    rintro - hmem
    exact h.diagnostics (by rw [hmem]; trivial)

/-- In every run without the `reset` command, whatever the order of the tasks and the fault modes
set on the way, every state satisfies the accounting law, in the arithmetic of the counters. -/
theorem firmware_accounted {acts : List Action} (h : ∀ a ∈ acts, ¬ a.Resets) :
    Accounted (firmware.run .start acts)
      (pipeSimulation.viewLog (firmware.trace .start acts)) := by
  obtain ⟨-, hbal, hrec⟩ := firmware.invariant (fun w log a => Undisturbed.next)
    undisturbed_start (firmware.meets_of_forall _ h)
  have htally := tallied_run acts
  simp only [World.receipts, receiptsOf, Prod.mk.injEq] at hrec
  obtain ⟨hproc, hlog, hfault⟩ := hrec
  refine ⟨?_, hbal.queue, ?_, hbal.out, hproc.symm, hlog.symm, hfault.symm⟩
  · have hmade := congrArg UInt32.ofNat hbal.made
    rwa [UInt32.ofNat_add, UInt32.ofNat_add, ← htally .samples, ← htally .drops] at hmade
  · have htaken := congrArg UInt32.ofNat hbal.taken
    rwa [UInt32.ofNat_add, UInt32.ofNat_add, ← htally .frames, ← htally .outDrops] at htaken

/-- Two bursts fill the queue; the third drops its first sample, and the processor then takes one
and makes room for the second, which is sent and not yet counted. -/
def overflowBursts : List Action :=
  [.command "fault overflow".toList, .diagnostics, .timer] ++ List.replicate 16 (.sensor 0) ++
    [.timer] ++ List.replicate 16 (.sensor 0) ++ [.timer] ++ List.replicate 8 (.sensor 0) ++
    [.processor 0] ++ List.replicate 3 (.sensor 0)

/-- The law at a state with a sample in the sensor's hand and one in the processor's. -/
theorem firmware_accounted_overflow_bursts :
    Accounted (firmware.run .start overflowBursts)
        (pipeSimulation.viewLog (firmware.trace .start overflowBursts)) ∧
      (firmware.run .start overflowBursts).made = 8 ∧
      (firmware.run .start overflowBursts).stats.sensorSamples = 6 ∧
      (firmware.run .start overflowBursts).stats.sensorDrops = 1 ∧
      (firmware.run .start overflowBursts).sensorQueue.length = 6 :=
  ⟨firmware_accounted (by decide), by decide +kernel⟩

end EcuTelemetry.Firmware
