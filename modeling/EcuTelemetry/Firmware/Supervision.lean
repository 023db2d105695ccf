import EcuTelemetry.Firmware.Frames
import EcuTelemetry.Watchdog.Stall
import Mathlib.Data.Finset.Interval
import Mathlib.Order.Interval.Finset.Nat

/-!
# What drives what

The kick of the sensor timer is a binary semaphore: one kick stands for at most one turn of
`prvSensorTask`, of at most three samples. A sample gives at most one frame, a frame at most one
line and one heartbeat of the logger, and a healthy report takes a heartbeat of each task. So the
reports count the lines, the lines the samples, and the samples the timer.
-/

namespace EcuTelemetry.Firmware

open EcuTelemetry.Core Pipeline Watchdog

/-! ### Samples and the timer -/

/-- The expiries of the sensor timer. -/
def timers (as : List Action) : ℕ :=
  as.countP fun
    | .timer => true
    | _      => false

/-- The samples still to be made in an iteration of `prvSensorTask`. -/
def Batch.rest : Batch → ℕ
  | .single  => 0
  | .burst i => 2 - i

/-- The samples still to be made in a turn of `prvSensorTask`, at most. -/
def SensorPc.rest : SensorPc → ℕ
  | .take                   => 0
  | .beat | .setBit | .test => 3
  | .make b                 => b.rest + 1
  | .fill b _ | .send b _ | .count b _ _ => b.rest

lemma Batch.next_rest (b : Batch) : b.next.rest ≤ b.rest := by
  cases b with
  | single => exact le_rfl
  | burst i =>
    rw [Batch.next]
    split_ifs with hi
    · simp only [SensorPc.rest, Batch.rest]
      omega
    · exact Nat.zero_le _

/-- The samples made, and those still to come without another kick. -/
def World.due (w : World) : ℕ := w.made + w.sensor.rest + if w.sensorKick then 3 else 0

/-- Only the timer and `prvSensorTask` touch what is due. -/
lemma due_same (w : World) {a : Action} (ht : a ≠ .timer) (hs : ∀ tick, a ≠ .sensor tick) :
    (firmware.next w a).due = w.due := by
  simp only [firmware, Machine.next, World.step]
  cases a with
  | timer => exact absurd rfl ht
  | sensor tick => exact absurd rfl (hs tick)
  | processor tick =>
    simp only [World.processorStep]
    split
    · split <;> rfl
    all_goals rfl
  | logger =>
    simp only [World.loggerStep]
    split
    · split <;> rfl
    all_goals rfl
  | diagnostics =>
    simp only [World.diagnosticsStep]
    split <;> rfl
  | command line =>
    simp only
    split <;> rfl
  | watchdog | timeout => rfl

/-- A step of `prvSensorTask` makes no more samples than were due. -/
lemma due_sensorStep (w : World) (tick : UInt32) : (w.sensorStep tick).1.due ≤ w.due := by
  cases hs : w.sensor with
  | take =>
    simp only [World.sensorStep, hs]
    split_ifs with hk
    · simp [World.due, SensorPc.rest, hs, hk]
    · exact le_rfl
  | test =>
    have hrest (b : Batch) : b.rest + 1 ≤ 3 := by
      cases b with
      | single => exact Nat.le_add_left 1 2
      | burst i => exact Nat.succ_le_succ (Nat.sub_le 2 i)
    simp only [World.sensorStep, hs, World.due, SensorPc.rest]
    exact Nat.add_le_add_right (Nat.add_le_add_left (hrest _) _) _
  | make b =>
    simp only [World.sensorStep, hs, World.due, SensorPc.rest]
    omega
  | count b sample sent =>
    simp only [World.sensorStep, hs, World.due, SensorPc.rest]
    exact Nat.add_le_add_right (Nat.add_le_add_left b.next_rest _) _
  | beat | setBit | fill b mode | send b sample =>
    simp only [World.sensorStep, hs, World.due, SensorPc.rest]
    exact le_rfl

/-- Only the timer adds to what is due. -/
lemma due_next (w : World) (a : Action) : (firmware.next w a).due ≤ w.due + 3 * timers [a] := by
  cases a with
  | timer =>
    simp only [firmware, Machine.next, World.step, World.due, timers]
    split_ifs <;> simp
  | sensor tick => exact due_sensorStep w tick
  | processor | logger | diagnostics | command | watchdog | timeout =>
    exact (due_same w (by simp) (by simp)).le

/-- In a stretch of a run at most three samples are made for each expiry of the timer, beside those
due before. -/
lemma due_run (w : World) (as : List Action) : (firmware.run w as).due ≤ w.due + 3 * timers as := by
  induction as using List.reverseRecOn with
  | nil => exact le_rfl
  | append_singleton as a ih =>
    have hstep := due_next (firmware.run w as) a
    have htimers : timers (as ++ [a]) = timers as + timers [a] := List.countP_append
    rw [Machine.run_append, htimers]
    simp only [Machine.run_cons, Machine.run_nil]
    omega

/-! ### Lines and samples -/

/-- At most as many numbers as a strictly increasing list of them can have up to `n`. -/
lemma length_le_of_pairwise_lt {ks : List ℕ} {n : ℕ} (h : ks.Pairwise (· < ·))
    (hr : ∀ k ∈ ks, 0 < k ∧ k ≤ n) : ks.length ≤ n := by
  have hnodup : ks.Nodup := h.imp Nat.ne_of_lt
  have hsub : ks.toFinset ⊆ Finset.Icc 1 n := by
    intro k hk
    obtain ⟨hpos, hle⟩ := hr k (List.mem_toFinset.mp hk)
    exact Finset.mem_Icc.mpr ⟨hpos, hle⟩
  have hcard := Finset.card_le_card hsub
  rwa [List.toFinset_card_of_nodup hnodup, Nat.card_Icc, Nat.add_sub_cancel] at hcard

/-- Every line is of a sample of its own. -/
lemma printed_le_made (as : List Action) :
    (printedOf (pipeSimulation.viewLog (firmware.trace .start as))).length ≤
      (firmware.run .start as).made := by
  have hsorted := sorted_run as
  have hpw := (List.pairwise_append.mp hsorted.pairwise).1
  have htaken := length_le_of_pairwise_lt hpw fun k hk =>
    hsorted.range k (List.mem_append_left _ hk)
  rw [printed_run as, List.map_append, List.length_append, List.length_map] at htaken
  exact (Nat.le_add_right _ _).trans htaken

/-! ### Reports and lines -/

/-- One for a frame whose heartbeat is before its line. -/
def LoggerPc.unprinted : LoggerPc → ℕ
  | .print _ => 1
  | _        => 0

lemma LoggerPc.unprinted_le_one : ∀ pc : LoggerPc, pc.unprinted ≤ 1
  | .print _ => le_rfl
  | .receive | .beat _ | .setBit _ => Nat.zero_le 1

/-- Only the printing move prints. -/
lemma printedOf_trace {p : Pipe SensorSample TelemetryFrame}
    {ops : List (Op SensorSample TelemetryFrame)} (h : Op.print ∉ ops) :
    printedOf (firmwarePipeline.trace p ops) = [] := by
  induction ops generalizing p with
  | nil => rfl
  | cons op ops ih =>
    rw [List.mem_cons, not_or] at h
    obtain ⟨hop, hops⟩ := h
    have hemit : printedOf (firmwarePipeline.emit p op) = [] := by
      generalize hp' : firmwarePipeline.next p op = p'
      generalize hevs : firmwarePipeline.emit p op = evs
      have hmove := step_move queueDepth queueDepth p op
      rw [hp', hevs] at hmove
      cases hmove with
      | print hsink => exact absurd rfl hop
      | flush => simp
      | _ => rfl
    rw [Machine.trace_cons, printedOf_append, hemit, ih hops, List.nil_append]

/-- The steps of the others do not concern the logger. -/
lemma logger_same (w : World) {a : Action} (ha : a ≠ .logger) :
    (firmware.next w a).logger = w.logger ∧ (w.dogActs a).count (.beat .logger) = 0 ∧
      Op.print ∉ w.pipeOps a := by
  rcases w with ⟨stats, sequence, made, kick, queue, out, dog, sensor, processor, logger, diag⟩
  simp only [firmware, Machine.next, World.step, World.dogActs, World.pipeOps]
  cases a with
  | logger => exact absurd rfl ha
  | sensor tick =>
    cases sensor with
    | take => cases kick <;> simp [World.sensorStep]
    | _ => simp [World.sensorStep]
  | processor tick =>
    cases processor with
    | receive => cases queue <;> simp [World.processorStep]
    | _ => simp [World.processorStep]
  | diagnostics => cases diag <;> simp [World.diagnosticsStep]
  | command line => cases diag <;> simp
  | watchdog => simp [World.watchdogStep]
  | timer | timeout => simp

/-- A heartbeat of the logger is that of a line it is about to print. -/
lemma next_unprinted (w : World) (a : Action) :
    ((firmware.emit w a).flatMap Shown.dogView).count (.beat .logger) + w.logger.unprinted =
      (printedOf ((firmware.emit w a).flatMap Shown.pipeView)).length +
        (firmware.next w a).logger.unprinted := by
  by_cases ha : a = .logger
  · subst ha
    simp only [firmware, Machine.next, Machine.emit, World.step, World.loggerStep]
    cases hl : w.logger with
    | receive =>
      cases w.telemetryQueue <;> simp [hl, LoggerPc.unprinted, Shown.dogView, Shown.pipeView]
    | beat frame => simp [LoggerPc.unprinted]
    | setBit frame =>
      simp only [flatMap_dogView_dog, flatMap_pipeView_dog]
      simp [LoggerPc.unprinted, Dog.step]
    | print frame => simp [LoggerPc.unprinted, Shown.dogView, Shown.pipeView]
  · obtain ⟨hlogger, hcount, hprint⟩ := logger_same w ha
    have hdog := (step_runs w a).dogView
    have hpipe := (step_runs w a).pipeView
    simp only [firmware, Machine.emit] at hdog hpipe ⊢
    rw [hdog, hpipe, count_beat_trace, hcount, printedOf_trace hprint, List.length_nil]
    exact congrArg (0 + LoggerPc.unprinted ·) hlogger.symm

/-- In a stretch of a run, the heartbeats of the logger are those of the lines it prints, but for
one before the first and one after the last. -/
lemma unprinted_run (w : World) (as : List Action) :
    (dogSimulation.viewLog (firmware.trace w as)).count (.beat .logger) + w.logger.unprinted =
      (printedOf (pipeSimulation.viewLog (firmware.trace w as))).length +
        (firmware.run w as).logger.unprinted := by
  refine firmware.invariant_always
    (P := fun w' log =>
      (dogSimulation.viewLog log).count (.beat .logger) + w.logger.unprinted =
        (printedOf (pipeSimulation.viewLog log)).length + w'.logger.unprinted)
    (fun w' log a h => ?_) rfl as
  have hstep := next_unprinted w' a
  have hdog : dogSimulation.viewLog (firmware.emit w' a) =
      (firmware.emit w' a).flatMap Shown.dogView := rfl
  have hpipe : pipeSimulation.viewLog (firmware.emit w' a) =
      (firmware.emit w' a).flatMap Shown.pipeView := rfl
  rw [Simulation.viewLog_append, Simulation.viewLog_append, List.count_append, printedOf_append,
    List.length_append, hdog, hpipe]
  omega

/-- In every run a healthy report stands for a line of its own, a line for a sample of its own, and
there are at most three samples for each expiry of the sensor timer. From any point of any run on,
healthy reports are at most three more than the lines printed from there on: a logger that prints
nothing is covered for at most three more windows. -/
theorem timer_bounds_reports (before after : List Action) :
    ((dogSimulation.viewLog (firmware.trace .start before)).count .healthy ≤
          (printedOf (pipeSimulation.viewLog (firmware.trace .start before))).length + 1 ∧
        (printedOf (pipeSimulation.viewLog (firmware.trace .start before))).length ≤
          (firmware.run .start before).made ∧
        (firmware.run .start before).made ≤ 3 * timers before) ∧
      (dogSimulation.viewLog (firmware.trace (firmware.run .start before) after)).count .healthy ≤
        (printedOf (pipeSimulation.viewLog
          (firmware.trace (firmware.run .start before) after))).length + 3 := by
  have hbeats := healthy_le_beats .prvWatchdogTask (dogSimulation.actsRun .start before)
    (dogSimulation.actsRun (firmware.run .start before) after) Heartbeat.logger
  have hdog : dogSimulation.abs (firmware.run .start before) =
      firmwareWatchdog.run (.start Heartbeat) (dogSimulation.actsRun .start before) :=
    dogSimulation.run .start before
  have hstart : dogSimulation.viewLog (firmware.trace .start before) =
      firmwareWatchdog.trace (.start Heartbeat) (dogSimulation.actsRun .start before) :=
    dogSimulation.trace .start before
  have hlater := dogSimulation.trace (firmware.run .start before) after
  rw [hdog] at hlater
  have hbefore := unprinted_run .start before
  have hafter := unprinted_run (firmware.run .start before) after
  have hdue := due_run .start before
  rw [hstart] at hbefore ⊢
  rw [hlater] at hafter ⊢
  refine ⟨⟨?_, printed_le_made before, ?_⟩, ?_⟩
  · refine hbeats.1.trans ?_
    exact (Nat.le_add_right _ _).trans
      (hbefore.le.trans (Nat.add_le_add_left (LoggerPc.unprinted_le_one _) _))
  · have hnone : World.start.due = 0 := rfl
    rw [hnone, Nat.zero_add] at hdue
    exact (Nat.le_add_right _ _).trans ((Nat.le_add_right _ _).trans hdue)
  · refine hbeats.2.trans (Nat.add_le_add_right ?_ 2)
    exact (Nat.le_add_right _ _).trans
      (hafter.le.trans (Nat.add_le_add_left (LoggerPc.unprinted_le_one _) _))

end EcuTelemetry.Firmware
