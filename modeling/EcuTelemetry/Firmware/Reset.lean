import EcuTelemetry.Firmware.Accounting
import EcuTelemetry.Pipeline.Flush
import Mathlib.Algebra.Group.Nat.Defs

/-!
# `prvResetStats` in the middle of a run

`prvResetStats` zeroes the statistics under the mutex and empties the queues after releasing it.
`reset_consistent` gives the conditions on the steps in between under which the counters agree with
the queues afterwards: no task may carry a sample over the `memset`, no sample accepted before it
may be received after it, and none accepted after it may still be queued at the flush.
-/

namespace EcuTelemetry.Firmware

open EcuTelemetry.Core Pipeline

/-! ### Clean resets -/

/-- The samples made so far, apart from one that the sensor task has not sent yet. -/
def World.cut (w : World) : ℕ :=
  match w.sensor with
  | .fill _ _ | .send _ _ => w.made - 1
  | _ => w.made

/-- At the `memset` the processor holds no sample, and the sensor task none that it has sent. -/
def World.CleanMemset (w : World) : Prop :=
  w.processor = .receive ∧ (w.sensor.hand w.made).acceptedPending = 0

instance (w : World) : Decidable w.CleanMemset := inferInstanceAs (Decidable (_ ∧ _))

/-- After a `memset` with cut `c`: the processor receives no old sample before `xSensorQueue` is
reset, no new one is queued when it is, and there is no further `memset`. -/
def CleanStep (c : ℕ) (w : World) : Action → Prop
  | .processor _ =>
    w.processor = .receive → w.diagnostics = .resetSensorQueue →
      ∀ s ∈ w.sensorQueue.head?, c < s.stamp
  | .diagnostics =>
    w.diagnostics ≠ .memset ∧
      (w.diagnostics = .resetSensorQueue → ∀ s ∈ w.sensorQueue, s.stamp ≤ c)
  | _ => True

instance (c : ℕ) (w : World) (a : Action) : Decidable (CleanStep c w a) :=
  match a with
  | .processor _ => inferInstanceAs (Decidable (_ → _ → _))
  | .diagnostics => inferInstanceAs (Decidable (_ ∧ _))
  | .timer | .sensor _ | .logger | .watchdog | .timeout | .command _ => isTrue trivial

/-- What a clean reset preserves, from the `memset` on. -/
structure Resetting (c : ℕ) (w : World) (log : List Shown) : Prop where
  cut : Cut c w.pipe (pipeSimulation.viewLog log)
  offered : Offered c w.pipe (pipeSimulation.viewLog log)
  purged : w.diagnostics ≠ .resetSensorQueue → Purged c w.pipe
  tallied : Tallied w log

/-- The moves of a clean step are clean. -/
lemma clean_pipeOps {c : ℕ} {w : World} {a : Action} (ha : CleanStep c w a)
    (hp : w.diagnostics ≠ .resetSensorQueue → Purged c w.pipe) :
    firmwarePipeline.Meets (fun p op => op.Clean c p) w.pipe (w.pipeOps a) := by
  rcases w with ⟨stats, sequence, made, kick, queue, out, dog, sensor, processor, logger, diag⟩
  cases a with
  | sensor tick => cases sensor <;> first | exact ⟨trivial, trivial⟩ | trivial
  | processor tick =>
    cases processor with
    | receive =>
      refine ⟨?_, trivial⟩
      by_cases hd : diag = .resetSensorQueue
      · exact ha rfl hd
      · exact (hp hd).clean (by simp) (by simp)
    | _ => first | exact ⟨trivial, trivial⟩ | trivial
  | logger => cases logger <;> first | exact ⟨trivial, trivial⟩ | trivial
  | diagnostics =>
    cases diag with
    | memset => exact absurd rfl ha.1
    | resetSensorQueue => exact ⟨ha.2 rfl, trivial⟩
    | _ => first | exact ⟨trivial, trivial⟩ | trivial
  | _ => trivial

/-- A clean step keeps what a clean reset preserves. -/
lemma Resetting.next {c : ℕ} {w : World} {log : List Shown} {a : Action} (ha : CleanStep c w a)
    (h : Resetting c w log) : Resetting c (firmware.next w a) (log ++ firmware.emit w a) := by
  obtain ⟨hcut, hoff, hpur, htal⟩ := h
  have hclean := clean_pipeOps ha hpur
  obtain ⟨hcut', hoff'⟩ := pipeSimulation.invariant_step
    (fun p log op hop (h : Cut c p log ∧ Offered c p log) =>
      ⟨h.1.move hop (step_move queueDepth queueDepth p op),
        h.2.move h.1.made hop (step_move queueDepth queueDepth p op)⟩)
    ⟨hcut, hoff⟩ hclean
  refine ⟨hcut', hoff', fun hd => ?_, ?_⟩
  · by_cases hd₀ : w.diagnostics = .resetSensorQueue
    · -- the step that leaves this program point empties the queue
      by_cases hdiag : a = .diagnostics
      · subst hdiag
        have hnext : (firmware.next w .diagnostics).pipe = { w.pipe with queue := [] } := by
          simp only [firmware, Machine.next, World.step, World.diagnosticsStep, hd₀]
          rfl
        rw [hnext]
        exact purged_flush hoff.load
      · exact absurd ((diagnostics_next hdiag fun _ _ => by simp [hd₀]).trans hd₀) hd
    · obtain ⟨-, hpur'⟩ := pipeSimulation.invariant_step
        (fun p log op hop (h : Cut c p log ∧ Purged c p) =>
          ⟨h.1.move hop (step_move queueDepth queueDepth p op),
            h.2.move h.1.made (step_move queueDepth queueDepth p op)⟩)
        ⟨hcut, hpur hd₀⟩ hclean
      exact hpur'
  · intro ct
    rw [pipeSimulation.viewLog_append, tally_append]
    exact counter_next w a ct (htal ct)

/-- What is queued at any time is old, and what the sensor task has yet to send is new. -/
lemma cut_separates (pre : List Action) :
    (∀ s ∈ (firmware.run .start pre).sensorQueue, s.stamp ≤ (firmware.run .start pre).cut) ∧
      (∀ k ∈ ((firmware.run .start pre).sensor.hand (firmware.run .start pre).made).load,
        (firmware.run .start pre).cut < k) ∧
      (firmware.run .start pre).cut ≤ (firmware.run .start pre).made := by
  have hsorted := sorted_run pre
  generalize firmware.run .start pre = w at hsorted ⊢
  by_cases hload : (w.sensor.hand w.made).load = [w.made]
  · have hcut : w.cut = w.made - 1 := by
      cases hs : w.sensor <;> simp [World.cut, hs, SensorPc.hand, Hand.load] at hload ⊢
    have hmem : w.made ∈ w.pipe.hand.load := by
      rw [show w.pipe.hand.load = [w.made] from hload]
      exact List.mem_singleton_self _
    have hpos := (hsorted.load_range hmem).1
    refine ⟨fun s hs => ?_, fun k hk => ?_, ?_⟩
    · have hlt := hsorted.queue_lt_load hs hmem
      omega
    · rw [hload, List.mem_singleton] at hk
      omega
    · omega
  · have hcut : w.cut = w.made ∧ (w.sensor.hand w.made).load = [] := by
      cases hs : w.sensor <;> simp [World.cut, hs, SensorPc.hand, Hand.load] at hload ⊢
    rw [hcut.1, hcut.2]
    exact ⟨fun s hs => (hsorted.queue_range hs).2, fun k hk => absurd hk List.not_mem_nil,
      Nat.le_refl _⟩

/-! ### The counters after a reset -/

/-- The counters agree with the queue; `log` is what was shown since the `memset`. -/
structure Consistent (w : World) (log : List (Event SensorSample TelemetryFrame)) : Prop where
  accepted : UInt32.ofNat (acceptedOf log).length =
    w.stats.telemetryFrames + w.stats.telemetryDrops + UInt32.ofNat w.sensorQueue.length +
      UInt32.ofNat w.processor.work.pending
  bound : (acceptedOf log).length < 2 ^ 32 →
    w.stats.telemetryFrames.toNat + w.stats.telemetryDrops.toNat ≤
      w.stats.sensorSamples.toNat + (w.sensor.hand w.made).acceptedPending
  flushed : ∀ s ∈ flushedOf log, s.stamp ∉ countedOf .samples log

/-- The `memset` of a clean reset. -/
lemma resetting_memset {pre : List Action}
    (hm : (firmware.run .start pre).diagnostics = .memset)
    (hclean : (firmware.run .start pre).CleanMemset) :
    Resetting (firmware.run .start pre).cut
      (firmware.next (firmware.run .start pre) .diagnostics)
      (firmware.emit (firmware.run .start pre) .diagnostics) := by
  obtain ⟨hqueue, hload, hmade⟩ := cut_separates pre
  obtain ⟨hproc, hsent⟩ := hclean
  generalize firmware.run .start pre = w at *
  rcases w with ⟨stats, sequence, made, kick, queue, out, dog, sensor, processor, logger, diag⟩
  obtain rfl : diag = .memset := hm
  obtain rfl : processor = .receive := hproc
  refine ⟨cut_zero hmade rfl hqueue, offered_zero hload ?_, fun hd => absurd rfl hd, ?_⟩
  · intro s hs
    change sensor.hand made = .offered s true at hs
    cases sensor with
    | count b sample sent =>
      rw [SensorPc.hand, Hand.offered.injEq] at hs
      rw [hs.2] at hsent
      exact absurd hsent (by simp [SensorPc.hand, Hand.acceptedPending])
    | _ => simp [SensorPc.hand] at hs
  · intro c
    cases c <;> rfl

/-- After a reset all of whose steps are clean, the counters agree with the queue in every state
from the reset of `xSensorQueue` on. -/
theorem reset_consistent {pre rest : List Action}
    (hm : (firmware.run .start pre).diagnostics = .memset)
    (hmemset : (firmware.run .start pre).CleanMemset)
    (hrest : firmware.Meets (CleanStep (firmware.run .start pre).cut)
      (firmware.next (firmware.run .start pre) .diagnostics) rest)
    (hd : (firmware.run (firmware.run .start pre) (.diagnostics :: rest)).diagnostics ≠
      .resetSensorQueue) :
    Consistent (firmware.run (firmware.run .start pre) (.diagnostics :: rest))
      (pipeSimulation.viewLog
        (firmware.trace (firmware.run .start pre) (.diagnostics :: rest))) := by
  obtain ⟨hcut, hoff, hpur, htal⟩ := firmware.invariant_from
    (fun w log a => Resetting.next) (resetting_memset hm hmemset) hrest
  rw [Machine.run_cons, Machine.trace_cons] at *
  generalize firmware.run (firmware.next _ _) rest = w at *
  generalize firmware.emit _ _ ++ firmware.trace _ rest = log at *
  have hqueue : newer _ w.sensorQueue = w.sensorQueue.length := newer_eq_length (hpur hd).queue
  have hlaw : (acceptedOf (pipeSimulation.viewLog log)).length =
      tally .frames (pipeSimulation.viewLog log) + tally .outDrops (pipeSimulation.viewLog log) +
        w.sensorQueue.length + w.processor.work.pending := by
    rw [← newer_eq_length hoff.accepted, hcut.law]
    exact congrArg (_ + · + _) hqueue
  have hfr := htal .frames
  have hdr := htal .outDrops
  have hsa := htal .samples
  simp only [AppStats.counter] at hfr hdr hsa
  refine ⟨?_, fun hlt => ?_, fun s hs hk => ?_⟩
  · rw [hlaw, hfr, hdr, UInt32.ofNat_add, UInt32.ofNat_add, UInt32.ofNat_add]
  · have hacc := hoff.law
    rw [hfr, hdr, hsa, UInt32.toNat_ofNat', UInt32.toNat_ofNat', UInt32.toNat_ofNat',
      Nat.mod_eq_of_lt (by omega), Nat.mod_eq_of_lt (by omega), Nat.mod_eq_of_lt (by omega)]
    have hpipe : w.pipe.hand.acceptedPending = (w.sensor.hand w.made).acceptedPending := rfl
    omega
  · exact absurd (hoff.counted _ hk) (Nat.not_lt.mpr (hoff.flushed s hs))

/-- A sample is made, sent and counted. -/
def oneSample : List Action := .timer :: List.replicate 8 (.sensor 0)

/-- A reset of an idle pipeline with two samples queued. -/
def quietReset : List Action := oneSample ++ oneSample ++ [.command "reset".toList]

/-- The rest of that reset, and a sample that is processed after it. -/
def quietRest : List Action :=
  List.replicate 3 .diagnostics ++ oneSample ++ List.replicate 7 (.processor 0)

/-- A clean reset: the two samples are gone, the third is counted on both sides. -/
theorem reset_consistent_quiet :
    Consistent (firmware.run (firmware.run .start quietReset) (.diagnostics :: quietRest))
        (pipeSimulation.viewLog
          (firmware.trace (firmware.run .start quietReset) (.diagnostics :: quietRest))) ∧
      (firmware.run (firmware.run .start quietReset)
        (.diagnostics :: quietRest)).stats.telemetryFrames = 1 := by
  refine ⟨reset_consistent ?_ ?_ ?_ ?_, ?_⟩ <;> decide +kernel

/-- Three samples are made, and the processor has received the first when the reset begins. -/
def busyReset : List Action :=
  oneSample ++ [.processor 0] ++ oneSample ++ oneSample ++ [.command "reset".toList]

/-- After the `memset` the processor finishes all three and a fourth sample is sent and counted;
then the reset goes on. -/
def busyRest : List Action :=
  List.replicate 20 (.processor 0) ++ oneSample ++ List.replicate 3 .diagnostics

/-- The state after the busy reset. -/
def busyWorld : World := firmware.run (firmware.run .start busyReset) (.diagnostics :: busyRest)

/-- What is shown from its `memset` on. -/
def busyLog : List (Event SensorSample TelemetryFrame) :=
  pipeSimulation.viewLog (firmware.trace (firmware.run .start busyReset) (.diagnostics :: busyRest))

/-- The reset has returned, three frames are counted for one sample accepted since, and that sample
was counted and flushed. -/
theorem busyReset_inconsistent :
    (firmware.run .start busyReset).diagnostics = .memset ∧ busyWorld.diagnostics = .idle ∧
      UInt32.ofNat (acceptedOf busyLog).length ≠
        busyWorld.stats.telemetryFrames + busyWorld.stats.telemetryDrops +
          UInt32.ofNat busyWorld.sensorQueue.length +
          UInt32.ofNat busyWorld.processor.work.pending ∧
      busyWorld.stats.sensorSamples.toNat + 1 <
        busyWorld.stats.telemetryFrames.toNat + busyWorld.stats.telemetryDrops.toNat ∧
      ∃ s ∈ flushedOf busyLog, s.stamp ∈ countedOf .samples busyLog := by
  decide +kernel

end EcuTelemetry.Firmware
