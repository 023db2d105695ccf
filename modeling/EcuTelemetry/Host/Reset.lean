import EcuTelemetry.Host.Accounting
import EcuTelemetry.Pipeline.Flush

/-!
# `ecu_reset` in the middle of a run

`ecu_reset` zeroes the counters, clears the two queues and clears the beats under different locks.
`reset_atomic` gives the conditions on the steps in between under which nothing made before the call
is counted or printed after it and the counters agree with the queue again: whatever a thread
carries from before the call must be counted, printed or flushed before the call returns, and not by
the processor at all.
-/

namespace EcuTelemetry.Host

open EcuTelemetry.Core Pipeline

/-! ### Clean resets -/

/-- The processor thread is inside `queue_pop`. -/
def ProcessorPc.popping : ProcessorPc → Bool
  | .pop => true
  | _    => false

/-- After a call of `ecu_reset` with `c` samples made: the processor pops no old sample before
`sensor_queue` is cleared; when it is, it holds no new one and the sensor thread none that is old
and not yet pushed; and when the call returns the sensor thread and the logger hold nothing old. -/
def CleanStep (c : ℕ) (w : World) : Action → Prop
  | .processor _ =>
    w.processor.popping → w.main = .resetSensorQueue →
      ∀ s ∈ w.sim.sensorQueue.head?, c < s.stamp
  | .main =>
    (w.main = .resetSensorQueue →
      (∀ s ∈ w.sim.sensorQueue, s.stamp ≤ c) ∧ ∀ k ∈ (w.sensor.hand w.made).load, c < k) ∧
    (w.main = .resetBeats →
      (∀ k ∈ (w.sensor.hand w.made).stamps, c < k) ∧ ∀ f ∈ w.logger.sink, c < f.stamp)
  | _ => True

instance (c : ℕ) (w : World) (a : Action) : Decidable (CleanStep c w a) :=
  match a with
  | .processor _ => inferInstanceAs (Decidable (_ → _ → _))
  | .main => inferInstanceAs (Decidable ((_ → _) ∧ (_ → _)))
  | .sensor _ | .processorTimeout | .logger _ | .loggerTimeout | .watchdog _ | .setFault _
  | .reset | .stop => isTrue trivial

/-- The main thread is inside `ecu_reset`, or has returned from it. -/
def MainPc.InReset : MainPc → Prop
  | .resetSensorQueue | .resetTelemetryQueue | .resetBeats | .idle => True
  | _ => False

/-- What a clean reset preserves, from its first section on. -/
structure Resetting (c : ℕ) (w : World) (log : List (Event SensorSample TelemetryFrame)) :
    Prop where
  main : w.main.InReset
  tallied : Tallied w log
  cut : Cut c w.pipe log
  purged : w.main ≠ .resetSensorQueue → Purged c w.pipe
  outPurged : w.main ≠ .resetSensorQueue → w.main ≠ .resetTelemetryQueue → OutPurged c w.pipe
  renewed : w.main = .idle → Renewed c w.pipe

/-- The moves of a clean step are clean. -/
lemma clean_pipeOps {c : ℕ} {w : World} {a : Action} (hund : a.Undisturbing) (ha : CleanStep c w a)
    (hmain : w.main.InReset) (hp : w.main ≠ .resetSensorQueue → Purged c w.pipe) :
    hostPipeline.Meets (fun p op => op.Clean c p) w.pipe (w.pipeOps a) := by
  rcases w with ⟨sim, made, sensor, processor, logger, watchdog, main⟩
  cases a with
  | sensor now => cases sensor <;> first | exact ⟨trivial, trivial⟩ | trivial
  | processor now =>
    cases processor with
    | pop =>
      refine ⟨?_, trivial⟩
      by_cases hd : main = .resetSensorQueue
      · exact ha rfl hd
      · exact (hp hd).clean (by simp) (by simp)
    | _ => first | exact ⟨trivial, trivial⟩ | trivial
  | logger now => cases logger <;> first | exact ⟨trivial, trivial⟩ | trivial
  | main =>
    cases main with
    | resetSensorQueue => exact ⟨(ha.1 rfl).1, trivial⟩
    | stopSensorQueue => exact hmain.elim
    | stopTelemetryQueue => exact hmain.elim
    | _ => first | exact ⟨trivial, trivial⟩ | trivial
  | reset => exact hund.elim
  | _ => trivial

/-- Once the call has returned, nothing old comes back, is counted or is printed. -/
lemma Resetting.renew {c : ℕ} {w : World} {log : List (Event SensorSample TelemetryFrame)}
    {a : Action} (hclean : hostPipeline.Meets (fun p op => op.Clean c p) w.pipe (w.pipeOps a))
    (h : Resetting c w log) (hidle : w.main = .idle) :
    Renewed c (host.next w a).pipe ∧ ∀ e ∈ host.emit w a, e.New c := by
  have hstart : Cut c w.pipe (log ++ []) ∧ OutPurged c w.pipe ∧ Renewed c w.pipe ∧
      ∀ e ∈ ([] : List (Event SensorSample TelemetryFrame)), e.New c :=
    ⟨by simpa using h.cut, h.outPurged (by simp [hidle]) (by simp [hidle]), h.renewed hidle,
      by simp⟩
  obtain ⟨-, -, hren, hnew⟩ := pipe_step
    (P := fun p l => Cut c p (log ++ l) ∧ OutPurged c p ∧ Renewed c p ∧ ∀ e ∈ l, e.New c)
    (fun {p p' op l evs} hop h hm => by
      obtain ⟨hcut, hout, hren, hnew⟩ := h
      obtain ⟨hren', hnew'⟩ := hren.move hcut.made hout hcut.worker hm
      refine ⟨by simpa using hcut.move hop hm, hout.move hcut.worker hm, hren', ?_⟩
      intro e he
      rcases List.mem_append.mp he with he | he
      · exact hnew e he
      · exact hnew' e he) hclean hstart
  exact ⟨hren, hnew⟩

/-- A step of another thread keeps what a clean reset preserves. -/
lemma Resetting.next_other {c : ℕ} {w : World} {log : List (Event SensorSample TelemetryFrame)}
    {a : Action} (hund : a.Undisturbing) (hne : a ≠ .main) (ha : CleanStep c w a)
    (h : Resetting c w log) : Resetting c (host.next w a) (log ++ host.emit w a) := by
  have hclean := clean_pipeOps hund ha h.main h.purged
  have hmain := @main_next w a hund hne
  refine ⟨hmain.symm ▸ h.main, h.tallied.next a, ?_, fun hd => ?_, fun hd hd' => ?_, fun hd => ?_⟩
  · exact pipe_step (fun hop h hm => h.move hop hm) hclean h.cut
  · rw [hmain] at hd
    exact (pipe_step (P := fun p log => Cut c p log ∧ Purged c p)
      (fun hop h hm => ⟨h.1.move hop hm, h.2.move h.1.made hm⟩) hclean ⟨h.cut, h.purged hd⟩).2
  · rw [hmain] at hd hd'
    exact (pipe_step (P := fun p log => Cut c p log ∧ OutPurged c p)
      (fun hop h hm => ⟨h.1.move hop hm, h.2.move h.1.worker hm⟩) hclean
      ⟨h.cut, h.outPurged hd hd'⟩).2
  · rw [hmain] at hd
    exact (h.renew hclean hd).1

/-- The main thread's step keeps it as well. -/
lemma Resetting.next_main {c : ℕ} {w : World} {log : List (Event SensorSample TelemetryFrame)}
    (ha : CleanStep c w .main) (h : Resetting c w log) :
    Resetting c (host.next w .main) (log ++ host.emit w .main) := by
  have hcut := pipe_step (fun hop h hm => Cut.move h hop hm)
    (clean_pipeOps (a := .main) trivial ha h.main h.purged) h.cut
  have htal := h.tallied.next .main
  obtain ⟨hmain, -, -, hpur, hout, hren⟩ := h
  rcases w with ⟨sim, made, sensor, processor, logger, watchdog, main⟩
  cases main with
  | idle => exact ⟨hmain, htal, hcut, hpur, hout, hren⟩
  | resetSensorQueue =>
    refine ⟨trivial, htal, hcut, fun _ => ?_, fun _ hd => absurd rfl hd, fun hd => nomatch hd⟩
    exact ⟨(fun s hs => nomatch hs), (ha.1 rfl).2⟩
  | resetTelemetryQueue =>
    refine ⟨trivial, htal, hcut, fun _ => ?_, fun _ _ => ?_, fun hd => nomatch hd⟩
    · exact ⟨(hpur (by simp)).queue, (hpur (by simp)).load⟩
    · exact fun f hf => nomatch hf
  | resetBeats =>
    refine ⟨trivial, htal, hcut, fun _ => ?_, fun _ _ => ?_, fun _ => ?_⟩
    · exact ⟨(hpur (by simp)).queue, (hpur (by simp)).load⟩
    · exact hout (by simp) (by simp)
    · exact ⟨(ha.2 rfl).1, (ha.2 rfl).2⟩
  | _ => exact hmain.elim

/-- Every step of a clean reset, and of the run after it, keeps it. -/
lemma Resetting.next {c : ℕ} {w : World} {log : List (Event SensorSample TelemetryFrame)}
    {a : Action} (ha : a.Undisturbing ∧ CleanStep c w a) (h : Resetting c w log) :
    Resetting c (host.next w a) (log ++ host.emit w a) := by
  by_cases hm : a = .main
  · subst hm
    exact h.next_main ha.2
  · exact h.next_other ha.1 hm ha.2

/-- Outside a call every step is clean. -/
lemma cleanStep_of_idle {c : ℕ} {w : World} (h : w.main = .idle) (a : Action) :
    CleanStep c w a := by
  cases a with
  | processor now => exact fun _ hm => absurd (h.symm.trans hm) (by simp)
  | main => exact ⟨fun hm => absurd (h.symm.trans hm) (by simp),
      fun hm => absurd (h.symm.trans hm) (by simp)⟩
  | _ => trivial

/-! ### The counters after a reset -/

lemma sorted_run (acts : List Action) :
    Sorted (host.run .start acts).pipe (host.trace .start acts) := by
  have h := pipeSimulation.invariant_always
    (fun p log op h => Sorted.move h (step_move queueCapacity queueCapacity p op))
    (show Sorted World.start.pipe [] from sorted_start) acts
  rwa [viewLog_pipeSimulation] at h

/-- The first section of a reset that finds the processor's hand empty. -/
lemma resetting_reset {pre : List Action} (hidle : (host.run .start pre).main = .idle)
    (hwork : (host.run .start pre).processor.work.pending = 0) :
    Resetting (host.run .start pre).made (host.next (host.run .start pre) .reset)
      (host.emit (host.run .start pre) .reset) := by
  have hsorted := sorted_run pre
  generalize host.run .start pre = w at *
  have hempty : w.processor.work = .empty := by
    cases hw : w.processor.work with
    | empty => rfl
    | _ => simp [hw, Work.pending] at hwork
  have hqueue : ∀ s ∈ w.sim.sensorQueue, s.stamp ≤ w.made :=
    fun s hs => (hsorted.queue_range hs).2
  rcases w with ⟨sim, made, sensor, processor, logger, watchdog, main⟩
  obtain rfl : main = .idle := hidle
  refine ⟨trivial, ?_, cut_zero (Nat.le_refl made) hempty hqueue, fun hd => absurd rfl hd,
    fun hd => absurd rfl hd, ?_⟩
  · intro ct
    cases ct <;> rfl
  · intro hd
    cases hd

/-- What is left of the run when the call has returned. -/
lemma Resetting.after {c : ℕ} {w : World} {log : List (Event SensorSample TelemetryFrame)}
    (h : Resetting c w log) (hidle : w.main = .idle) {after : List Action}
    (hafter : ∀ a ∈ after, a.Undisturbing) :
    (host.run w after).main = .idle ∧ Resetting c (host.run w after) (log ++ host.trace w after) ∧
      ∀ e ∈ host.trace w after, e.New c := by
  refine host.invariant
    (P := fun w l => w.main = .idle ∧ Resetting c w (log ++ l) ∧ ∀ e ∈ l, e.New c) ?_
    ⟨hidle, by simpa using h, by simp⟩ (host.meets_of_forall _ hafter)
  rintro w l a ha ⟨hidle, h, hnew⟩
  have hclean : CleanStep c w a := cleanStep_of_idle hidle a
  refine ⟨main_idle_next ha hidle, ?_, ?_⟩
  · rw [← List.append_assoc]
    exact h.next ⟨ha, hclean⟩
  · have hnew' := (h.renew (clean_pipeOps ha hclean h.main h.purged) hidle).2
    intro e he
    rcases List.mem_append.mp he with he | he
    · exact hnew e he
    · exact hnew' e he

/-- For the samples with a stamp above `c`, the counters agree with the queue; `log` is what was
shown since the counters were zeroed. -/
def Agrees (c : ℕ) (w : World) (log : List (Event SensorSample TelemetryFrame)) : Prop :=
  UInt64.ofNat (newer c (acceptedOf log)) =
    w.sim.snapshot.telemetryFrames + w.sim.snapshot.telemetryDrops +
      UInt64.ofNat w.sim.sensorQueue.length + UInt64.ofNat w.processor.work.pending

lemma Resetting.agrees {c : ℕ} {w : World} {log : List (Event SensorSample TelemetryFrame)}
    (h : Resetting c w log) (hidle : w.main = .idle) : Agrees c w log := by
  have hqueue : newer c w.sim.sensorQueue = w.sim.sensorQueue.length :=
    newer_eq_length (h.purged (by simp [hidle])).queue
  have hlaw : newer c (acceptedOf log) = tally .frames log + tally .outDrops log +
      w.sim.sensorQueue.length + w.processor.work.pending :=
    h.cut.law.trans (congrArg (_ + · + _) hqueue)
  have hfr := h.tallied .frames
  have hdr := h.tallied .outDrops
  simp only [EcuSnapshot.counter] at hfr hdr
  rw [Agrees, hlaw, hfr, hdr, UInt64.ofNat_add, UInt64.ofNat_add, UInt64.ofNat_add]

/-- After a reset all of whose steps are clean: in every state after the call has returned, nothing
made before the call has been counted or printed since, and for the samples made since the call the
counters agree with the queue. -/
theorem reset_atomic {pre during after : List Action}
    (hidle : (host.run .start pre).main = .idle)
    (hwork : (host.run .start pre).processor.work.pending = 0)
    (hclean : host.Meets (fun w a => a.Undisturbing ∧ CleanStep (host.run .start pre).made w a)
      (host.next (host.run .start pre) .reset) during)
    (hret : (host.run (host.run .start pre) (.reset :: during)).main = .idle)
    (hafter : ∀ a ∈ after, a.Undisturbing) :
    (∀ e ∈ host.trace (host.run (host.run .start pre) (.reset :: during)) after,
        e.New (host.run .start pre).made) ∧
      Agrees (host.run .start pre).made
        (host.run (host.run (host.run .start pre) (.reset :: during)) after)
        (host.trace (host.run .start pre) (.reset :: during) ++
          host.trace (host.run (host.run .start pre) (.reset :: during)) after) := by
  have h := host.invariant_from (fun w log a => Resetting.next) (resetting_reset hidle hwork) hclean
  obtain ⟨hidle', h', hnew⟩ := h.after hret hafter
  exact ⟨hnew, h'.agrees hidle'⟩

/-- A reset between two cycles. -/
theorem reset_atomic_between_cycles :
    Agrees 1
        (host.run (host.run (host.run .start (boot ++ cycle)) [.reset, .main, .main, .main]) cycle)
        (host.trace (host.run .start (boot ++ cycle)) [.reset, .main, .main, .main] ++
          host.trace (host.run (host.run .start (boot ++ cycle)) [.reset, .main, .main, .main])
            cycle) ∧
      (host.run (host.run (host.run .start (boot ++ cycle)) [.reset, .main, .main, .main])
        cycle).sim.snapshot.telemetryFrames = 1 := by
  have hmade : (host.run .start (boot ++ cycle)).made = 1 := by decide +kernel
  have h := @reset_atomic (boot ++ cycle) [.main, .main, .main] cycle (by decide +kernel)
    (by decide +kernel) (by decide +kernel) (by decide +kernel) (by decide)
  rw [hmade] at h
  exact ⟨h.2, by decide +kernel⟩

/-- The sensor thread has made a sample and is about to push it when `ecu_reset` is called. -/
def beforeReset : World := host.run .start (boot ++ List.replicate 4 (.sensor epoch))

/-- The state when the call returns, with no other thread having moved. -/
def afterReset : World := host.run beforeReset [.reset, .main, .main, .main]

/-- The sample is pushed and counted, processed and printed. -/
def lateSample : List Action :=
  List.replicate 2 (.sensor epoch) ++ List.replicate 6 (.processor epoch) ++
    List.replicate 3 (.logger epoch)

/-- The sample made before the call is counted as a sample and as a frame and printed after it, and
the counters do not agree with what was made since. -/
theorem lateSample_counted :
    beforeReset.main = .idle ∧ afterReset.main = .idle ∧ beforeReset.made = 1 ∧
      1 ∈ countedOf .samples (host.trace afterReset lateSample) ∧
      1 ∈ countedOf .frames (host.trace afterReset lateSample) ∧
      (∃ f ∈ printedOf (host.trace afterReset lateSample), f.stamp = 1) ∧
      ¬ Agrees 1 (host.run afterReset lateSample)
        (host.trace beforeReset [.reset, .main, .main, .main] ++
          host.trace afterReset lateSample) := by
  unfold Agrees
  decide +kernel

end EcuTelemetry.Host
