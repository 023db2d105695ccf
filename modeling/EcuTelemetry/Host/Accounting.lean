import EcuTelemetry.Host.Refinement
import Mathlib.Algebra.Group.Nat.Defs

/-!
# The host simulator's counters

The counters of the snapshot are the counts of the abstract pipeline modulo 2^64, in every run. In a
run without `ecu_reset` and `ecu_stop` they obey its accounting law, and the logger receives frames
in the order of their sequence numbers until these wrap.
-/

namespace EcuTelemetry.Host

open EcuTelemetry.Core Pipeline

/-! ### Counters -/

/-- The field that holds a count of the pipeline. -/
def EcuSnapshot.counter (snap : EcuSnapshot) : Counter → UInt64
  | .samples  => snap.sensorSamples
  | .drops    => snap.sensorDrops
  | .frames   => snap.telemetryFrames
  | .outDrops => snap.telemetryDrops

@[simp] lemma counter_beat (snap : EcuSnapshot) (task : TaskId) (c : Counter) :
    (snap.beat task).counter c = snap.counter c := by
  cases task <;> cases c <;> rfl

/-- The watchdog counts nothing but its warnings and its beats. -/
lemma watchdogStep_counter (w : World) (now : Timespec) (c : Counter) :
    (w.watchdogStep now).sim.snapshot.counter c = w.sim.snapshot.counter c := by
  cases h : w.watchdog with
  | boot =>
    simp only [World.watchdogStep, h]
    exact counter_beat _ _ c
  | beat =>
    simp only [World.watchdogStep, h]
    exact counter_beat _ _ c
  | warn task =>
    simp only [World.watchdogStep, h]
    cases c <;> rfl
  | _ => simp only [World.watchdogStep, h]

/-- A counter follows the events shown, modulo 2^64. -/
lemma counter_next (w : World) (a : Action) (c : Counter) {n : ℕ}
    (h : w.sim.snapshot.counter c = UInt64.ofNat n) :
    (host.next w a).sim.snapshot.counter c =
      UInt64.ofNat ((host.emit w a).foldl (tallyStep c) n) := by
  rcases w with ⟨⟨stop, last, init, queue, out, snap, fault, seq, speed⟩, made, sensor, processor,
    logger, watchdog, main⟩
  have hsucc : snap.counter c + 1 = UInt64.ofNat (n + 1) :=
    (congrArg (· + 1) h).trans (UInt64.ofNat_add n 1).symm
  cases a with
  | sensor now =>
    cases sensor with
    | boot => exact (counter_beat _ _ c).trans h
    | beat => exact (counter_beat _ _ c).trans h
    | push b s =>
      rcases hp : BoundedFifo.push queueCapacity queue ⟨made, s⟩ with ⟨queue', ok⟩
      cases ok <;>
        simpa [host, Machine.next, Machine.emit, World.step, World.sensorStep, hp, tallyStep]
          using h
    | count b s ok => cases ok <;> cases c <;> first | exact h | exact hsucc
    | _ => exact h
  | processor now =>
    cases processor with
    | boot => exact (counter_beat _ _ c).trans h
    | beat => exact (counter_beat _ _ c).trans h
    | pop => cases queue <;> exact h
    | push f =>
      rcases hp : BoundedFifo.push queueCapacity out f with ⟨out', ok⟩
      cases ok <;>
        simpa [host, Machine.next, Machine.emit, World.step, World.processorStep, hp, tallyStep]
          using h
    | count f ok => cases ok <;> cases c <;> first | exact h | exact hsucc
    | _ => exact h
  | processorTimeout => cases processor <;> exact h
  | logger now =>
    cases logger with
    | boot => exact (counter_beat _ _ c).trans h
    | beat => exact (counter_beat _ _ c).trans h
    | pop => cases out <;> exact h
    | _ => exact h
  | loggerTimeout => cases logger <;> exact h
  | watchdog now => exact (watchdogStep_counter _ now c).trans h
  | setFault mode => cases main <;> cases c <;> exact h
  | reset =>
    cases main with
    | idle => cases c <;> rfl
    | _ => exact h
  | stop => cases main <;> exact h
  | main =>
    cases main with
    | resetSensorQueue =>
      simpa [host, Machine.next, Machine.emit, World.step, World.mainStep,
        foldl_tallyStep_flushed] using h
    | stopSensorQueue =>
      simpa [host, Machine.next, Machine.emit, World.step, World.mainStep,
        foldl_tallyStep_flushed] using h
    | join =>
      simp only [host, Machine.next, Machine.emit, World.step, World.mainStep]
      split <;> exact h
    | _ => exact h

/-- The counters are the counts of the pipeline. -/
def Tallied (w : World) (log : List (Event SensorSample TelemetryFrame)) : Prop :=
  ∀ c, w.sim.snapshot.counter c = UInt64.ofNat (tally c log)

lemma Tallied.next {w : World} {log : List (Event SensorSample TelemetryFrame)} (a : Action)
    (h : Tallied w log) : Tallied (host.next w a) (log ++ host.emit w a) := by
  intro c
  rw [tally_append]
  exact counter_next w a c (h c)

lemma tallied_start : Tallied .start [] := fun c => by cases c <;> rfl

/-! ### Sequence numbers -/

/-- The call is neither `ecu_reset` nor `ecu_stop`. -/
def Action.Undisturbing : Action → Prop
  | .reset | .stop => False
  | _ => True

instance : DecidablePred Action.Undisturbing := fun a =>
  match a with
  | .reset | .stop => isFalse id
  | .sensor _ | .processor _ | .processorTimeout | .logger _ | .loggerTimeout | .watchdog _
  | .setFault _ | .main => isTrue trivial

/-- Only its own steps and its calls move the main thread. -/
lemma main_next {w : World} {a : Action} (ha : a.Undisturbing) (hm : a ≠ .main) :
    (host.next w a).main = w.main := by
  rcases w with ⟨⟨stop, last, init, queue, out, snap, fault, seq, speed⟩, made, sensor, processor,
    logger, watchdog, main⟩
  cases a with
  | sensor now =>
    cases sensor with
    | count b s ok => cases ok <;> rfl
    | _ => rfl
  | processor now =>
    cases processor with
    | pop => cases queue <;> rfl
    | count f ok => cases ok <;> rfl
    | _ => rfl
  | processorTimeout => cases processor <;> rfl
  | logger now =>
    cases logger with
    | pop => cases out <;> rfl
    | _ => rfl
  | loggerTimeout => cases logger <;> rfl
  | watchdog now => cases watchdog <;> rfl
  | setFault mode => cases main <;> rfl
  | reset => exact ha.elim
  | stop => exact ha.elim
  | main => exact absurd rfl hm

/-- Outside a call the main thread stays there. -/
lemma main_idle_next {w : World} {a : Action} (ha : a.Undisturbing) (h : w.main = .idle) :
    (host.next w a).main = .idle := by
  by_cases hm : a = .main
  · subst hm
    simp only [host, Machine.next, World.step, World.mainStep, h]
  · exact (main_next ha hm).trans h

/-- A number that the sensor thread has drawn is `seq`. -/
def SensorPc.Drawn (seq : UInt64) : SensorPc → Prop
  | .fill _ drawn => drawn = seq
  | _ => True

@[simp] lemma Batch.next_drawn (b : Batch) (seq : UInt64) : b.next.Drawn seq := by
  cases b <;> trivial

/-- Until a reset, sequence numbers count the samples made. -/
structure Counting (w : World) : Prop where
  sequence : w.sim.sensorSequence = UInt64.ofNat w.made
  drawn : w.sensor.Drawn (UInt64.ofNat w.made)

lemma counting_start : Counting .start := ⟨rfl, trivial⟩

lemma Counting.next {w : World} {a : Action} (ha : a ≠ .reset) (h : Counting w) :
    Counting (host.next w a) := by
  rcases w with ⟨⟨stop, last, init, queue, out, snap, fault, seq, speed⟩, made, sensor, processor,
    logger, watchdog, main⟩
  obtain ⟨hseq, hdrawn⟩ := h
  cases a with
  | sensor now =>
    cases sensor with
    | loop => cases stop <;> exact ⟨hseq, trivial⟩
    | mode => cases fault <;> exact ⟨hseq, trivial⟩
    | burst i =>
      refine ⟨hseq, ?_⟩
      simp only [host, Machine.next, World.step, World.sensorStep]
      split <;> trivial
    | check =>
      refine ⟨hseq, ?_⟩
      simp only [host, Machine.next, World.step, World.sensorStep]
      split <;> trivial
    | draw b =>
      have hnext : seq + 1 = UInt64.ofNat (made + 1) :=
        (congrArg (· + 1) hseq).trans (UInt64.ofNat_add made 1).symm
      exact ⟨hnext, hnext⟩
    | count b s ok => cases ok <;> exact ⟨hseq, b.next_drawn _⟩
    | _ => exact ⟨hseq, trivial⟩
  | processor now =>
    cases processor with
    | pop => cases queue <;> exact ⟨hseq, hdrawn⟩
    | count f ok => cases ok <;> exact ⟨hseq, hdrawn⟩
    | _ => exact ⟨hseq, hdrawn⟩
  | processorTimeout => cases processor <;> exact ⟨hseq, hdrawn⟩
  | logger now =>
    cases logger with
    | pop => cases out <;> exact ⟨hseq, hdrawn⟩
    | _ => exact ⟨hseq, hdrawn⟩
  | loggerTimeout => cases logger <;> exact ⟨hseq, hdrawn⟩
  | watchdog now => cases watchdog <;> exact ⟨hseq, hdrawn⟩
  | setFault mode => cases main <;> exact ⟨hseq, hdrawn⟩
  | reset => exact absurd rfl ha
  | stop => cases main <;> exact ⟨hseq, hdrawn⟩
  | main =>
    cases main with
    | join =>
      simp only [host, Machine.next, World.step, World.mainStep]
      split <;> exact ⟨hseq, hdrawn⟩
    | _ => exact ⟨hseq, hdrawn⟩

/-- Until a reset or a stop, sequence numbers count the samples made, and the main thread is in no
call. -/
structure Numbered (w : World) : Prop where
  idle : w.main = .idle
  sequence : w.sim.sensorSequence = UInt64.ofNat w.made
  drawn : w.sensor.Drawn (UInt64.ofNat w.made)

lemma numbered_start : Numbered .start := ⟨rfl, rfl, trivial⟩

lemma Numbered.counting {w : World} (h : Numbered w) : Counting w := ⟨h.sequence, h.drawn⟩

lemma Numbered.next {w : World} {a : Action} (ha : a.Undisturbing) (h : Numbered w) :
    Numbered (host.next w a) := by
  have hne : a ≠ .reset := by
    rintro rfl
    exact ha
  have hcount : Counting (host.next w a) := h.counting.next hne
  exact ⟨main_idle_next ha h.idle, hcount.sequence, hcount.drawn⟩

/-- Outside the main thread's calls the pipeline makes its plain moves only. -/
lemma plain_pipeOps {w : World} (h : w.main = .idle) {a : Action} (ha : a.Undisturbing) :
    ∀ op ∈ w.pipeOps a, op.Plain := by
  rcases w with ⟨sim, made, sensor, processor, logger, watchdog, main⟩
  obtain rfl : main = .idle := h
  cases a with
  | sensor now => cases sensor <;> simp [World.pipeOps, Op.Plain]
  | processor now => cases processor <;> simp [World.pipeOps, Op.Plain]
  | logger now => cases logger <;> simp [World.pipeOps, Op.Plain]
  | reset => exact ha.elim
  | _ => simp [World.pipeOps]

/-- A queued sample has the number of its place. -/
def NumberedSample (s : Stamped SensorSample) : Prop := s.val.sequence = UInt64.ofNat s.stamp

/-- A frame has the number of its sample's place. -/
def NumberedFrame (f : Stamped TelemetryFrame) : Prop := f.val.sequence = UInt64.ofNat f.stamp

lemma makes_pipeOps {w : World} (h : Counting w) (a : Action) :
    hostPipeline.Meets (fun p op => op.Makes NumberedSample NumberedFrame p) w.pipe
      (w.pipeOps a) := by
  rcases w with ⟨sim, made, sensor, processor, logger, watchdog, main⟩
  cases a with
  | sensor now =>
    cases sensor with
    | fill b seq =>
      refine ⟨fun k hk => ?_, trivial⟩
      obtain rfl : made = k := Hand.drawn.inj hk
      exact (prvMakeSensorSample_sequence _ _ _).trans h.drawn
    | _ => first | exact ⟨trivial, trivial⟩ | trivial
  | processor now =>
    cases processor with
    | process s =>
      refine ⟨fun s' hs' hmade => ?_, trivial⟩
      obtain rfl : s = s' := Work.held.inj hs'
      exact hmade
    | _ => first | exact ⟨trivial, trivial⟩ | trivial
  | logger now => cases logger <;> first | exact ⟨trivial, trivial⟩ | trivial
  | reset => cases main <;> first | exact ⟨trivial, trivial⟩ | trivial
  | main => cases main <;> first | exact ⟨trivial, trivial⟩ | trivial
  | _ => trivial

/-! ### Runs without reset and stop -/

/-- The accounting law of the host simulator, in the arithmetic of its counters. -/
structure Accounted (w : World) (log : List (Event SensorSample TelemetryFrame)) : Prop where
  drawn : w.sim.sensorSequence =
    w.sim.snapshot.sensorSamples + w.sim.snapshot.sensorDrops +
      UInt64.ofNat (w.sensor.hand w.made).pending
  accepted : UInt64.ofNat (acceptedOf log).length =
    w.sim.snapshot.sensorSamples + UInt64.ofNat (w.sensor.hand w.made).acceptedPending
  processed : UInt64.ofNat (acceptedOf log).length =
    w.sim.snapshot.telemetryFrames + w.sim.snapshot.telemetryDrops +
      UInt64.ofNat w.sim.sensorQueue.length + UInt64.ofNat w.processor.work.pending
  logged : (outAcceptedOf log).length = (outTakenOf log).length + w.sim.telemetryQueue.length
  increasing : w.made < 2 ^ 64 →
    ((outTakenOf log).map fun f => f.val.sequence).Pairwise (· < ·)

/-- What a run without reset and stop preserves. -/
structure Running (w : World) (log : List (Event SensorSample TelemetryFrame)) : Prop where
  numbered : Numbered w
  tallied : Tallied w log
  balanced : Balanced w.pipe log
  sorted : Sorted w.pipe log
  every : Every NumberedSample NumberedFrame w.pipe log

lemma running_start : Running .start [] :=
  ⟨numbered_start, tallied_start, balanced_start, sorted_start, every_start _ _⟩

lemma Running.next {w : World} {log : List (Event SensorSample TelemetryFrame)} {a : Action}
    (ha : a.Undisturbing) (h : Running w log) : Running (host.next w a) (log ++ host.emit w a) := by
  obtain ⟨hnum, htal, hbal, hsort, hevery⟩ := h
  refine ⟨hnum.next ha, htal.next a, ?_, ?_, ?_⟩
  · exact pipe_step (fun hop h hm => h.move hop hm)
      (hostPipeline.meets_of_forall _ (plain_pipeOps hnum.idle ha)) hbal
  · exact pipe_step (fun _ h hm => h.move hm)
      (hostPipeline.meets_of_forall _ (plain_pipeOps hnum.idle ha)) hsort
  · exact pipe_step (fun hop h hm => h.move hop hm) (makes_pipeOps hnum.counting a) hevery

/-- Below 2^64 the numbers of samples are ordered as the samples are. -/
lemma ofNat_lt_ofNat {j k : ℕ} (hk : k < 2 ^ 64) (h : j < k) : UInt64.ofNat j < UInt64.ofNat k := by
  rw [UInt64.lt_iff_toNat_lt, UInt64.toNat_ofNat', UInt64.toNat_ofNat', Nat.mod_eq_of_lt hk,
    Nat.mod_eq_of_lt (Nat.lt_trans h hk)]
  exact h

/-- The logger receives frames with increasing numbers while these do not wrap. -/
lemma Running.increasing {w : World} {log : List (Event SensorSample TelemetryFrame)}
    (h : Running w log) (hmade : w.made < 2 ^ 64) :
    ((outTakenOf log).map fun f => f.val.sequence).Pairwise (· < ·) := by
  have hpw := (List.pairwise_append.mp h.sorted.pairwise).1
  rw [List.pairwise_map] at hpw ⊢
  apply hpw.imp_of_mem
  intro f g hf hg hlt
  rw [h.every.received f hf, h.every.received g hg]
  have hle := (h.sorted.range g.stamp (List.mem_append_left _ (List.mem_map_of_mem hg))).2
  exact ofNat_lt_ofNat (Nat.lt_of_le_of_lt hle hmade) hlt

/-- In every run before the first `ecu_reset` or `ecu_stop`, whatever the order of the threads and
the fault modes set on the way, no sample is lost or duplicated unaccounted. -/
theorem host_accounted {acts : List Action} (h : ∀ a ∈ acts, a.Undisturbing) :
    Accounted (host.run .start acts) (host.trace .start acts) := by
  have hrun := host.invariant (fun w log a => Running.next) running_start
    (host.meets_of_forall _ h)
  have hincr := hrun.increasing
  obtain ⟨hnum, htal, hbal, -, -⟩ := hrun
  have hacc := congrArg UInt64.ofNat hbal.accepted
  refine ⟨?_, ?_, ?_, hbal.out, hincr⟩
  · have hmade := congrArg UInt64.ofNat hbal.made
    rwa [UInt64.ofNat_add, UInt64.ofNat_add, ← htal .samples, ← htal .drops,
      show UInt64.ofNat (host.run .start acts).pipe.made = _ from hnum.sequence.symm] at hmade
  · rwa [UInt64.ofNat_add, ← htal .samples] at hacc
  · have htaken := congrArg UInt64.ofNat hbal.taken
    have hqueue := congrArg UInt64.ofNat hbal.queue
    rw [UInt64.ofNat_add, UInt64.ofNat_add, ← htal .frames, ← htal .outDrops] at htaken
    rw [UInt64.ofNat_add, htaken] at hqueue
    have hcomm : ∀ a b c d : UInt64, a + b + c + d = a + b + d + c := fun a b c d => by ac_rfl
    exact hqueue.trans (hcomm _ _ _ _)

/-- A clock reading. -/
def epoch : Timespec := ⟨0, 0⟩

/-- Every thread starts. -/
def boot : List Action := [.sensor epoch, .processor epoch, .logger epoch]

/-- A burst of four, with the third sample sent and not yet counted while the processor holds the
first. -/
def burst : List Action :=
  boot ++ [.setFault .queueOverflow] ++ List.replicate 12 (.sensor epoch) ++
    List.replicate 2 (.processor epoch) ++ List.replicate 4 (.sensor epoch)

/-- The law at a state with a sample in the sensor thread's hand and one in the processor's. -/
theorem host_accounted_burst :
    Accounted (host.run .start burst) (host.trace .start burst) ∧
      (host.run .start burst).sim.sensorSequence = 3 ∧
      (host.run .start burst).sim.snapshot.sensorSamples = 2 ∧
      (host.run .start burst).sim.sensorQueue.length = 2 :=
  ⟨host_accounted (by decide), by decide +kernel⟩

/-! ### After 2^64 samples -/

/-- Each thread goes round its loop once. -/
def cycle : List Action :=
  List.replicate 7 (.sensor epoch) ++ List.replicate 7 (.processor epoch) ++
    List.replicate 4 (.logger epoch)

/-- A run of `n` cycles. -/
def cycles : ℕ → List Action
  | 0     => boot
  | n + 1 => cycles n ++ cycle

/-- The state between two cycles: nothing is held or queued and no fault is injected. -/
structure Idle (n : ℕ) (w : World) : Prop where
  sequence : w.sim.sensorSequence = UInt64.ofNat n
  running : w.sim.stopRequested = false
  fault : w.sim.faultMode = .none
  sensorQueue : w.sim.sensorQueue = []
  telemetryQueue : w.sim.telemetryQueue = []
  sensor : w.sensor = .loop
  processor : w.processor = .loop
  logger : w.logger = .loop

/-- A cycle makes one sample and hands its frame to the logger. -/
lemma Idle.next_cycle {n : ℕ} {w : World} (h : Idle n w) :
    Idle (n + 1) (host.run w cycle) ∧ (acceptedOf (host.trace w cycle)).length = 1 ∧
      (outTakenOf (host.trace w cycle)).map (fun f => f.val.sequence) = [UInt64.ofNat (n + 1)] := by
  rcases w with ⟨⟨stop, last, init, queue, out, snap, fault, seq, speed⟩, made, sensor, processor,
    logger, watchdog, main⟩
  obtain ⟨rfl, rfl, rfl, rfl, rfl, rfl, rfl, rfl⟩ := h
  have hseq (s : SensorSample) : (prvProcessSample s epoch).sequence = s.sequence := rfl
  refine ⟨?_, ?_, ?_⟩
  · constructor <;>
      simp [cycle, List.replicate, host, Machine.next, World.step, World.sensorStep,
        World.processorStep, World.loggerStep, queueCapacity, BoundedFifo.push, Batch.next,
        prvUpdateFromSample, prvUpdateFromFrame, prvBeat, UInt64.ofNat_add]
  · simp [cycle, List.replicate, host, Machine.next, Machine.emit, World.step, World.sensorStep,
      World.processorStep, World.loggerStep, queueCapacity, BoundedFifo.push, Batch.next,
      prvUpdateFromSample, prvUpdateFromFrame, prvBeat]
  · simp [cycle, List.replicate, host, Machine.next, Machine.emit, World.step, World.sensorStep,
      World.processorStep, World.loggerStep, queueCapacity, BoundedFifo.push, Batch.next,
      prvUpdateFromSample, prvUpdateFromFrame, prvBeat, UInt64.ofNat_add, hseq]

/-- After `n` cycles the logger has received the numbers from 1 to `n`, modulo 2^64. -/
lemma idle_cycles (n : ℕ) :
    Idle n (host.run .start (cycles n)) ∧
      (acceptedOf (host.trace .start (cycles n))).length = n ∧
      (outTakenOf (host.trace .start (cycles n))).map (fun f => f.val.sequence) =
        (List.range n).map fun i => UInt64.ofNat (i + 1) := by
  induction n with
  | zero => exact ⟨⟨rfl, rfl, rfl, rfl, rfl, rfl, rfl, rfl⟩, rfl, rfl⟩
  | succ n ih =>
    obtain ⟨hidle, hacc, hseq⟩ := ih
    obtain ⟨hidle', hacc', hseq'⟩ := hidle.next_cycle
    rw [cycles, Machine.run_append, Machine.trace_append, acceptedOf_append, outTakenOf_append,
      List.length_append, List.map_append, hacc, hacc', hseq, hseq', List.range_succ,
      List.map_append]
    exact ⟨hidle', rfl, rfl⟩

/-- Cycles need neither a reset nor a stop. -/
lemma undisturbing_cycles (n : ℕ) : ∀ a ∈ cycles n, a.Undisturbing := by
  induction n with
  | zero => decide
  | succ n ih =>
    intro a ha
    rcases List.mem_append.mp ha with ha | ha
    · exact ih a ha
    · exact (by decide : ∀ a ∈ cycle, a.Undisturbing) a ha

/-- After 2^64 samples the last number received is smaller than the first, and the counter of
accepted samples has wrapped. -/
theorem cycles_wrap :
    (∀ a ∈ cycles (2 ^ 64), a.Undisturbing) ∧
      ¬ ((outTakenOf (host.trace .start (cycles (2 ^ 64)))).map
        fun f => f.val.sequence).Pairwise (· < ·) ∧
      (acceptedOf (host.trace .start (cycles (2 ^ 64)))).length ≠
        (host.run .start (cycles (2 ^ 64))).sim.snapshot.sensorSamples.toNat := by
  obtain ⟨-, hacc, hseq⟩ := idle_cycles (2 ^ 64)
  refine ⟨undisturbing_cycles _, fun hpw => ?_, fun heq => ?_⟩
  · rw [hseq, List.pairwise_map, List.pairwise_iff_getElem] at hpw
    have hlt := hpw 0 (2 ^ 64 - 1) (by simp) (by simp) (by decide)
    rw [List.getElem_range, List.getElem_range] at hlt
    exact absurd hlt (by decide)
  · rw [hacc] at heq
    exact absurd (UInt64.toNat_lt _) (Nat.not_lt.mpr (Nat.le_of_eq heq))

end EcuTelemetry.Host
