import EcuTelemetry.Firmware.Refinement
import Mathlib.Algebra.Group.Nat.Defs

/-!
# The frames the firmware prints

Whatever the order of the tasks and the commands, the frames that reach `prvPrintFrame` come in the
order in which their samples were made, and each is the processed nominal sample of its number or
the processed sentinel, never a mixture.
-/

namespace EcuTelemetry.Firmware

open EcuTelemetry.Core Pipeline

/-- The frames handed to `prvPrintFrame` in a run. -/
def printedFrames (acts : List Action) : List TelemetryFrame :=
  (printedOf (pipeSimulation.viewLog (firmware.trace .start acts))).map Stamped.val

/-- The sample that stands for a failed sensor. -/
def sentinelSample (seq tick : UInt32) : SensorSample := ⟨seq, 1550, 420, 420, 420, false, tick⟩

lemma prvMakeSample_eq (seq : UInt32) (mode : FaultMode) (tick : UInt32) :
    prvMakeSample seq mode tick =
      if mode = .sensor then sentinelSample seq tick else nominalSample seq tick := rfl

/-! ### Sequence numbers -/

/-- The sensor task's sequence number counts the samples made, modulo 2^32. -/
def Numbered (w : World) : Prop := w.sequence = UInt32.ofNat w.made

lemma numbered_next (w : World) (a : Action) (h : Numbered w) : Numbered (firmware.next w a) := by
  rcases w with ⟨stats, sequence, made, kick, queue, out, dog, sensor, processor, logger, diag⟩
  cases a with
  | sensor tick =>
    cases sensor with
    | make b => exact (congrArg (· + 1) h).trans (UInt32.ofNat_add made 1).symm
    | take => cases kick <;> exact h
    | send b sample => exact h
    | count b sample sent => exact h
    | _ => exact h
  | processor tick =>
    cases processor with
    | receive => cases queue <;> exact h
    | _ => exact h
  | logger =>
    cases logger with
    | receive => cases out <;> exact h
    | _ => exact h
  | command line => cases diag <;> exact h
  | diagnostics => cases diag <;> exact h
  | timer => exact h
  | watchdog => exact h
  | timeout => exact h

/-! ### What the pipeline carries -/

/-- A queued sample was made from its number in some fault mode. -/
def MadeSample (s : Stamped SensorSample) : Prop :=
  ∃ mode tick, s.val = prvMakeSample (UInt32.ofNat s.stamp) mode tick

/-- A frame was computed from a sample with its number. -/
def MadeFrame (f : Stamped TelemetryFrame) : Prop :=
  ∃ mode tick tick', f.val = prvProcessSample (prvMakeSample (UInt32.ofNat f.stamp) mode tick) tick'

lemma makes_pipeOps (w : World) (a : Action) (h : Numbered w) :
    firmwarePipeline.Meets (fun p op => op.Makes MadeSample MadeFrame p) w.pipe (w.pipeOps a) := by
  rcases w with ⟨stats, sequence, made, kick, queue, out, dog, sensor, processor, logger, diag⟩
  cases a with
  | sensor tick =>
    cases sensor with
    | fill b mode =>
      refine ⟨fun k hk => ?_, trivial⟩
      obtain rfl : made = k := Hand.drawn.inj hk
      exact ⟨mode, tick, by rw [← h]⟩
    | make b => exact ⟨trivial, trivial⟩
    | send b sample => exact ⟨trivial, trivial⟩
    | count b sample sent => exact ⟨trivial, trivial⟩
    | _ => trivial
  | processor tick =>
    cases processor with
    | process sample =>
      refine ⟨fun s hs hmade => ?_, trivial⟩
      obtain rfl : sample = s := Work.held.inj hs
      obtain ⟨mode, tick₀, hval⟩ := hmade
      exact ⟨mode, tick₀, tick, congrArg (prvProcessSample · tick) hval⟩
    | receive => exact ⟨trivial, trivial⟩
    | send frame => exact ⟨trivial, trivial⟩
    | count frame sent => exact ⟨trivial, trivial⟩
    | _ => trivial
  | logger =>
    cases logger with
    | receive => exact ⟨trivial, trivial⟩
    | print frame => exact ⟨trivial, trivial⟩
    | _ => trivial
  | diagnostics =>
    cases diag with
    | memset => exact ⟨trivial, trivial⟩
    | resetSensorQueue => exact ⟨trivial, trivial⟩
    | resetTelemetryQueue => exact ⟨trivial, trivial⟩
    | _ => trivial
  | timer => trivial
  | command line => trivial
  | watchdog => trivial
  | timeout => trivial

/-! ### Printed frames -/

lemma printed_run (acts : List Action) :
    Printed (firmware.run .start acts).pipe
      (pipeSimulation.viewLog (firmware.trace .start acts)) := by
  apply pipeSimulation.invariant_always _ (show Printed World.start.pipe [] from printed_start)
  exact fun p log op h => h.move (step_move queueDepth queueDepth p op)

lemma every_run (acts : List Action) :
    Every MadeSample MadeFrame (firmware.run .start acts).pipe
      (pipeSimulation.viewLog (firmware.trace .start acts)) := by
  have hok := pipeSimulation.meets (fun w a h => makes_pipeOps w a h)
    (firmware.meets_of_invariant numbered_next (rfl : Numbered .start) acts)
  apply pipeSimulation.invariant _
    (show Every MadeSample MadeFrame World.start.pipe [] from every_start _ _) hok
  exact fun p log op hop h => h.move hop (step_move queueDepth queueDepth p op)

/-- Every printed frame was computed from a sample with its number. -/
lemma printed_made (acts : List Action) :
    ∀ f ∈ printedOf (pipeSimulation.viewLog (firmware.trace .start acts)), MadeFrame f := by
  intro f hf
  apply (every_run acts).received
  rw [printed_run acts]
  exact List.mem_append_left _ hf

/-- The stamps of the printed frames increase, up to the number of samples made. -/
lemma printed_stamps (acts : List Action) :
    ((printedOf (pipeSimulation.viewLog (firmware.trace .start acts))).map
        Stamped.stamp).Pairwise (· < ·) ∧
      ∀ f ∈ printedOf (pipeSimulation.viewLog (firmware.trace .start acts)),
        f.stamp ≤ (firmware.run .start acts).made := by
  have hsorted := sorted_run acts
  have hprinted := printed_run acts
  have hsub : ((printedOf (pipeSimulation.viewLog (firmware.trace .start acts))).map
      Stamped.stamp).Sublist
        ((outTakenOf (pipeSimulation.viewLog (firmware.trace .start acts))).map Stamped.stamp ++
          (firmware.run .start acts).pipe.stamps) := by
    rw [hprinted, List.map_append, List.append_assoc]
    exact List.sublist_append_left _ _
  refine ⟨hsorted.pairwise.sublist hsub, fun f hf => ?_⟩
  exact (hsorted.range _ (hsub.subset (List.mem_map_of_mem hf))).2

/-- Below 2^32 the numbers of samples are ordered as the samples are. -/
lemma ofNat_lt_ofNat {j k : ℕ} (hk : k < 2 ^ 32) (h : j < k) : UInt32.ofNat j < UInt32.ofNat k := by
  rw [UInt32.lt_iff_toNat_lt, UInt32.toNat_ofNat', UInt32.toNat_ofNat', Nat.mod_eq_of_lt hk,
    Nat.mod_eq_of_lt (Nat.lt_trans h hk)]
  exact h

lemma MadeFrame.sequence {f : Stamped TelemetryFrame} (h : MadeFrame f) :
    f.val.sequence = UInt32.ofNat f.stamp := by
  obtain ⟨mode, tick, tick', hval⟩ := h
  rw [hval, prvProcessSample_sequence, prvMakeSample_sequence]

/-- A frame computed from a sample with its number is one of two. -/
lemma MadeFrame.cases {f : Stamped TelemetryFrame} (h : MadeFrame f) :
    (f.val.valid = true ∧ ∃ tick tick',
        f.val = prvProcessSample (nominalSample f.val.sequence tick) tick') ∨
      (f.val.valid = false ∧ ∃ tick tick',
        f.val = prvProcessSample (sentinelSample f.val.sequence tick) tick') := by
  rw [h.sequence]
  obtain ⟨mode, tick, tick', hval⟩ := h
  rw [prvMakeSample_eq] at hval
  by_cases hmode : mode = .sensor
  · rw [if_pos hmode] at hval
    exact .inr ⟨by rw [hval]; rfl, tick, tick', hval⟩
  · rw [if_neg hmode] at hval
    exact .inl ⟨by rw [hval]; rfl, tick, tick', hval⟩

/-- In every run: the frames handed to `prvPrintFrame` have strictly increasing sequence numbers,
as long as fewer than 2^32 samples are made; each is, up to ticks, the processed nominal sample of
its number, and then valid, or the processed sentinel, and then not; and readings of one kind never
come with the flag of the other. -/
theorem printed_frames_faithful (acts : List Action) :
    ((firmware.run .start acts).made < 2 ^ 32 →
        ((printedFrames acts).map TelemetryFrame.sequence).Pairwise (· < ·)) ∧
      ∀ f ∈ printedFrames acts,
        ((f.valid = true ∧
            ∃ tick tick', f = prvProcessSample (nominalSample f.sequence tick) tick') ∨
          (f.valid = false ∧
            ∃ tick tick', f = prvProcessSample (sentinelSample f.sequence tick) tick')) ∧
        (∀ tick, f.readings = (nominalSample f.sequence tick).readings → f.valid = true) ∧
        (f.readings = (1550, 420, 420, 420) → f.valid = false) := by
  constructor
  · intro hmade
    obtain ⟨hpw, hle⟩ := printed_stamps acts
    rw [printedFrames, List.map_map, List.pairwise_map]
    rw [List.pairwise_map] at hpw
    apply hpw.imp_of_mem
    intro f g hf hg hlt
    rw [Function.comp_apply, Function.comp_apply, (printed_made acts f hf).sequence,
      (printed_made acts g hg).sequence]
    exact ofNat_lt_ofNat (Nat.lt_of_le_of_lt (hle g hg) hmade) hlt
  · intro f hf
    obtain ⟨g, hg, rfl⟩ := List.mem_map.mp hf
    have hcases := (printed_made acts g hg).cases
    refine ⟨hcases, ?_⟩
    rcases hcases with ⟨hvalid, tick, tick', hval⟩ | ⟨hvalid, tick, tick', hval⟩
    · refine ⟨fun _ _ => hvalid, fun hread => ?_⟩
      rw [hval, prvProcessSample_readings] at hread
      exact absurd hread (nominal_readings_ne_sentinel _ _ (nominalSample 0 0))
    · refine ⟨fun tick₁ hread => ?_, fun _ => hvalid⟩
      rw [hval, prvProcessSample_readings] at hread
      exact absurd hread.symm (nominal_readings_ne_sentinel _ _ (nominalSample 0 0))

/-- One period of the sensor timer, with each task running until it waits again. -/
def onePeriod : List Action :=
  .timer :: List.replicate 8 (.sensor 0) ++ List.replicate 8 (.processor 0) ++
    List.replicate 4 .logger

/-- A period, a sensor fault, and another period. -/
def faultBetween : List Action :=
  onePeriod ++ [.command "FAULT sensor".toList, .diagnostics] ++ onePeriod

/-- A run that prints a frame of either kind. -/
theorem printed_frames_faithful_both_kinds :
    (printedFrames faultBetween).map TelemetryFrame.valid = [true, false] ∧
      ((printedFrames faultBetween).map TelemetryFrame.sequence).Pairwise (· < ·) :=
  ⟨by decide, (printed_frames_faithful faultBetween).1 (by decide)⟩

end EcuTelemetry.Firmware
