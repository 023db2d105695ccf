import EcuTelemetry.Host.Accounting
import EcuTelemetry.Pipeline.Latest

/-!
# The latest readings

`prvUpdateFromSample` and `prvUpdateFromFrame` write the same five readings of the snapshot. At any
moment these come from one record, the one written last; but the frame of an older sample may be
written after a younger sample. `latest_ordered` says on which steps the readings go back in time.
-/

namespace EcuTelemetry.Host

open EcuTelemetry.Core Pipeline

/-! ### Records -/

/-- What the latest readings are written from. -/
inductive Record where
  | sample (s : SensorSample)
  | frame (f : TelemetryFrame)

/-- The sequence number of a record. -/
def Record.sequence : Record → UInt64
  | .sample s => s.sequence
  | .frame f  => f.sequence

/-- The five readings that samples and frames share. -/
structure Readings where
  temperatureC : Float
  accelX : Float
  accelY : Float
  accelZ : Float
  speedKmh : Float

/-- The readings of a record. -/
def Record.readings : Record → Readings
  | .sample s => ⟨s.temperatureC, s.accelX, s.accelY, s.accelZ, s.speedKmh⟩
  | .frame f  => ⟨f.temperatureC, f.accelX, f.accelY, f.accelZ, f.speedKmh⟩

/-- The latest readings in a snapshot. -/
def EcuSnapshot.readings (snap : EcuSnapshot) : Readings :=
  ⟨snap.lastTemperatureC, snap.lastAccelX, snap.lastAccelY, snap.lastAccelZ, snap.lastSpeedKmh⟩

/-- The readings when these records have been written: those of the last one. -/
def lastReadings (rs : List Record) : Readings :=
  (rs.getLast?.map Record.readings).getD EcuSnapshot.zero.readings

/-- The record that a step writes the latest readings from, if any. -/
def World.written (w : World) : Action → Option Record
  | .sensor _ =>
    match w.sensor with
    | .count _ s true => some (.sample s)
    | _               => none
  | .processor _ =>
    match w.processor with
    | .count f true => some (.frame f.val)
    | _             => none
  | _ => none

/-- The simulator, showing the records that the latest readings are written from. -/
def records : Machine World Action Record :=
  ⟨fun w a => (host.next w a, (w.written a).toList)⟩

@[simp] lemma readings_beat (snap : EcuSnapshot) (task : TaskId) :
    (snap.beat task).readings = snap.readings := by
  cases task <;> rfl

lemma watchdogStep_readings (w : World) (now : Timespec) :
    (w.watchdogStep now).sim.snapshot.readings = w.sim.snapshot.readings := by
  cases h : w.watchdog with
  | boot =>
    simp only [World.watchdogStep, h]
    exact readings_beat _ _
  | beat =>
    simp only [World.watchdogStep, h]
    exact readings_beat _ _
  | warn task =>
    simp only [World.watchdogStep, h]
    rfl
  | _ => simp only [World.watchdogStep, h]

/-- A step writes all five readings from one record, or none of them. -/
lemma readings_next {w : World} {a : Action} (ha : a ≠ .reset) :
    (host.next w a).sim.snapshot.readings =
      ((w.written a).map Record.readings).getD w.sim.snapshot.readings := by
  rcases w with ⟨⟨stop, last, init, queue, out, snap, fault, seq, speed⟩, made, sensor, processor,
    logger, watchdog, main⟩
  cases a with
  | sensor now =>
    cases sensor with
    | boot => exact readings_beat _ _
    | beat => exact readings_beat _ _
    | count b s ok => cases ok <;> rfl
    | _ => rfl
  | processor now =>
    cases processor with
    | boot => exact readings_beat _ _
    | beat => exact readings_beat _ _
    | pop => cases queue <;> rfl
    | count f ok => cases ok <;> rfl
    | _ => rfl
  | processorTimeout => cases processor <;> rfl
  | logger now =>
    cases logger with
    | boot => exact readings_beat _ _
    | beat => exact readings_beat _ _
    | pop => cases out <;> rfl
    | _ => rfl
  | loggerTimeout => cases logger <;> rfl
  | watchdog now => exact watchdogStep_readings _ now
  | setFault mode => cases main <;> rfl
  | reset => exact absurd rfl ha
  | stop => cases main <;> rfl
  | main =>
    cases main with
    | join =>
      simp only [host, Machine.next, World.step, World.mainStep]
      split <;> rfl
    | _ => rfl

/-- The latest readings are those of the record written last. -/
lemma readings_run {acts : List Action} (h : ∀ a ∈ acts, a ≠ .reset) :
    (ecuSnapshot (records.run .start acts).sim).readings =
      lastReadings (records.trace .start acts) := by
  refine records.invariant (P := fun w rs => (ecuSnapshot w.sim).readings = lastReadings rs) ?_ rfl
    (records.meets_of_forall _ h)
  intro w rs a ha hw
  refine (readings_next ha).trans ?_
  cases hr : w.written a with
  | none =>
    simp only [Option.map_none, Option.getD_none, records, Machine.emit, hr, Option.toList_none,
      List.append_nil]
    exact hw
  | some r => simp [records, Machine.emit, hr, lastReadings]

/-! ### Order -/

/-- The sensor thread is about to draw a sequence number. -/
def SensorPc.drawing : SensorPc → Bool
  | .draw _ => true
  | _       => false

/-- The sensor thread has pushed a sample and is about to call `prvUpdateFromSample`. -/
def SensorPc.updating : SensorPc → Bool
  | .count _ _ true => true
  | _               => false

/-- The processor thread is about to call `prvUpdateFromFrame`. -/
def ProcessorPc.updating : ProcessorPc → Bool
  | .count _ true => true
  | _             => false

/-- The main thread is about to clear `sensor_queue`. -/
def MainPc.clearing : MainPc → Bool
  | .resetSensorQueue | .stopSensorQueue => true
  | _ => false

/-- When `prvUpdateFromFrame` runs, the only sample in `sensor_queue` is one for which the sensor
thread has still to call `prvUpdateFromSample`. When `sensor_queue` is cleared, it is empty or the
processor holds nothing. Sequence numbers do not wrap. -/
def CleanLatest (w : World) : Action → Prop
  | .sensor _    => w.sensor.drawing → w.made + 1 < 2 ^ 64
  | .processor _ =>
    w.processor.updating → ∀ s ∈ w.sim.sensorQueue, w.sensor.updating ∧ s.stamp = w.made
  | .main        =>
    w.main.clearing → w.sim.sensorQueue.length = 0 ∨ w.processor.work.pending = 0
  | _            => True

instance (w : World) (a : Action) : Decidable (CleanLatest w a) :=
  match a with
  | .sensor _ => inferInstanceAs (Decidable (_ → _))
  | .processor _ => inferInstanceAs (Decidable (_ → _))
  | .main => inferInstanceAs (Decidable (_ → _))
  | .processorTimeout | .logger _ | .loggerTimeout | .watchdog _ | .setFault _ | .reset
  | .stop => isTrue trivial

/-- A queued sample that is not counted is the one the sensor thread has pushed. -/
lemma not_counted_iff (w : World) (k : ℕ) :
    ¬ w.pipe.Counted k ↔ w.sensor.updating ∧ k = w.made := by
  rcases w with ⟨sim, made, sensor, processor, logger, watchdog, main⟩
  simp only [Pipe.Counted, World.pipe]
  cases sensor with
  | count b s ok => cases ok <;> simp [SensorPc.hand, SensorPc.updating]
  | _ => simp [SensorPc.hand, SensorPc.updating]

/-- Where the worker holds nothing or the queue is empty, a flush overtakes nothing. -/
lemma not_overtakes_flush {p : Pipe SensorSample TelemetryFrame}
    (h : p.queue.length = 0 ∨ p.work.pending = 0) : ¬ Op.Overtakes p .flush := by
  rintro ⟨hwork, hqueue⟩
  rcases h with hq | hw
  · exact hqueue (List.eq_nil_of_length_eq_zero hq)
  · cases hp : p.work with
    | empty => exact hwork hp
    | _ => simp [hp, Work.pending] at hw

/-- A clean step overtakes no sample. -/
lemma CleanLatest.pipeOps {w : World} {a : Action} (h : CleanLatest w a) :
    hostPipeline.Meets (fun p op => ¬ op.Overtakes p) w.pipe (w.pipeOps a) := by
  have hcounted := not_counted_iff w
  rcases w with ⟨sim, made, sensor, processor, logger, watchdog, main⟩
  cases a with
  | sensor now => cases sensor <;> first | exact ⟨id, trivial⟩ | trivial
  | processor now =>
    cases processor with
    | count f ok =>
      refine ⟨?_, trivial⟩
      rintro ⟨⟨g, hg⟩, s, hs, hc⟩
      obtain ⟨rfl, rfl⟩ : f = g ∧ ok = true := by simpa [World.pipe, ProcessorPc.work] using hg
      exact (hcounted s.stamp).mpr (h rfl s hs) hc
    | _ => first | exact ⟨id, trivial⟩ | trivial
  | logger now => cases logger <;> first | exact ⟨id, trivial⟩ | trivial
  | reset => cases main <;> first | exact ⟨id, trivial⟩ | trivial
  | main =>
    cases main with
    | resetSensorQueue => exact ⟨not_overtakes_flush (h rfl), trivial⟩
    | stopSensorQueue => exact ⟨not_overtakes_flush (h rfl), trivial⟩
    | _ => first | exact ⟨id, trivial⟩ | trivial
  | _ => trivial

/-- Numbers below 2^64 are ordered as naturals are. -/
lemma ofNat_le_ofNat {j k : ℕ} (hk : k < 2 ^ 64) (h : j ≤ k) :
    UInt64.ofNat j ≤ UInt64.ofNat k := by
  rcases Nat.lt_or_eq_of_le h with hlt | rfl
  · exact UInt64.le_of_lt (ofNat_lt_ofNat hk hlt)
  · exact UInt64.le_refl _

/-- The records are in the order of their numbers, and the last one has number `n`. -/
structure InOrder (n : ℕ) (rs : List Record) : Prop where
  last : (rs.getLast?.map Record.sequence).getD 0 = UInt64.ofNat n
  le : ∀ r ∈ rs, r.sequence ≤ UInt64.ofNat n
  ordered : (rs.map Record.sequence).Pairwise (· ≤ ·)

lemma inOrder_nil : InOrder 0 [] := ⟨rfl, by simp, List.Pairwise.nil⟩

lemma InOrder.push {n m : ℕ} {rs : List Record} {r : Record} (h : InOrder n rs) (hnm : n ≤ m)
    (hm : m < 2 ^ 64) (hr : r.sequence = UInt64.ofNat m) : InOrder m (rs ++ [r]) := by
  have hle : ∀ r' ∈ rs, r'.sequence ≤ UInt64.ofNat m := fun r' hr' =>
    UInt64.le_trans (h.le r' hr') (ofNat_le_ofNat hm hnm)
  refine ⟨by simpa using hr, ?_, ?_⟩
  · intro r' hr'
    rcases List.mem_append.mp hr' with hr' | hr'
    · exact hle r' hr'
    · obtain rfl := List.mem_singleton.mp hr'
      exact hr ▸ UInt64.le_refl _
  · rw [List.map_append]
    refine List.pairwise_append.mpr ⟨h.ordered, List.pairwise_singleton _ _, ?_⟩
    simpa [hr] using hle

/-- What a run of clean steps preserves: the record written last is the one counted last. -/
structure Dated (w : World) (rs : List Record) (log : List (Event SensorSample TelemetryFrame)) :
    Prop where
  counting : Counting w
  every : Every NumberedSample NumberedFrame w.pipe log
  dated : Latest w.pipe (latest 0 log)
  made : w.made < 2 ^ 64
  inOrder : InOrder (latest 0 log) rs

lemma dated_start : Dated .start [] [] :=
  ⟨counting_start, every_start _ _, latest_start, by decide, inOrder_nil⟩

/-- The record written has the number of the stamp counted last. -/
lemma written_sequence {w : World} {log : List (Event SensorSample TelemetryFrame)}
    (h : Every NumberedSample NumberedFrame w.pipe log) (a : Action) (n : ℕ) :
    (w.written a = none ∧ latest n (host.emit w a) = n) ∨
      ∃ r, w.written a = some r ∧ r.sequence = UInt64.ofNat (latest n (host.emit w a)) := by
  have hhand := h.hand
  have hframe := h.workFrame
  rcases w with ⟨⟨stop, last, init, queue, out, snap, fault, seq, speed⟩, made, sensor, processor,
    logger, watchdog, main⟩
  cases a with
  | sensor now =>
    cases sensor with
    | push b s =>
      refine .inl ⟨rfl, ?_⟩
      rcases hp : BoundedFifo.push queueCapacity queue ⟨made, s⟩ with ⟨queue', ok⟩
      cases ok <;> simp [host, Machine.emit, World.step, World.sensorStep, hp, latest, latestStep]
    | count b s ok =>
      cases ok with
      | true =>
        refine .inr ⟨.sample s, rfl, hhand ⟨made, s⟩ ?_⟩
        simp [World.pipe, SensorPc.hand, Hand.items]
      | false => exact .inl ⟨rfl, rfl⟩
    | _ => exact .inl ⟨rfl, rfl⟩
  | processor now =>
    cases processor with
    | pop => cases queue <;> exact .inl ⟨rfl, rfl⟩
    | push f =>
      refine .inl ⟨rfl, ?_⟩
      rcases hp : BoundedFifo.push queueCapacity out f with ⟨out', ok⟩
      cases ok <;>
        simp [host, Machine.emit, World.step, World.processorStep, hp, latest, latestStep]
    | count f ok =>
      cases ok with
      | true =>
        refine .inr ⟨.frame f.val, rfl, hframe f ?_⟩
        simp [World.pipe, ProcessorPc.work, Work.frames]
      | false => exact .inl ⟨rfl, rfl⟩
    | _ => exact .inl ⟨rfl, rfl⟩
  | processorTimeout => cases processor <;> exact .inl ⟨rfl, rfl⟩
  | logger now =>
    cases logger with
    | pop => cases out <;> exact .inl ⟨rfl, rfl⟩
    | _ => exact .inl ⟨rfl, rfl⟩
  | loggerTimeout => cases logger <;> exact .inl ⟨rfl, rfl⟩
  | watchdog now => exact .inl ⟨rfl, rfl⟩
  | setFault mode => cases main <;> exact .inl ⟨rfl, rfl⟩
  | reset => cases main <;> exact .inl ⟨rfl, rfl⟩
  | stop => cases main <;> exact .inl ⟨rfl, rfl⟩
  | main =>
    cases main with
    | resetSensorQueue => exact .inl ⟨rfl, latest_map_flushed n queue⟩
    | stopSensorQueue => exact .inl ⟨rfl, latest_map_flushed n queue⟩
    | join =>
      refine .inl ⟨rfl, ?_⟩
      simp only [host, Machine.emit, World.step, World.mainStep]
      split <;> rfl
    | _ => exact .inl ⟨rfl, rfl⟩

/-- Only the draw of a number makes a sample. -/
lemma made_next {w : World} {a : Action} (hclean : CleanLatest w a) (h : w.made < 2 ^ 64) :
    (host.next w a).made < 2 ^ 64 := by
  rcases w with ⟨⟨stop, last, init, queue, out, snap, fault, seq, speed⟩, made, sensor, processor,
    logger, watchdog, main⟩
  cases a with
  | sensor now =>
    cases sensor with
    | draw b => exact hclean rfl
    | count b s ok => cases ok <;> exact h
    | _ => exact h
  | processor now =>
    cases processor with
    | pop => cases queue <;> exact h
    | count f ok => cases ok <;> exact h
    | _ => exact h
  | processorTimeout => cases processor <;> exact h
  | logger now =>
    cases logger with
    | pop => cases out <;> exact h
    | _ => exact h
  | loggerTimeout => cases logger <;> exact h
  | watchdog now => cases watchdog <;> exact h
  | setFault mode => cases main <;> exact h
  | reset => cases main <;> exact h
  | stop => cases main <;> exact h
  | main =>
    cases main with
    | join =>
      simp only [host, Machine.next, World.step, World.mainStep]
      split <;> exact h
    | _ => exact h

lemma Dated.next {w : World} {rs : List Record}
    {log : List (Event SensorSample TelemetryFrame)} {a : Action}
    (ha : a ≠ .reset) (hclean : CleanLatest w a) (h : Dated w rs log) :
    Dated (host.next w a) (rs ++ (w.written a).toList) (log ++ host.emit w a) := by
  have hevery := pipe_step (fun hop h hm => Every.move h hop hm) (makes_pipeOps h.counting a)
    h.every
  obtain ⟨hdated, hmono⟩ := pipe_step
    (P := fun p l => Latest p (latest 0 l) ∧ latest 0 log ≤ latest 0 l)
    (fun {p p' op l evs} hop h hm => by
      obtain ⟨hle, hdated⟩ := h.1.move hop hm
      rw [latest_append]
      exact ⟨hdated, Nat.le_trans h.2 hle⟩) hclean.pipeOps ⟨h.dated, Nat.le_refl _⟩
  have hmade := made_next hclean h.made
  refine ⟨h.counting.next ha, hevery, hdated, hmade, ?_⟩
  rcases written_sequence h.every a (latest 0 log) with ⟨hw, hn⟩ | ⟨r, hw, hr⟩
  · rw [hw, Option.toList_none, List.append_nil, latest_append, hn]
    exact h.inOrder
  · rw [← latest_append] at hr
    rw [hw, Option.toList_some]
    exact h.inOrder.push hmono (Nat.lt_of_le_of_lt hdated.le_made hmade) hr

/-- In a run of clean steps the records are written in order. -/
lemma dated_run {acts : List Action} (hreset : ∀ a ∈ acts, a ≠ .reset)
    (hclean : records.Meets CleanLatest .start acts) :
    ∃ log, Dated (records.run .start acts) (records.trace .start acts) log := by
  have hstep : ∀ w rs a, (a ≠ .reset ∧ CleanLatest w a) → (∃ log, Dated w rs log) →
      ∃ log, Dated (records.next w a) (rs ++ records.emit w a) log := by
    rintro w rs a ⟨ha, hclean⟩ ⟨log, h⟩
    exact ⟨_, h.next ha hclean⟩
  exact records.invariant hstep ⟨[], dated_start⟩
    (records.meets_and.mpr ⟨records.meets_of_forall _ hreset, hclean⟩)

/-- The frame of a sample older than a counted one in the queue is written after that one. -/
lemma Dated.goes_back {w : World} {rs : List Record}
    {log : List (Event SensorSample TelemetryFrame)} (h : Dated w rs log) {now : Timespec}
    (hclean : ¬ CleanLatest w (.processor now)) :
    ¬ ((rs ++ (w.written (.processor now)).toList).map Record.sequence).Pairwise (· ≤ ·) := by
  have hcounted := not_counted_iff w
  simp only [CleanLatest, not_forall] at hclean
  obtain ⟨hup, s, hs, hnot⟩ := hclean
  rw [← hcounted, not_not] at hnot
  cases hp : w.processor with
  | count f ok =>
    obtain rfl : ok = true := by cases ok <;> simp [hp, ProcessorPc.updating] at hup ⊢
    have hwork : w.pipe.work = .offered f true := by simp [World.pipe, ProcessorPc.work, hp]
    have hlt : f.stamp < latest 0 log := h.dated.goes_back hwork hs hnot
    have hseq : f.val.sequence = UInt64.ofNat f.stamp :=
      h.every.workFrame f (by simp [hwork, Work.frames])
    have hlt' := ofNat_lt_ofNat (Nat.lt_of_le_of_lt h.dated.le_made h.made) hlt
    rw [← h.inOrder.last, ← hseq] at hlt'
    intro hpw
    simp only [World.written, hp, Option.toList_some, List.map_append, List.pairwise_append] at hpw
    cases hr : rs.getLast? with
    | none => simp [hr] at hlt'
    | some r =>
      have hmem : r.sequence ∈ rs.map Record.sequence :=
        List.mem_map_of_mem (List.mem_of_getLast? hr)
      have hle := hpw.2.2 _ hmem f.val.sequence (by simp [Record.sequence])
      rw [hr] at hlt'
      exact UInt64.not_le.mpr hlt' hle
  | _ => simp [hp, ProcessorPc.updating] at hup

/-- In every run without `ecu_reset` the latest readings of a snapshot come from one record, and in
every run of clean steps these records are written in the order of their sequence numbers. The first
call of `prvUpdateFromFrame` that is not clean breaks the order. -/
theorem latest_ordered {acts : List Action} (hreset : ∀ a ∈ acts, a ≠ .reset) :
    (ecuSnapshot (records.run .start acts).sim).readings =
        lastReadings (records.trace .start acts) ∧
      (records.Meets CleanLatest .start acts →
        ((records.trace .start acts).map Record.sequence).Pairwise (· ≤ ·) ∧
        ∀ now, ¬ CleanLatest (records.run .start acts) (.processor now) →
          ¬ ((records.trace .start (acts ++ [.processor now])).map Record.sequence).Pairwise
            (· ≤ ·)) := by
  refine ⟨readings_run hreset, fun hclean => ?_⟩
  obtain ⟨log, h⟩ := dated_run hreset hclean
  refine ⟨h.inOrder.ordered, fun now hnot => ?_⟩
  have hback := h.goes_back hnot
  rw [Machine.trace_append, Machine.trace_cons, Machine.trace_nil, List.append_nil]
  exact hback

/-- The processor is about to count the frame of the first sample when the sensor thread has counted
the second. -/
def overtaken : List Action :=
  boot ++ List.replicate 7 (.sensor epoch) ++ List.replicate 5 (.processor epoch) ++
    List.replicate 6 (.sensor epoch)

/-- Two cycles write the records in order; the frame of the overtaken sample does not come in
order. -/
theorem latest_ordered_cycles :
    ((records.trace .start (boot ++ cycle ++ cycle)).map Record.sequence).Pairwise (· ≤ ·) ∧
      (records.trace .start (boot ++ cycle ++ cycle)).map Record.sequence = [1, 1, 2, 2] ∧
      ¬ ((records.trace .start (overtaken ++ [.processor epoch])).map Record.sequence).Pairwise
        (· ≤ ·) :=
  ⟨((latest_ordered (by decide)).2 (by decide +kernel)).1, by decide +kernel,
    ((latest_ordered (by decide)).2 (by decide +kernel)).2 epoch (by decide +kernel)⟩

/-- The readings of the first sample come back after those of the second. -/
theorem overtaken_goes_back :
    (∀ a ∈ overtaken ++ [.processor epoch], a ≠ .reset) ∧
      (records.trace .start (overtaken ++ [.processor epoch])).map Record.sequence = [1, 2, 1] ∧
      ¬ ((records.trace .start (overtaken ++ [.processor epoch])).map Record.sequence).Pairwise
        (· ≤ ·) := by
  decide +kernel

end EcuTelemetry.Host
