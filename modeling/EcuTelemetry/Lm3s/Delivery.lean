import EcuTelemetry.Lm3s.Ranges
import Mathlib.Data.List.Flatten

/-!
# What becomes of samples and frames

Both queues of the LM3S build refuse what they have no room for and lose nothing else. At any point
of any run the samples `xSensorQueue` accepted are those `processing_task` took, in that order,
followed by those still queued; what `processing_task` computes is what it would compute with these
samples one after the other and nothing in between; and the frames `xTelemetryQueue` accepted are
those printed, the one in the hands of `telemetry_task` and those still queued.
-/

namespace EcuTelemetry.Lm3s

open EcuTelemetry.Core EcuTelemetry.Core.Checked

/-! ### Reading the log -/

/-- The sample that `xSensorQueue` accepts. -/
def Event.accepted : Event → List SensorData
  | .sampled data true => [data]
  | _                  => []

/-- The sample that `processing_task` takes. -/
def Event.sampleTaken : Event → List SensorData
  | .taken sensor => [sensor]
  | _             => []

/-- The sample that `processing_task` computes with, and the result. -/
def Event.calculated : Event → List (SensorData × Calculated)
  | .processed sensor c => [(sensor, c)]
  | _                   => []

/-- The frame that `processing_task` offers to `xTelemetryQueue`. -/
def Event.offered : Event → List TelemetryData
  | .framed telem _ => [telem]
  | _               => []

/-- The frame that `xTelemetryQueue` accepts. -/
def Event.queued : Event → List TelemetryData
  | .framed telem true => [telem]
  | _                  => []

/-- The frame that `telemetry_task` prints. -/
def Event.shown : Event → List TelemetryData
  | .printed telem => [telem]
  | _              => []

/-- A reading of the log that skips heartbeats and reports. -/
lemma flatMap_dog {γ : Type*} {f : Event → List γ} (hf : ∀ r, f (.dog r) = [])
    (reports : List (Watchdog.Report Beat)) : (reports.map Event.dog).flatMap f = [] := by
  rw [List.flatMap_eq_nil_iff]
  intro e he
  obtain ⟨r, -, rfl⟩ := List.mem_map.mp he
  exact hf r

/-! ### Processing samples one after the other -/

/-- What `processing_task` computes from samples it takes one after the other, starting from the
accumulated speed `speed`. -/
def calculateAll (speed : ℤ) : List SensorData → Except Trap (List (SensorData × Calculated))
  | []           => .ok []
  | sensor :: ss => do
    let c ← calculate speed sensor
    let ps ← calculateAll c.speedKmhX10 ss
    return (sensor, c) :: ps

/-- The accumulated speed after the last of them. -/
def lastSpeed (speed : ℤ) (ps : List (SensorData × Calculated)) : ℤ :=
  ps.foldl (fun _ p => p.2.speedKmhX10) speed

lemma calculateAll_cons {speed : ℤ} {sensor : SensorData} {ss : List SensorData}
    {ps : List (SensorData × Calculated)} :
    calculateAll speed (sensor :: ss) = .ok ps ↔
      ∃ c ps', calculate speed sensor = .ok c ∧ calculateAll c.speedKmhX10 ss = .ok ps' ∧
        (sensor, c) :: ps' = ps := by
  rw [calculateAll]
  cases hc : calculate speed sensor with
  | error e => simp [bind, Except.bind]
  | ok c =>
    cases hall : calculateAll c.speedKmhX10 ss with
    | error e => simp [bind, Except.bind, hall]
    | ok ps' => simp [bind, Except.bind, hall, pure, Except.pure]

/-- One more sample. -/
lemma calculateAll_concat {speed : ℤ} {ss : List SensorData} {ps : List (SensorData × Calculated)}
    {sensor : SensorData} {c : Calculated} (h : calculateAll speed ss = .ok ps)
    (hc : calculate (lastSpeed speed ps) sensor = .ok c) :
    calculateAll speed (ss ++ [sensor]) = .ok (ps ++ [(sensor, c)]) := by
  induction ss generalizing speed ps with
  | nil =>
    obtain rfl : [] = ps := Except.ok.inj h
    exact calculateAll_cons.mpr ⟨c, [], hc, rfl, rfl⟩
  | cons s ss ih =>
    obtain ⟨c', ps', hs, hall, rfl⟩ := calculateAll_cons.mp h
    exact calculateAll_cons.mpr ⟨c', ps' ++ [(sensor, c)], hs, ih hall hc, rfl⟩

/-- The frame has its sample's data and what was computed from it; the verdict is its own. -/
def IsFrame (p : SensorData × Calculated) (telem : TelemetryData) : Prop :=
  telem = frame p.1 p.2 (!telem.valid)

lemma isFrame_frame (sensor : SensorData) (c : Calculated) (bad : Bool) :
    IsFrame (sensor, c) (frame sensor c bad) := by simp [IsFrame, frame]

lemma IsFrame.timestampMs {p : SensorData × Calculated} {telem : TelemetryData}
    (h : IsFrame p telem) : telem.timestampMs = p.1.timestampMs := by rw [h]; rfl

/-! ### What is in the tasks' hands -/

/-- The sample `processing_task` has taken and not yet computed with. -/
def ProcessingPc.sample : ProcessingPc → List SensorData
  | .compute sensor => [sensor]
  | _               => []

/-- The sample `processing_task` has computed with and not yet judged. -/
def ProcessingPc.judging : ProcessingPc → List (SensorData × Calculated)
  | .judge sensor c => [(sensor, c)]
  | _               => []

/-- The frame `processing_task` has not yet offered. -/
def ProcessingPc.frames : ProcessingPc → List TelemetryData
  | .setFault telem | .send telem => [telem]
  | _                             => []

/-- The frame `telemetry_task` has not yet printed. -/
def TelemetryPc.frames : TelemetryPc → List TelemetryData
  | .print telem => [telem]
  | _            => []

/-- The samples and frames under way, with the accumulated speed. -/
structure Flow where
  sensorQueue : List SensorData
  sample : List SensorData
  judging : List (SensorData × Calculated)
  frames : List TelemetryData
  telemetryQueue : List TelemetryData
  printing : List TelemetryData
  speedKmhX10 : ℤ

def World.flow (w : World) : Flow :=
  { sensorQueue := w.sensorQueue
    sample := w.processing.sample
    judging := w.processing.judging
    frames := w.processing.frames
    telemetryQueue := w.telemetryQueue
    printing := w.telemetry.frames
    speedKmhX10 := w.speedKmhX10 }

/-- Every sample and every frame accepted is where it should be. -/
structure Delivered (f : Flow) (log : List Event) : Prop where
  sensorQueue : log.flatMap Event.accepted = log.flatMap Event.sampleTaken ++ f.sensorQueue
  taken : log.flatMap Event.sampleTaken =
    (log.flatMap Event.calculated).map Prod.fst ++ f.sample
  calculated : calculateAll 0 ((log.flatMap Event.calculated).map Prod.fst) =
    .ok (log.flatMap Event.calculated)
  speed : f.speedKmhX10 = lastSpeed 0 (log.flatMap Event.calculated)
  framed : ∃ judged, log.flatMap Event.calculated = judged ++ f.judging ∧
    List.Forall₂ IsFrame judged (log.flatMap Event.offered ++ f.frames)
  telemetryQueue : log.flatMap Event.queued =
    log.flatMap Event.shown ++ f.printing ++ f.telemetryQueue
  sensorDepth : f.sensorQueue.length ≤ queueLen
  telemetryDepth : f.telemetryQueue.length ≤ queueLen

lemma delivered_start (rng : UInt32) : Delivered (World.start rng).flow [] :=
  ⟨rfl, rfl, rfl, rfl, ⟨[], rfl, .nil⟩, rfl, Nat.zero_le _, Nat.zero_le _⟩

variable {w : World} {f : Flow} {log : List Event}

/-- Heartbeats and reports move nothing. -/
lemma Delivered.dog (h : Delivered f log) (reports : List (Watchdog.Report Beat)) :
    Delivered f (log ++ reports.map Event.dog) := by
  have hsame {γ : Type} {g : Event → List γ} (hg : ∀ r, g (.dog r) = []) :
      (log ++ reports.map Event.dog).flatMap g = log.flatMap g := by
    rw [List.flatMap_append, flatMap_dog hg, List.append_nil]
  constructor
  · rw [hsame fun _ => rfl, hsame fun _ => rfl]
    exact h.sensorQueue
  · rw [hsame fun _ => rfl, hsame fun _ => rfl]
    exact h.taken
  · rw [hsame fun _ => rfl]
    exact h.calculated
  · rw [hsame fun _ => rfl]
    exact h.speed
  · rw [hsame fun _ => rfl, hsame fun _ => rfl]
    exact h.framed
  · rw [hsame fun _ => rfl, hsame fun _ => rfl]
    exact h.telemetryQueue
  · exact h.sensorDepth
  · exact h.telemetryDepth

/-! ### Steps -/

/-- A queue that takes what fits keeps to its depth. -/
lemma length_push_le {α : Type*} {xs : List α} (h : xs.length ≤ queueLen) (x : α) :
    (BoundedFifo.push queueLen xs x).1.length ≤ queueLen := by
  rcases Nat.lt_or_ge xs.length queueLen with hroom | hfull
  · rw [BoundedFifo.push_of_lt hroom, List.length_append]
    exact hroom
  · rwa [BoundedFifo.push_of_le hfull]

/-- `sensor_task` offers a sample. -/
lemma Delivered.sampled (h : Delivered f log) (data : SensorData) :
    Delivered { f with sensorQueue := (BoundedFifo.push queueLen f.sensorQueue data).1 }
      (log ++ [.sampled data (BoundedFifo.push queueLen f.sensorQueue data).2]) where
  sensorQueue := by
    rcases Nat.lt_or_ge f.sensorQueue.length queueLen with hroom | hfull
    · rw [BoundedFifo.push_of_lt hroom]
      simp [Event.accepted, Event.sampleTaken, h.sensorQueue]
    · rw [BoundedFifo.push_of_le hfull]
      simp [Event.accepted, Event.sampleTaken, h.sensorQueue]
  taken := by simpa [Event.sampleTaken, Event.calculated] using h.taken
  calculated := by simpa [Event.calculated] using h.calculated
  speed := by simpa [Event.calculated] using h.speed
  framed := by simpa [Event.calculated, Event.offered] using h.framed
  telemetryQueue := by simpa [Event.queued, Event.shown] using h.telemetryQueue
  sensorDepth := length_push_le h.sensorDepth data
  telemetryDepth := h.telemetryDepth

/-- `processing_task` takes the oldest sample. -/
lemma Delivered.take (h : Delivered f log) {sensor : SensorData} {queue : List SensorData}
    (hq : f.sensorQueue = sensor :: queue) (hs : f.sample = []) :
    Delivered { f with sensorQueue := queue, sample := [sensor] } (log ++ [.taken sensor]) where
  sensorQueue := by simp [Event.accepted, Event.sampleTaken, h.sensorQueue, hq]
  taken := by simp [Event.sampleTaken, Event.calculated, h.taken, hs]
  calculated := by simpa [Event.calculated] using h.calculated
  speed := by simpa [Event.calculated] using h.speed
  framed := by simpa [Event.calculated, Event.offered] using h.framed
  telemetryQueue := by simpa [Event.queued, Event.shown] using h.telemetryQueue
  sensorDepth := by
    have hdepth := h.sensorDepth
    rw [hq, List.length_cons] at hdepth
    exact Nat.le_of_succ_le hdepth
  telemetryDepth := h.telemetryDepth

/-- `processing_task` computes with the sample it took. -/
lemma Delivered.calculate (h : Delivered f log) {sensor : SensorData} {c : Calculated}
    (hc : calculate f.speedKmhX10 sensor = .ok c) (hs : f.sample = [sensor])
    (hj : f.judging = []) :
    Delivered { f with sample := [], judging := [(sensor, c)], speedKmhX10 := c.speedKmhX10 }
      (log ++ [.processed sensor c]) where
  sensorQueue := by simpa [Event.accepted, Event.sampleTaken] using h.sensorQueue
  taken := by simp [Event.sampleTaken, Event.calculated, h.taken, hs]
  calculated := by
    rw [h.speed] at hc
    simpa [Event.calculated] using calculateAll_concat h.calculated hc
  speed := by simp [Event.calculated, lastSpeed]
  framed := by
    obtain ⟨judged, hall, hframes⟩ := h.framed
    refine ⟨judged, ?_, ?_⟩
    · simp [Event.calculated, hall, hj]
    · simpa [Event.offered] using hframes
  telemetryQueue := by simpa [Event.queued, Event.shown] using h.telemetryQueue
  sensorDepth := h.sensorDepth
  telemetryDepth := h.telemetryDepth

/-- `processing_task` fills in a frame. -/
lemma Delivered.judge (h : Delivered f log) {sensor : SensorData} {c : Calculated} (bad : Bool)
    (hj : f.judging = [(sensor, c)]) (hf : f.frames = []) :
    Delivered { f with judging := [], frames := [frame sensor c bad] } log where
  sensorQueue := h.sensorQueue
  taken := h.taken
  calculated := h.calculated
  speed := h.speed
  framed := by
    obtain ⟨judged, hall, hframes⟩ := h.framed
    rw [hf, List.append_nil] at hframes
    refine ⟨judged ++ [(sensor, c)], ?_, ?_⟩
    · rw [hall, hj, List.append_nil]
    · exact List.rel_append hframes (.cons (isFrame_frame sensor c bad) .nil)
  telemetryQueue := h.telemetryQueue
  sensorDepth := h.sensorDepth
  telemetryDepth := h.telemetryDepth

/-- `processing_task` offers its frame. -/
lemma Delivered.offer (h : Delivered f log) {telem : TelemetryData}
    (hf : f.frames = [telem]) :
    Delivered
      { f with
        frames := []
        telemetryQueue := (BoundedFifo.push queueLen f.telemetryQueue telem).1 }
      (log ++ [.framed telem (BoundedFifo.push queueLen f.telemetryQueue telem).2]) where
  sensorQueue := by simpa [Event.accepted, Event.sampleTaken] using h.sensorQueue
  taken := by simpa [Event.sampleTaken, Event.calculated] using h.taken
  calculated := by simpa [Event.calculated] using h.calculated
  speed := by simpa [Event.calculated] using h.speed
  framed := by simpa [Event.calculated, Event.offered, hf] using h.framed
  telemetryQueue := by
    rcases Nat.lt_or_ge f.telemetryQueue.length queueLen with hroom | hfull
    · rw [BoundedFifo.push_of_lt hroom]
      simp [Event.queued, Event.shown, h.telemetryQueue]
    · rw [BoundedFifo.push_of_le hfull]
      simp [Event.queued, Event.shown, h.telemetryQueue]
  sensorDepth := h.sensorDepth
  telemetryDepth := length_push_le h.telemetryDepth telem

/-- `telemetry_task` takes the oldest frame. -/
lemma Delivered.receive (h : Delivered f log) {telem : TelemetryData} {queue : List TelemetryData}
    (hq : f.telemetryQueue = telem :: queue) (hp : f.printing = []) :
    Delivered { f with telemetryQueue := queue, printing := [telem] } log where
  sensorQueue := h.sensorQueue
  taken := h.taken
  calculated := h.calculated
  speed := h.speed
  framed := h.framed
  telemetryQueue := by simp [h.telemetryQueue, hq, hp]
  sensorDepth := h.sensorDepth
  telemetryDepth := by
    have hdepth := h.telemetryDepth
    rw [hq, List.length_cons] at hdepth
    exact Nat.le_of_succ_le hdepth

/-- `telemetry_task` prints its frame. -/
lemma Delivered.print (h : Delivered f log) {telem : TelemetryData} (hp : f.printing = [telem]) :
    Delivered { f with printing := [] } (log ++ [.printed telem]) where
  sensorQueue := by simpa [Event.accepted, Event.sampleTaken] using h.sensorQueue
  taken := by simpa [Event.sampleTaken, Event.calculated] using h.taken
  calculated := by simpa [Event.calculated] using h.calculated
  speed := by simpa [Event.calculated] using h.speed
  framed := by simpa [Event.calculated, Event.offered] using h.framed
  telemetryQueue := by simp [Event.queued, Event.shown, h.telemetryQueue, hp]
  sensorDepth := h.sensorDepth
  telemetryDepth := h.telemetryDepth

/-- A step that leaves the samples, the frames and the speed alone. -/
lemma Delivered.of_same (h : Delivered w.flow log) {w' : World} (hw : w'.flow = w.flow) :
    Delivered w'.flow (log ++ []) := by
  rw [hw, List.append_nil]
  exact h

/-- A step of `sensor_task`. -/
lemma Delivered.sensorStep (h : Delivered w.flow log) (tick : UInt32) :
    Delivered (w.sensorStep tick).1.flow (log ++ (w.sensorStep tick).2) := by
  cases hs : w.sensor with
  | take =>
    simp only [World.sensorStep, hs]
    split_ifs
    · exact h.of_same rfl
    · exact h.of_same rfl
  | send data =>
    simp only [World.sensorStep, hs]
    exact h.sampled data
  | beat =>
    simp only [World.sensorStep, hs]
    exact h.dog _
  | test | delay | tick | fill nowMs | setReady | give =>
    simp only [World.sensorStep, hs]
    exact h.of_same rfl

/-- A step of `processing_task`, whose arithmetic does not trap. -/
lemma Delivered.processingStep (h : Delivered w.flow log) {P : SensorData → Prop}
    {Q : TelemetryData → Prop} (hcarries : Carries P Q w log) (hmade : ∀ s, P s → s.Made) :
    Delivered w.processingStep.1.flow (log ++ w.processingStep.2) := by
  have hprocessing := hcarries.processing
  cases hp : w.processing with
  | take =>
    simp only [World.processingStep, hp]
    split_ifs
    · refine h.of_same ?_
      simp only [World.flow, hp]
      rfl
    · exact h.of_same rfl
  | receive =>
    cases hq : w.sensorQueue with
    | nil =>
      simp only [World.processingStep, hp, hq]
      refine h.of_same ?_
      simp only [World.flow, hp, hq]
      rfl
    | cons sensor queue =>
      have htake := h.take hq (by rw [World.flow, hp]; rfl)
      simp only [World.flow, hp] at htake
      simp only [World.processingStep, hp, hq]
      exact htake
  | compute sensor =>
    rw [hp] at hprocessing
    obtain ⟨c, hc, -⟩ := calculate_made hcarries.speed (hmade sensor hprocessing)
    have hcalc := h.calculate hc (by rw [World.flow, hp]; rfl) (by rw [World.flow, hp]; rfl)
    simp only [World.flow, hp] at hcalc
    simp only [World.processingStep, hp, hc]
    exact hcalc
  | judge sensor c =>
    have hj : w.flow.judging = [(sensor, c)] := by rw [World.flow, hp]; rfl
    have hjudge (bad : Bool) := h.judge bad hj (by rw [World.flow, hp]; rfl)
    simp only [World.flow, hp] at hjudge
    simp only [World.processingStep, hp]
    split_ifs
    · rw [List.append_nil]
      exact hjudge true
    · rw [List.append_nil]
      exact hjudge false
  | setFault telem =>
    simp only [World.processingStep, hp]
    refine h.of_same ?_
    simp only [World.flow, hp]
    rfl
  | send telem =>
    have hf : w.flow.frames = [telem] := by rw [World.flow, hp]; rfl
    have hoffer := h.offer hf
    simp only [World.flow, hp] at hoffer
    simp only [World.processingStep, hp]
    exact hoffer
  | idleBeat | beat =>
    simp only [World.processingStep, hp, World.setBeat]
    refine Delivered.dog ?_ _
    simp only [World.flow, hp] at h ⊢
    exact h
  | halted =>
    rw [hp] at hprocessing
    exact hprocessing.elim

/-- A step of `telemetry_task`. -/
lemma Delivered.telemetryStep (h : Delivered w.flow log) :
    Delivered w.telemetryStep.1.flow (log ++ w.telemetryStep.2) := by
  cases ht : w.telemetry with
  | receive =>
    cases hq : w.telemetryQueue with
    | nil =>
      simp only [World.telemetryStep, ht, hq]
      exact h.of_same rfl
    | cons telem queue =>
      have hreceive := h.receive hq (by rw [World.flow, ht]; rfl)
      simp only [World.flow, ht] at hreceive
      simp only [World.telemetryStep, ht, hq, List.append_nil]
      exact hreceive
  | print telem =>
    have hp : w.flow.printing = [telem] := by rw [World.flow, ht]; rfl
    have hprint := h.print hp
    simp only [World.flow, ht] at hprint
    simp only [World.telemetryStep, ht]
    exact hprint
  | beat =>
    simp only [World.telemetryStep, ht, World.setBeat]
    refine Delivered.dog ?_ _
    simp only [World.flow, ht] at h ⊢
    exact h

/-- Every step keeps samples and frames where they should be. -/
theorem Delivered.next (h : Delivered w.flow log) {P : SensorData → Prop}
    {Q : TelemetryData → Prop} (hcarries : Carries P Q w log) (hmade : ∀ s, P s → s.Made)
    (a : Action) : Delivered (lm3s.next w a).flow (log ++ lm3s.emit w a) := by
  cases a with
  | sensor tick => exact h.sensorStep tick
  | processing => exact h.processingStep hcarries hmade
  | telemetry => exact h.telemetryStep
  | health =>
    simp only [lm3s, Machine.next, Machine.emit, World.step, World.healthStep]
    cases w.health with
    | loop => exact h.dog _
    | setReset => exact h.of_same rfl
  | timeout => exact h.dog _
  | timer | faultInject fault | faultClear => exact h.of_same rfl

/-! ### Runs -/

lemma delivered_run (rng : UInt32) (as : List Action) :
    Delivered (lm3s.run (.start rng) as).flow (lm3s.trace (.start rng) as) := by
  have h := lm3s.invariant_always
    (P := fun w log =>
      Carries SensorData.Made (fun _ => True) w log ∧ Delivered w.flow log)
    (fun w _ a h => ⟨h.1.next (fun _ hs => hs) (fun nowMs => fillSample_made _ nowMs w.rng)
      (fun _ _ _ _ => trivial) a, h.2.next h.1 (fun _ hs => hs) a⟩)
    ⟨carries_start rng, delivered_start rng⟩ as
  exact h.2

/-- A queue refuses only when it is full. -/
lemma eq_queueLen_of_refused {α : Type*} {xs : List α} {x : α} (h : xs.length ≤ queueLen)
    (hr : (BoundedFifo.push queueLen xs x).2 = false) : xs.length = queueLen := by
  rcases Nat.lt_or_ge xs.length queueLen with hroom | hfull
  · rw [BoundedFifo.push_of_lt hroom] at hr
    cases hr
  · exact Nat.le_antisymm h hfull

/-- Everything one step can show. -/
inductive Shows (w : World) : Action → Event → Prop where
  | sampled {tick : UInt32} {data : SensorData} (h : w.sensor = .send data) :
      Shows w (.sensor tick) (.sampled data (BoundedFifo.push queueLen w.sensorQueue data).2)
  | taken {sensor : SensorData} {queue : List SensorData} (h : w.processing = .receive)
      (hq : w.sensorQueue = sensor :: queue) : Shows w .processing (.taken sensor)
  | processed {sensor : SensorData} {c : Calculated} (h : w.processing = .compute sensor)
      (hc : calculate w.speedKmhX10 sensor = .ok c) : Shows w .processing (.processed sensor c)
  | framed {telem : TelemetryData} (h : w.processing = .send telem) :
      Shows w .processing (.framed telem (BoundedFifo.push queueLen w.telemetryQueue telem).2)
  | printed {telem : TelemetryData} (h : w.telemetry = .print telem) :
      Shows w .telemetry (.printed telem)
  | dog (a : Action) (r : Watchdog.Report Beat) : Shows w a (.dog r)

/-- Heartbeats and reports are shown as what they are. -/
lemma shows_dog {a : Action} {reports : List (Watchdog.Report Beat)} {e : Event}
    (h : e ∈ reports.map Event.dog) : Shows w a e := by
  obtain ⟨r, -, rfl⟩ := List.mem_map.mp h
  exact .dog a r

/-- `Shows` describes what the step function shows. -/
lemma shows_of_mem_emit {a : Action} {e : Event} (h : e ∈ lm3s.emit w a) : Shows w a e := by
  simp only [lm3s, Machine.emit, World.step] at h
  cases a with
  | sensor tick =>
    cases hs : w.sensor <;> simp only [World.sensorStep, hs] at h
    case send data =>
      rw [List.mem_singleton.mp h]
      exact .sampled hs
    case take => split_ifs at h <;> cases h
    case beat => exact shows_dog h
    all_goals cases h
  | processing =>
    cases hp : w.processing <;> simp only [World.processingStep, hp] at h
    case receive =>
      cases hq : w.sensorQueue <;> simp only [hq] at h
      · cases h
      · rw [List.mem_singleton.mp h]
        exact .taken hp hq
    case compute sensor =>
      cases hc : calculate w.speedKmhX10 sensor <;> simp only [hc] at h
      · cases h
      · rw [List.mem_singleton.mp h]
        exact .processed hp hc
    case send telem =>
      rw [List.mem_singleton.mp h]
      exact .framed hp
    case take | judge => split_ifs at h <;> cases h
    case idleBeat | beat => exact shows_dog h
    all_goals cases h
  | telemetry =>
    cases ht : w.telemetry <;> simp only [World.telemetryStep, ht] at h
    case receive => cases hq : w.telemetryQueue <;> simp only [hq] at h <;> cases h
    case print telem =>
      rw [List.mem_singleton.mp h]
      exact .printed ht
    case beat => exact shows_dog h
  | health =>
    cases hh : w.health <;> simp only [World.healthStep, hh] at h
    · exact shows_dog h
    · cases h
  | timeout => exact shows_dog h
  | timer | faultInject fault | faultClear => cases h

/-- In every run, whatever the interleaving, the ticks and the faults injected: every sample and
every frame accepted is where it should be, the frames offered are computed from the samples taken
one after the other, and a sample or a frame is refused only by a queue that is full. -/
theorem flow_delivered (rng : UInt32) (as : List Action) :
    Delivered (lm3s.run (.start rng) as).flow (lm3s.trace (.start rng) as) ∧
      (∀ a data, .sampled data false ∈ lm3s.emit (lm3s.run (.start rng) as) a →
        (lm3s.run (.start rng) as).sensorQueue.length = queueLen) ∧
      ∀ a telem, .framed telem false ∈ lm3s.emit (lm3s.run (.start rng) as) a →
        (lm3s.run (.start rng) as).telemetryQueue.length = queueLen := by
  have h := delivered_run rng as
  refine ⟨h, fun a data hd => ?_, fun a telem ht => ?_⟩
  · obtain ⟨sent, hsent⟩ : ∃ sent, sent = false := ⟨_, rfl⟩
    rw [← hsent] at hd
    cases shows_of_mem_emit hd with
    | sampled hs => exact eq_queueLen_of_refused h.sensorDepth hsent
  · obtain ⟨sent, hsent⟩ : ∃ sent, sent = false := ⟨_, rfl⟩
    rw [← hsent] at ht
    cases shows_of_mem_emit ht with
    | framed hs => exact eq_queueLen_of_refused h.telemetryDepth hsent

/-! ### Time stamps -/

/-- The tick count that a step of `sensor_task` reads. -/
def World.tickRead (w : World) : Action → List UInt32
  | .sensor tick => if w.sensor = .tick then [tick] else []
  | _            => []

/-- The tick counts that `sensor_task` reads in a run, in order. -/
def ticks (rng : UInt32) (as : List Action) : List UInt32 :=
  lm3s.collect World.tickRead (.start rng) as

/-- The stamp of a sample not yet offered. -/
def SensorPc.stamp : SensorPc → List UInt32
  | .fill nowMs => [nowMs]
  | .send data  => [data.timestampMs]
  | _           => []

/-- The stamps of the samples accepted so far, and of the one to come. -/
def stamps (w : World) (log : List Event) : List UInt32 :=
  (log.flatMap Event.accepted).map SensorData.timestampMs ++ w.sensor.stamp

lemma fillSample_timestampMs (fault : FaultType) (nowMs rng : UInt32) :
    (fillSample fault nowMs rng).1.timestampMs = nowMs := by
  rw [fillSample]
  split_ifs <;> rfl

/-- Only `sensor_task` moves on its own way. -/
lemma next_sensor (w : World) {a : Action} (ha : ∀ tick, a ≠ .sensor tick) :
    (lm3s.next w a).sensor = w.sensor := by
  cases a with
  | sensor tick => exact absurd rfl (ha tick)
  | processing =>
    simp only [lm3s, Machine.next, World.step, World.processingStep, World.setBeat]
    split
    any_goals rfl
    all_goals split <;> rfl
  | telemetry =>
    simp only [lm3s, Machine.next, World.step, World.telemetryStep, World.setBeat]
    split
    · split <;> rfl
    all_goals rfl
  | health =>
    simp only [lm3s, Machine.next, World.step, World.healthStep]
    split <;> rfl
  | timer | timeout | faultInject fault | faultClear => rfl

/-- One step adds at most the stamp of the tick count it reads. -/
lemma stamps_next (w : World) (log : List Event) (a : Action) :
    (stamps (lm3s.next w a) (log ++ lm3s.emit w a)).Sublist (stamps w log ++ w.tickRead a) := by
  have hskip {w' : World} {evs : List Event} {ks : List UInt32}
      (hs : w'.sensor.stamp.Sublist (w.sensor.stamp ++ ks))
      (he : evs.flatMap Event.accepted = []) :
      (stamps w' (log ++ evs)).Sublist (stamps w log ++ ks) := by
    rw [stamps, stamps, List.flatMap_append, he, List.append_nil, List.append_assoc]
    exact List.Sublist.append_left hs _
  by_cases ha : ∀ tick, a ≠ .sensor tick
  · refine hskip ?_ ?_
    · rw [next_sensor w ha]
      exact List.sublist_append_left _ _
    · rw [List.flatMap_eq_nil_iff]
      intro e he
      cases shows_of_mem_emit he with
      | sampled hs => exact absurd rfl (ha _)
      | _ => rfl
  · obtain ⟨tick, rfl⟩ := not_forall_not.mp ha
    simp only [lm3s, Machine.next, Machine.emit, World.step]
    cases hs : w.sensor with
    | take =>
      simp only [World.sensorStep, hs]
      split_ifs
      · exact hskip (List.nil_sublist _) rfl
      · exact hskip (List.sublist_append_left _ _) rfl
    | test =>
      simp only [World.sensorStep, hs]
      refine hskip ?_ rfl
      split_ifs <;> exact List.nil_sublist _
    | tick =>
      simp only [World.sensorStep, hs]
      refine hskip ?_ rfl
      rw [World.tickRead, if_pos hs, hs]
      exact List.Sublist.refl _
    | fill nowMs =>
      simp only [World.sensorStep, hs]
      refine hskip ?_ rfl
      rw [hs]
      simp only [SensorPc.stamp, fillSample_timestampMs]
      exact List.sublist_append_left _ _
    | send data =>
      -- the stamp of the sample in hand becomes that of the sample accepted, or is dropped
      simp only [World.sensorStep, hs, stamps, SensorPc.stamp, List.append_nil]
      rcases Nat.lt_or_ge w.sensorQueue.length queueLen with hroom | hfull
      · rw [BoundedFifo.push_of_lt hroom]
        simp [Event.accepted]
      · rw [BoundedFifo.push_of_le hfull]
        simp [Event.accepted]
    | beat =>
      simp only [World.sensorStep, hs, World.setBeat]
      exact hskip (List.nil_sublist _) (flatMap_dog (fun _ => rfl) _)
    | delay | setReady | give =>
      simp only [World.sensorStep, hs]
      exact hskip (List.nil_sublist _) rfl

/-- The stamps of the samples accepted are tick counts that were read, in order. -/
lemma stamps_run (rng : UInt32) (as : List Action) :
    (stamps (lm3s.run (.start rng) as) (lm3s.trace (.start rng) as)).Sublist
      (ticks rng as) := by
  induction as using List.reverseRecOn with
  | nil => exact List.Sublist.refl _
  | append_singleton as a ih =>
    rw [Machine.run_append, Machine.trace_append, Machine.run_cons, Machine.trace_cons,
      Machine.run_nil, Machine.trace_nil, List.append_nil]
    rw [ticks, Machine.collect_concat]
    exact (stamps_next _ _ a).trans (List.Sublist.append_right ih _)

/-- Frames have the stamps of their samples. -/
lemma map_timestampMs {ps : List (SensorData × Calculated)} {ts : List TelemetryData}
    (h : List.Forall₂ IsFrame ps ts) :
    ts.map TelemetryData.timestampMs = (ps.map Prod.fst).map SensorData.timestampMs := by
  induction h with
  | nil => rfl
  | cons hp _ ih => simp only [List.map_cons, ih, hp.timestampMs]

/-- The frames offered have the stamps of samples accepted, in the same order. -/
lemma Delivered.offered_stamps {f : Flow} {log : List Event} (h : Delivered f log) :
    ((log.flatMap Event.offered).map TelemetryData.timestampMs).Sublist
      ((log.flatMap Event.accepted).map SensorData.timestampMs) := by
  obtain ⟨judged, hall, hframes⟩ := h.framed
  have hjudged : (judged.map Prod.fst).Sublist (log.flatMap Event.accepted) := by
    rw [h.sensorQueue, h.taken, hall, List.map_append, List.append_assoc, List.append_assoc]
    exact List.sublist_append_left _ _
  have hstamps := map_timestampMs hframes
  rw [List.map_append] at hstamps
  refine (List.sublist_append_left _ (f.frames.map TelemetryData.timestampMs)).trans ?_
  rw [hstamps]
  exact hjudged.map _

/-- The frames printed are frames offered, in the same order. -/
lemma Delivered.shown_sublist {f : Flow} {log : List Event} (h : Delivered f log) :
    (log.flatMap Event.shown).Sublist (log.flatMap Event.offered) := by
  have hqueued : (log.flatMap Event.queued).Sublist (log.flatMap Event.offered) := by
    refine List.Sublist.flatMap_right log fun e _ => ?_
    cases e with
    | framed telem sent =>
      cases sent with
      | true => exact List.Sublist.refl _
      | false => exact List.nil_sublist _
    | _ => exact List.nil_sublist _
  rw [h.telemetryQueue, List.append_assoc] at hqueued
  exact (List.sublist_append_left _ _).trans hqueued

/-- The stamps of the lines `telemetry_task` prints, in order, are stamps of samples accepted, in
the order they were accepted in, and these are tick counts that `sensor_task` read, in the order it
read them in: no line is printed twice, none overtakes another, and time as printed goes back only
where the tick count does. -/
theorem printed_stamps_in_order (rng : UInt32) (as : List Action) :
    (((lm3s.trace (.start rng) as).flatMap Event.shown).map TelemetryData.timestampMs).Sublist
        (((lm3s.trace (.start rng) as).flatMap Event.accepted).map SensorData.timestampMs) ∧
      (((lm3s.trace (.start rng) as).flatMap Event.accepted).map SensorData.timestampMs).Sublist
        (ticks rng as) := by
  have h := delivered_run rng as
  exact ⟨(h.shown_sublist.map _).trans h.offered_stamps,
    (List.sublist_append_left _ _).trans (stamps_run rng as)⟩

end EcuTelemetry.Lm3s
