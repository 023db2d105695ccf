import EcuTelemetry.Core.Outline
import EcuTelemetry.Host.Locks

/-!
# What the mutexes of the host simulator protect

The threads of the simulator lock by lock, with an outline of every function. The state mutex
protects the fault mode and the snapshot, all but its counters of beats, which `prvBeat` changes
under another mutex; a queue is protected by its own mutex.

A test and the access that relies on it are separate steps in `queue.c`: that there is room for an
item, that there is an item to take. In every order of the steps no queue grows beyond its capacity
nevertheless, and what is in a queue, and what a snapshot shows, is such as the simulator makes or a
call pushes.
-/

namespace EcuTelemetry.Host.Code

open EcuTelemetry.Core Pipeline

/-! ### The contract -/

/-- A sample such as the simulator makes, with the number of one made so far, or one that a call of
the main thread pushes. -/
def IsSample (calls : List Call) (made : ℕ) (s : Stamped SensorSample) : Prop :=
  (0 < s.stamp ∧ s.stamp ≤ made ∧
      ∃ seq mode now, s.val = Host.prvMakeSensorSample seq mode now) ∨
    .pushSample s ∈ calls

/-- A frame such as the simulator makes of a sample, or one that a call of the main thread
pushes. -/
def IsFrame (calls : List Call) (made : ℕ) (f : Stamped TelemetryFrame) : Prop :=
  (∃ s now, IsSample calls made s ∧ f = ⟨s.stamp, Host.prvProcessSample s.val now⟩) ∨
    .pushFrame f ∈ calls

variable {calls : List Call}

lemma IsSample.mono {made made' : ℕ} {s : Stamped SensorSample} (h : IsSample calls made s)
    (hle : made ≤ made') : IsSample calls made' s := by
  rcases h with ⟨hpos, hmade, hval⟩ | hcall
  · exact .inl ⟨hpos, Nat.le_trans hmade hle, hval⟩
  · exact .inr hcall

lemma IsFrame.mono {made made' : ℕ} {f : Stamped TelemetryFrame} (h : IsFrame calls made f)
    (hle : made ≤ made') : IsFrame calls made' f := by
  rcases h with ⟨s, now, hs, hf⟩ | hcall
  · exact .inl ⟨s, now, hs.mono hle, hf⟩
  · exact .inr hcall

/-- The readings that a snapshot shows. -/
def shown (snap : EcuSnapshot) : Float × Float × Float × Float × Float :=
  (snap.lastTemperatureC, snap.lastAccelX, snap.lastAccelY, snap.lastAccelZ, snap.lastSpeedKmh)

/-- The readings of a sample. -/
def sampled (s : SensorSample) : Float × Float × Float × Float × Float :=
  (s.temperatureC, s.accelX, s.accelY, s.accelZ, s.speedKmh)

/-- The readings of a frame. -/
def framed (f : TelemetryFrame) : Float × Float × Float × Float × Float :=
  (f.temperatureC, f.accelX, f.accelY, f.accelZ, f.speedKmh)

/-- What a snapshot shows: depths that the queues can have, the readings of one sample or frame, and
the engine of one frame; or zeros. -/
structure Reports (calls : List Call) (made : ℕ) (snap : EcuSnapshot) : Prop where
  sensorDepth : snap.sensorQueueDepth.toNat ≤ queueCapacity
  telemetryDepth : snap.telemetryQueueDepth.toNat ≤ queueCapacity
  readings : shown snap = shown .zero ∨
    (∃ s, IsSample calls made s ∧ shown snap = sampled s.val) ∨
    ∃ f, IsFrame calls made f ∧ shown snap = framed f.val
  engine : (snap.lastRpm = 0.0 ∧ snap.lastThrottlePct = 0.0) ∨
    ∃ f, IsFrame calls made f ∧ snap.lastRpm = f.val.rpm ∧
      snap.lastThrottlePct = f.val.throttlePct

lemma Reports.mono {made made' : ℕ} {snap : EcuSnapshot} (h : Reports calls made snap)
    (hle : made ≤ made') : Reports calls made' snap := by
  refine ⟨h.sensorDepth, h.telemetryDepth, ?_, ?_⟩
  · rcases h.readings with hzero | ⟨s, hs, heq⟩ | ⟨f, hf, heq⟩
    · exact .inl hzero
    · exact .inr (.inl ⟨s, hs.mono hle, heq⟩)
    · exact .inr (.inr ⟨f, hf.mono hle, heq⟩)
  · rcases h.engine with hzero | ⟨f, hf, heq⟩
    · exact .inl hzero
    · exact .inr ⟨f, hf.mono hle, heq⟩

/-- What holds of the simulator in every state. -/
structure Sound (calls : List Call) (s : Shared) : Prop where
  sensorRoom : s.sim.sensorQueue.length ≤ queueCapacity
  telemetryRoom : s.sim.telemetryQueue.length ≤ queueCapacity
  samples : ∀ x ∈ s.sim.sensorQueue, IsSample calls s.made x
  frames : ∀ x ∈ s.sim.telemetryQueue, IsFrame calls s.made x
  mode : s.sim.snapshot.faultMode = s.sim.faultMode
  reports : Reports calls s.made s.sim.snapshot

/-- A snapshot without its counters of beats. -/
def withoutBeats (snap : EcuSnapshot) : EcuSnapshot :=
  { snap with
    taskSensorBeats := 0
    taskProcessorBeats := 0
    taskLoggerBeats := 0
    taskWatchdogBeats := 0 }

/-- What the mutex protects is the same. -/
def Same : Mutex → Shared → Shared → Prop
  | .state, s, s' =>
    s'.sim.faultMode = s.sim.faultMode ∧
      withoutBeats s'.sim.snapshot = withoutBeats s.sim.snapshot
  | .beat, s, s' =>
    s'.sim.lastBeat = s.sim.lastBeat ∧ s'.sim.beatInitialized = s.sim.beatInitialized
  | .log, _, _ => True
  | .sensorQueue, s, s' => s'.sim.sensorQueue = s.sim.sensorQueue
  | .telemetryQueue, s, s' => s'.sim.telemetryQueue = s.sim.telemetryQueue

/-- Samples made stay made, and a request to stop stays. -/
structure Evolves (s s' : Shared) : Prop where
  made : s.made ≤ s'.made
  stop : s.sim.stopRequested = true → s'.sim.stopRequested = true

/-- What the threads promise each other. -/
def contract (calls : List Call) : Contract Mutex Shared where
  Same := Same
  Evolves := Evolves
  Inv := Sound calls
  same_refl := fun m _ => by cases m <;> simp [Same]
  same_trans := fun m s s' s'' h h' => by cases m <;> simp_all [Same]
  evolves_refl := fun _ => ⟨Nat.le_refl _, id⟩

/-- An outline of a piece of the simulator. -/
abbrev Proves (calls : List Call) :
    List Mutex → (View → Prop) → Proc → List Mutex → (View → Prop) → Prop :=
  Outline nests (contract calls)

/-! ### Assertions -/

/-- The records that a thread has in hand. -/
structure Records where
  sample : Stamped SensorSample
  frame : Stamped TelemetryFrame
  snapshot : EcuSnapshot

/-- The records among the local variables. -/
def Locals.records (l : Locals) : Records := ⟨l.s, l.f, l.out⟩

/-- An assertion about the records in hand, when so many samples have been made. -/
structure Assertion where
  Of : ℕ → Records → Prop
  lasts : ∀ made made' x, made ≤ made' → Of made x → Of made' x

/-- It holds of what a thread has in hand. -/
def Assertion.Holds (A : Assertion) (v : View) : Prop := A.Of v.1.made v.2.records

lemma Assertion.stable (A : Assertion) (held : List Mutex) :
    (contract calls).Stable held A.Holds :=
  fun s s' l _ hev h => A.lasts s.made s'.made l.records hev.made h

/-- Nothing is asserted. -/
def anything : Assertion := ⟨fun _ _ => True, fun _ _ _ _ h => h⟩

/-- The sample in hand has got its number. -/
def drawn : Assertion :=
  ⟨fun made x => 0 < x.sample.stamp ∧ x.sample.stamp ≤ made,
    fun _ _ _ hle h => ⟨h.1, Nat.le_trans h.2 hle⟩⟩

/-- The snapshot in hand is one that the simulator may show. -/
def reported (calls : List Call) : Assertion :=
  ⟨fun made x => Reports calls made x.snapshot, fun _ _ _ hle h => h.mono hle⟩

/-- What is in hand may be put in the queue. -/
def QueueId.inHand (calls : List Call) : QueueId → Assertion
  | .sensor    => ⟨fun made x => IsSample calls made x.sample, fun _ _ _ hle h => h.mono hle⟩
  | .telemetry => ⟨fun made x => IsFrame calls made x.frame, fun _ _ _ hle h => h.mono hle⟩

/-- A thread with the mutex of a queue relies on its length. -/
lemma stable_length (q : QueueId) (held : List Mutex) (A : ℕ → Locals → Prop) :
    (contract calls).Stable (q.mutex :: held) fun v => A (q.length v.1.sim) v.2 := by
  intro s s' l hsame _ h
  have hq : q.length s'.sim = q.length s.sim := by
    have hpart := hsame q.mutex List.mem_cons_self
    cases q with
    | sensor => exact congrArg List.length hpart
    | telemetry => exact congrArg List.length hpart
  exact hq ▸ h

/-! ### Accesses -/

/-- What no mutex protects may be written at any time. -/
lemma allows_unprotected {held : List Mutex} {s : Shared} (hs : Sound calls s)
    {stop running started : Bool} {made : ℕ} {sequence : UInt64} {speed : Float}
    (hmade : s.made ≤ made) (hstop : s.sim.stopRequested = true → stop = true) :
    (contract calls).Allows held s
      { sim :=
          { s.sim with stopRequested := stop, sensorSequence := sequence, speedKmh := speed }
        running := running
        started := started
        made := made } := by
  refine ⟨fun m _ => ?_, ⟨hmade, hstop⟩, ?_⟩
  · cases m with
    | state => exact ⟨rfl, rfl⟩
    | beat => exact ⟨rfl, rfl⟩
    | log => trivial
    | _ => rfl
  · exact ⟨hs.sensorRoom, hs.telemetryRoom, fun x hx => (hs.samples x hx).mono hmade,
      fun x hx => (hs.frames x hx).mono hmade, hs.mode, hs.reports.mono hmade⟩

/-- A thread with the state mutex writes the snapshot. -/
lemma allows_snapshot {held : List Mutex} (hheld : .state ∈ held) {s : Shared}
    (hs : Sound calls s) {snap : EcuSnapshot} (hmode : snap.faultMode = s.sim.snapshot.faultMode)
    (hreports : Reports calls s.made snap) :
    (contract calls).Allows held s { s with sim := { s.sim with snapshot := snap } } := by
  refine ⟨fun m hm => ?_, ⟨Nat.le_refl _, id⟩, ?_⟩
  · cases m with
    | state => exact absurd hheld hm
    | beat => exact ⟨rfl, rfl⟩
    | log => trivial
    | _ => rfl
  · exact ⟨hs.sensorRoom, hs.telemetryRoom, hs.samples, hs.frames, hmode.trans hs.mode, hreports⟩

/-- What a write of a snapshot leaves alone may still be shown. -/
lemma Reports.update {made : ℕ} {snap snap' : EcuSnapshot} (h : Reports calls made snap)
    (hsensor : snap'.sensorQueueDepth = snap.sensorQueueDepth)
    (htelemetry : snap'.telemetryQueueDepth = snap.telemetryQueueDepth)
    (hreadings : shown snap' = shown snap)
    (hengine : (snap'.lastRpm, snap'.lastThrottlePct) = (snap.lastRpm, snap.lastThrottlePct)) :
    Reports calls made snap' := by
  obtain ⟨hrpm, hthrottle⟩ := Prod.mk.inj hengine
  refine ⟨hsensor ▸ h.sensorDepth, htelemetry ▸ h.telemetryDepth, ?_, ?_⟩
  · rw [hreadings]
    exact h.readings
  · rw [hrpm, hthrottle]
    exact h.engine

/-- A thread with the mutex of the beats records one. -/
lemma allows_prvBeat {held : List Mutex} (hheld : .beat ∈ held) {s : Shared} (hs : Sound calls s)
    (task : TaskId) (now : Timespec) :
    (contract calls).Allows held s { s with sim := Host.prvBeat s.sim task now } := by
  refine ⟨fun m hm => ?_, ⟨Nat.le_refl _, id⟩, ?_⟩
  · cases m with
    | state => exact ⟨rfl, by cases task <;> rfl⟩
    | beat => exact absurd hheld hm
    | log => trivial
    | _ => rfl
  · refine ⟨hs.sensorRoom, hs.telemetryRoom, hs.samples, hs.frames, ?_, ?_⟩
    · refine Eq.trans ?_ hs.mode
      cases task <;> rfl
    · cases task <;> exact hs.reports.update rfl rfl rfl rfl

/-- A thread with the mutex of the beats forgets them. -/
lemma allows_prvClearBeats {held : List Mutex} (hheld : .beat ∈ held) {s : Shared}
    (hs : Sound calls s) :
    (contract calls).Allows held s { s with sim := Host.prvClearBeats s.sim } := by
  refine ⟨fun m hm => ?_, ⟨Nat.le_refl _, id⟩, ?_⟩
  · cases m with
    | state => exact ⟨rfl, rfl⟩
    | beat => exact absurd hheld hm
    | log => trivial
    | _ => rfl
  · exact ⟨hs.sensorRoom, hs.telemetryRoom, hs.samples, hs.frames, hs.mode, hs.reports⟩

/-- A thread with the state mutex sets the fault mode. -/
lemma allows_ecuSetFault {held : List Mutex} (hheld : .state ∈ held) {s : Shared}
    (hs : Sound calls s) (mode : FaultMode) :
    (contract calls).Allows held s { s with sim := Host.ecuSetFault s.sim mode } := by
  refine ⟨fun m hm => ?_, ⟨Nat.le_refl _, id⟩, ?_⟩
  · cases m with
    | state => exact absurd hheld hm
    | beat => exact ⟨rfl, rfl⟩
    | log => trivial
    | _ => rfl
  · exact ⟨hs.sensorRoom, hs.telemetryRoom, hs.samples, hs.frames, rfl,
      hs.reports.update rfl rfl rfl rfl⟩

/-- A thread with the state mutex starts the snapshot over. -/
lemma allows_zero {held : List Mutex} (hheld : .state ∈ held) {s : Shared} (hs : Sound calls s) :
    (contract calls).Allows held s
      { s with
        sim :=
          { s.sim with snapshot := { EcuSnapshot.zero with faultMode := s.sim.faultMode } } } := by
  refine allows_snapshot hheld hs hs.mode.symm ⟨?_, ?_, .inl rfl, .inl ⟨rfl, rfl⟩⟩
  · exact Nat.zero_le _
  · exact Nat.zero_le _

/-- A thread with the mutex of a queue that has room puts in what it has in hand. -/
lemma allows_append (q : QueueId) {held : List Mutex} {v : View} (hs : Sound calls v.1)
    (hroom : q.length v.1.sim < queueCapacity) (hhand : (q.inHand calls).Holds v) :
    (contract calls).Allows (q.mutex :: held) v.1 { v.1 with sim := q.append v.2 v.1.sim } := by
  refine ⟨fun m hm => ?_, ?_, ?_⟩
  · cases q <;> cases m <;> simp_all [contract, Same, QueueId.append, QueueId.mutex]
  · cases q <;> exact ⟨Nat.le_refl _, id⟩
  · cases q with
    | sensor =>
      refine ⟨?_, hs.telemetryRoom, ?_, hs.frames, hs.mode, hs.reports⟩
      · rw [QueueId.append, List.length_append]
        exact hroom
      · intro x hx
        rcases List.mem_append.mp hx with hold | hnew
        · exact hs.samples x hold
        · exact List.mem_singleton.mp hnew ▸ hhand
    | telemetry =>
      refine ⟨hs.sensorRoom, ?_, hs.samples, ?_, hs.mode, hs.reports⟩
      · rw [QueueId.append, List.length_append]
        exact hroom
      · intro x hx
        rcases List.mem_append.mp hx with hold | hnew
        · exact hs.frames x hold
        · exact List.mem_singleton.mp hnew ▸ hhand

/-- A thread with the mutex of a queue leaves only a part of it. -/
lemma allows_sublist (q : QueueId) {held : List Mutex} {s : Shared} (hs : Sound calls s)
    {sensorQueue : List (Stamped SensorSample)} {telemetryQueue : List (Stamped TelemetryFrame)}
    (hsensor : sensorQueue.Sublist s.sim.sensorQueue)
    (htelemetry : telemetryQueue.Sublist s.sim.telemetryQueue)
    (hother : match q with
      | .sensor    => telemetryQueue = s.sim.telemetryQueue
      | .telemetry => sensorQueue = s.sim.sensorQueue) :
    (contract calls).Allows (q.mutex :: held) s
      { s with
        sim := { s.sim with sensorQueue := sensorQueue, telemetryQueue := telemetryQueue } } := by
  refine ⟨fun m hm => ?_, ⟨Nat.le_refl _, id⟩, ?_⟩
  · cases q <;> cases m <;> simp_all [contract, Same, QueueId.mutex]
  · refine ⟨?_, ?_, ?_, ?_, hs.mode, hs.reports⟩
    · exact Nat.le_trans hsensor.length_le hs.sensorRoom
    · exact Nat.le_trans htelemetry.length_le hs.telemetryRoom
    · exact fun x hx => hs.samples x (hsensor.subset hx)
    · exact fun x hx => hs.frames x (htelemetry.subset hx)

/-! ### Rules -/

section Rules

variable {held : List Mutex} {A : Assertion}

/-- An access to local variables that keeps the records in hand. -/
lemma proves_onLocals {f : Input → EcuSim → Locals → Locals}
    (hf : ∀ i sim l, (f i sim l).records = l.records) :
    Proves calls held A.Holds (onLocals f) held A.Holds := by
  refine .act (A.stable held) (A.stable held) fun i v hinv hA => ⟨.refl hinv, ?_⟩
  simpa only [Assertion.Holds, hf] using hA

/-- An access to the simulator. -/
lemma proves_onSim {f : Locals → EcuSim → EcuSim} {B : Locals → Prop}
    (h : ∀ v : View, Sound calls v.1 → A.Holds v → B v.2 →
      (contract calls).Allows held v.1 { v.1 with sim := f v.2 v.1.sim }) :
    Proves calls held (fun v => A.Holds v ∧ B v.2) (onSim f) held A.Holds :=
  .act ((A.stable held).and (Contract.stable_local B)) (A.stable held) fun _ v hinv hA =>
    ⟨h v hinv hA.1 hA.2, hA.1⟩

/-- The same where nothing more is known. -/
lemma proves_onSim_of {f : Locals → EcuSim → EcuSim}
    (h : ∀ v : View, Sound calls v.1 → A.Holds v →
      (contract calls).Allows held v.1 { v.1 with sim := f v.2 v.1.sim }) :
    Proves calls held A.Holds (onSim f) held A.Holds :=
  .act (A.stable held) (A.stable held) fun _ v hinv hA => ⟨h v hinv hA, hA⟩

/-- A critical section. -/
lemma proves_section {m : Mutex} {p : Proc} {P Q : View → Prop} (hm : held.all (nests · m) = true)
    (hP : (contract calls).Stable held P) (hQ : (contract calls).Stable held Q)
    (h : Proves calls (m :: held) P p (m :: held) Q) :
    Proves calls held P (.seq (.lock m) (.seq p (.unlock m))) held Q :=
  .seq (.lock (List.all_eq_true.mp hm) hP) (.seq h (.unlock hQ))

end Rules

end EcuTelemetry.Host.Code
