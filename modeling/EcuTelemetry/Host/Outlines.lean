import EcuTelemetry.Host.Contract

/-!
# Outlines of the functions of the host simulator

Every function of `Host.Code` with what it asserts, from the queues up to the threads, and what
follows of all of them together: `simulator_sound` and `parts_guarded`.
-/

namespace EcuTelemetry.Host.Code

open EcuTelemetry.Core Pipeline

variable {calls : List Call} {A : Assertion} {held : List Mutex}

/-! ### `queue.c` -/

/-- The head of a queue that has one is an item of it. -/
lemma headD_mem {α : Type*} {l : List α} (h : l.length ≠ 0) (a : α) : l.headD a ∈ l := by
  cases l with
  | nil => exact absurd rfl h
  | cons b l => exact List.mem_cons_self

/-- `queue_push` of what is in hand. -/
lemma proves_queuePush (q : QueueId) :
    Proves calls [] (q.inHand calls).Holds (queuePush q) [] (q.inHand calls).Holds := by
  have hA := @Assertion.stable calls (q.inHand calls)
  refine .seq (proves_onLocals fun _ _ _ => rfl) ?_
  refine proves_section rfl (hA []) (hA []) ?_
  -- the room that the test finds is still there at the append
  refine .ite (A := fun v => (q.inHand calls).Holds v ∧ q.length v.1.sim < queueCapacity)
    (hA _) (fun v hv hroom => ⟨hv, of_decide_eq_true hroom⟩) (fun v hv _ => hv) ?_ (.skip (hA _))
  refine .seq ?_ (proves_onLocals fun _ _ _ => rfl)
  have hroom : (contract calls).Stable [q.mutex] fun v : View => q.length v.1.sim < queueCapacity :=
    stable_length q [] fun n _ => n < queueCapacity
  exact .act ((hA _).and hroom) (hA _) fun _ v hinv hv =>
    ⟨allows_append q hinv hv.2 hv.1, by cases q <;> exact hv.1⟩

/-- `queue_pop`: what it returns is such as the queue holds. -/
lemma proves_queuePop (q : QueueId) (timeoutMs : ℤ) :
    Proves calls [] anything.Holds (queuePop q timeoutMs) []
      fun v => v.2.ok = true → (q.inHand calls).Holds v := by
  have hany := @Assertion.stable calls anything
  have hhand := @Assertion.stable calls (q.inHand calls)
  have hpost : (contract calls).Stable []
      fun v : View => v.2.ok = true → (q.inHand calls).Holds v :=
    fun s s' l hsame hev h hok => hhand [] s s' l hsame hev (h hok)
  -- the item that ends the wait is still there when it is copied
  have hitem : (contract calls).Stable [q.mutex]
      fun v : View => v.2.timedOut = false → q.length v.1.sim ≠ 0 :=
    stable_length q [] fun n l => l.timedOut = false → n ≠ 0
  refine .seq (.lock (List.forall_mem_nil _) (hany [])) ?_
  refine .seq (proves_onLocals fun _ _ _ => rfl) ?_
  refine .seq (.loop (B := anything.Holds) (hany _) hitem (fun v hv _ => hv) ?_ ?_) ?_
  · intro v _ hend htime hlen
    exact of_decide_eq_false hend ⟨hlen, htime⟩
  · exact .seq (.wait (hany [])) (proves_onLocals fun _ _ _ => rfl)
  · refine .ite (A := anything.Holds) (B := fun v => q.length v.1.sim ≠ 0) hitem
      (fun v _ _ => trivial) (fun v hv htime => hv htime) ?_ ?_
    · exact .seq (.unlock (hany [])) (.act (hany []) hpost fun i v hinv _ =>
        ⟨.refl hinv, fun hok => absurd hok Bool.false_ne_true⟩)
    · have hlength : (contract calls).Stable [q.mutex] fun v : View => q.length v.1.sim ≠ 0 :=
        stable_length q [] fun n _ => n ≠ 0
      refine .seq (.act (Q := (q.inHand calls).Holds) hlength (hhand _) fun i v hinv hlen => ?_) ?_
      · refine ⟨.refl hinv, ?_⟩
        cases q with
        | sensor => exact hinv.samples _ (headD_mem hlen v.2.s)
        | telemetry => exact hinv.frames _ (headD_mem hlen v.2.f)
      · refine .seq (.act (hhand _) (hhand _) fun i v hinv hv => ⟨?_, hv⟩) ?_
        · cases q with
          | sensor => exact allows_sublist .sensor hinv (List.tail_sublist _) (.refl _) rfl
          | telemetry => exact allows_sublist .telemetry hinv (.refl _) (List.tail_sublist _) rfl
        · refine .seq (.unlock (hhand [])) (.act (hhand []) hpost fun i v hinv hv => ?_)
          exact ⟨.refl hinv, fun _ => hv⟩

lemma stable_count : (contract calls).Stable held
    fun v : View => A.Holds v ∧ v.2.count ≤ queueCapacity :=
  (A.stable held).and (Contract.stable_local fun l : Locals => l.count ≤ queueCapacity)

/-- `queue_count`. -/
lemma proves_queueCount (q : QueueId) (hheld : held.all (nests · q.mutex) = true) :
    Proves calls held A.Holds (queueCount q) held
      fun v => A.Holds v ∧ v.2.count ≤ queueCapacity := by
  refine proves_section hheld (A.stable held) stable_count ?_
  refine .act (A.stable _) stable_count fun i v hinv hA => ⟨.refl hinv, hA, ?_⟩
  cases q with
  | sensor => exact hinv.sensorRoom
  | telemetry => exact hinv.telemetryRoom

/-- `queue_clear`. -/
lemma proves_queueClear (q : QueueId) :
    Proves calls [] A.Holds (queueClear q) [] A.Holds := by
  refine proves_section rfl (A.stable []) (A.stable []) (proves_onSim_of fun v hs _ => ?_)
  cases q with
  | sensor => exact allows_sublist .sensor hs (List.nil_sublist _) (.refl _) rfl
  | telemetry => exact allows_sublist .telemetry hs (.refl _) (List.nil_sublist _) rfl

/-! ### Helpers of `ecu_sim.c` -/

/-- `prvNowTs`. -/
lemma proves_prvNowTs : Proves calls held A.Holds prvNowTs held A.Holds :=
  proves_onLocals fun _ _ _ => rfl

/-- `prvLog`. -/
lemma proves_prvLog : Proves calls [] A.Holds prvLog [] A.Holds :=
  proves_section rfl (A.stable []) (A.stable []) (.skip (A.stable _))

/-- `prvBeat`. -/
lemma proves_prvBeat (task : TaskId) : Proves calls [] A.Holds (prvBeat task) [] A.Holds := by
  refine .seq proves_prvNowTs (proves_section rfl (A.stable []) (A.stable []) ?_)
  exact proves_onSim_of fun v hs _ => allows_prvBeat List.mem_cons_self hs task v.2.ts

/-- `prvClearBeats`. -/
lemma proves_prvClearBeats : Proves calls [] A.Holds prvClearBeats [] A.Holds := by
  refine proves_section rfl (A.stable []) (A.stable []) ?_
  exact proves_onSim_of fun _ hs _ => allows_prvClearBeats List.mem_cons_self hs

/-- `ecu_get_fault`. -/
lemma proves_ecuGetFault : Proves calls [] A.Holds ecuGetFault [] A.Holds :=
  proves_section rfl (A.stable []) (A.stable [])
    (proves_onLocals fun _ _ _ => rfl)

/-- The increment of `sensor_sequence` gives a new sample its number. -/
lemma proves_drawSequence : Proves calls [] anything.Holds drawSequence [] drawn.Holds := by
  refine .act (anything.stable []) (drawn.stable []) fun i v hinv _ => ⟨?_, ?_⟩
  · exact allows_unprotected hinv (Nat.le_succ _) id
  · exact ⟨Nat.succ_pos _, Nat.le_refl _⟩

/-- `prvMakeSensorSample`. -/
lemma proves_prvMakeSensorSample :
    Proves calls [] drawn.Holds prvMakeSensorSample [] (QueueId.sensor.inHand calls).Holds := by
  refine .seq proves_prvNowTs (.seq proves_ecuGetFault ?_)
  refine .act (drawn.stable []) (Assertion.stable _ []) fun i v hinv hv => ⟨.refl hinv, .inl ?_⟩
  exact ⟨hv.1, hv.2, v.2.seq, v.2.fault, v.2.ts, rfl⟩

/-- `prvProcessSample`. -/
lemma proves_prvProcessSample :
    Proves calls [] (QueueId.sensor.inHand calls).Holds prvProcessSample []
      (QueueId.telemetry.inHand calls).Holds := by
  refine .seq proves_prvNowTs ?_
  refine .act (Assertion.stable _ []) (Assertion.stable _ []) fun i v hinv hv => ⟨.refl hinv, ?_⟩
  exact .inl ⟨v.2.s, v.2.ts, hv, rfl⟩

/-- The length of a queue is what its depth says. -/
lemma toNat_le {n : ℕ} (hn : n ≤ queueCapacity) : (UInt64.ofNat n).toNat ≤ queueCapacity := by
  rw [UInt64.toNat_ofNat']
  exact Nat.le_trans (Nat.mod_le _ _) hn

/-- A depth that `queue_count` returned is written to the copy of the snapshot. -/
lemma proves_outDepth {f : Locals → EcuSnapshot}
    (hreports : ∀ l made, l.count ≤ queueCapacity → Reports calls made l.out →
      Reports calls made (f l)) :
    Proves calls [.state] (fun v => (reported calls).Holds v ∧ v.2.count ≤ queueCapacity)
      (onLocals fun _ _ l => { l with out := f l }) [.state] (reported calls).Holds :=
  .act stable_count ((reported calls).stable _) fun _ v hinv hv =>
    ⟨.refl hinv, hreports v.2 _ hv.2 hv.1⟩

/-- A depth that `queue_count` returned is written to the snapshot. -/
lemma proves_writeDepth {f : Locals → EcuSnapshot → EcuSnapshot}
    (hmode : ∀ l snap, (f l snap).faultMode = snap.faultMode)
    (hreports : ∀ l snap made, l.count ≤ queueCapacity → Reports calls made snap →
      Reports calls made (f l snap)) :
    Proves calls [.state] (fun v => A.Holds v ∧ v.2.count ≤ queueCapacity) (onSnapshot f) [.state]
      A.Holds :=
  proves_onSim (B := fun l => l.count ≤ queueCapacity) fun v hs _ hn =>
    allows_snapshot List.mem_cons_self hs (hmode v.2 _) (hreports v.2 _ _ hn hs.reports)

/-- The depths that the snapshot helpers write. -/
lemma proves_writeDepths : Proves calls [.state] A.Holds writeDepths [.state] A.Holds := by
  refine .seq (proves_queueCount .sensor rfl)
    (.seq (proves_writeDepth (A := A) (fun _ _ => rfl) ?_)
      (.seq (proves_queueCount .telemetry rfl) (proves_writeDepth (fun _ _ => rfl) ?_)))
  · exact fun _ _ _ hn h => ⟨toNat_le hn, h.telemetryDepth, h.readings, h.engine⟩
  · exact fun _ _ _ hn h => ⟨h.sensorDepth, toNat_le hn, h.readings, h.engine⟩

/-- `prvUpdateFromSample`. -/
lemma proves_prvUpdateFromSample :
    Proves calls [] (QueueId.sensor.inHand calls).Holds prvUpdateFromSample []
      (QueueId.sensor.inHand calls).Holds := by
  have hstable := @Assertion.stable calls (QueueId.sensor.inHand calls)
  refine .seq (.lock (List.forall_mem_nil _) (hstable [])) (.seq (proves_onSim_of ?_)
    (.seq proves_writeDepths (.unlock (hstable []))))
  intro v hs hv
  refine allows_snapshot List.mem_cons_self hs rfl ?_
  exact ⟨hs.reports.sensorDepth, hs.reports.telemetryDepth, .inr (.inl ⟨v.2.s, hv, rfl⟩),
    hs.reports.engine⟩

/-- `prvUpdateFromFrame`. -/
lemma proves_prvUpdateFromFrame :
    Proves calls [] (QueueId.telemetry.inHand calls).Holds prvUpdateFromFrame []
      (QueueId.telemetry.inHand calls).Holds := by
  have hstable := @Assertion.stable calls (QueueId.telemetry.inHand calls)
  refine .seq (.lock (List.forall_mem_nil _) (hstable [])) (.seq (proves_onSim_of ?_)
    (.seq proves_writeDepths (.unlock (hstable []))))
  intro v hs hv
  refine allows_snapshot List.mem_cons_self hs rfl ?_
  exact ⟨hs.reports.sensorDepth, hs.reports.telemetryDepth, .inr (.inr ⟨v.2.f, hv, rfl⟩),
    .inr ⟨v.2.f, hv, rfl, rfl⟩⟩

/-- `prvIncrementDrop`. -/
lemma proves_prvIncrementDrop (sensorQ : Bool) :
    Proves calls [] A.Holds (prvIncrementDrop sensorQ) [] A.Holds := by
  refine proves_section rfl (A.stable []) (A.stable []) (proves_onSim_of fun v hs _ => ?_)
  refine allows_snapshot List.mem_cons_self hs ?_ ?_
  · cases sensorQ <;> rfl
  · cases sensorQ <;> exact hs.reports.update rfl rfl rfl rfl

/-! ### Threads -/

/-- A branch that needs what is asserted before it in either case. -/
lemma proves_ite {b : View → Bool} {p q : Proc} {P Q : View → Prop}
    (hP : (contract calls).Stable held P) (hp : Proves calls held P p held Q)
    (hq : Proves calls held P q held Q) : Proves calls held P (.ite b p q) held Q :=
  .ite hP (fun _ hv _ => hv) (fun _ hv _ => hv) hp hq

/-- What is in hand may be forgotten. -/
lemma proves_forget {p : Proc} {P : View → Prop} (h : Proves calls [] P p [] A.Holds) :
    Proves calls [] P p [] anything.Holds :=
  h.post (anything.stable []) fun _ _ _ => trivial

/-- A stop is requested. -/
def Stopped (v : View) : Prop := v.1.sim.stopRequested = true

lemma stable_stopped : (contract calls).Stable [] Stopped := fun _ _ _ _ hev h => hev.stop h

/-- The loop of a thread, which ends when a stop is requested. -/
lemma proves_loop {p : Proc} (h : Proves calls [] anything.Holds p [] anything.Holds) :
    Proves calls [] anything.Holds (.loop goesOn p) [] Stopped := by
  refine .loop (anything.stable []) stable_stopped (fun _ hv _ => hv) (fun v _ hend => ?_) h
  simpa [goesOn, Stopped] using hend

/-- A sample is made, pushed and counted. -/
lemma proves_sampleBody : Proves calls [] anything.Holds sampleBody [] anything.Holds := by
  refine .seq proves_drawSequence (.seq proves_prvMakeSensorSample
    (.seq (proves_queuePush .sensor) (proves_forget (A := QueueId.sensor.inHand calls) ?_)))
  exact proves_ite (Assertion.stable _ []) proves_prvUpdateFromSample (proves_prvIncrementDrop true)

/-- `prvSensorThread`. -/
lemma proves_prvSensorThread : Proves calls [] anything.Holds prvSensorThread [] Stopped := by
  have hany := @Assertion.stable calls anything []
  refine .seq (proves_prvBeat .sensor) (proves_loop (.seq proves_ecuGetFault
    (.seq (proves_onLocals fun _ _ _ => rfl) (proves_ite hany ?_ ?_))))
  · refine .seq (proves_onLocals fun _ _ _ => rfl)
      (.seq (.loop hany hany (fun _ hv _ => hv) (fun _ hv _ => hv) ?_) (proves_prvBeat .sensor))
    exact .seq proves_sampleBody (proves_onLocals fun _ _ _ => rfl)
  · exact .seq (proves_ite hany proves_prvLog (.skip hany))
      (.seq proves_sampleBody (proves_prvBeat .sensor))

/-- A branch on what `queue_pop` returned. -/
lemma proves_popped (q : QueueId) {p p' : Proc}
    (hp : Proves calls [] (q.inHand calls).Holds p [] anything.Holds)
    (hp' : Proves calls [] anything.Holds p' [] anything.Holds) :
    Proves calls [] (fun v => v.2.ok = true → (q.inHand calls).Holds v)
      (.ite (fun v => v.2.ok) p p') [] anything.Holds := by
  refine .ite ?_ (fun v hv hok => hv hok) (fun _ _ _ => trivial) hp hp'
  exact fun s s' l hsame hev h hok => (q.inHand calls).stable [] s s' l hsame hev (h hok)

/-- `prvProcessorThread`. -/
lemma proves_prvProcessorThread :
    Proves calls [] anything.Holds prvProcessorThread [] Stopped := by
  refine .seq (proves_prvBeat .processor) (proves_loop (.seq (proves_queuePop .sensor 250)
    (proves_popped .sensor ?_ (proves_prvBeat .processor))))
  refine .seq proves_ecuGetFault (.seq
    (proves_ite (Assertion.stable _ []) proves_prvLog (.skip (Assertion.stable _ []))) ?_)
  refine .seq proves_prvProcessSample (.seq (proves_queuePush .telemetry) (.seq
    (proves_ite (Assertion.stable _ []) proves_prvUpdateFromFrame (proves_prvIncrementDrop false))
    (proves_forget (proves_prvBeat .processor))))

/-- `prvLoggerThread`. -/
lemma proves_prvLoggerThread : Proves calls [] anything.Holds prvLoggerThread [] Stopped := by
  have hstable := @Assertion.stable calls (QueueId.telemetry.inHand calls)
  refine .seq (proves_prvBeat .logger) (proves_loop (.seq (proves_queuePop .telemetry 300)
    (proves_popped .telemetry ?_ (proves_prvBeat .logger))))
  exact .seq (.lock (List.forall_mem_nil _) (hstable [])) (.seq (.skip (hstable _))
    (.seq (.unlock (hstable [])) (proves_forget (proves_prvBeat .logger))))

/-- `prvWarnIfOverdue`. -/
lemma proves_prvWarnIfOverdue (task : TaskId) (deadlineMs : ℤ) :
    Proves calls [] anything.Holds (prvWarnIfOverdue task deadlineMs) [] anything.Holds := by
  have hany := @Assertion.stable calls anything
  refine .seq (.lock (List.forall_mem_nil _) (hany [])) ?_
  refine .ite (hany _) (fun _ hv _ => hv) (fun _ hv _ => hv) (.unlock (hany [])) ?_
  refine .seq (proves_onLocals fun _ _ _ => rfl) (.seq (.unlock (hany []))
    (.seq proves_prvNowTs (proves_ite (hany []) ?_ (.skip (hany [])))))
  refine .seq (.lock (List.forall_mem_nil _) (hany [])) (.seq (proves_onSim_of ?_)
    (.seq (.unlock (hany [])) proves_prvLog))
  intro v hs _
  exact allows_snapshot List.mem_cons_self hs rfl (hs.reports.update rfl rfl rfl rfl)

/-- `prvWatchdogThread`. -/
lemma proves_prvWatchdogThread :
    Proves calls [] anything.Holds prvWatchdogThread [] Stopped :=
  .seq (proves_prvBeat .watchdog) (proves_loop (.seq (proves_prvWarnIfOverdue .sensor 900)
    (.seq (proves_prvWarnIfOverdue .processor 900) (.seq (proves_prvWarnIfOverdue .logger 1200)
      (proves_prvBeat .watchdog)))))

/-! ### Calls of the main thread -/

/-- `ecu_reset`. -/
lemma proves_ecuReset : Proves calls [] anything.Holds ecuReset [] anything.Holds := by
  have hany := @Assertion.stable calls anything
  refine .seq (.lock (List.forall_mem_nil _) (hany [])) (.seq (.seq (proves_onSim_of ?_)
    proves_writeDepths) (.seq (proves_onSim_of ?_) (.seq (.unlock (hany []))
      (.seq (proves_queueClear .sensor) (.seq (proves_queueClear .telemetry)
        proves_prvClearBeats)))))
  · exact fun v hs _ => allows_zero List.mem_cons_self hs
  · exact fun v hs _ => allows_unprotected hs (Nat.le_refl _) id

/-- `ecu_set_fault`. -/
lemma proves_ecuSetFault (mode : FaultMode) :
    Proves calls [] anything.Holds (ecuSetFault mode) [] anything.Holds := by
  refine proves_section rfl (anything.stable []) (anything.stable []) ?_
  exact proves_onSim_of fun v hs _ => allows_ecuSetFault List.mem_cons_self hs mode

/-- `ecu_snapshot`. -/
lemma proves_ecuSnapshot :
    Proves calls [] anything.Holds ecuSnapshot [] (reported calls).Holds := by
  have hreported := @Assertion.stable calls (reported calls)
  refine .seq (.lock (List.forall_mem_nil _) (anything.stable [])) (.seq
    (.act (Q := (reported calls).Holds) (anything.stable _) (hreported _)
      fun i v hinv _ => ⟨.refl hinv, hinv.reports⟩) ?_)
  refine .seq (proves_queueCount .sensor rfl) (.seq (proves_outDepth ?_)
    (.seq (proves_queueCount .telemetry rfl) (.seq (proves_outDepth ?_) (.unlock (hreported [])))))
  · exact fun l made hn h => ⟨toNat_le hn, h.telemetryDepth, h.readings, h.engine⟩
  · exact fun l made hn h => ⟨h.sensorDepth, toNat_le hn, h.readings, h.engine⟩

/-- `ecu_stop`. -/
lemma proves_ecuStop : Proves calls [] anything.Holds ecuStop [] anything.Holds := by
  have hany := @Assertion.stable calls anything []
  refine proves_ite hany ?_ (.skip hany)
  refine .seq (proves_onSim_of ?_) (.seq (proves_queueClear .sensor)
    (.seq (proves_queueClear .telemetry) (.seq (.join hany) (.seq (.join hany) (.seq (.join hany)
      (.seq (.join hany) (.act hany hany ?_)))))))
  · exact fun v hs _ => allows_unprotected hs (Nat.le_refl _) fun _ => rfl
  · exact fun i v hs _ => ⟨allows_unprotected hs (Nat.le_refl _) id, trivial⟩

/-- What a call of the main thread returns. -/
def Call.Answered (calls : List Call) : Call → View → Prop
  | .snapshot, v => Reports calls v.1.made v.2.out
  | .pop q _, v  => v.2.ok = true → (q.inHand calls).Holds v
  | .count _, v  => v.2.count ≤ queueCapacity
  | _, _         => True

/-- The function that a call of the main thread calls. -/
lemma proves_body {call : Call} (hmem : call ∈ calls) :
    Proves calls [] anything.Holds call.body [] (call.Answered calls) := by
  have hany := @Assertion.stable calls anything []
  cases call with
  | snapshot => exact proves_ecuSnapshot
  | setFault mode => exact proves_ecuSetFault mode
  | getFault => exact proves_ecuGetFault
  | reset => exact proves_ecuReset
  | stop => exact proves_ecuStop
  | pushSample s =>
    refine proves_forget (.seq (.act hany (Assertion.stable _ []) ?_) (proves_queuePush .sensor))
    exact fun _ _ hinv _ => ⟨.refl hinv, .inr hmem⟩
  | pushFrame f =>
    refine proves_forget (.seq (.act hany (Assertion.stable _ []) ?_) (proves_queuePush .telemetry))
    exact fun _ _ hinv _ => ⟨.refl hinv, .inr hmem⟩
  | pop q timeoutMs => exact proves_queuePop q timeoutMs
  | count q =>
    refine (proves_queueCount q rfl).post ?_ fun _ _ hv => hv.2
    exact Contract.stable_local fun l : Locals => l.count ≤ queueCapacity
  | clear q => exact proves_queueClear q

/-- What the last of the calls returned; before any call, `P`. -/
def afterAll (calls : List Call) (P : View → Prop) : List Call → View → Prop
  | []           => P
  | call :: rest => afterAll calls (call.Answered calls) rest

lemma afterAll_append (P : View → Prop) (before : List Call) (call : Call) :
    afterAll calls P (before ++ [call]) = call.Answered calls := by
  induction before generalizing P with
  | nil => rfl
  | cons first before ih => exact ih _

/-- The calls of the main thread one after the other. -/
lemma proves_calls {P : View → Prop} (hP : (contract calls).Stable [] P) {rest : List Call}
    (hrest : ∀ call ∈ rest, call ∈ calls) :
    OutlineAll nests (contract calls) [] P (rest.map Call.body) (afterAll calls P rest) := by
  induction rest generalizing P with
  | nil => exact .nil hP fun _ _ hv => hv
  | cons call rest ih =>
    obtain ⟨hmem, hrest⟩ := List.forall_mem_cons.mp hrest
    have hbody := proves_body hmem
    exact .cons (hbody.pre hP fun _ _ _ => trivial) (ih hbody.stable.2 hrest)

/-! ### The simulator -/

/-- Where a thread has come to its end. -/
def ended (calls : List Call) : Thread → View → Prop
  | .main => afterAll calls anything.Holds calls
  | _     => Stopped

/-- At the start every thread has an outline. -/
lemma outlined_start (calls : List Call) (locals : Thread → Locals) :
    (start calls locals).Outlined nests (contract calls) (ended calls) := by
  refine ⟨?_, fun t => ⟨[], anything.Holds, ?_, ?_, trivial⟩⟩
  · refine ⟨Nat.zero_le _, Nat.zero_le _, List.forall_mem_nil _, List.forall_mem_nil _, rfl, ?_⟩
    exact ⟨Nat.zero_le _, Nat.zero_le _, .inl rfl, .inl ⟨rfl, rfl⟩⟩
  · refine ⟨by simp [start], List.Pairwise.nil, ?_⟩
    cases t with
    | main => exact checkAll_calls calls
    | _ => rfl
  · cases t with
    | sensor => exact proves_prvSensorThread.all
    | processor => exact proves_prvProcessorThread.all
    | logger => exact proves_prvLoggerThread.all
    | watchdog => exact proves_prvWatchdogThread.all
    | main => exact proves_calls (anything.stable []) fun _ hmem => hmem

/-- What holds in every state of the simulator. -/
structure Kept (calls : List Call) (c : Config Mutex Thread Input Shared Locals) : Prop where
  sound : Sound calls c.shared
  /-- A worker thread ends only when a stop is requested. -/
  stopped : ∀ t, t ≠ .main → c.cont t = [] → c.shared.sim.stopRequested = true
  /-- What the last call of the main thread returned. -/
  answered : ∀ before call, calls = before ++ [call] → c.cont .main = [] →
    call.Answered calls (c.view .main)

/-- In every order of the steps of the threads, whatever the main thread calls, the queues keep to
their capacity and hold, as the snapshot shows, only what the simulator makes or a call pushes. -/
theorem simulator_sound (calls : List Call) (locals : Thread → Locals)
    (acts : List (Thread × Input)) : Kept calls (simulator.run (start calls locals) acts) := by
  have h := (outlined_start calls locals).run rank_lt_of_nests acts
  refine ⟨h.inv, fun t ht hend => ?_, fun before call hcalls hend => ?_⟩
  · have hpost := h.finished hend
    cases t with
    | main => exact absurd rfl ht
    | _ => exact hpost
  · have hpost := h.finished hend
    have hlast := @afterAll_append calls anything.Holds before call
    rw [← hcalls] at hlast
    exact hlast ▸ hpost

/-- What a mutex protects is safe from the threads that do not hold it. -/
structure Guarded (c : Config Mutex Thread Input Shared Locals) (m : Mutex) : Prop where
  /-- One step. -/
  step : ∀ u i, c.owner m ≠ some u → Same m c.shared (c.step u i).shared
  /-- Any number of steps. -/
  run : ∀ t acts, c.owner m = some t → (∀ a ∈ acts, a.1 ≠ t) →
    (simulator.run c acts).owner m = some t ∧ Same m c.shared (simulator.run c acts).shared

/-- In every state reached, what a mutex protects is changed by nobody but its holder. -/
theorem parts_guarded (calls : List Call) (locals : Thread → Locals)
    (acts : List (Thread × Input)) (m : Mutex) :
    Guarded (simulator.run (start calls locals) acts) m := by
  have h := (outlined_start calls locals).run rank_lt_of_nests acts
  refine ⟨fun u i hown => ?_, fun t later hown hothers => ?_⟩
  · exact (h.step rank_lt_of_nests u i).2.2 m hown
  · exact h.undisturbed rank_lt_of_nests hown hothers

end EcuTelemetry.Host.Code
