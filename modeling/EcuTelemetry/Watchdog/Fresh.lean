import EcuTelemetry.Watchdog.Basic

/-!
# When a healthy report is fresh

A window that times out clears nothing, and a task may set its bit between the verdict on a window
and the message about it. Either way bits from before a report are still set after it, and the next
window counts them. `watchdog_fresh_of_quiet` shows that reports are fresh in every run in which no
bit is set when a report is written; `exists_stale_report` shows that the condition cannot be
dropped at any reachable report.
-/

namespace EcuTelemetry.Watchdog

open EcuTelemetry.Core

variable {ι : Type*} [DecidableEq ι] [Fintype ι]

/-- The next step of the watchdog writes a report. -/
def Dog.Reporting (healthy : Finset ι → Bool) (d : Dog ι) : Prop :=
  (∃ bits, d.stage = .warned bits) ∨
    d.stage = .inside ∧ ∃ bits, d.group.waiter = .released bits ∧ healthy bits

instance (healthy : Finset ι → Bool) (d : Dog ι) : Decidable (d.Reporting healthy) :=
  match d with
  | ⟨_, .warned bits⟩ => isTrue (.inl ⟨bits, rfl⟩)
  | ⟨⟨_, .released bits⟩, .inside⟩ =>
    decidable_of_iff (healthy bits = true) (by simp [Dog.Reporting])
  | ⟨⟨_, .none⟩, .inside⟩ | ⟨⟨_, .blocked _⟩, .inside⟩ | ⟨_, .call⟩ =>
    isFalse (by simp [Dog.Reporting])

/-- When the watchdog writes a report, no heartbeat bit is set. -/
def Quiet (healthy : Finset ι → Bool) (d : Dog ι) (a : Act ι) : Prop :=
  a = .watchdog → d.Reporting healthy → d.group.bits = ∅

instance (healthy : Finset ι → Bool) (d : Dog ι) (a : Act ι) : Decidable (Quiet healthy d a) :=
  inferInstanceAs (Decidable (_ → _ → _))

/-! ### Logs -/

omit [DecidableEq ι] [Fintype ι] in
/-- One more event keeps reports fresh unless it is a healthy report that is not. -/
lemma Fresh.concat {log : List (Report ι)} (h : Fresh log) {e : Report ι}
    (he : e = .healthy → AllBeat log) : Fresh (log ++ [e]) := by
  intro before after heq
  rcases List.eq_nil_or_concat after with rfl | ⟨after, e', rfl⟩
  · obtain ⟨rfl, he'⟩ := List.append_inj' heq rfl
    exact he (List.singleton_inj.mp he')
  · rw [List.concat_eq_append, ← List.cons_append, ← List.append_assoc] at heq
    exact h before after (List.append_inj' heq rfl).1

/-! ### Quiet runs -/

/-- Every bit set, and every bit a finished wait returned, was set since the last report. -/
structure Current (d : Dog ι) (log : List (Report ι)) : Prop where
  fresh : Fresh log
  bits : ∀ i ∈ d.group.bits, .beat i ∈ sinceReport log
  released : ∀ bits, d.group.waiter = .released bits → ∀ i ∈ bits, .beat i ∈ sinceReport log
  waiter : d.stage ≠ .inside → d.group.waiter = .none

variable {healthy : Finset ι → Bool}

omit [Fintype ι] in
/-- A heartbeat is itself an event since the last report. -/
lemma Current.beat_step {d : Dog ι} {log : List (Report ι)} (h : Current d log) (i : ι) :
    Current { d with group := d.group.setBits {i} } (log ++ [.beat i]) := by
  have hmem : ∀ j ∈ d.group.bits ∪ {i}, .beat j ∈ sinceReport (log ++ [.beat i]) := by
    intro j hj
    rw [sinceReport_beat]
    rcases Finset.mem_union.mp hj with hj | hj
    · exact List.mem_append_left _ (h.bits j hj)
    · rw [Finset.mem_singleton.mp hj]
      exact List.mem_append_right _ (List.mem_singleton_self _)
  obtain ⟨hsub, hw⟩ := d.group.setBits_cases {i}
  refine ⟨h.fresh.concat (by simp), fun j hj => hmem j (hsub hj), ?_, ?_⟩
  · intro bits heq j hj
    rcases hw with hw | hw
    · rw [sinceReport_beat]
      exact List.mem_append_left _ (h.released bits (hw ▸ heq) j hj)
    · simp only [hw, Waiter.released.injEq] at heq
      exact hmem j (heq ▸ hj)
  · intro hstage
    simp only [EventGroup.setBits, h.waiter hstage]

omit [DecidableEq ι] [Fintype ι] in
/-- The end of the block time returns the bits as they are. -/
lemma Current.timeout_step {d : Dog ι} {log : List (Report ι)} (h : Current d log) :
    Current { d with group := d.group.timeout } log := by
  cases hw : d.group.waiter with
  | blocked mask =>
    simp only [EventGroup.timeout, hw]
    refine ⟨h.fresh, h.bits, ?_, fun hstage => ?_⟩
    · intro bits heq
      rw [Waiter.released.injEq] at heq
      exact heq ▸ h.bits
    · exact absurd (h.waiter hstage) (by simp [hw])
  | none => simpa only [EventGroup.timeout, hw] using h
  | released bits => simpa only [EventGroup.timeout, hw] using h

/-- A step of the watchdog keeps `Current` when no bit is set at a report. -/
lemma Current.watchdog_step (hv : ∀ bits, healthy bits = true ↔ bits = Finset.univ) {d : Dog ι}
    {log : List (Report ι)} (hquiet : d.Reporting healthy → d.group.bits = ∅)
    (h : Current d log) :
    Current (d.step healthy .watchdog).1 (log ++ (d.step healthy .watchdog).2) := by
  cases hs : d.stage with
  | call =>
    obtain ⟨hsub, hw⟩ := d.group.waitBits_cases Finset.univ
    simp only [Dog.step, hs, List.append_nil]
    refine ⟨h.fresh, fun i hi => h.bits i (hsub hi), ?_, by simp⟩
    intro bits heq
    rcases hw with hw | hw
    · rw [hw, Waiter.released.injEq] at heq
      exact heq ▸ h.bits
    · exact absurd (hw.symm.trans heq) (by simp)
  | inside =>
    cases hw : d.group.waiter with
    | released bits =>
      cases hh : healthy bits with
      | true =>
        -- all bits returned were set since the last report, and none is left for the next
        have hempty := hquiet (.inr ⟨hs, bits, hw, hh⟩)
        have hall : AllBeat log := fun i =>
          h.released bits hw i ((hv bits).mp hh ▸ Finset.mem_univ i)
        simp only [Dog.step, hs, hw, hh, if_true]
        refine ⟨h.fresh.concat fun _ => hall, ?_, by simp [EventGroup.collect], fun _ => rfl⟩
        simp [EventGroup.collect, hempty]
      | false =>
        simp only [Dog.step, hs, hw, hh, Bool.false_eq_true, if_false, List.append_nil]
        exact ⟨h.fresh, h.bits, by simp [EventGroup.collect], fun _ => rfl⟩
    | none => simpa [Dog.step, hs, hw] using h
    | blocked mask => simpa [Dog.step, hs, hw] using h
  | warned bits =>
    have hempty := hquiet (.inl ⟨bits, hs⟩)
    have hnone := h.waiter (by simp [hs])
    simp only [Dog.step, hs]
    refine ⟨h.fresh.concat (by simp), ?_, by simp [hnone], fun _ => hnone⟩
    simp [hempty]

/-- A quiet step keeps `Current`. -/
lemma Current.step (hv : ∀ bits, healthy bits = true ↔ bits = Finset.univ) {d : Dog ι}
    {log : List (Report ι)} {a : Act ι} (ha : Quiet healthy d a) (h : Current d log) :
    Current ((watchdog healthy).next d a) (log ++ (watchdog healthy).emit d a) := by
  cases a with
  | beat i => exact h.beat_step i
  | clear =>
    refine ⟨by simpa [watchdog, Machine.emit, Dog.step] using h.fresh, ?_, ?_, h.waiter⟩
    · intro i hi
      simp [watchdog, Machine.next, Dog.step] at hi
    · simpa [watchdog, Machine.emit, Machine.next, Dog.step] using h.released
  | timeout => simpa [watchdog, Machine.emit, Machine.next, Dog.step] using h.timeout_step
  | watchdog => exact h.watchdog_step hv (ha rfl)

omit [DecidableEq ι] [Fintype ι] in
lemma current_start : Current (.start ι) ([] : List (Report ι)) := by
  refine ⟨?_, by simp [Dog.start], by simp [Dog.start], fun _ => rfl⟩
  intro before after h
  simp at h

/-- Reports are fresh in quiet runs. -/
theorem watchdog_fresh_of_quiet (hv : ∀ bits, healthy bits = true ↔ bits = Finset.univ)
    {acts : List (Act ι)} (h : (watchdog healthy).Meets (Quiet healthy) (.start ι) acts) :
    Fresh ((watchdog healthy).trace (.start ι) acts) :=
  ((watchdog healthy).invariant (fun _ _ _ ha => Current.step hv ha) current_start h).fresh

/-! ### Stale reports -/

/-- Heartbeats set during a wait either complete it or add up. -/
lemma run_beats {d : Dog ι} (hs : d.stage = .inside) (hw : d.group.waiter = .blocked Finset.univ)
    (hn : ¬ Finset.univ ⊆ d.group.bits) (l : List ι) :
    ((watchdog healthy).run d (l.map .beat)).stage = .inside ∧
      (((watchdog healthy).run d (l.map .beat)).group.waiter = .released Finset.univ ∨
        ((watchdog healthy).run d (l.map .beat)).group =
          ⟨d.group.bits ∪ l.toFinset, .blocked Finset.univ⟩ ∧
        ¬ Finset.univ ⊆ d.group.bits ∪ l.toFinset) := by
  induction l using List.reverseRecOn with
  | nil => exact ⟨hs, .inr ⟨by simp [← hw], by simpa using hn⟩⟩
  | append_singleton l i ih =>
    rw [List.map_append, Machine.run_append]
    obtain ⟨hstage, hrel | ⟨hgroup, hmiss⟩⟩ := ih
    · -- the wait is over: later heartbeats stay in the group
      refine ⟨hstage, .inl ?_⟩
      simp only [List.map_cons, List.map_nil, Machine.run_cons, Machine.run_nil, watchdog,
        Machine.next, Dog.step, EventGroup.setBits] at hrel ⊢
      simp only [hrel]
    · refine ⟨hstage, ?_⟩
      have hbits : d.group.bits ∪ l.toFinset ∪ {i} = d.group.bits ∪ (l ++ [i]).toFinset := by
        rw [List.toFinset_append, Finset.union_assoc]
        rfl
      simp only [List.map_cons, List.map_nil, Machine.run_cons, Machine.run_nil, watchdog,
        Machine.next, Dog.step] at hgroup ⊢
      rw [hgroup]
      by_cases hall : Finset.univ ⊆ d.group.bits ∪ l.toFinset ∪ {i}
      · rw [EventGroup.setBits_of_subset rfl hall]
        exact .inl (congrArg _ (Finset.univ_subset_iff.mp hall))
      · rw [EventGroup.setBits_of_not_subset rfl hall, ← hbits]
        exact .inr ⟨rfl, hall⟩

/-- Heartbeats show as themselves. -/
lemma trace_beats (d : Dog ι) (l : List ι) :
    (watchdog healthy).trace d (l.map .beat) = l.map .beat := by
  induction l generalizing d with
  | nil => rfl
  | cons i l ih => simpa [watchdog, Machine.emit, Dog.step] using ih _

omit [DecidableEq ι] [Fintype ι] in
/-- Heartbeats after a report are what is seen since then. -/
lemma sinceReport_beats {log : List (Report ι)} (h : sinceReport log = []) (l : List ι) :
    sinceReport (log ++ l.map .beat) = l.map .beat := by
  induction l using List.reverseRecOn with
  | nil => simpa using h
  | append_singleton l i ih =>
    rw [List.map_append, ← List.append_assoc, List.map_singleton, sinceReport_beat, ih]

/-- The step that writes a report leaves the bits as they are. -/
lemma Dog.Reporting.step {d : Dog ι} (h : d.Reporting healthy) (log : List (Report ι)) :
    ((watchdog healthy).next d .watchdog).stage = .call ∧
      ((watchdog healthy).next d .watchdog).group.bits = d.group.bits ∧
      sinceReport (log ++ (watchdog healthy).emit d .watchdog) = [] := by
  rcases h with ⟨bits, hs⟩ | ⟨hs, bits, hw, hh⟩
  · simp [watchdog, Machine.next, Machine.emit, Dog.step, hs]
  · simp [watchdog, Machine.next, Machine.emit, Dog.step, hs, hw, hh, EventGroup.collect]

/-- Calling the wait. -/
lemma watchdog_call {d : Dog ι} (hs : d.stage = .call) :
    (watchdog healthy).next d .watchdog = ⟨d.group.waitBits Finset.univ, .inside⟩ ∧
      (watchdog healthy).emit d .watchdog = [] := by
  simp [watchdog, Machine.next, Machine.emit, Dog.step, hs]

/-- The verdict on a wait that returned all bits. -/
lemma watchdog_healthy {d : Dog ι} (hs : d.stage = .inside)
    (hw : d.group.waiter = .released Finset.univ) (hh : healthy Finset.univ = true) :
    (watchdog healthy).emit d .watchdog = [.healthy] := by
  simp [watchdog, Machine.emit, Dog.step, hs, hw, hh]

/-- A wait during which every missing bit is set returns all bits. -/
lemma run_window (g : EventGroup ι) {l : List ι} (hl : l = (Finset.univ \ g.bits).toList) :
    ((watchdog healthy).run ⟨g.waitBits Finset.univ, .inside⟩ (l.map .beat)).stage = .inside ∧
      ((watchdog healthy).run ⟨g.waitBits Finset.univ, .inside⟩ (l.map .beat)).group.waiter =
        .released Finset.univ := by
  by_cases hall : Finset.univ ⊆ g.bits
  · have hnil : l = [] := by
      rw [hl, Finset.univ_subset_iff.mp hall, Finset.sdiff_self, Finset.toList_empty]
    rw [hnil, EventGroup.waitBits, if_pos hall]
    exact ⟨rfl, congrArg _ (Finset.univ_subset_iff.mp hall)⟩
  · have hcover : Finset.univ ⊆ g.bits ∪ l.toFinset := by
      intro j _
      rw [hl, Finset.toList_toFinset, Finset.union_sdiff_self_eq_union]
      exact Finset.mem_union_right _ (Finset.mem_univ j)
    rw [EventGroup.waitBits, if_neg hall]
    obtain ⟨hstage, hrel | ⟨-, hmiss⟩⟩ :=
      @run_beats _ _ _ healthy ⟨⟨g.bits, .blocked Finset.univ⟩, .inside⟩ rfl rfl hall l
    · exact ⟨hstage, hrel⟩
    · exact absurd hcover hmiss

/-- A bit that is set when a report is written makes a stale report possible: the other tasks set
theirs, and the next window is healthy. -/
theorem exists_stale_report (hv : ∀ bits, healthy bits = true ↔ bits = Finset.univ) {d : Dog ι}
    (h : d.Reporting healthy) (hne : d.group.bits ≠ ∅) (log : List (Report ι)) :
    ∃ more, ¬ Fresh (log ++ (watchdog healthy).trace d more) := by
  obtain ⟨i, hi⟩ := Finset.nonempty_iff_ne_empty.mpr hne
  obtain ⟨hcall, hbits, hsince⟩ := h.step log
  obtain ⟨l, hl⟩ : ∃ l : List ι, l = (Finset.univ \ d.group.bits).toList := ⟨_, rfl⟩
  obtain ⟨hnext, hemit⟩ := watchdog_call hcall
  obtain ⟨hinside, hreleased⟩ := run_window _ (hbits.symm ▸ hl)
  refine ⟨.watchdog :: .watchdog :: (l.map .beat ++ [.watchdog]), fun hfresh => ?_⟩
  have htrace : log ++ (watchdog healthy).trace d
      (.watchdog :: .watchdog :: (l.map .beat ++ [.watchdog])) =
      (log ++ (watchdog healthy).emit d .watchdog ++ l.map .beat) ++ .healthy :: [] := by
    simp only [Machine.trace_cons, Machine.trace_append, trace_beats, Machine.trace_nil,
      List.append_nil, List.append_assoc]
    rw [hemit, hnext, watchdog_healthy hinside hreleased ((hv _).mpr rfl), List.nil_append]
  -- since the report only the tasks with a missing bit have set theirs
  have hmem := hfresh _ _ htrace i
  rw [sinceReport_beats hsince] at hmem
  obtain ⟨j, hj, hij⟩ := List.mem_map.mp hmem
  rw [Report.beat.injEq] at hij
  rw [hl, hij, Finset.mem_toList, Finset.mem_sdiff] at hj
  exact hj.2 hi

/-! ### The two supervisors -/

/-- For either supervisor: reports are fresh in every run in which no heartbeat bit is set when a
report is written, and a run that reaches a report with a bit set extends to one with a healthy
report that is stale. -/
theorem watchdog_fresh_unless_residue (sup : Supervisor) (acts : List (Act ι)) :
    ((watchdog sup.healthy).Meets (Quiet sup.healthy) (.start ι) acts →
        Fresh ((watchdog sup.healthy).trace (.start ι) acts)) ∧
      (((watchdog sup.healthy).run (.start ι) acts).Reporting sup.healthy →
        ((watchdog sup.healthy).run (.start ι) acts).group.bits ≠ ∅ →
        ∃ more, ¬ Fresh ((watchdog sup.healthy).trace (.start ι) (acts ++ more))) := by
  refine ⟨watchdog_fresh_of_quiet sup.healthy_iff, fun hrep hne => ?_⟩
  obtain ⟨more, hmore⟩ := exists_stale_report sup.healthy_iff hrep hne _
  exact ⟨more, by rwa [Machine.trace_append]⟩

/-- A window in which every task sets its bit, and a second one without the sensor task. -/
def twoWindows : List (Act Heartbeat) :=
  [.watchdog, .beat .sensor, .beat .processor, .beat .logger, .watchdog, .watchdog, .beat .logger,
    .timeout, .watchdog, .clear, .watchdog]

/-- The condition is met by runs with both kinds of report. -/
theorem watchdog_fresh_unless_residue_two_windows :
    Fresh ((watchdog prvWatchdogHealthy).trace (.start Heartbeat) twoWindows) ∧
      (watchdog prvWatchdogHealthy).trace (.start Heartbeat) twoWindows =
        [.beat .sensor, .beat .processor, .beat .logger, .healthy, .beat .logger,
          .warning {.logger}] := by
  exact ⟨(watchdog_fresh_unless_residue .prvWatchdogTask twoWindows).1 (by decide), by decide⟩

/-- A window that times out on the sensor task, and a second one in which only that task sets its
bit. -/
def residueWindows : List (Act Heartbeat) :=
  [.watchdog, .beat .processor, .beat .logger, .timeout, .watchdog, .watchdog, .watchdog,
    .beat .sensor, .watchdog]

/-- The second window is reported healthy, for two tasks that did nothing since the warning. -/
theorem residueWindows_not_fresh :
    ¬ Fresh ((watchdog prvWatchdogHealthy).trace (.start Heartbeat) residueWindows) := by
  intro h
  have htrace : (watchdog prvWatchdogHealthy).trace (.start Heartbeat) residueWindows =
      [.beat .processor, .beat .logger, .warning {.processor, .logger}, .beat .sensor] ++
        .healthy :: [] := by decide
  have hmem := h _ _ htrace .logger
  simp [sinceReport] at hmem

end EcuTelemetry.Watchdog
