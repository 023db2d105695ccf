import EcuTelemetry.Watchdog.Basic

/-!
# Reports after a task has stopped

A heartbeat is good for one healthy report: the report takes the bit. At most two are ever in hand,
one in the bit and one in a wait that has returned all bits, so after a task's last heartbeat the
watchdog reports healthy at most twice more, whatever the other tasks do and however its waits end.
-/

namespace EcuTelemetry.Watchdog

open EcuTelemetry.Core

/-! ### Counting -/

/-- One if `p`. -/
def one (p : Prop) [Decidable p] : ℕ := if p then 1 else 0

lemma one_of {p : Prop} [Decidable p] (h : p) : one p = 1 := if_pos h

lemma one_of_not {p : Prop} [Decidable p] (h : ¬ p) : one p = 0 := if_neg h

lemma one_le_one (p : Prop) [Decidable p] : one p ≤ 1 := by
  by_cases h : p
  · exact (one_of h).le
  · exact (one_of_not h).trans_le (Nat.zero_le 1)

lemma one_le_add {p q r : Prop} [Decidable p] [Decidable q] [Decidable r] (h : p → q ∨ r) :
    one p ≤ one q + one r := by
  by_cases hp : p
  · rcases h hp with hq | hr
    · rw [one_of hq]
      exact (one_le_one p).trans (Nat.le_add_right 1 _)
    · rw [one_of hr]
      exact (one_le_one p).trans (Nat.le_add_left 1 _)
  · rw [one_of_not hp]
    exact Nat.zero_le _

/-! ### Heartbeats in hand -/

variable {ι : Type*} [DecidableEq ι] [Fintype ι]

/-- A task waits for all bits only, and not while all are set. -/
def Tidy (g : EventGroup ι) : Prop :=
  ∀ mask, g.waiter = .blocked mask → mask = Finset.univ ∧ ¬ Finset.univ ⊆ g.bits

/-- The healthy reports that need no further heartbeat of task `i`: one for a heartbeat whose bit is
still set, and one for a wait that has returned all bits. -/
def credit (g : EventGroup ι) (i : ι) : ℕ :=
  one (i ∈ g.bits) + one (g.waiter = .released Finset.univ)

lemma credit_le_two (g : EventGroup ι) (i : ι) : credit g i ≤ 2 :=
  Nat.add_le_add (one_le_one _) (one_le_one _)

lemma credit_start (i : ι) : credit (Dog.start ι).group i = 0 := by
  simp [Dog.start, credit, one]

/-- While the waiting task stays where it is, only bits count. -/
lemma credit_le_add {g g' : EventGroup ι} {i : ι} {p : Prop} [Decidable p]
    (hw : g'.waiter = .released Finset.univ → g.waiter = .released Finset.univ)
    (hb : i ∈ g'.bits → i ∈ g.bits ∨ p) : credit g' i ≤ credit g i + one p := by
  have hbits := one_le_add hb
  have hwaiter : one (g'.waiter = .released Finset.univ) ≤
      one (g.waiter = .released Finset.univ) + one False := one_le_add fun h => .inl (hw h)
  rw [one_of_not not_false] at hwaiter
  rw [credit, credit]
  omega

lemma credit_le {g g' : EventGroup ι} {i : ι}
    (hw : g'.waiter = .released Finset.univ → g.waiter = .released Finset.univ)
    (hb : g'.bits ⊆ g.bits) : credit g' i ≤ credit g i :=
  credit_le_add (p := False) hw fun h => .inl (hb h)

/-- A wait that all bits satisfy turns the bit of each task into a report to come. -/
lemma credit_of_bits (s : Finset ι) (i : ι) (hs : Finset.univ ⊆ s) :
    credit ⟨s \ Finset.univ, .released s⟩ i = 1 := by
  rw [credit, one_of_not (by simp), one_of (by simp [Finset.univ_subset_iff.mp hs])]

/-! ### Steps -/

variable {healthy : Finset ι → Bool}

omit [Fintype ι] in
lemma count_beat (i j : ι) : ([.beat j] : List (Report ι)).count (.beat i) = one (j = i) := by
  simp [one, List.count_singleton]

/-- What one step does to the heartbeats in hand: a report takes one, a heartbeat brings at most
one. -/
structure Spends (i : ι) (g g' : EventGroup ι) (reports : List (Report ι)) : Prop where
  tidy : Tidy g'
  credit : reports.count .healthy + credit g' i ≤ credit g i + reports.count (.beat i)

/-- A heartbeat. -/
lemma spends_beat {g : EventGroup ι} (h : Tidy g) (i j : ι) :
    Spends i g (g.setBits {j}) [.beat j] := by
  have hmem {k : ι} (hk : k ∈ g.bits ∪ {j}) : k ∈ g.bits ∨ j = k := by
    rw [Finset.mem_union, Finset.mem_singleton] at hk
    exact hk.imp_right Eq.symm
  have hcount : ([.beat j] : List (Report ι)).count .healthy = 0 := rfl
  -- unless it ends a wait, a heartbeat only sets its bit
  have hset (hw : g.setBits {j} = { g with bits := g.bits ∪ {j} }) (htidy : Tidy (g.setBits {j})) :
      Spends i g (g.setBits {j}) [.beat j] := by
    refine ⟨htidy, ?_⟩
    rw [hcount, Nat.zero_add, count_beat, hw]
    exact credit_le_add id hmem
  cases hw : g.waiter with
  | blocked mask =>
    obtain ⟨rfl, -⟩ := h mask hw
    by_cases hall : Finset.univ ⊆ g.bits ∪ {j}
    · rw [EventGroup.setBits_of_subset hw hall]
      refine ⟨fun mask hm => by simp at hm, ?_⟩
      have hi : one True ≤ one (i ∈ g.bits) + one (j = i) :=
        one_le_add fun _ => hmem (hall (Finset.mem_univ i))
      rw [one_of trivial] at hi
      rw [hcount, Nat.zero_add, credit_of_bits _ _ hall, count_beat, credit]
      exact hi.trans (Nat.add_le_add_right (Nat.le_add_right _ _) _)
    · have hmiss := EventGroup.setBits_of_not_subset hw hall
      refine hset (by rw [hmiss, hw]) ?_
      rw [hmiss]
      intro mask hm
      exact ⟨(Waiter.blocked.inj hm).symm, hall⟩
  | none =>
    have hmiss : g.setBits {j} = { g with bits := g.bits ∪ {j} } := by
      simp only [EventGroup.setBits, hw]
    refine hset hmiss ?_
    rw [hmiss]
    exact fun mask hm => by simp [hw] at hm
  | released bits =>
    have hmiss : g.setBits {j} = { g with bits := g.bits ∪ {j} } := by
      simp only [EventGroup.setBits, hw]
    refine hset hmiss ?_
    rw [hmiss]
    exact fun mask hm => by simp [hw] at hm

/-- Taking bits away, or taking what a wait returned, brings nothing. -/
lemma spends_nothing {g g' : EventGroup ι} {i : ι} (htidy : Tidy g')
    (hw : g'.waiter = .released Finset.univ → g.waiter = .released Finset.univ)
    (hb : g'.bits ⊆ g.bits) : Spends i g g' [] :=
  ⟨htidy, by simpa using credit_le hw hb⟩

/-- The end of the block time finds a bit missing. -/
lemma spends_timeout {g : EventGroup ι} (h : Tidy g) (i : ι) : Spends i g g.timeout [] := by
  cases hw : g.waiter with
  | blocked mask =>
    have hnot := (h mask hw).2
    simp only [EventGroup.timeout, hw]
    refine spends_nothing (fun mask hm => by simp at hm) ?_ (Finset.Subset.refl _)
    intro hall
    exact absurd (Waiter.released.inj hall).ge hnot
  | none =>
    simp only [EventGroup.timeout, hw]
    exact spends_nothing h id (Finset.Subset.refl _)
  | released bits =>
    simp only [EventGroup.timeout, hw]
    exact spends_nothing h id (Finset.Subset.refl _)

/-- The call of the wait. -/
lemma spends_waitBits (g : EventGroup ι) (i : ι) : Spends i g (g.waitBits Finset.univ) [] := by
  by_cases hall : Finset.univ ⊆ g.bits
  · rw [EventGroup.waitBits, if_pos hall]
    refine ⟨fun mask hm => by simp at hm, ?_⟩
    rw [List.count_nil, List.count_nil, credit_of_bits _ _ hall, credit,
      one_of (hall (Finset.mem_univ i))]
    omega
  · rw [EventGroup.waitBits, if_neg hall]
    refine spends_nothing ?_ (fun h => by simp at h) (Finset.Subset.refl _)
    intro mask hm
    exact ⟨(Waiter.blocked.inj hm).symm, hall⟩

/-- A verdict takes what the wait returned; if it is healthy, all bits. -/
lemma spends_collect {g : EventGroup ι} (i : ι) {reports : List (Report ι)}
    (h : reports = [] ∨ reports = [.healthy] ∧ g.waiter = .released Finset.univ) :
    Spends i g g.collect reports := by
  have htidy : Tidy g.collect := fun mask hm => by simp [EventGroup.collect] at hm
  rcases h with rfl | ⟨rfl, hw⟩
  · exact spends_nothing htidy (fun h => by simp [EventGroup.collect] at h) (Finset.Subset.refl _)
  · refine ⟨htidy, ?_⟩
    have hnone : one (g.collect.waiter = .released Finset.univ) = 0 :=
      one_of_not (by simp [EventGroup.collect])
    rw [credit, credit, hnone, one_of hw, EventGroup.collect]
    simp
    omega

/-- One step of the supervised system. -/
lemma spends_step (hv : ∀ bits, healthy bits = true → bits = Finset.univ) {d : Dog ι}
    (h : Tidy d.group) (i : ι) (a : Act ι) :
    Spends i d.group ((watchdog healthy).next d a).group ((watchdog healthy).emit d a) := by
  simp only [Machine.next, Machine.emit, watchdog]
  cases a with
  | beat j => exact spends_beat h i j
  | clear =>
    have hsub : d.group.bits \ Finset.univ ⊆ d.group.bits := Finset.sdiff_subset
    refine spends_nothing (fun mask hm => ?_) id hsub
    obtain ⟨hmask, hnot⟩ := h mask hm
    exact ⟨hmask, fun hall => hnot (hall.trans hsub)⟩
  | timeout => exact spends_timeout h i
  | watchdog =>
    cases hs : d.stage with
    | call =>
      simp only [Dog.step, hs]
      exact spends_waitBits d.group i
    | inside =>
      cases hw : d.group.waiter with
      | released bits =>
        cases hh : healthy bits with
        | true =>
          simp only [Dog.step, hs, hw, hh, if_true]
          refine spends_collect i (.inr ⟨rfl, ?_⟩)
          rw [hw, hv bits hh]
        | false =>
          simp only [Dog.step, hs, hw, hh, Bool.false_eq_true, if_false]
          exact spends_collect i (.inl rfl)
      | none =>
        simp only [Dog.step, hs, hw]
        exact spends_nothing h id (Finset.Subset.refl _)
      | blocked mask =>
        simp only [Dog.step, hs, hw]
        exact spends_nothing h id (Finset.Subset.refl _)
    | warned bits =>
      simp only [Dog.step, hs]
      refine ⟨h, ?_⟩
      simp

/-! ### Runs -/

/-- The heartbeats shown are those that happened. -/
lemma count_beat_trace (d : Dog ι) (acts : List (Act ι)) (i : ι) :
    ((watchdog healthy).trace d acts).count (.beat i) = acts.count (.beat i) := by
  induction acts generalizing d with
  | nil => rfl
  | cons a acts ih =>
    rw [Machine.trace_cons, List.count_append, ih, List.count_cons, Nat.add_comm]
    congr 1
    cases a with
    | beat j => simp [watchdog, Machine.emit, Dog.step, List.count_singleton]
    | clear | timeout => simp [watchdog, Machine.emit, Dog.step]
    | watchdog =>
      simp only [watchdog, Machine.emit, Dog.step]
      cases d.stage with
      | call => simp
      | warned bits => simp
      | inside =>
        cases d.group.waiter with
        | released bits => cases hh : healthy bits <;> simp [hh]
        | none | blocked mask => simp

/-- A stretch of a run reports healthy no more often than task `i` sets its bit in it, but for the
heartbeats in hand before. -/
lemma count_healthy_le (hv : ∀ bits, healthy bits = true → bits = Finset.univ) {d : Dog ι}
    (h : Tidy d.group) (i : ι) (acts : List (Act ι)) :
    ((watchdog healthy).trace d acts).count .healthy ≤
      ((watchdog healthy).trace d acts).count (.beat i) + credit d.group i := by
  have hrun := (watchdog healthy).invariant_always
    (P := fun d' log => Tidy d'.group ∧
      log.count .healthy + credit d'.group i ≤ log.count (.beat i) + credit d.group i)
    (fun d' log a hd' => by
      have hstep := spends_step hv hd'.1 i a
      refine ⟨hstep.tidy, ?_⟩
      have hspent := hstep.credit
      have hbefore := hd'.2
      rw [List.count_append, List.count_append]
      omega)
    (s := d) ⟨h, by simp⟩ acts
  exact (Nat.le_add_right _ _).trans hrun.2

omit [DecidableEq ι] in
lemma tidy_start : Tidy (Dog.start ι).group := fun mask hm => by simp [Dog.start] at hm

lemma tidy_run [Nonempty ι] (hv : ∀ bits, healthy bits = true → bits = Finset.univ)
    (acts : List (Act ι)) : Tidy ((watchdog healthy).run (.start ι) acts).group :=
  (watchdog healthy).invariant_always (P := fun d _ => Tidy d.group)
    (fun _ _ a h => (spends_step hv h (Classical.arbitrary ι) a).tidy) tidy_start acts

/-- For either supervisor and any run: healthy reports are at most as many as the heartbeats of any
one task, and from any point of the run on they exceed its heartbeats by at most two. -/
theorem healthy_le_beats (sup : Supervisor) (before after : List (Act ι)) (i : ι) :
    ((watchdog sup.healthy).trace (.start ι) before).count .healthy ≤
        ((watchdog sup.healthy).trace (.start ι) before).count (.beat i) ∧
      ((watchdog sup.healthy).trace ((watchdog sup.healthy).run (.start ι) before) after).count
          .healthy ≤
        ((watchdog sup.healthy).trace ((watchdog sup.healthy).run (.start ι) before) after).count
          (.beat i) + 2 := by
  have : Nonempty ι := ⟨i⟩
  have hv (bits : Finset ι) (h : sup.healthy bits = true) : bits = Finset.univ :=
    (sup.healthy_iff bits).mp h
  constructor
  · have h := count_healthy_le hv tidy_start i before
    rwa [credit_start, Nat.add_zero] at h
  · exact (count_healthy_le hv (tidy_run hv before) i after).trans
      (Nat.add_le_add_left (credit_le_two _ i) _)

/-- A run after which the logger is good for two reports more. -/
example : ((watchdog prvWatchdogHealthy).trace
    ((watchdog prvWatchdogHealthy).run (.start Heartbeat)
      [.watchdog, .beat .sensor, .beat .processor, .beat .logger, .beat .logger])
    [.watchdog, .watchdog, .beat .sensor, .beat .processor, .watchdog]).filter (· = .healthy) =
    [.healthy, .healthy] := by decide

end EcuTelemetry.Watchdog
