import EcuTelemetry.Host.Clock
import EcuTelemetry.Queue.Concurrent
import Mathlib.Data.List.Induction

/-!
# Pops that wait with a timeout

What `queue_pop` makes of its timeout. It gives up as soon as the wait returns with its time up,
without another look at the queue, and it computes its deadline anew each time it goes back to
waiting. `gives_up_empty` and `one_deadline_iff` say in which runs this cannot be told from a pop
that looks again and from one that keeps its first deadline.
-/

namespace EcuTelemetry.Queue

open EcuTelemetry.Core Host

variable {Tid : Type*}

/-! ### The loop -/

/-- The thread that comes to the test of the loop of `queue_pop` in a section, and its timeout. -/
def looping (s : Shared Tid) : Section Tid → Option (Tid × ℤ)
  | .pop t timeoutMs =>
    match s.client t with
    | .waiting _ => none
    | .outside   => some (t, timeoutMs)
  | .wake t rc =>
    match s.client t with
    | .outside           => none
    | .waiting timeoutMs =>
      if 0 ≤ timeoutMs ∧ rc = .timedOut then none else some (t, timeoutMs)
  | _ => none

/-- A thread comes to the loop when it calls, or when its wait returns with time left. -/
lemma looping_iff (s : Shared Tid) (a : Section Tid) (t : Tid) (timeoutMs : ℤ) :
    looping s a = some (t, timeoutMs) ↔
      (a = .pop t timeoutMs ∧ s.client t = .outside) ∨
        ∃ rc, a = .wake t rc ∧ s.client t = .waiting timeoutMs ∧
          ¬ (0 ≤ timeoutMs ∧ rc = .timedOut) := by
  constructor
  · intro h
    cases a with
    | push t' item => cases h
    | clear t' => cases h
    | pop t' timeoutMs' =>
      cases hc : s.client t' with
      | waiting _ =>
        simp only [looping, hc] at h
        cases h
      | outside =>
        simp only [looping, hc] at h
        obtain ⟨rfl, rfl⟩ := Prod.mk.inj (Option.some.inj h)
        exact .inl ⟨rfl, hc⟩
    | wake t' rc =>
      cases hc : s.client t' with
      | outside =>
        simp only [looping, hc] at h
        cases h
      | waiting timeoutMs' =>
        simp only [looping, hc] at h
        split_ifs at h with htime
        obtain ⟨rfl, rfl⟩ := Prod.mk.inj (Option.some.inj h)
        exact .inr ⟨rc, rfl, hc, htime⟩
  · rintro (⟨rfl, hc⟩ | ⟨rc, rfl, hc, htime⟩)
    · simp only [looping, hc]
    · simp only [looping, hc, if_neg htime]

/-! ### Giving up -/

variable [DecidableEq Tid]

/-- If the section lets a pop answer `false`, the queue is empty. -/
def GivesUpEmpty (s : Shared Tid) (a : Section Tid) : Prop :=
  ∀ t, .popped t none ∈ (sharedQueue Tid).emit s a → s.queue.count = 0

/-- Nothing was pushed since thread `t` last came to the test of its loop. -/
def UntouchedSinceTest (q : MsgQueue) (before : List (Section Tid)) (t : Tid) : Prop :=
  ∃ tested test since timeoutMs, before = tested ++ test :: since ∧
    looping ((sharedQueue Tid).run (.start Tid q) tested) test = some (t, timeoutMs) ∧
    accepted ((sharedQueue Tid).trace
      ((sharedQueue Tid).run (.start Tid q) (tested ++ [test])) since) = []

/-- Whenever the time of a waiting pop is up, nothing was pushed since its last test of the loop. -/
def TimesOutUntouched (q : MsgQueue) (acts : List (Section Tid)) : Prop :=
  ∀ before t after timeoutMs, acts = before ++ .wake t .timedOut :: after →
    ((sharedQueue Tid).run (.start Tid q) before).client t = .waiting timeoutMs →
      0 ≤ timeoutMs → UntouchedSinceTest q before t

/-- Only thread `t` pops, and nobody clears the queue. -/
def Section.TakenBy (t : Tid) : Section Tid → Prop
  | .pop u _ => u = t
  | .clear _ => False
  | _        => True

/-- The loop of `queue_pop` never answers `false`. -/
lemma popLoop_not_none (s : Shared Tid) (t : Tid) (timeoutMs : ℤ) (t' : Tid) :
    .popped t' none ∉ (popLoop s t timeoutMs).2 := by
  unfold popLoop
  split_ifs
  · exact List.not_mem_nil
  · split <;> simp

/-- A pop answers `false` exactly when its time is up. -/
lemma popped_none_iff (s : Shared Tid) (a : Section Tid) (t : Tid) :
    .popped t none ∈ (sharedQueue Tid).emit s a ↔
      a = .wake t .timedOut ∧ ∃ timeoutMs, s.client t = .waiting timeoutMs ∧ 0 ≤ timeoutMs := by
  have hnone : Outcome.popped t none ∉ ([] : List (Outcome Tid)) := List.not_mem_nil
  simp only [sharedQueue, Machine.emit]
  cases a with
  | push t' item =>
    refine iff_of_false ?_ (by rintro ⟨ha, -⟩; cases ha)
    cases hc : s.client t' with
    | waiting timeoutMs => simpa only [runSection, hc] using hnone
    | outside =>
      simp only [runSection, hc]
      cases queuePush s.queue item <;> simp
  | pop t' timeoutMs =>
    refine iff_of_false ?_ (by rintro ⟨ha, -⟩; cases ha)
    cases hc : s.client t' with
    | waiting timeoutMs => simpa only [runSection, hc] using hnone
    | outside => simpa only [runSection, hc] using popLoop_not_none s t' timeoutMs t
  | wake t' rc =>
    cases hc : s.client t' with
    | outside =>
      simp only [runSection, hc]
      refine iff_of_false hnone ?_
      rintro ⟨ha, timeoutMs, hwait, -⟩
      obtain ⟨rfl, -⟩ := Section.wake.inj ha
      rw [hc] at hwait
      cases hwait
    | waiting timeoutMs =>
      simp only [runSection, hc]
      split_ifs with htime
      · obtain ⟨htimeout, rfl⟩ := htime
        constructor
        · intro h
          obtain ⟨rfl, -⟩ := Outcome.popped.inj (List.mem_singleton.mp h)
          exact ⟨rfl, timeoutMs, hc, htimeout⟩
        · rintro ⟨ha, -⟩
          obtain ⟨rfl, -⟩ := Section.wake.inj ha
          exact List.mem_singleton_self _
      · refine iff_of_false (popLoop_not_none s t' timeoutMs t) ?_
        rintro ⟨ha, timeoutMs', hwait, htimeout⟩
        obtain ⟨rfl, rfl⟩ := Section.wake.inj ha
        obtain rfl := Client.waiting.inj (hc.symm.trans hwait)
        exact htime ⟨htimeout, rfl⟩
  | clear t' =>
    refine iff_of_false ?_ (by rintro ⟨ha, -⟩; cases ha)
    cases hc : s.client t' with
    | waiting timeoutMs => simpa only [runSection, hc] using hnone
    | outside => simp [runSection, hc]

/-! ### Between the test and the time-out -/

section Since

variable {itemSize capacity : ℕ} {s : Shared Tid} {a : Section Tid} {t : Tid} {timeoutMs : ℤ}

lemma runSection_of_looping (h : looping s a = some (t, timeoutMs)) :
    runSection s a = popLoop s t timeoutMs := by
  rcases (looping_iff s a t timeoutMs).mp h with ⟨rfl, hc⟩ | ⟨rc, rfl, hc, htime⟩
  · simp only [runSection, hc]
  · simp only [runSection, hc, if_neg htime]

/-- A thread that waits after the test of its loop has found the queue empty. -/
lemma empty_after_test (hkept : Kept itemSize capacity s.queue)
    (h : looping s a = some (t, timeoutMs)) (hwait : (runSection s a).1.client t ≠ .outside) :
    (runSection s a).1.queue.count = 0 := by
  rw [runSection_of_looping h] at hwait ⊢
  rcases popLoop_cases hkept t timeoutMs with ⟨hempty, heq⟩ | ⟨item, q', -, -, heq⟩
  · rw [heq]
    exact hempty
  · rw [heq] at hwait
    exact absurd (Function.update_self t .outside s.client) hwait

/-- A thread begins to wait in a section in which it comes to the test. -/
lemma looping_of_waits (hc : s.client t = .outside)
    (hwait : (runSection s a).1.client t ≠ .outside) :
    ∃ timeoutMs, looping s a = some (t, timeoutMs) := by
  have ht : t = a.thread := by
    by_contra hne
    exact hwait ((runSection_client hne).trans hc)
  cases a with
  | push u item =>
    refine absurd ?_ hwait
    simp only [runSection]
    split <;> exact hc
  | pop u timeoutMs =>
    obtain rfl : t = u := ht
    exact ⟨timeoutMs, (looping_iff s _ t timeoutMs).mpr (.inl ⟨rfl, hc⟩)⟩
  | wake u rc =>
    obtain rfl : t = u := ht
    refine absurd ?_ hwait
    simp only [runSection, hc]
  | clear u =>
    refine absurd ?_ hwait
    simp only [runSection]
    split <;> exact hc

omit [DecidableEq Tid] in
/-- Only a push adds an item. -/
lemma Move.count_le {q q' : MsgQueue} {evs : List (Outcome Tid)} (hm : Move q q' evs)
    (h : accepted evs = []) : q'.count ≤ q.count := by
  cases hm with
  | wait => exact Nat.le_refl _
  | giveUp t => exact Nat.le_refl _
  | refuse t item hfull => exact Nat.le_refl _
  | accept t item hcon => cases h
  | take t item hcon => exact (Nat.le_succ _).trans_eq (MsgQueue.count_of_cons hcon).symm
  | clear t hcon =>
    rw [← MsgQueue.WellFormed.length_contents, hcon]
    exact Nat.zero_le _

/-- While nothing is pushed, a thread waits on an empty queue only. -/
lemma waits_empty_run (hkept : Kept itemSize capacity s.queue)
    (h : s.client t ≠ .outside → s.queue.count = 0) {since : List (Section Tid)}
    (hsized : ∀ a ∈ since, a.Sized itemSize)
    (hnone : accepted ((sharedQueue Tid).trace s since) = []) :
    ((sharedQueue Tid).run s since).client t ≠ .outside →
      ((sharedQueue Tid).run s since).queue.count = 0 := by
  induction since generalizing s with
  | nil => exact h
  | cons a since ih =>
    obtain ⟨ha, hsized⟩ := List.forall_mem_cons.mp hsized
    rw [Machine.trace_cons, accepted, List.flatMap_append, List.append_eq_nil_iff] at hnone
    obtain ⟨hkept', hmove⟩ := runSection_move hkept ha
    refine ih hkept' (fun hwait => ?_) hsized hnone.2
    by_cases hc : s.client t = .outside
    · obtain ⟨timeoutMs, hl⟩ := looping_of_waits hc hwait
      exact empty_after_test hkept hl hwait
    · exact Nat.le_zero.mp (h hc ▸ hmove.count_le hnone.1)

/-- Nothing was pushed since the test, so the queue is empty still. -/
lemma empty_of_untouched {p : Platform} {q : MsgQueue}
    (hq : queueCreate p itemSize capacity = some q) {before : List (Section Tid)}
    (hbefore : ∀ a ∈ before, a.Sized itemSize) (h : UntouchedSinceTest q before t)
    (hwait : ((sharedQueue Tid).run (.start Tid q) before).client t ≠ .outside) :
    ((sharedQueue Tid).run (.start Tid q) before).queue.count = 0 := by
  obtain ⟨tested, test, since, timeoutMs, rfl, hl, hnone⟩ := h
  obtain ⟨htested, hrest⟩ := List.forall_mem_append.mp hbefore
  obtain ⟨htest, hsince⟩ := List.forall_mem_cons.mp hrest
  have hkept := (law_run hq htested).kept
  rw [Machine.run_append, Machine.run_cons, Machine.run_nil] at hnone
  rw [Machine.run_append, Machine.run_cons] at hwait ⊢
  exact waits_empty_run (runSection_move hkept htest).1 (empty_after_test hkept hl) hsince hnone
    hwait

/-- A thread that does not pop is not in the queue. -/
lemma outside_of_takenBy {u : Tid} (hu : u ≠ t) (q : MsgQueue) {acts : List (Section Tid)}
    (hacts : ∀ a ∈ acts, a.TakenBy t) :
    ((sharedQueue Tid).run (.start Tid q) acts).client u = .outside := by
  refine (sharedQueue Tid).invariant (P := fun s _ => s.client u = .outside) ?_ rfl
    ((sharedQueue Tid).meets_of_forall (.start Tid q) hacts)
  intro s log a ha hc
  by_contra hwait
  obtain ⟨timeoutMs, hl⟩ := looping_of_waits hc hwait
  rcases (looping_iff s a u timeoutMs).mp hl with ⟨rfl, -⟩ | ⟨rc, rfl, hc', -⟩
  · exact hu ha
  · cases hc.symm.trans hc'

/-- A section that comes to no test and clears nothing only adds what it pushes. -/
lemma count_of_not_looping (hkept : Kept itemSize capacity s.queue) (ha : a.Sized itemSize)
    (hl : looping s a = none) (htaken : a.TakenBy t) :
    (runSection s a).1.queue.count = s.queue.count + (accepted (runSection s a).2).length := by
  cases a with
  | push u item =>
    cases hc : s.client u with
    | waiting _ =>
      simp only [runSection, hc]
      rfl
    | outside =>
      rcases Nat.lt_or_ge s.queue.count s.queue.capacity with hroom | hfull
      · obtain ⟨q', hq', hw, hcon, -, -⟩ :=
          queuePush_room hkept.wellFormed (ha.trans hkept.itemSize_eq.symm) hroom
        simp only [runSection, hc, hq']
        exact MsgQueue.count_of_append hcon
      · simp only [runSection, hc, queuePush_full hfull]
        rfl
  | pop u timeoutMs =>
    cases hc : s.client u with
    | waiting _ =>
      simp only [runSection, hc]
      rfl
    | outside =>
      simp only [looping, hc] at hl
      cases hl
  | wake u rc =>
    cases hc : s.client u with
    | outside =>
      simp only [runSection, hc]
      rfl
    | waiting timeoutMs =>
      simp only [looping, hc] at hl
      simp only [runSection, hc]
      split_ifs at hl ⊢
      rfl
  | clear u => exact absurd htaken id

/-- Where only thread `t` pops and nobody clears the queue, a wait of `t` has a last test, and the
queue holds what was pushed since. -/
lemma last_test {p : Platform} {q : MsgQueue} (hq : queueCreate p itemSize capacity = some q)
    {before : List (Section Tid)} (hbefore : ∀ a ∈ before, a.Sized itemSize)
    (htaken : ∀ a ∈ before, a.TakenBy t)
    (hwait : ((sharedQueue Tid).run (.start Tid q) before).client t ≠ .outside) :
    ∃ tested test since timeoutMs, before = tested ++ test :: since ∧
      looping ((sharedQueue Tid).run (.start Tid q) tested) test = some (t, timeoutMs) ∧
      ((sharedQueue Tid).run (.start Tid q) before).queue.count =
        (accepted ((sharedQueue Tid).trace
          ((sharedQueue Tid).run (.start Tid q) (tested ++ [test])) since)).length := by
  induction before using List.reverseRecOn with
  | nil => exact absurd rfl hwait
  | append_singleton before a ih =>
    obtain ⟨hbefore, ha⟩ := List.forall_mem_append.mp hbefore
    obtain ⟨htaken, ha'⟩ := List.forall_mem_append.mp htaken
    have ha := ha a (List.mem_singleton_self a)
    have ha' := ha' a (List.mem_singleton_self a)
    have hkept := (law_run hq hbefore).kept
    rw [Machine.run_append, Machine.run_cons, Machine.run_nil] at hwait ⊢
    cases hl : looping ((sharedQueue Tid).run (.start Tid q) before) a with
    | some r =>
      obtain ⟨u, timeoutMs⟩ := r
      obtain rfl : u = t := by
        by_contra hu
        have hc := outside_of_takenBy hu q htaken
        rcases (looping_iff _ a u timeoutMs).mp hl with ⟨rfl, -⟩ | ⟨rc, rfl, hc', -⟩
        · exact hu ha'
        · cases hc.symm.trans hc'
      exact ⟨before, a, [], timeoutMs, rfl, hl, empty_after_test hkept hl hwait⟩
    | none =>
      have hc : ((sharedQueue Tid).run (.start Tid q) before).client t ≠ .outside := by
        intro hc
        obtain ⟨timeoutMs, hl'⟩ := looping_of_waits hc hwait
        cases hl.symm.trans hl'
      obtain ⟨tested, test, since, timeoutMs, rfl, htest, hcount⟩ := ih hbefore htaken hc
      refine ⟨tested, test, since ++ [a], timeoutMs, by simp, htest, ?_⟩
      rw [Machine.trace_append, accepted, List.flatMap_append, List.length_append,
        ← Machine.run_append, List.append_assoc, List.singleton_append]
      refine (count_of_not_looping hkept ha hl ha').trans (congrArg₂ (· + ·) hcount ?_)
      simp [accepted, sharedQueue, Machine.emit]

end Since

/-- In every interleaving in which nothing is pushed between the last test of a waiting pop and the
moment its time is up, a pop answers `false` on an empty queue only. Where one thread alone pops and
nobody clears the queue, in no other. -/
theorem gives_up_empty {p : Platform} {itemSize capacity : ℕ} {q : MsgQueue}
    (hq : queueCreate p itemSize capacity = some q) {acts : List (Section Tid)}
    (hacts : ∀ a ∈ acts, a.Sized itemSize) :
    (TimesOutUntouched q acts → (sharedQueue Tid).Meets GivesUpEmpty (.start Tid q) acts) ∧
      ∀ t, (∀ a ∈ acts, a.TakenBy t) →
        (sharedQueue Tid).Meets GivesUpEmpty (.start Tid q) acts → TimesOutUntouched q acts := by
  simp only [Machine.meets_iff]
  constructor
  · intro h before a after hsplit t hpopped
    obtain ⟨rfl, timeoutMs, hwait, htimeout⟩ := (popped_none_iff _ a t).mp hpopped
    subst hsplit
    refine empty_of_untouched hq (List.forall_mem_append.mp hacts).1
      (h before t after timeoutMs rfl hwait htimeout) ?_
    rw [hwait]
    exact Client.noConfusion
  · intro u htaken h before t after timeoutMs hsplit hwait htimeout
    have hempty := h before _ after hsplit t
      ((popped_none_iff _ _ t).mpr ⟨rfl, timeoutMs, hwait, htimeout⟩)
    subst hsplit
    have htaken := (List.forall_mem_append.mp htaken).1
    have hne : ((sharedQueue Tid).run (.start Tid q) before).client t ≠ .outside := by
      rw [hwait]
      exact Client.noConfusion
    obtain rfl : t = u := by
      by_contra hu
      exact hne (outside_of_takenBy hu q htaken)
    obtain ⟨tested, test, since, timeoutMs', hsplit, hl, hcount⟩ :=
      last_test hq (List.forall_mem_append.mp hacts).1 htaken hne
    exact ⟨tested, test, since, timeoutMs', hsplit, hl,
      List.length_eq_zero_iff.mp (hcount.symm.trans hempty)⟩

/-- Thread 1 times out while it waits, and nothing was pushed. -/
theorem gives_up_empty_idle :
    (sharedQueue ℕ).Meets GivesUpEmpty (.start ℕ ⟨1, 1, 0, 0, 0, [0]⟩)
      [.pop 1 100, .wake 1 .timedOut] := by
  refine (gives_up_empty
    (by decide : queueCreate ⟨true, fun _ => true, true⟩ 1 1 = some ⟨1, 1, 0, 0, 0, [0]⟩)
    (by simp [Section.Sized])).1 ?_
  intro before t after timeoutMs hsplit hwait htimeout
  rcases before with _ | ⟨b, _ | ⟨c, before⟩⟩
  · cases (List.cons.inj hsplit).1
  · obtain ⟨rfl, hrest⟩ := List.cons.inj hsplit
    obtain ⟨ht, -⟩ := Section.wake.inj (List.cons.inj hrest).1
    exact ⟨[], .pop 1 100, [], 100, rfl, ht ▸ rfl, rfl⟩
  · have hlength := congrArg List.length hsplit
    simp only [List.length_cons, List.length_append, List.length_nil] at hlength
    omega

/-- An item is pushed while thread 1 waits, and its time is up all the same. -/
theorem late_push_missed :
    ¬ (sharedQueue ℕ).Meets GivesUpEmpty (.start ℕ ⟨1, 1, 0, 0, 0, [0]⟩)
      [.pop 1 100, .push 0 [7], .wake 1 .timedOut] := by
  rintro ⟨-, -, h, -⟩
  have hcount := h 1 ((popped_none_iff _ _ 1).mpr ⟨rfl, 100, rfl, by decide⟩)
  exact absurd hcount (by decide)

/-! ### Deadlines -/

/-- The queue, its clients, and for each thread what the clock read when its current call of
`queue_pop` came to the queue. The source keeps no such reading. -/
structure Clocked (Tid : Type*) where
  shared : Shared Tid
  started : Tid → Timespec

/-- What a section did, or the deadline of a `queue_pop` with this timeout for
`pthread_cond_timedwait`. -/
inductive Timed (Tid : Type*) where
  | outcome (o : Outcome Tid)
  | timedwait (t : Tid) (timeoutMs : ℤ) (deadline : Timespec)

/-- The readings at the start of the calls, after a section at the reading `now`. -/
def startedAfter (w : Clocked Tid) (now : Timespec) : Section Tid → Tid → Timespec
  | .pop t _ =>
    match w.shared.client t with
    | .waiting _ => w.started
    | .outside   => Function.update w.started t now
  | _ => w.started

/-- The deadlines computed in a section: one in the body of the loop of a pop with a timeout. -/
def deadlines (s : Shared Tid) (a : Section Tid) (now : Timespec) : List (Timed Tid) :=
  match looping s a with
  | none                => []
  | some (t, timeoutMs) =>
    if s.queue.count = 0 ∧ 0 ≤ timeoutMs then
      [.timedwait t timeoutMs (deadlineFromNowMs now timeoutMs)]
    else []

/-- One critical section, with the clock at a reading. -/
def clockedSection (w : Clocked Tid) (a : Section Tid × Timespec) :
    Clocked Tid × List (Timed Tid) :=
  match runSection w.shared a.1 with
  | (shared, outcomes) =>
    ({ shared, started := startedAfter w a.2 a.1 },
      outcomes.map .outcome ++ deadlines w.shared a.1 a.2)

/-- The queue shared by the threads `Tid`, and the clock. -/
def clockedQueue (Tid : Type*) [DecidableEq Tid] :
    Machine (Clocked Tid) (Section Tid × Timespec) (Timed Tid) := ⟨clockedSection⟩

/-- Without the clock it is the shared queue. -/
def clockSimulation (Tid : Type*) [DecidableEq Tid] :
    Simulation (clockedQueue Tid) (sharedQueue Tid) where
  abs := Clocked.shared
  acts _ a := [a.1]
  view
    | .outcome o       => [o]
    | .timedwait _ _ _ => []
  next _ _ := rfl
  emit w a := by
    have hdeadlines : ∀ s (b : Section Tid) now, (deadlines s b now).flatMap (fun
        | .outcome o       => [o]
        | .timedwait _ _ _ => []) = ([] : List (Outcome Tid)) := by
      intro s b now
      unfold deadlines
      split
      · rfl
      · split_ifs <;> rfl
    show ((runSection w.shared a.1).2.map Timed.outcome ++ deadlines w.shared a.1 a.2).flatMap _ =
      (runSection w.shared a.1).2 ++ []
    rw [List.flatMap_append, hdeadlines, List.flatMap_map, List.flatMap_singleton']

/-- Every deadline of the section is normalised, and is the reading at the start of the call with
the timeout added. -/
def OneDeadline (w : Clocked Tid) (a : Section Tid × Timespec) : Prop :=
  ∀ t timeoutMs deadline, .timedwait t timeoutMs deadline ∈ (clockedQueue Tid).emit w a →
    deadline.Normal ∧
      deadline.nanos = (((clockedQueue Tid).next w a).started t).nanos + timeoutMs * 1000000

/-- If the section wakes a pop with a timeout before its time is up, and the queue is still or again
empty, the clock reads what it read at the start of the call. -/
def WokenAtOnce (w : Clocked Tid) : Section Tid × Timespec → Prop
  | (.wake t .woken, now) =>
    ∀ timeoutMs, w.shared.client t = .waiting timeoutMs → 0 ≤ timeoutMs →
      w.shared.queue.count = 0 → now.nanos = (w.started t).nanos
  | _ => True

/-- The queue and the clock as they start. -/
def Clocked.start (Tid : Type*) (q : MsgQueue) : Clocked Tid := ⟨.start Tid q, fun _ => ⟨0, 0⟩⟩

/-- The deadlines of a section. -/
lemma timedwait_mem_iff (w : Clocked Tid) (a : Section Tid × Timespec) (t : Tid) (timeoutMs : ℤ)
    (deadline : Timespec) :
    .timedwait t timeoutMs deadline ∈ (clockedQueue Tid).emit w a ↔
      looping w.shared a.1 = some (t, timeoutMs) ∧ w.shared.queue.count = 0 ∧ 0 ≤ timeoutMs ∧
        deadline = deadlineFromNowMs a.2 timeoutMs := by
  have houtcome : Timed.timedwait t timeoutMs deadline ∉
      (runSection w.shared a.1).2.map Timed.outcome := by
    intro h
    obtain ⟨o, -, ho⟩ := List.mem_map.mp h
    cases ho
  have hmem : .timedwait t timeoutMs deadline ∈ (clockedQueue Tid).emit w a ↔
      .timedwait t timeoutMs deadline ∈ deadlines w.shared a.1 a.2 :=
    List.mem_append.trans (or_iff_right houtcome)
  rw [hmem, deadlines]
  cases hl : looping w.shared a.1 with
  | none => simp
  | some r =>
    obtain ⟨t', timeoutMs'⟩ := r
    dsimp only
    split_ifs with hwait
    · rw [List.mem_singleton]
      constructor
      · intro h
        obtain ⟨rfl, rfl, rfl⟩ := Timed.timedwait.inj h
        exact ⟨rfl, hwait.1, hwait.2, rfl⟩
      · rintro ⟨h, -, -, rfl⟩
        obtain ⟨rfl, rfl⟩ := Prod.mk.inj (Option.some.inj h)
        rfl
    · refine iff_of_false List.not_mem_nil ?_
      rintro ⟨h, hcount, htimeout, -⟩
      obtain ⟨rfl, rfl⟩ := Prod.mk.inj (Option.some.inj h)
      exact hwait ⟨hcount, htimeout⟩

/-- A deadline is right exactly if the clock still reads what it read at the start of the call. -/
lemma oneDeadline_iff (w : Clocked Tid) {a : Section Tid × Timespec} (hnow : a.2.Normal) :
    OneDeadline w a ↔ WokenAtOnce w a := by
  obtain ⟨a, now⟩ := a
  constructor
  · intro h
    match a with
    | .wake t .woken =>
      intro timeoutMs hc htimeout hcount
      have hlooping : looping w.shared (.wake t .woken) = some (t, timeoutMs) :=
        (looping_iff _ _ t timeoutMs).mpr (.inr ⟨.woken, rfl, hc, fun hrc => nomatch hrc.2⟩)
      have hdeadline := h t timeoutMs _
        ((timedwait_mem_iff w (.wake t .woken, now) t timeoutMs _).mpr
          ⟨hlooping, hcount, htimeout, rfl⟩)
      have hsum := (deadlineFromNowMs_spec hnow htimeout).2.symm.trans hdeadline.2
      exact add_right_cancel hsum
    | .wake t .timedOut => trivial
    | .push t item => trivial
    | .pop t timeoutMs => trivial
    | .clear t => trivial
  · intro h t timeoutMs deadline hmem
    obtain ⟨hlooping, hcount, htimeout, rfl⟩ := (timedwait_mem_iff w _ t timeoutMs _).mp hmem
    obtain ⟨hnormal, hnanos⟩ := deadlineFromNowMs_spec hnow htimeout
    refine ⟨hnormal, hnanos.trans (congrArg (· + timeoutMs * 1000000) ?_)⟩
    rcases (looping_iff _ _ t timeoutMs).mp hlooping with ⟨rfl, hc⟩ | ⟨rc, rfl, hc, htime⟩
    · -- the call has just begun
      show now.nanos = (startedAfter w now (.pop t timeoutMs) t).nanos
      simp only [startedAfter, hc, Function.update_self]
    · cases rc with
      | woken => exact h timeoutMs hc htimeout hcount
      | timedOut => exact absurd ⟨htimeout, rfl⟩ htime

/-- In every interleaving and for every sequence of clock readings, each deadline of a `queue_pop`
is the normalised sum of the reading at the start of the call and the timeout, exactly if no wait
with a timeout is woken at a later reading to an empty queue. -/
theorem one_deadline_iff (q : MsgQueue) {acts : List (Section Tid × Timespec)}
    (hclock : ∀ a ∈ acts, a.2.Normal) :
    (clockedQueue Tid).Meets OneDeadline (.start Tid q) acts ↔
      (clockedQueue Tid).Meets WokenAtOnce (.start Tid q) acts :=
  (clockedQueue Tid).meets_congr (fun w _ => oneDeadline_iff w)
    ((clockedQueue Tid).meets_of_forall (.start Tid q) hclock)

/-- Thread 1 is woken at once to an empty queue, and later to an item. -/
theorem one_deadline_iff_at_once :
    (clockedQueue ℕ).Meets OneDeadline (.start ℕ ⟨1, 1, 0, 0, 0, [0]⟩)
      [(.pop 1 1250, ⟨7, 900000000⟩), (.wake 1 .woken, ⟨7, 900000000⟩), (.push 0 [7], ⟨8, 0⟩),
        (.wake 1 .woken, ⟨8, 1000⟩)] := by
  refine (one_deadline_iff _ (by decide)).mpr ⟨trivial, ?_, trivial, ?_, trivial⟩
  · exact fun timeoutMs hc htimeout hcount => rfl
  · intro timeoutMs hc htimeout hcount
    exact absurd hcount (by decide)

/-- Thread 1 is woken after 50 ms to an empty queue. -/
theorem woken_later_waits_longer :
    ¬ (clockedQueue ℕ).Meets OneDeadline (.start ℕ ⟨1, 1, 0, 0, 0, [0]⟩)
      [(.pop 1 100, ⟨0, 0⟩), (.wake 1 .woken, ⟨0, 50000000⟩)] := by
  rintro ⟨-, h, -⟩
  have hwoken := (oneDeadline_iff _ (by decide)).mp h
  exact absurd (hwoken 100 rfl (by decide) rfl) (by decide)

end EcuTelemetry.Queue
