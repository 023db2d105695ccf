import EcuTelemetry.Core.Condition
import EcuTelemetry.Queue.Concurrent
import Mathlib.Data.List.Induction

/-!
# Signals of the queue

`queue.c` with its condition variable `not_empty`. `Queue.Concurrent` lets a waiting thread wake up
at any moment; here it has to be woken: by the signal of `queue_push`, by its deadline, or for
nothing. A thread woken takes the mutex later, and others may come before it. The signal wakes
whichever thread it likes. `not_full` is left out, since no thread waits on it.

A thread with a timeout that the signal has woken may still find its time up, since
`pthread_cond_timedwait` may answer `ETIMEDOUT` to a signalled thread. `queue_pop` then leaves the
item in the queue without a signal for it. Otherwise no thread sleeps over an item that nobody is on
the way to. The signal of `queue_push` is the only one: a thread that waits without a limit is not
woken by `queue_clear`.
-/

namespace EcuTelemetry.Queue

open EcuTelemetry.Core

variable {Tid : Type*}

/-- The queue with its clients and its condition variable. -/
structure Monitor (Tid : Type*) where
  shared : Shared Tid
  notEmpty : Condition Tid

/-- A call of `queue_push`, with the thread its signal wakes, a call of `queue_pop`, a thread that
comes back from its wait, a deadline that passes while the thread sleeps or after it was woken, a
wakeup for nothing, or a call of `queue_clear`. -/
inductive MonitorAct (Tid : Type*) where
  | push (t : Tid) (item : Bytes) (choice : ℕ)
  | pop (t : Tid) (timeoutMs : ℤ)
  | resume (t : Tid)
  | expire (t : Tid)
  | lapse (t : Tid)
  | spurious (t : Tid)
  | clear (t : Tid)
  deriving DecidableEq

/-- Pushed items have the size the queue was created for. -/
def MonitorAct.Sized (itemSize : ℕ) : MonitorAct Tid → Prop
  | .push _ item _ => item.length = itemSize
  | _              => True

variable [DecidableEq Tid]

/-- Thread `t` has run the section `a`, and sleeps if it still has to wait. -/
def Monitor.settle (s : Monitor Tid) (t : Tid) (a : Section Tid) (notEmpty : Condition Tid) :
    Monitor Tid × List (Outcome Tid) :=
  match runSection s.shared a with
  | (shared, evs) =>
    ({ shared, notEmpty := if shared.client t = .outside then notEmpty else notEmpty.sleep t }, evs)

/-- One step. -/
def Monitor.step (s : Monitor Tid) : MonitorAct Tid → Monitor Tid × List (Outcome Tid)
  | .push t item choice =>
    match runSection s.shared (.push t item) with
    | (shared, evs) =>
      ({ shared
         notEmpty := if accepted evs = [] then s.notEmpty else s.notEmpty.signal choice }, evs)
  | .pop t timeoutMs =>
    match s.shared.client t with
    | .waiting _ => (s, [])
    | .outside   => s.settle t (.pop t timeoutMs) s.notEmpty
  | .resume t =>
    if t ∈ s.notEmpty.woken then s.settle t (.wake t .woken) (s.notEmpty.resume t)
    else if t ∈ s.notEmpty.expired then s.settle t (.wake t .timedOut) (s.notEmpty.giveUp t)
    else (s, [])
  | .expire t =>
    match s.shared.client t with
    | .waiting timeoutMs =>
      if 0 ≤ timeoutMs then ({ s with notEmpty := s.notEmpty.expire t }, []) else (s, [])
    | .outside => (s, [])
  | .lapse t =>
    match s.shared.client t with
    | .waiting timeoutMs =>
      if 0 ≤ timeoutMs then ({ s with notEmpty := s.notEmpty.lapse t }, []) else (s, [])
    | .outside => (s, [])
  | .spurious t => ({ s with notEmpty := s.notEmpty.wake t }, [])
  | .clear t =>
    match runSection s.shared (.clear t) with
    | (shared, evs) => ({ s with shared }, evs)

/-- The thread whose wakeup a step uses up. -/
def Monitor.usedUp (s : Monitor Tid) : MonitorAct Tid → List Tid
  | .lapse t =>
    match s.shared.client t with
    | .waiting timeoutMs => if 0 ≤ timeoutMs ∧ t ∈ s.notEmpty.woken then [t] else []
    | .outside => []
  | _ => []

/-- The queue with its condition variable. -/
def monitor (Tid : Type*) [DecidableEq Tid] :
    Machine (Monitor Tid) (MonitorAct Tid) (Outcome Tid) := ⟨Monitor.step⟩

/-- The queue as it is created: nobody waits. -/
def Monitor.start (Tid : Type*) (q : MsgQueue) : Monitor Tid := ⟨.start Tid q, .start⟩

/-- The threads of a run that were woken and found their time up all the same. -/
def lapsed (q : MsgQueue) (acts : List (MonitorAct Tid)) : List Tid :=
  (monitor Tid).collect Monitor.usedUp (.start Tid q) acts

/-! ### The sections -/

/-- The section that a step runs, if it runs one. -/
def Monitor.sections (s : Monitor Tid) : MonitorAct Tid → List (Section Tid)
  | .push t item _   => [.push t item]
  | .pop t timeoutMs => [.pop t timeoutMs]
  | .resume t        =>
    if t ∈ s.notEmpty.woken then [.wake t .woken]
    else if t ∈ s.notEmpty.expired then [.wake t .timedOut]
    else []
  | .expire _ | .lapse _ | .spurious _ => []
  | .clear t => [.clear t]

/-- With its signals the queue does what the shared queue can do. -/
def monitorSimulation (Tid : Type*) [DecidableEq Tid] :
    Simulation (monitor Tid) (sharedQueue Tid) where
  abs := Monitor.shared
  acts := Monitor.sections
  view e := [e]
  next s a := by
    cases a with
    | push t item choice => rfl
    | pop t timeoutMs =>
      simp only [monitor, Machine.next, Monitor.step, Monitor.sections, Machine.run_cons,
        Machine.run_nil, sharedQueue]
      cases hc : s.shared.client t with
      | waiting _ => simp [runSection, hc]
      | outside => rfl
    | resume t =>
      simp only [monitor, Machine.next, Monitor.step, Monitor.sections]
      split_ifs <;> rfl
    | expire t | lapse t =>
      simp only [monitor, Machine.next, Monitor.step, Monitor.sections]
      split
      · split_ifs <;> rfl
      · rfl
    | spurious t => rfl
    | clear t => rfl
  emit s a := by
    rw [List.flatMap_singleton']
    cases a with
    | push t item choice => exact (List.append_nil _).symm
    | pop t timeoutMs =>
      simp only [monitor, Machine.emit, Monitor.step, Monitor.sections, Machine.trace_cons,
        Machine.trace_nil, sharedQueue, List.append_nil]
      cases hc : s.shared.client t with
      | waiting _ => simp [runSection, hc]
      | outside => rfl
    | resume t =>
      simp only [monitor, Machine.emit, Monitor.step, Monitor.sections]
      split_ifs <;> simp [Monitor.settle, Machine.emit, sharedQueue]
    | expire t | lapse t =>
      simp only [monitor, Machine.emit, Monitor.step, Monitor.sections]
      split
      · split_ifs <;> rfl
      · rfl
    | spurious t => rfl
    | clear t => exact (List.append_nil _).symm

/-! ### No wakeup is lost -/

/-- The threads on the condition variable are those in a wait, only a timed wait expires, and a
thread sleeps only while at least as many are on their way as there are items, but for `used`
wakeups used up. -/
structure Attended (s : Monitor Tid) (used : ℕ) : Prop where
  nodup : s.notEmpty.waiting.Nodup
  waiting : ∀ t, t ∈ s.notEmpty.waiting ↔ s.shared.client t ≠ .outside
  timed : ∀ t ∈ s.notEmpty.expired,
    ∃ timeoutMs, 0 ≤ timeoutMs ∧ s.shared.client t = .waiting timeoutMs
  covers : s.notEmpty.Covers s.shared.queue.count used

/-- The same but for thread `t`, which holds the mutex. -/
structure AttendedBut (t : Tid) (client : Tid → Client) (c : Condition Tid) : Prop where
  nodup : c.waiting.Nodup
  self : t ∉ c.waiting
  others : ∀ u, u ≠ t → (u ∈ c.waiting ↔ client u ≠ .outside)
  timed : ∀ u ∈ c.expired, ∃ timeoutMs, 0 ≤ timeoutMs ∧ client u = .waiting timeoutMs

variable {s : Monitor Tid} {t : Tid} {c : Condition Tid} {q : MsgQueue} {client : Tid → Client}
  {used used' : ℕ}

omit [DecidableEq Tid] in
lemma mem_waiting_of_expired (h : t ∈ c.expired) : t ∈ c.waiting :=
  List.mem_append_right _ (List.mem_append_right _ h)

omit [DecidableEq Tid] in
lemma mem_waiting_of_woken (h : t ∈ c.woken) : t ∈ c.waiting :=
  List.mem_append_right _ (List.mem_append_left _ h)

omit [DecidableEq Tid] in
/-- Nobody comes or goes. -/
lemma Attended.same (h : Attended s used) (hperm : c.waiting.Perm s.notEmpty.waiting)
    (hexpired : ∀ t ∈ c.expired, t ∈ s.notEmpty.expired ∨
      ∃ timeoutMs, 0 ≤ timeoutMs ∧ s.shared.client t = .waiting timeoutMs)
    (hcovers : c.Covers q.count used') : Attended ⟨⟨q, s.shared.client⟩, c⟩ used' where
  nodup := hperm.nodup_iff.mpr h.nodup
  waiting t := hperm.mem_iff.trans (h.waiting t)
  timed t ht := (hexpired t ht).elim (h.timed t) id
  covers := hcovers

omit [DecidableEq Tid] in
lemma Attended.outside (h : Attended s used) (ht : s.shared.client t = .outside) :
    AttendedBut t s.shared.client s.notEmpty where
  nodup := h.nodup
  self hmem := (h.waiting t).mp hmem ht
  others u _ := h.waiting u
  timed := h.timed

omit [DecidableEq Tid] in
/-- A thread on the condition variable comes off it. -/
lemma Attended.comes_off (h : Attended s used)
    (hperm : (t :: c.waiting).Perm s.notEmpty.waiting)
    (hexpired : ∀ u ∈ c.expired, u ∈ s.notEmpty.expired) :
    AttendedBut t s.shared.client c := by
  have hnodup := hperm.nodup_iff.mpr h.nodup
  rw [List.nodup_cons] at hnodup
  refine ⟨hnodup.2, hnodup.1, fun u hu => ?_, fun u hmem => h.timed u (hexpired u hmem)⟩
  rw [← h.waiting u, ← hperm.mem_iff, List.mem_cons]
  exact ⟨.inr, fun hor => hor.resolve_left hu⟩

/-- The thread leaves the queue. -/
lemma AttendedBut.leaves (h : AttendedBut t client c) (hcovers : c.Covers q.count used) :
    Attended ⟨⟨q, Function.update client t .outside⟩, c⟩ used where
  nodup := h.nodup
  waiting u := by
    by_cases hu : u = t
    · subst hu
      simp [h.self]
    · simpa [hu] using h.others u hu
  timed u hmem := by
    have hu : u ≠ t := fun heq => h.self (heq ▸ mem_waiting_of_expired hmem)
    simpa [hu] using h.timed u hmem
  covers := hcovers

/-- The thread goes to sleep, on a queue without an item. -/
lemma AttendedBut.sleeps (h : AttendedBut t client c) (timeoutMs : ℤ) (hempty : q.count = 0) :
    Attended ⟨⟨q, Function.update client t (.waiting timeoutMs)⟩, c.sleep t⟩ used where
  nodup := by
    rw [(Condition.waiting_sleep c t).nodup_iff, List.nodup_cons]
    exact ⟨h.self, h.nodup⟩
  waiting u := by
    rw [(Condition.waiting_sleep c t).mem_iff, List.mem_cons]
    by_cases hu : u = t
    · simp [hu]
    · simpa [hu] using h.others u hu
  timed u hmem := by
    have hmem : u ∈ c.expired := hmem
    have hu : u ≠ t := fun heq => h.self (heq ▸ mem_waiting_of_expired hmem)
    simpa [hu] using h.timed u hmem
  covers := by
    rw [hempty]
    exact Condition.covers_sleep c t used

variable {itemSize capacity : ℕ}

/-- A thread with the mutex takes an item or goes to sleep. -/
lemma AttendedBut.settle (h : AttendedBut t s.shared.client c)
    (hkept : Kept itemSize capacity s.shared.queue)
    (hcovers : ∀ n, s.shared.queue.count = n + 1 → c.Covers n used) {a : Section Tid}
    (timeoutMs : ℤ) (ha : runSection s.shared a = popLoop s.shared t timeoutMs) :
    Attended (s.settle t a c).1 used := by
  rw [Monitor.settle, ha]
  rcases popLoop_cases hkept t timeoutMs with ⟨hempty, heq⟩ | ⟨item, q', -, hcon, heq⟩
  · rw [heq]
    simpa using h.sleeps timeoutMs hempty
  · rw [heq]
    simpa using h.leaves (hcovers q'.count (MsgQueue.count_of_cons hcon))

lemma Attended.push (h : Attended s used) (hkept : Kept itemSize capacity s.shared.queue)
    {item : Bytes} (hitem : item.length = itemSize) (t : Tid) (choice : ℕ) :
    Attended (s.step (.push t item choice)).1 used := by
  simp only [Monitor.step]
  cases hc : s.shared.client t with
  | waiting _ =>
    simp only [runSection, hc]
    exact h
  | outside =>
    rcases Nat.lt_or_ge s.shared.queue.count s.shared.queue.capacity with hroom | hfull
    · obtain ⟨q', hq', hw, hcon, -, -⟩ :=
        queuePush_room hkept.wellFormed (hitem.trans hkept.itemSize_eq.symm) hroom
      have haccepted : accepted [.pushed t item true] ≠ [] := List.cons_ne_nil item []
      simp only [runSection, hc, hq', if_neg haccepted]
      refine h.same (Condition.waiting_signal _ choice) (fun u hu => .inl ?_) ?_
      · rwa [Condition.expired_signal] at hu
      · rw [MsgQueue.count_of_append hcon]
        exact h.covers.signal choice
    · have hnone : accepted [.pushed t item false] = [] := rfl
      simp only [runSection, hc, queuePush_full hfull, if_pos hnone]
      exact h

/-- A thread comes back from its wait, woken or with its time up. -/
lemma Attended.resume (h : Attended s used) (hkept : Kept itemSize capacity s.shared.queue)
    (t : Tid) : Attended (s.step (.resume t)).1 used := by
  simp only [Monitor.step]
  split_ifs with hwoken hexpired
  · obtain ⟨timeoutMs, hc⟩ : ∃ timeoutMs, s.shared.client t = .waiting timeoutMs := by
      have hne := (h.waiting t).mp (mem_waiting_of_woken hwoken)
      cases hc : s.shared.client t with
      | outside => exact absurd hc hne
      | waiting timeoutMs => exact ⟨timeoutMs, rfl⟩
    have hbut := h.comes_off (Condition.waiting_resume hwoken) fun u hu => hu
    refine hbut.settle hkept (fun n hn => ?_) timeoutMs (by simp [runSection, hc])
    exact Condition.Covers.resume (hn ▸ h.covers) hwoken
  · obtain ⟨timeoutMs, hnonneg, hc⟩ := h.timed t hexpired
    have hbut := h.comes_off (Condition.waiting_giveUp hexpired)
      fun u hu => List.mem_of_mem_erase hu
    simpa [Monitor.settle, runSection, hc, hnonneg] using
      hbut.leaves (q := s.shared.queue) (h.covers.giveUp t)
  · exact h

/-- The time of a thread on its way is up: its wakeup is used up. -/
lemma Attended.lapse (h : Attended s used) (t : Tid) :
    Attended (s.step (.lapse t)).1 (used + (s.usedUp (.lapse t)).length) := by
  simp only [Monitor.step, Monitor.usedUp]
  cases hc : s.shared.client t with
  | outside => exact h
  | waiting timeoutMs =>
    by_cases hnonneg : 0 ≤ timeoutMs
    · simp only [hnonneg, true_and]
      by_cases hwoken : t ∈ s.notEmpty.woken
      · rw [if_pos hwoken]
        refine h.same (Condition.waiting_lapse _ t) (fun u hu => ?_) (h.covers.lapse t)
        rcases Condition.mem_expired_lapse hu with hu | rfl
        · exact .inl hu
        · exact .inr ⟨timeoutMs, hnonneg, hc⟩
      · rw [if_neg hwoken, Condition.lapse, if_neg hwoken]
        exact h
    · simp only [hnonneg, false_and, if_false]
      exact h

/-- Every step keeps the threads attended, but for the wakeups it uses up. -/
lemma Attended.next (h : Attended s used) (hkept : Kept itemSize capacity s.shared.queue)
    {a : MonitorAct Tid} (ha : a.Sized itemSize) :
    Attended ((monitor Tid).next s a) (used + (s.usedUp a).length) := by
  simp only [monitor, Machine.next]
  cases a with
  | push t item choice => exact h.push hkept ha t choice
  | pop t timeoutMs =>
    simp only [Monitor.step]
    cases hc : s.shared.client t with
    | waiting _ => exact h
    | outside =>
      refine (h.outside hc).settle hkept (fun n hn => ?_) timeoutMs (by simp [runSection, hc])
      exact h.covers.mono (hn ▸ Nat.le_succ n)
  | resume t => exact h.resume hkept t
  | expire t =>
    simp only [Monitor.step]
    cases hc : s.shared.client t with
    | outside => exact h
    | waiting timeoutMs =>
      simp only
      split_ifs with hnonneg
      · refine h.same (Condition.waiting_expire _ t) (fun u hu => ?_) (h.covers.expire t)
        rcases Condition.mem_expired_expire hu with hu | rfl
        · exact .inl hu
        · exact .inr ⟨timeoutMs, hnonneg, hc⟩
      · exact h
  | lapse t => exact h.lapse t
  | spurious t =>
    refine h.same (Condition.waiting_wake _ t) (fun u hu => .inl ?_) (h.covers.wake t)
    rwa [Condition.expired_wake] at hu
  | clear t =>
    simp only [Monitor.step]
    cases hc : s.shared.client t with
    | waiting _ =>
      simp only [runSection, hc]
      exact h
    | outside =>
      simp only [runSection, hc]
      exact h.same (List.Perm.refl _) (fun u hu => .inl hu) (h.covers.mono (Nat.zero_le _))

/-! ### Runs -/

/-- The abstract run of a run is one of sections of the right size. -/
lemma sized_sections {s : Monitor Tid} {acts : List (MonitorAct Tid)}
    (hacts : ∀ a ∈ acts, a.Sized itemSize) :
    ∀ a ∈ (monitorSimulation Tid).actsRun s acts, a.Sized itemSize := by
  induction acts generalizing s with
  | nil => exact List.forall_mem_nil _
  | cons a acts ih =>
    obtain ⟨ha, hacts⟩ := List.forall_mem_cons.mp hacts
    intro b hb
    rcases List.mem_append.mp hb with hb | hb
    · cases a with
      | push t item choice =>
        rw [List.mem_singleton.mp hb]
        exact ha
      | pop t timeoutMs =>
        rw [List.mem_singleton.mp hb]
        trivial
      | resume t =>
        simp only [monitorSimulation, Monitor.sections] at hb
        split_ifs at hb
        · rw [List.mem_singleton.mp hb]
          trivial
        · rw [List.mem_singleton.mp hb]
          trivial
        · cases hb
      | expire t | lapse t => cases hb
      | spurious t => cases hb
      | clear t =>
        rw [List.mem_singleton.mp hb]
        trivial
    · exact ih hacts b hb

/-- What holds of the shared queue holds with its signals. -/
lemma monitor_law {p : Platform} {itemSize capacity : ℕ} {q : MsgQueue}
    (hq : queueCreate p itemSize capacity = some q) {acts : List (MonitorAct Tid)}
    (hacts : ∀ a ∈ acts, a.Sized itemSize) :
    Law itemSize capacity ((monitor Tid).run (.start Tid q) acts).shared
      ((monitor Tid).trace (.start Tid q) acts) := by
  have hlaw := law_run hq (sized_sections (s := .start Tid q) hacts)
  have hshared : ((monitor Tid).run (.start Tid q) acts).shared = _ :=
    (monitorSimulation Tid).run (.start Tid q) acts
  have hlog := (monitorSimulation Tid).trace (.start Tid q) acts
  rw [Simulation.viewLog, show (monitorSimulation Tid).view = fun e => [e] from rfl,
    List.flatMap_singleton'] at hlog
  rw [hshared, hlog]
  exact hlaw

omit [DecidableEq Tid] in
lemma attended_start (q : MsgQueue) : Attended (.start Tid q) 0 where
  nodup := List.nodup_nil
  waiting t := by simp [Monitor.start, Shared.start, Condition.start, Condition.waiting]
  timed t ht := by cases ht
  covers := Condition.covers_start

lemma attended_run {p : Platform} {itemSize capacity : ℕ} {q : MsgQueue}
    (hq : queueCreate p itemSize capacity = some q) {acts : List (MonitorAct Tid)}
    (hacts : ∀ a ∈ acts, a.Sized itemSize) :
    Attended ((monitor Tid).run (.start Tid q) acts) (lapsed q acts).length := by
  induction acts using List.reverseRecOn with
  | nil => exact attended_start q
  | append_singleton acts a ih =>
    have hbefore : ∀ a ∈ acts, a.Sized itemSize :=
      fun b hb => hacts b (List.mem_append_left _ hb)
    have ha : a.Sized itemSize := hacts a (List.mem_append_right _ (List.mem_singleton_self a))
    rw [Machine.run_append, lapsed, Machine.collect_concat, List.length_append]
    exact (ih hbefore).next (monitor_law hq hbefore).kept ha

/-- In every run, whichever thread a signal wakes, however late those woken take the mutex, and
whoever comes before them: while a thread sleeps, at least as many as there are items have been
woken and are on their way, but for one item at most for each wait that was woken and then found its
time up. Those on the condition variable are the threads in a wait, each once, and what the queue
does is what the shared queue does. -/
theorem no_lost_wakeup {p : Platform} {itemSize capacity : ℕ} {q : MsgQueue}
    (hq : queueCreate p itemSize capacity = some q) {acts : List (MonitorAct Tid)}
    (hacts : ∀ a ∈ acts, a.Sized itemSize) :
    let s := (monitor Tid).run (.start Tid q) acts
    (s.notEmpty.asleep ≠ [] →
        s.shared.queue.count ≤ s.notEmpty.woken.length + (lapsed q acts).length) ∧
      s.notEmpty.waiting.Nodup ∧
      (∀ t, t ∈ s.notEmpty.waiting ↔ s.shared.client t ≠ .outside) ∧
      Ledger ((monitor Tid).trace (.start Tid q) acts) s.shared.queue.contents := by
  intro s
  have h : Attended s (lapsed q acts).length := attended_run hq hacts
  exact ⟨h.covers, h.nodup, h.waiting, (monitor_law hq hacts).ledger⟩

/-- Thread 1 waits, is woken, and finds that thread 2 has taken the item; it sleeps on and is woken
again. -/
theorem no_lost_wakeup_overtaken :
    let acts : List (MonitorAct ℕ) :=
      [.pop 1 (-1), .push 0 [7] 0, .pop 2 0, .resume 1, .push 0 [8] 0]
    let s := (monitor ℕ).run (.start ℕ ⟨1, 1, 0, 0, 0, [0]⟩) acts
    (s.notEmpty.asleep ≠ [] →
        s.shared.queue.count ≤
          s.notEmpty.woken.length + (lapsed ⟨1, 1, 0, 0, 0, [0]⟩ acts).length) ∧
      s.notEmpty.waiting.Nodup ∧
      (∀ t, t ∈ s.notEmpty.waiting ↔ s.shared.client t ≠ .outside) ∧
      Ledger ((monitor ℕ).trace (.start ℕ ⟨1, 1, 0, 0, 0, [0]⟩) acts) s.shared.queue.contents :=
  no_lost_wakeup
    (by decide : queueCreate ⟨true, fun _ => true, true⟩ 1 1 = some ⟨1, 1, 0, 0, 0, [0]⟩)
    (by simp [MonitorAct.Sized])

/-- The signal goes to thread 1, whose time is up before it has the mutex. It answers `false`, and
thread 2 sleeps on over the item. -/
example :
    let s := (monitor ℕ).run (.start ℕ ⟨1, 1, 0, 0, 0, [0]⟩)
      [.pop 1 100, .pop 2 (-1), .push 0 [7] 0, .lapse 1, .resume 1]
    s.notEmpty = ⟨[2], [], []⟩ ∧ s.shared.queue.contents = [[7]] ∧
      s.shared.client 1 = .outside := by
  decide

/-! ### Who is woken -/

/-- Thread `t` sleeps in a wait with this timeout. -/
structure Asleep (s : Monitor Tid) (t : Tid) (timeoutMs : ℤ) : Prop where
  asleep : t ∈ s.notEmpty.asleep
  client : s.shared.client t = .waiting timeoutMs

omit [DecidableEq Tid] in
/-- A thread asleep is not on its way. -/
lemma Attended.still_asleep (h : Attended s used) (ht : t ∈ s.notEmpty.asleep) :
    t ∉ s.notEmpty.woken ∧ t ∉ s.notEmpty.expired := by
  have hdisjoint := (List.nodup_append.mp h.nodup).2.2
  refine ⟨fun hmem => ?_, fun hmem => ?_⟩
  · exact hdisjoint t ht t (List.mem_append_left _ hmem) rfl
  · exact hdisjoint t ht t (List.mem_append_right _ hmem) rfl

/-- Another thread runs a section. -/
lemma Asleep.settle {timeoutMs : ℤ} (h : Asleep s t timeoutMs) {u : Tid} {a : Section Tid}
    (hu : t ≠ a.thread) (hc : t ∈ c.asleep) : Asleep (s.settle u a c).1 t timeoutMs where
  asleep := by
    simp only [Monitor.settle]
    split_ifs
    · exact hc
    · exact List.mem_append_left _ hc
  client := (runSection_client hu).trans h.client

/-- A step that wakes no thread asleep. -/
lemma Asleep.next {timeoutMs : ℤ} (h : Asleep s t timeoutMs) (hattended : Attended s used)
    {a : MonitorAct Tid} (hpush : accepted ((monitor Tid).emit s a) = [])
    (hspurious : a ≠ .spurious t) (hexpire : a = .expire t → timeoutMs < 0) :
    Asleep ((monitor Tid).next s a) t timeoutMs := by
  obtain ⟨hwoken, hexpired⟩ := hattended.still_asleep h.asleep
  simp only [monitor, Machine.next, Machine.emit] at hpush ⊢
  cases a with
  | push u item choice =>
    simp only [Monitor.step] at hpush ⊢
    rw [if_pos hpush]
    refine ⟨h.asleep, ?_⟩
    simp only [runSection]
    split <;> exact h.client
  | pop u timeoutMs' =>
    simp only [Monitor.step]
    cases hc : s.shared.client u with
    | waiting _ => exact h
    | outside =>
      have hu : t ≠ u := by
        rintro rfl
        simp [h.client] at hc
      exact h.settle hu h.asleep
  | resume u =>
    simp only [Monitor.step]
    split_ifs with hw he
    · have hu : t ≠ u := fun heq => hwoken (heq ▸ hw)
      exact h.settle hu h.asleep
    · have hu : t ≠ u := fun heq => hexpired (heq ▸ he)
      exact h.settle hu h.asleep
    · exact h
  | expire u =>
    simp only [Monitor.step]
    cases hc : s.shared.client u with
    | outside => exact h
    | waiting timeoutMs' =>
      simp only
      split_ifs with hnonneg
      · have hu : t ≠ u := by
          rintro rfl
          rw [h.client] at hc
          cases hc
          exact absurd hnonneg (Int.not_le.mpr (hexpire rfl))
        refine ⟨?_, h.client⟩
        simp only [Condition.expire]
        split_ifs
        · exact (List.mem_erase_of_ne hu).mpr h.asleep
        · exact h.asleep
      · exact h
  | lapse u =>
    simp only [Monitor.step]
    cases hc : s.shared.client u with
    | outside => exact h
    | waiting timeoutMs' =>
      simp only
      split_ifs
      · refine ⟨?_, h.client⟩
        simp only [Condition.lapse]
        split_ifs <;> exact h.asleep
      · exact h
  | spurious u =>
    have hu : t ≠ u := fun heq => hspurious (congrArg MonitorAct.spurious heq.symm)
    refine ⟨?_, h.client⟩
    simp only [Monitor.step, Condition.wake]
    split_ifs
    · exact (List.mem_erase_of_ne hu).mpr h.asleep
    · exact h.asleep
  | clear u =>
    refine ⟨h.asleep, ?_⟩
    simp only [Monitor.step, runSection]
    split <;> exact h.client

/-- From any point of any run on, a thread asleep in `queue_pop` sleeps until an item is pushed, its
own deadline passes or it is woken for nothing. In particular `queue_clear`, which `ecu_stop` calls
to unblock the waiters, unblocks none, and a wait without a limit goes on. -/
theorem sleeps_until_push {p : Platform} {itemSize capacity : ℕ} {q : MsgQueue}
    (hq : queueCreate p itemSize capacity = some q) {before after : List (MonitorAct Tid)}
    (hacts : ∀ a ∈ before ++ after, a.Sized itemSize) {t : Tid} {timeoutMs : ℤ}
    (h : Asleep ((monitor Tid).run (.start Tid q) before) t timeoutMs)
    (hpush : accepted ((monitor Tid).trace ((monitor Tid).run (.start Tid q) before) after) = [])
    (hspurious : .spurious t ∉ after) (hexpire : .expire t ∈ after → timeoutMs < 0) :
    Asleep ((monitor Tid).run (.start Tid q) (before ++ after)) t timeoutMs := by
  induction after using List.reverseRecOn with
  | nil => rwa [List.append_nil]
  | append_singleton after a ih =>
    rw [Machine.trace_append, accepted, List.flatMap_append, List.append_eq_nil_iff] at hpush
    have hsized : ∀ b ∈ before ++ after, b.Sized itemSize := by
      intro b hb
      refine hacts b ?_
      rw [← List.append_assoc]
      exact List.mem_append_left _ hb
    have hbefore := ih hsized hpush.1 (fun hmem => hspurious (List.mem_append_left _ hmem))
      fun hmem => hexpire (List.mem_append_left _ hmem)
    rw [← List.append_assoc, Machine.run_append]
    refine hbefore.next (attended_run hq hsized) ?_ ?_ ?_
    · have hlast := hpush.2
      rw [← Machine.run_append, Machine.trace_cons, Machine.trace_nil, List.append_nil] at hlast
      exact hlast
    · rintro rfl
      exact hspurious (List.mem_append_right _ (List.mem_singleton_self _))
    · rintro rfl
      exact hexpire (List.mem_append_right _ (List.mem_singleton_self _))

/-- Clearing the queue wakes nobody. -/
theorem sleeps_until_push_cleared :
    Asleep
      ((monitor ℕ).run (.start ℕ ⟨1, 1, 0, 0, 0, [0]⟩)
        ([.pop 1 (-1)] ++ [.clear 0, .expire 1, .clear 0]))
      1 (-1) :=
  sleeps_until_push
    (by decide : queueCreate ⟨true, fun _ => true, true⟩ 1 1 = some ⟨1, 1, 0, 0, 0, [0]⟩)
    (by simp [MonitorAct.Sized]) ⟨by decide, by decide⟩ (by decide) (by decide) (fun _ => by decide)

end EcuTelemetry.Queue
