import EcuTelemetry.Core.Machine
import EcuTelemetry.Queue.Refinement
import Mathlib.Data.List.Basic

/-!
# One queue, any number of threads

A critical section of `queue.c` is one step, taken by the thread that holds the mutex; the order of
the steps is the order in which the threads took the lock. `queue_pop` is the exception: waiting on
the condition variable gives the mutex up in the middle of its loop, so the loop body is split at
the wait. A waiting thread may be woken at any time, for no reason at all or because its time is up,
and goes back to the test of the loop.

`queue_concurrent_accounting` is the law of the queue under every interleaving: the items accepted
so far are, in that order, the ones a pop returned or a clear discarded, followed by the ones held.
-/

namespace EcuTelemetry.Queue

open EcuTelemetry.Core

/-- What `pthread_cond_wait` or `pthread_cond_timedwait` returns. -/
inductive WaitResult where
  | woken
  | timedOut
  deriving DecidableEq, Repr

/-- Where a thread stands: outside the queue, or in the wait of a `queue_pop` with this timeout. -/
inductive Client where
  | outside
  | waiting (timeoutMs : ℤ)
  deriving DecidableEq, Repr

/-- The queue and its clients. -/
structure Shared (Tid : Type*) where
  queue : MsgQueue
  client : Tid → Client

/-- The next critical section, and the thread that runs it. -/
inductive Section (Tid : Type*) where
  | push (t : Tid) (item : Bytes)
  | pop (t : Tid) (timeoutMs : ℤ)
  | wake (t : Tid) (rc : WaitResult)
  | clear (t : Tid)

/-- What a section did: `queue_push` answered, `queue_pop` answered (with the item or with
`false`), `queue_clear` dropped what it found, or a `memcpy` left the block. -/
inductive Outcome (Tid : Type*) where
  | pushed (t : Tid) (item : Bytes) (ok : Bool)
  | popped (t : Tid) (item : Option Bytes)
  | cleared (t : Tid) (items : List Bytes)
  | fault (t : Tid)

variable {Tid : Type*}

section Step

variable [DecidableEq Tid]

/-- The test and the body of the loop of `queue_pop`, with the mutex held. -/
def popLoop (s : Shared Tid) (t : Tid) (timeoutMs : ℤ) : Shared Tid × List (Outcome Tid) :=
  if s.queue.count = 0 then
    ({ s with client := Function.update s.client t (.waiting timeoutMs) }, [])
  else
    match queueTake s.queue with
    | none            => (s, [.fault t])
    | some (item, q) =>
      ({ queue := q, client := Function.update s.client t .outside }, [.popped t (some item)])

/-- One critical section. A thread that waits calls nothing else meanwhile. -/
def runSection (s : Shared Tid) : Section Tid → Shared Tid × List (Outcome Tid)
  | .push t item =>
    match s.client t, queuePush s.queue item with
    | .waiting _, _          => (s, [])
    | .outside, none         => (s, [.fault t])
    | .outside, some (ok, q) => ({ s with queue := q }, [.pushed t item ok])
  | .pop t timeoutMs =>
    match s.client t with
    | .waiting _ => (s, [])
    | .outside   => popLoop s t timeoutMs
  | .wake t rc =>
    match s.client t with
    | .outside           => (s, [])
    | .waiting timeoutMs =>
      if 0 ≤ timeoutMs ∧ rc = .timedOut then
        ({ s with client := Function.update s.client t .outside }, [.popped t none])
      else popLoop s t timeoutMs
  | .clear t =>
    match s.client t with
    | .waiting _ => (s, [])
    | .outside   => ({ s with queue := queueClear s.queue }, [.cleared t s.queue.contents])

/-- The queue shared by the threads `Tid`. -/
def sharedQueue (Tid : Type*) [DecidableEq Tid] :
    Machine (Shared Tid) (Section Tid) (Outcome Tid) :=
  ⟨runSection⟩

end Step

/-- Pushed items have the size the queue was created for. -/
def Section.Sized (itemSize : ℕ) : Section Tid → Prop
  | .push _ item => item.length = itemSize
  | _            => True

/-- The thread that runs a section. -/
def Section.thread : Section Tid → Tid
  | .push t _ | .pop t _ | .wake t _ | .clear t => t

/-! ### What one section can do -/

/-- Everything one section can do to a well-formed queue. -/
inductive Move (q : MsgQueue) : MsgQueue → List (Outcome Tid) → Prop where
  | wait : Move q q []
  | giveUp (t : Tid) : Move q q [.popped t none]
  | refuse (t : Tid) (item : Bytes) (hfull : q.capacity ≤ q.count) : Move q q [.pushed t item false]
  | accept (t : Tid) (item : Bytes) {q' : MsgQueue} (h : q'.contents = q.contents ++ [item]) :
      Move q q' [.pushed t item true]
  | take (t : Tid) (item : Bytes) {q' : MsgQueue} (h : q.contents = item :: q'.contents) :
      Move q q' [.popped t (some item)]
  | clear (t : Tid) {q' : MsgQueue} (h : q'.contents = []) : Move q q' [.cleared t q.contents]

/-- A queue that keeps its law, its item size and its capacity. -/
structure Kept (itemSize capacity : ℕ) (q : MsgQueue) : Prop where
  wellFormed : q.WellFormed
  itemSize_eq : q.itemSize = itemSize
  capacity_eq : q.capacity = capacity

/-! ### The ledger -/

/-- Where an item that has left the queue went. -/
inductive Fate (Tid : Type*) where
  | returned (t : Tid)
  | discarded

/-- The items whose push answered `true`, in the order the pushes took the lock. -/
def accepted (log : List (Outcome Tid)) : List Bytes :=
  log.flatMap fun
    | .pushed _ item true => [item]
    | _                   => []

/-- The items that pops answering `true` returned, in order, each with the thread that got it. -/
def returned (log : List (Outcome Tid)) : List (Bytes × Tid) :=
  log.flatMap fun
    | .popped t (some item) => [(item, t)]
    | _                     => []

/-- The items that clears found in the queue, in order. -/
def discarded (log : List (Outcome Tid)) : List Bytes :=
  log.flatMap fun
    | .cleared _ items => items
    | _                => []

/-- Of the items that left, in order of acceptance, those with a thread they were returned to. -/
def returnedOf (gone : List (Bytes × Fate Tid)) : List (Bytes × Tid) :=
  gone.flatMap fun
    | (item, .returned t) => [(item, t)]
    | (_, .discarded)     => []

/-- Of the items that left, in order of acceptance, those that were discarded. -/
def discardedOf (gone : List (Bytes × Fate Tid)) : List Bytes :=
  gone.flatMap fun
    | (item, .discarded) => [item]
    | (_, .returned _)   => []

/-- The accepted items in order of acceptance, each with exactly one place: the first ones have
left, each with one fate, and the others are held. The returned and the discarded items are the
items with that fate, in the same order. -/
def Ledger (log : List (Outcome Tid)) (held : List Bytes) : Prop :=
  ∃ gone : List (Bytes × Fate Tid),
    accepted log = gone.map Prod.fst ++ held ∧
    returned log = returnedOf gone ∧ discarded log = discardedOf gone

lemma discardedOf_map_discarded (items : List Bytes) :
    discardedOf (items.map fun item => (item, (.discarded : Fate Tid))) = items := by
  induction items with
  | nil => rfl
  | cons item items ih => exact congrArg (item :: ·) ih

lemma returnedOf_map_discarded (items : List Bytes) :
    returnedOf (items.map fun item => (item, (.discarded : Fate Tid))) = [] := by
  induction items with
  | nil => rfl
  | cons item items ih => exact ih

/-- Every section keeps the ledger. -/
lemma Ledger.move {log evs : List (Outcome Tid)} {q q' : MsgQueue} (h : Ledger log q.contents)
    (hm : Move q q' evs) : Ledger (log ++ evs) q'.contents := by
  obtain ⟨gone, hacc, hret, hdis⟩ := h
  unfold Ledger accepted returned discarded at *
  simp only [List.flatMap_append]
  cases hm with
  | wait => exact ⟨gone, by simpa using hacc, by simpa using hret, by simpa using hdis⟩
  | giveUp t => exact ⟨gone, by simpa using hacc, by simpa using hret, by simpa using hdis⟩
  | refuse t item hfull =>
    exact ⟨gone, by simpa using hacc, by simpa using hret, by simpa using hdis⟩
  | accept t item hcon =>
    exact ⟨gone, by simp [hacc, hcon], by simpa using hret, by simpa using hdis⟩
  | take t item hcon =>
    -- the oldest item held is the oldest one without a fate
    refine ⟨gone ++ [(item, .returned t)], by simp [hacc, hcon], ?_, ?_⟩
    · simp [hret, returnedOf]
    · simp [hdis, discardedOf]
  | clear t hcon =>
    refine ⟨gone ++ q.contents.map fun item => (item, .discarded), ?_, ?_, ?_⟩
    · simp [hacc, hcon, Function.comp_def]
    · have hnone := @returnedOf_map_discarded Tid q.contents
      simp only [returnedOf] at hret hnone ⊢
      simp [hret, hnone]
    · have hall := @discardedOf_map_discarded Tid q.contents
      simp only [discardedOf] at hdis hall ⊢
      simp [hdis, hall]

lemma Move.no_fault {q q' : MsgQueue} {evs : List (Outcome Tid)} (hm : Move q q' evs) (t : Tid) :
    .fault t ∉ evs := by
  cases hm <;> simp

/-- A pop that answers with an item takes the oldest one held. -/
lemma Move.popped {q q' : MsgQueue} {evs : List (Outcome Tid)} (hm : Move q q' evs) {t : Tid}
    {item : Bytes} (h : .popped t (some item) ∈ evs) : q.contents = item :: q'.contents := by
  cases hm with
  | take t' item' hcon =>
    simp only [List.mem_singleton, Outcome.popped.injEq, Option.some.injEq] at h
    exact h.2 ▸ hcon
  | _ => simp at h

/-! ### Runs -/

/-- What holds after every run of the shared queue. -/
structure Law (itemSize capacity : ℕ) (s : Shared Tid) (log : List (Outcome Tid)) : Prop where
  kept : Kept itemSize capacity s.queue
  ledger : Ledger log s.queue.contents
  no_fault : ∀ t, .fault t ∉ log

section Runs

variable [DecidableEq Tid]

/-- What `queue_pop` does once it has the mutex. -/
lemma popLoop_cases {itemSize capacity : ℕ} {s : Shared Tid} (h : Kept itemSize capacity s.queue)
    (t : Tid) (timeoutMs : ℤ) :
    (s.queue.count = 0 ∧ popLoop s t timeoutMs =
        ({ s with client := Function.update s.client t (.waiting timeoutMs) }, [])) ∨
      ∃ item q', Kept itemSize capacity q' ∧ s.queue.contents = item :: q'.contents ∧
        popLoop s t timeoutMs =
          (⟨q', Function.update s.client t .outside⟩, [.popped t (some item)]) := by
  rw [popLoop]
  split_ifs with h0
  · exact .inl ⟨h0, rfl⟩
  · obtain ⟨item, q', hq', hw, hcon, hi, hcap⟩ := queueTake_nonempty h.wellFormed h0
    rw [hq']
    exact .inr ⟨item, q', ⟨hw, hi.trans h.itemSize_eq, hcap.trans h.capacity_eq⟩, hcon, rfl⟩

lemma popLoop_move {itemSize capacity : ℕ} {s : Shared Tid} (h : Kept itemSize capacity s.queue)
    (t : Tid) (timeoutMs : ℤ) :
    Kept itemSize capacity (popLoop s t timeoutMs).1.queue ∧
      Move s.queue (popLoop s t timeoutMs).1.queue (popLoop s t timeoutMs).2 := by
  rcases popLoop_cases h t timeoutMs with ⟨-, heq⟩ | ⟨item, q', hkept, hcon, heq⟩
  · rw [heq]
    exact ⟨h, .wait⟩
  · rw [heq]
    exact ⟨hkept, .take t item hcon⟩

lemma runSection_move {itemSize capacity : ℕ} {s : Shared Tid} (h : Kept itemSize capacity s.queue)
    {a : Section Tid} (ha : a.Sized itemSize) :
    Kept itemSize capacity (runSection s a).1.queue ∧
      Move s.queue (runSection s a).1.queue (runSection s a).2 := by
  cases a with
  | push t item =>
    cases hc : s.client t with
    | waiting timeoutMs => simpa only [runSection, hc] using And.intro h Move.wait
    | outside =>
      rcases Nat.lt_or_ge s.queue.count s.queue.capacity with hroom | hfull
      · obtain ⟨q', hq', hw, hcon, hi, hcap⟩ :=
          queuePush_room h.wellFormed (ha.trans h.itemSize_eq.symm) hroom
        simp only [runSection, hc, hq']
        exact ⟨⟨hw, hi.trans h.itemSize_eq, hcap.trans h.capacity_eq⟩, .accept t item hcon⟩
      · simp only [runSection, hc, queuePush_full hfull]
        exact ⟨h, .refuse t item hfull⟩
  | pop t timeoutMs =>
    cases hc : s.client t with
    | waiting _ => simpa only [runSection, hc] using And.intro h Move.wait
    | outside => simpa only [runSection, hc] using popLoop_move h t timeoutMs
  | wake t rc =>
    cases hc : s.client t with
    | outside => simpa only [runSection, hc] using And.intro h Move.wait
    | waiting timeoutMs =>
      simp only [runSection, hc]
      split_ifs with htime
      · exact ⟨h, .giveUp t⟩
      · exact popLoop_move h t timeoutMs
  | clear t =>
    cases hc : s.client t with
    | waiting _ => simpa only [runSection, hc] using And.intro h Move.wait
    | outside =>
      simp only [runSection, hc]
      obtain ⟨hw, hcon⟩ := queueClear_wellFormed h.wellFormed
      exact ⟨⟨hw, h.itemSize_eq, h.capacity_eq⟩, .clear t hcon⟩

/-- A section leaves the other threads where they are. -/
lemma runSection_client {s : Shared Tid} {a : Section Tid} {u : Tid} (hu : u ≠ a.thread) :
    (runSection s a).1.client u = s.client u := by
  have hloop {t : Tid} (hu : u ≠ t) (timeoutMs : ℤ) :
      (popLoop s t timeoutMs).1.client u = s.client u := by
    rw [popLoop]
    split_ifs
    · exact Function.update_of_ne hu _ _
    · cases queueTake s.queue with
      | none => rfl
      | some r => exact Function.update_of_ne hu _ _
  cases a with
  | push t item =>
    simp only [runSection]
    split <;> rfl
  | pop t timeoutMs =>
    simp only [runSection]
    split
    · rfl
    · exact hloop hu timeoutMs
  | wake t rc =>
    simp only [runSection]
    split
    · rfl
    · next timeoutMs _ =>
      split_ifs
      · exact Function.update_of_ne hu _ _
      · exact hloop hu timeoutMs
  | clear t =>
    simp only [runSection]
    split <;> rfl

lemma law_step {itemSize capacity : ℕ} {s : Shared Tid} {log : List (Outcome Tid)}
    {a : Section Tid} (ha : a.Sized itemSize) (h : Law itemSize capacity s log) :
    Law itemSize capacity ((sharedQueue Tid).next s a) (log ++ (sharedQueue Tid).emit s a) := by
  obtain ⟨hkept, hmove⟩ := runSection_move h.kept ha
  refine ⟨hkept, h.ledger.move hmove, fun t ht => ?_⟩
  rcases List.mem_append.mp ht with ht | ht
  · exact h.no_fault t ht
  · exact hmove.no_fault t ht

/-- The shared queue as it is created: no thread is inside. -/
def Shared.start (Tid : Type*) (q : MsgQueue) : Shared Tid := ⟨q, fun _ => .outside⟩

lemma law_run {p : Platform} {itemSize capacity : ℕ} {q : MsgQueue}
    (hq : queueCreate p itemSize capacity = some q) {acts : List (Section Tid)}
    (hacts : ∀ a ∈ acts, a.Sized itemSize) :
    Law itemSize capacity ((sharedQueue Tid).run (.start Tid q) acts)
      ((sharedQueue Tid).trace (.start Tid q) acts) := by
  obtain ⟨hw, hnil, hi, hcap⟩ := queueCreate_wellFormed hq
  have hmeets := (sharedQueue Tid).meets_of_forall (.start Tid q) hacts
  refine (sharedQueue Tid).invariant (fun s log a ha => law_step ha) ?_ hmeets
  refine ⟨⟨hw, hi, hcap⟩, ⟨[], ?_, rfl, rfl⟩, fun t => List.not_mem_nil⟩
  simp [accepted, Shared.start, hnil]

/-- The queue under every interleaving of pushes, pops with any timeout and clears by any number of
threads, with the condition variable free to wake anyone at any time. Every accepted item is, in
order of acceptance, either gone with one fate or still held; the returned items keep that order;
no `memcpy` leaves the block; and a pop that answers `true` found an item, took the oldest one and
lowered `count` by one from a positive value. -/
theorem queue_concurrent_accounting {p : Platform} {itemSize capacity : ℕ} {q : MsgQueue}
    (hq : queueCreate p itemSize capacity = some q) {acts : List (Section Tid)}
    (hacts : ∀ a ∈ acts, a.Sized itemSize) :
    let s := (sharedQueue Tid).run (.start Tid q) acts
    let log := (sharedQueue Tid).trace (.start Tid q) acts
    Ledger log s.queue.contents ∧ (∀ t, .fault t ∉ log) ∧ s.queue.count ≤ capacity ∧
    ∀ a, a.Sized itemSize → ∀ t item, .popped t (some item) ∈ (sharedQueue Tid).emit s a →
      0 < s.queue.count ∧
      s.queue.contents = item :: ((sharedQueue Tid).next s a).queue.contents ∧
      s.queue.count = ((sharedQueue Tid).next s a).queue.count + 1 := by
  intro s log
  have hlaw : Law itemSize capacity s log := law_run hq hacts
  refine ⟨hlaw.ledger, hlaw.no_fault, hlaw.kept.capacity_eq ▸ hlaw.kept.wellFormed.count_le, ?_⟩
  intro a ha t item hpop
  have hcon := (runSection_move hlaw.kept ha).2.popped hpop
  have hcount := MsgQueue.count_of_cons hcon
  exact ⟨Nat.lt_of_lt_of_eq (Nat.succ_pos _) hcount.symm, hcon, hcount⟩

/-- Thread 1 waits without a limit, is woken for nothing, waits on, and loses the item of thread 0
to thread 2; the next item is its own. -/
theorem queue_concurrent_accounting_stolen :
    let acts : List (Section ℕ) :=
      [.pop 1 (-1), .wake 1 .woken, .push 0 [7], .pop 2 0, .wake 1 .woken, .push 0 [8]]
    let s := (sharedQueue ℕ).run (.start ℕ ⟨1, 1, 0, 0, 0, [0]⟩) acts
    let log := (sharedQueue ℕ).trace (.start ℕ ⟨1, 1, 0, 0, 0, [0]⟩) acts
    Ledger log s.queue.contents ∧ (∀ t, .fault t ∉ log) ∧ s.queue.count ≤ 1 ∧
    ∀ a, a.Sized 1 → ∀ t item, .popped t (some item) ∈ (sharedQueue ℕ).emit s a →
      0 < s.queue.count ∧
      s.queue.contents = item :: ((sharedQueue ℕ).next s a).queue.contents ∧
      s.queue.count = ((sharedQueue ℕ).next s a).queue.count + 1 :=
  queue_concurrent_accounting
    (by decide : queueCreate ⟨true, fun _ => true, true⟩ 1 1 = some ⟨1, 1, 0, 0, 0, [0]⟩)
    (by simp [Section.Sized])

end Runs

end EcuTelemetry.Queue
