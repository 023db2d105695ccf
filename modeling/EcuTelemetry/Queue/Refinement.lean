import EcuTelemetry.Queue.Basic

/-!
# The ring buffer is a bounded FIFO list

Each operation of `MsgQueue` keeps `WellFormed` and acts on `contents` as the abstract operation
does on its list. `queue_refines_fifo` assembles this into the law for finite sequences of calls.
-/

namespace EcuTelemetry.Queue

open EcuTelemetry.Core

variable {q q' : MsgQueue}

/-! ### Creation -/

/-- The queue that `queue_create` returns is well formed and empty. -/
lemma queueCreate_wellFormed {p : Platform} {itemSize capacity : ℕ}
    (h : queueCreate p itemSize capacity = some q) :
    q.WellFormed ∧ q.contents = [] ∧ q.itemSize = itemSize ∧ q.capacity = capacity := by
  unfold queueCreate calloc at h
  split_ifs at h with h0 hs hc hp
  simp only [Option.some.injEq] at h
  subst h
  rw [not_or] at h0
  exact ⟨⟨Nat.pos_of_ne_zero h0.1, by simp, hc.1, Nat.pos_of_ne_zero h0.2, Nat.zero_le _,
    by simp⟩, rfl, rfl, rfl⟩

/-! ### Slots under a write -/

/-- A write to slot `t` leaves the bytes of every other slot alone and puts the item at `t`. -/
lemma memcpyTo_slot (h : q.WellFormed) {t : ℕ} (ht : t < q.capacity) {item storage : Bytes}
    (hi : item.length = q.itemSize)
    (hs : memcpyTo q.storage (t * q.itemSize) item = some storage) (k : ℕ) :
    (storage.drop (k * q.itemSize)).take q.itemSize = if k = t then item else q.slot k := by
  have hle := h.slot_le ht
  rw [memcpyTo, if_pos (by omega), Option.some.injEq] at hs
  subst hs
  have hlen : (q.storage.take (t * q.itemSize)).length = t * q.itemSize := by
    rw [List.length_take]
    omega
  rcases Nat.lt_trichotomy k t with hkt | rfl | hkt
  · -- the slot lies before the one written
    have hmul : k * q.itemSize + q.itemSize ≤ t * q.itemSize := by
      rw [← Nat.succ_mul]
      exact Nat.mul_le_mul_right _ hkt
    rw [if_neg (Nat.ne_of_lt hkt), List.append_assoc, List.drop_append_of_le_length (by omega),
      List.take_append_of_le_length (by rw [List.length_drop]; omega), List.drop_take,
      List.take_take, Nat.min_eq_left (by omega)]
    rfl
  · rw [if_pos rfl, List.append_assoc, List.drop_append_of_le_length (by omega),
      List.drop_of_length_le (by omega), List.nil_append,
      List.take_append_of_le_length (by omega), List.take_of_length_le (by omega)]
  · -- the slot lies after the one written
    have hmul : t * q.itemSize + q.itemSize ≤ k * q.itemSize := by
      rw [← Nat.succ_mul]
      exact Nat.mul_le_mul_right _ hkt
    have hfront : (q.storage.take (t * q.itemSize) ++ item).length ≤ k * q.itemSize := by
      rw [List.length_append]
      omega
    rw [if_neg (Nat.ne_of_gt hkt), List.drop_append, List.drop_of_length_le hfront,
      List.nil_append, List.drop_drop, List.length_append, hlen, hi]
    congr 2
    omega

/-! ### The operations -/

/-- A push to a full queue is refused and changes nothing. -/
lemma queuePush_full (hfull : q.capacity ≤ q.count) (item : Bytes) :
    queuePush q item = some (false, q) := by
  rw [queuePush, if_neg (Nat.not_lt.mpr hfull)]

/-- A push to a queue with room appends the item. -/
lemma queuePush_room (h : q.WellFormed) {item : Bytes} (hi : item.length = q.itemSize)
    (hroom : q.count < q.capacity) :
    ∃ q', queuePush q item = some (true, q') ∧ q'.WellFormed ∧
      q'.contents = q.contents ++ [item] ∧ q'.itemSize = q.itemSize ∧ q'.capacity = q.capacity := by
  have hle := h.slot_le h.tail_lt
  obtain ⟨storage, hs⟩ : ∃ storage, memcpyTo q.storage (q.tail * q.itemSize) item = some storage :=
    ⟨_, if_pos (by omega)⟩
  have hlen : storage.length = q.storage.length := by
    rw [memcpyTo, if_pos (by omega), Option.some.injEq] at hs
    subst hs
    simp only [List.length_append, List.length_take, List.length_drop]
    omega
  refine ⟨{ q with
    storage, tail := sizeT (q.tail + 1) % q.capacity, count := sizeT (q.count + 1) },
    ?_, ?_, ?_, rfl, rfl⟩
  · rw [queuePush, if_pos hroom, h.sizeT_offset h.tail_lt, hs]
    rfl
  · refine ⟨h.itemSize_pos, hlen.trans h.length_storage, h.storage_lt, h.head_lt, ?_, ?_⟩
    · simp only [h.sizeT_succ hroom]
      exact hroom
    · simp only [h.sizeT_succ hroom, h.sizeT_succ h.tail_lt]
      rw [h.tail_eq, Ring.tail_write]
  · have hslot := memcpyTo_slot h h.tail_lt hi hs
    simp only [MsgQueue.contents, h.sizeT_succ hroom]
    refine Ring.contents_write hroom ?_ fun k hk => ?_
    · simp only [MsgQueue.slot]
      rw [hslot, if_pos h.tail_eq.symm]
    · simp only [MsgQueue.slot]
      rw [hslot, if_neg (h.tail_eq ▸ hk)]
      rfl

/-- Taking from a queue that holds something removes the oldest item and returns its bytes. -/
lemma queueTake_nonempty (h : q.WellFormed) (hne : q.count ≠ 0) :
    ∃ item q', queueTake q = some (item, q') ∧ q'.WellFormed ∧ q.contents = item :: q'.contents ∧
      q'.itemSize = q.itemSize ∧ q'.capacity = q.capacity := by
  obtain ⟨n, hn⟩ := Nat.exists_eq_succ_of_ne_zero hne
  have hroom := h.count_le
  have hpred := h.sizeT_pred hn
  refine ⟨q.slot q.head, { q with
    head := sizeT (q.head + 1) % q.capacity, count := sizeT (q.count + sizeRange - 1) },
    ?_, ?_, ?_, rfl, rfl⟩
  · rw [queueTake, h.sizeT_offset h.head_lt, memcpyFrom, if_pos (h.slot_le h.head_lt)]
    rfl
  · refine ⟨h.itemSize_pos, h.length_storage, h.storage_lt, Nat.mod_lt _ h.capacity_pos, ?_, ?_⟩
    · simp only [hpred]
      omega
    · simp only [hpred, h.sizeT_succ h.head_lt]
      rw [h.tail_eq, hn, Nat.succ_eq_add_one, Ring.tail_drop]
  · simp only [MsgQueue.contents, hpred, h.sizeT_succ h.head_lt]
    rw [hn]
    exact Ring.contents_succ q.slot h.head_lt n

/-- Clearing leaves a well-formed empty queue. -/
lemma queueClear_wellFormed (h : q.WellFormed) :
    (queueClear q).WellFormed ∧ (queueClear q).contents = [] :=
  ⟨⟨h.itemSize_pos, h.length_storage, h.storage_lt, h.capacity_pos, Nat.zero_le _,
    by simp [queueClear]⟩, rfl⟩

/-! ### Sequences of calls -/

/-- Pushed items have the size the queue was created for. -/
def Sized (itemSize : ℕ) : BoundedFifo.Call Bytes → Prop
  | .push item => item.length = itemSize
  | _          => True

/-- One call acts on `contents` as the abstract call, with the same answer. -/
lemma call_refines (h : q.WellFormed) {c : BoundedFifo.Call Bytes} (hc : Sized q.itemSize c)
    {r : BoundedFifo.Reply Bytes} {xs : List Bytes}
    (habs : BoundedFifo.call q.capacity q.contents c = some (r, xs)) :
    ∃ q', q.call c = some (r, q') ∧ q'.WellFormed ∧ q'.contents = xs ∧
      q'.itemSize = q.itemSize ∧ q'.capacity = q.capacity := by
  have hlen : q.contents.length = q.count := MsgQueue.WellFormed.length_contents q
  cases c with
  | push item =>
    simp only [BoundedFifo.call, Option.some.injEq, Prod.mk.injEq] at habs
    obtain ⟨rfl, rfl⟩ := habs
    rcases Nat.lt_or_ge q.count q.capacity with hroom | hfull
    · obtain ⟨q', hq', hw, hcon, hi, hcap⟩ := queuePush_room h hc hroom
      refine ⟨q', ?_, hw, ?_, hi, hcap⟩
      · rw [MsgQueue.call, hq', BoundedFifo.push_of_lt (hlen ▸ hroom)]
        rfl
      · rw [hcon, BoundedFifo.push_of_lt (hlen ▸ hroom)]
    · refine ⟨q, ?_, h, ?_, rfl, rfl⟩
      · rw [MsgQueue.call, queuePush_full hfull, BoundedFifo.push_of_le (hlen ▸ hfull)]
        rfl
      · rw [BoundedFifo.push_of_le (hlen ▸ hfull)]
  | pop =>
    rcases Nat.eq_zero_or_pos q.count with h0 | hpos
    · have hnil : q.contents = [] := List.eq_nil_of_length_eq_zero (hlen.trans h0)
      simp [BoundedFifo.call, hnil] at habs
    · obtain ⟨item, q', hq', hw, hcon, hi, hcap⟩ := queueTake_nonempty h hpos.ne'
      rw [hcon] at habs
      simp only [BoundedFifo.call, Option.some.injEq, Prod.mk.injEq] at habs
      obtain ⟨rfl, rfl⟩ := habs
      refine ⟨q', ?_, hw, rfl, hi, hcap⟩
      rw [MsgQueue.call, if_neg hpos.ne', hq']
      rfl
  | count =>
    simp only [BoundedFifo.call, Option.some.injEq, Prod.mk.injEq] at habs
    obtain ⟨rfl, rfl⟩ := habs
    exact ⟨q, by rw [MsgQueue.call, hlen]; rfl, h, rfl, rfl, rfl⟩
  | clear =>
    simp only [BoundedFifo.call, Option.some.injEq, Prod.mk.injEq] at habs
    obtain ⟨rfl, rfl⟩ := habs
    exact ⟨queueClear q, rfl, (queueClear_wellFormed h).1, (queueClear_wellFormed h).2, rfl, rfl⟩

/-- The law for call sequences, from any well-formed queue. -/
lemma calls_refine (h : q.WellFormed) {cs : List (BoundedFifo.Call Bytes)}
    (hcs : ∀ c ∈ cs, Sized q.itemSize c) {rs : List (BoundedFifo.Reply Bytes)} {xs : List Bytes}
    (habs : BoundedFifo.calls q.capacity q.contents cs = some (rs, xs)) :
    ∃ q', q.calls cs = some (rs, q') ∧ q'.WellFormed ∧ q'.contents = xs ∧
      q'.itemSize = q.itemSize ∧ q'.capacity = q.capacity := by
  induction cs generalizing q rs with
  | nil =>
    simp only [BoundedFifo.calls, Option.some.injEq, Prod.mk.injEq] at habs
    obtain ⟨rfl, rfl⟩ := habs
    exact ⟨q, rfl, h, rfl, rfl, rfl⟩
  | cons c cs ih =>
    simp only [BoundedFifo.calls, Option.bind_eq_bind, Option.bind_eq_some_iff, Option.pure_def,
      Option.some.injEq, Prod.mk.injEq, Prod.exists] at habs
    obtain ⟨r, ys, hcall, rs', zs, hrest, rfl, rfl⟩ := habs
    obtain ⟨q₁, hq₁, hw₁, rfl, hi₁, hcap₁⟩ := call_refines h (hcs c List.mem_cons_self) hcall
    obtain ⟨q₂, hq₂, hw₂, hcon₂, hi₂, hcap₂⟩ :=
      ih hw₁ (fun d hd => hi₁ ▸ hcs d (List.mem_cons_of_mem c hd)) (hcap₁ ▸ hrest)
    refine ⟨q₂, ?_, hw₂, hcon₂, hi₂.trans hi₁, hcap₂.trans hcap₁⟩
    simp only [MsgQueue.calls, hq₁, hq₂, Option.bind_eq_bind, Option.bind_some, Option.pure_def]

/-- The ring buffer refines the bounded FIFO list: whatever `queue_create` accepts, a sequence of
calls that never removes from an empty queue is answered as the abstract queue answers it, no
`memcpy` leaves the block, and the indices keep their law. -/
theorem queue_refines_fifo {p : Platform} {itemSize capacity : ℕ}
    (hq : queueCreate p itemSize capacity = some q) {cs : List (BoundedFifo.Call Bytes)}
    (hcs : ∀ c ∈ cs, Sized itemSize c) {rs : List (BoundedFifo.Reply Bytes)} {xs : List Bytes}
    (habs : BoundedFifo.calls capacity [] cs = some (rs, xs)) :
    ∃ q', q.calls cs = some (rs, q') ∧ q'.contents = xs ∧
      q'.storage.length = capacity * itemSize ∧ q'.head < capacity ∧ q'.tail < capacity ∧
      q'.count ≤ capacity ∧ q'.tail = (q'.head + q'.count) % capacity := by
  obtain ⟨hw, hnil, rfl, rfl⟩ := queueCreate_wellFormed hq
  obtain ⟨q', hq', hw', hcon, hi, hcap⟩ := calls_refine hw hcs (hnil.symm ▸ habs)
  rw [← hi, ← hcap]
  exact ⟨q', hq', hcon, hw'.length_storage, hw'.head_lt, hw'.tail_lt, hw'.count_le, hw'.tail_eq⟩

/-- A run on two slots of two bytes: a refused push, a wrapped push and a clear in the middle. -/
theorem queue_refines_fifo_two_slots :
    ∃ q', MsgQueue.calls ⟨2, 2, 0, 0, 0, [0, 0, 0, 0]⟩
        [.push [1, 2], .push [3, 4], .push [5, 6], .pop, .push [7, 8], .count, .clear,
          .push [9, 9]] =
          some ([.pushed true, .pushed true, .pushed false, .popped [1, 2], .pushed true,
            .counted 2, .cleared, .pushed true], q') ∧
      q'.contents = [[9, 9]] ∧ q'.storage.length = 2 * 2 ∧ q'.head < 2 ∧ q'.tail < 2 ∧
      q'.count ≤ 2 ∧ q'.tail = (q'.head + q'.count) % 2 :=
  queue_refines_fifo
    (by decide : queueCreate ⟨true, fun _ => true, true⟩ 2 2 = some ⟨2, 2, 0, 0, 0, [0, 0, 0, 0]⟩)
    (by simp [Sized]) (by decide)

end EcuTelemetry.Queue
