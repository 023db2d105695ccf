import EcuTelemetry.Core.BoundedFifo
import EcuTelemetry.Core.Ring

/-!
# The ring-buffer message queue

`MsgQueue` is the record of `queue.c` without its name and its POSIX primitives. Items are byte
strings, `storage` is the block `calloc` returned, and every index is a `size_t`: sums and products
are taken modulo `2 ^ 64` where the source computes them. Both `memcpy` calls fail, instead of
answering, when they would leave the block they work on.
-/

namespace EcuTelemetry.Queue

open EcuTelemetry.Core

/-- Bytes as they lie in memory. -/
abbrev Bytes := List UInt8

/-- The number of values of `size_t` on the LP64 host. -/
def sizeRange : ℕ := 2 ^ 64

/-- A natural number as a `size_t`. -/
def sizeT (n : ℕ) : ℕ := n % sizeRange

lemma sizeT_of_lt {n : ℕ} (h : n < sizeRange) : sizeT n = n := Nat.mod_eq_of_lt h

/-- `memcpy` of the whole of `bs` to offset `off` of a block. -/
def memcpyTo (block : Bytes) (off : ℕ) (bs : Bytes) : Option Bytes :=
  if off + bs.length ≤ block.length then
    some (block.take off ++ bs ++ block.drop (off + bs.length))
  else none

/-- `memcpy` of `n` bytes out of a block, from offset `off`. -/
def memcpyFrom (block : Bytes) (off n : ℕ) : Option Bytes :=
  if off + n ≤ block.length then some ((block.drop off).take n) else none

/-- What the environment answers to the allocations and initialisations of `queue_create`. -/
structure Platform where
  callocStruct : Bool
  callocBytes : ℕ → Bool
  initPrimitives : Bool

/-- `calloc (count, size)`: null when the product overflows or the heap refuses. -/
def calloc (p : Platform) (count size : ℕ) : Option Bytes :=
  if count * size < sizeRange ∧ p.callocBytes (count * size) then
    some (List.replicate (count * size) 0)
  else none

/-- The data fields of `struct MsgQueue`. -/
structure MsgQueue where
  itemSize : ℕ
  capacity : ℕ
  head : ℕ
  tail : ℕ
  count : ℕ
  storage : Bytes
  deriving DecidableEq, Repr

/-- `queue_create`. -/
def queueCreate (p : Platform) (itemSize capacity : ℕ) : Option MsgQueue :=
  if itemSize = 0 ∨ capacity = 0 then none
  else if p.callocStruct = false then none
  else
    match calloc p capacity itemSize with
    | none         => none
    | some storage =>
      if p.initPrimitives then
        some { itemSize, capacity, head := 0, tail := 0, count := 0, storage }
      else none

/-- `queue_push` under its mutex: whether the item was taken, and the queue left behind. -/
def queuePush (q : MsgQueue) (item : Bytes) : Option (Bool × MsgQueue) :=
  if q.count < q.capacity then do
    let storage ← memcpyTo q.storage (sizeT (q.tail * q.itemSize)) item
    return (true,
      { q with
        storage
        tail := sizeT (q.tail + 1) % q.capacity
        count := sizeT (q.count + 1) })
  else
    some (false, q)

/-- The part of `queue_pop` after its wait loop: copy the oldest item out and drop it. -/
def queueTake (q : MsgQueue) : Option (Bytes × MsgQueue) := do
  let item ← memcpyFrom q.storage (sizeT (q.head * q.itemSize)) q.itemSize
  return (item,
    { q with
      head := sizeT (q.head + 1) % q.capacity
      count := sizeT (q.count + sizeRange - 1) })

/-- `queue_count`. -/
def queueCount (q : MsgQueue) : ℕ := q.count

/-- `queue_clear`. -/
def queueClear (q : MsgQueue) : MsgQueue := { q with head := 0, tail := 0, count := 0 }

/-- One call of a single client. The loop test of `queue_pop` is kept: on an empty queue the call
does not return, and the client of this function has no answer. -/
def MsgQueue.call (q : MsgQueue) :
    BoundedFifo.Call Bytes → Option (BoundedFifo.Reply Bytes × MsgQueue)
  | .push item => (queuePush q item).map fun r => (.pushed r.1, r.2)
  | .pop       => if q.count = 0 then none else (queueTake q).map fun r => (.popped r.1, r.2)
  | .count     => some (.counted (queueCount q), q)
  | .clear     => some (.cleared, queueClear q)

/-- A finite sequence of calls: the answers in order and the queue left behind. -/
def MsgQueue.calls (q : MsgQueue) :
    List (BoundedFifo.Call Bytes) → Option (List (BoundedFifo.Reply Bytes) × MsgQueue)
  | []      => some ([], q)
  | c :: cs => do
    let (r, q₁) ← q.call c
    let (rs, q₂) ← q₁.calls cs
    return (r :: rs, q₂)

/-- The bytes of slot `k`. -/
def MsgQueue.slot (q : MsgQueue) (k : ℕ) : Bytes :=
  (q.storage.drop (k * q.itemSize)).take q.itemSize

/-- The items held, oldest first. -/
def MsgQueue.contents (q : MsgQueue) : List Bytes := Ring.contents q.slot q.capacity q.head q.count

/-- What every operation of the queue keeps. -/
structure MsgQueue.WellFormed (q : MsgQueue) : Prop where
  itemSize_pos : 0 < q.itemSize
  length_storage : q.storage.length = q.capacity * q.itemSize
  storage_lt : q.capacity * q.itemSize < sizeRange
  head_lt : q.head < q.capacity
  count_le : q.count ≤ q.capacity
  tail_eq : q.tail = (q.head + q.count) % q.capacity

namespace MsgQueue.WellFormed

variable {q : MsgQueue}

lemma capacity_pos (h : q.WellFormed) : 0 < q.capacity :=
  Nat.lt_of_le_of_lt (Nat.zero_le _) h.head_lt

lemma tail_lt (h : q.WellFormed) : q.tail < q.capacity := h.tail_eq ▸ Nat.mod_lt _ h.capacity_pos

lemma capacity_lt (h : q.WellFormed) : q.capacity < sizeRange :=
  Nat.lt_of_le_of_lt (Nat.le_mul_of_pos_right _ h.itemSize_pos) h.storage_lt

/-- Slot `k` of the ring lies inside the block. -/
lemma slot_le (h : q.WellFormed) {k : ℕ} (hk : k < q.capacity) :
    k * q.itemSize + q.itemSize ≤ q.storage.length := by
  rw [h.length_storage, ← Nat.succ_mul]
  exact Nat.mul_le_mul_right _ hk

/-- The byte offset of a slot does not wrap. -/
lemma sizeT_offset (h : q.WellFormed) {k : ℕ} (hk : k < q.capacity) :
    sizeT (k * q.itemSize) = k * q.itemSize := by
  refine sizeT_of_lt (Nat.lt_of_le_of_lt ?_ h.storage_lt)
  exact Nat.mul_le_mul_right _ hk.le

/-- Stepping an index does not wrap. -/
lemma sizeT_succ (h : q.WellFormed) {k : ℕ} (hk : k < q.capacity) : sizeT (k + 1) = k + 1 :=
  sizeT_of_lt (Nat.lt_of_le_of_lt hk h.capacity_lt)

/-- `count--` on a queue that holds something. -/
lemma sizeT_pred (h : q.WellFormed) {n : ℕ} (hn : q.count = n + 1) :
    sizeT (q.count + sizeRange - 1) = n := by
  have hlt := Nat.lt_of_le_of_lt h.count_le h.capacity_lt
  rw [hn, Nat.add_right_comm, Nat.add_sub_cancel, sizeT, Nat.add_mod_right]
  exact Nat.mod_eq_of_lt (by omega)

@[simp] lemma length_contents (q : MsgQueue) : q.contents.length = q.count := by
  simp [contents]

end MsgQueue.WellFormed

/-- One item more. -/
lemma MsgQueue.count_of_append {q q' : MsgQueue} {item : Bytes}
    (h : q'.contents = q.contents ++ [item]) : q'.count = q.count + 1 := by
  rw [← WellFormed.length_contents, ← WellFormed.length_contents, h, List.length_append,
    List.length_singleton]

/-- One item less. -/
lemma MsgQueue.count_of_cons {q q' : MsgQueue} {item : Bytes}
    (h : q.contents = item :: q'.contents) : q.count = q'.count + 1 := by
  rw [← WellFormed.length_contents, ← WellFormed.length_contents, h, List.length_cons]

end EcuTelemetry.Queue
