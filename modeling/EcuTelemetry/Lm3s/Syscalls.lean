import EcuTelemetry.Core.Stores
import Mathlib.Algebra.Group.Nat.Defs
import Mathlib.Data.List.Nodup
import Mathlib.Order.Nat

/-!
# Copying memory

`memmove` and `strncpy` of `syscalls.c`, on a memory of bytes with 32-bit addresses. The pointers
of the source are addresses; they wrap around as the machine's do, and `d < s` compares them as
numbers.
-/

namespace EcuTelemetry.Lm3s

open EcuTelemetry.Core

/-- The bytes of the address space. -/
abbrev Memory := UInt32 → UInt8

/-- `while (n--) *d++ = *s++;`. -/
def copyUp (mem : Memory) (d s : UInt32) : ℕ → Memory
  | 0     => mem
  | n + 1 => copyUp (Function.update mem d (mem s)) (d + 1) (s + 1) n

/-- `while (n--) *--d = *--s;`. -/
def copyDown (mem : Memory) (d s : UInt32) : ℕ → Memory
  | 0     => mem
  | n + 1 => copyDown (Function.update mem (d - 1) (mem (s - 1))) (d - 1) (s - 1) n

/-- `memmove`: the memory it leaves and the pointer it returns. -/
def memmove (mem : Memory) (dst src n : UInt32) : Memory × UInt32 :=
  if dst < src then (copyUp mem dst src n.toNat, dst)
  else (copyDown mem (dst + n) (src + n) n.toNat, dst)

/-- `while (n && (*d++ = *s++)) n--;`: the memory, `d` and `n` after it. -/
def copyText (mem : Memory) (d s : UInt32) : ℕ → Memory × UInt32 × ℕ
  | 0     => (mem, d, 0)
  | n + 1 =>
    if mem s = 0 then (Function.update mem d (mem s), d + 1, n + 1)
    else copyText (Function.update mem d (mem s)) (d + 1) (s + 1) n

/-- `while (n--) *d++ = '\0';`. -/
def fillNul (mem : Memory) (d : UInt32) : ℕ → Memory
  | 0     => mem
  | n + 1 => fillNul (Function.update mem d 0) (d + 1) n

/-- `strncpy`: the memory it leaves and the pointer it returns. -/
def strncpy (mem : Memory) (dst src n : UInt32) : Memory × UInt32 :=
  let (mem, d, n) := copyText mem dst src n.toNat
  (fillNul mem d n, dst)

/-! ### Addresses -/

lemma add_ofNat_succ (p : UInt32) (i : ℕ) :
    p + UInt32.ofNat (i + 1) = p + 1 + UInt32.ofNat i := by
  rw [UInt32.ofNat_add, UInt32.add_comm (UInt32.ofNat i), ← UInt32.add_assoc]
  rfl

lemma add_ofNat_inj (p : UInt32) {i j : ℕ} (hi : i < 2 ^ 32) (hj : j < 2 ^ 32) :
    p + UInt32.ofNat i = p + UInt32.ofNat j ↔ i = j := by
  rw [UInt32.add_right_inj]
  constructor
  · intro h
    have h := congrArg UInt32.toNat h
    rwa [UInt32.toNat_ofNat_of_lt' hi, UInt32.toNat_ofNat_of_lt' hj] at h
  · intro h
    rw [h]

/-- Where two ranges meet. -/
lemma add_ofNat_eq_iff (d s : UInt32) {i j : ℕ} (hi : i < 2 ^ 32) (hj : j < 2 ^ 32) :
    s + UInt32.ofNat i = d + UInt32.ofNat j ↔ i = ((d - s).toNat + j) % 2 ^ 32 := by
  have hd : s + (d - s) = d := by rw [UInt32.add_comm, UInt32.sub_add_cancel]
  calc s + UInt32.ofNat i = d + UInt32.ofNat j
      ↔ s + UInt32.ofNat i = s + (d - s) + UInt32.ofNat j := by rw [hd]
    _ ↔ UInt32.ofNat i = (d - s) + UInt32.ofNat j := by
        rw [UInt32.add_assoc, UInt32.add_right_inj]
    _ ↔ i = ((d - s).toNat + j) % 2 ^ 32 := by
        rw [← UInt32.toNat_inj, UInt32.toNat_add, UInt32.toNat_ofNat_of_lt' hi,
          UInt32.toNat_ofNat_of_lt' hj]

/-- An address inside a range that does not wrap. -/
lemma toNat_add_ofNat {p : UInt32} {i : ℕ} (h : p.toNat + i < 2 ^ 32) :
    (p + UInt32.ofNat i).toNat = p.toNat + i := by
  have hi : i < 2 ^ 32 := by omega
  rw [UInt32.toNat_add, UInt32.toNat_ofNat_of_lt' hi, Nat.mod_eq_of_lt h]

/-! ### The loops as stores -/

/-- The stores that copy the bytes at the offsets `l` from `s` to `d`. -/
def moves (d s : UInt32) (l : List ℕ) : List (Store UInt32 UInt8) :=
  l.map fun i => .move (d + UInt32.ofNat i) (s + UInt32.ofNat i)

/-- The stores that clear the bytes at the offsets `l` from `d`. -/
def clears (d : UInt32) (l : List ℕ) : List (Store UInt32 UInt8) :=
  l.map fun i => .put (d + UInt32.ofNat i) 0

lemma moves_succ (d s : UInt32) (l : List ℕ) :
    moves d s (l.map (· + 1)) = moves (d + 1) (s + 1) l := by
  simp only [moves, List.map_map]
  refine List.map_congr_left fun i _ => ?_
  rw [Function.comp_apply, add_ofNat_succ, add_ofNat_succ]

lemma clears_map_add (d : UInt32) (k : ℕ) (l : List ℕ) :
    clears d (l.map (· + k)) = clears (d + UInt32.ofNat k) l := by
  simp only [clears, List.map_map]
  refine List.map_congr_left fun i _ => ?_
  rw [Function.comp_apply, Nat.add_comm, UInt32.ofNat_add k i, UInt32.add_assoc]

@[simp] lemma moves_cons_zero (d s : UInt32) (l : List ℕ) :
    moves d s (0 :: l) = .move d s :: moves d s l := by
  simp [moves]

@[simp] lemma clears_cons_zero (d : UInt32) (l : List ℕ) :
    clears d (0 :: l) = .put d 0 :: clears d l := by
  simp [clears]

/-- An upward copy that has not begun. -/
lemma stores_moves_zero (mem : Memory) (d s : UInt32) :
    stores mem (moves d s (List.range 0)) (s + UInt32.ofNat 0) = mem s :=
  congrArg mem (UInt32.add_zero s)

/-- The first store of an upward copy. -/
lemma stores_moves_head (mem : Memory) (d s : UInt32) (n : ℕ) :
    stores mem (moves d s (List.range (n + 1))) =
      stores (Function.update mem d (mem s)) (moves (d + 1) (s + 1) (List.range n)) := by
  rw [List.range_succ_eq_map, moves_cons_zero, moves_succ, stores_cons, Store.exec_move]

/-- The last store of an upward copy. -/
lemma stores_moves_last (mem : Memory) (d s : UInt32) (n : ℕ) :
    stores mem (moves d s (List.range (n + 1))) =
      Function.update (stores mem (moves d s (List.range n))) (d + UInt32.ofNat n)
        (stores mem (moves d s (List.range n)) (s + UInt32.ofNat n)) := by
  rw [moves, List.range_succ, List.map_append, stores_append]
  rfl

lemma copyUp_eq (mem : Memory) (d s : UInt32) (n : ℕ) :
    copyUp mem d s n = stores mem (moves d s (List.range n)) := by
  induction n generalizing mem d s with
  | zero => rfl
  | succ n ih => rw [copyUp, ih, stores_moves_head]

lemma copyDown_eq (mem : Memory) (d s : UInt32) (n : ℕ) :
    copyDown mem (d + UInt32.ofNat n) (s + UInt32.ofNat n) n =
      stores mem (moves d s (List.range n).reverse) := by
  have hpred (p : UInt32) (n : ℕ) : p + UInt32.ofNat (n + 1) - 1 = p + UInt32.ofNat n := by
    rw [UInt32.ofNat_add, ← UInt32.add_assoc]
    exact UInt32.add_sub_cancel _ _
  induction n generalizing mem with
  | zero => rfl
  | succ n ih =>
    rw [copyDown, hpred, hpred, ih, List.range_succ, List.reverse_append]
    rfl

lemma fillNul_eq (mem : Memory) (d : UInt32) (n : ℕ) :
    fillNul mem d n = stores mem (clears d (List.range n)) := by
  induction n generalizing mem d with
  | zero => rfl
  | succ n ih =>
    rw [fillNul, ih, List.range_succ_eq_map, clears_cons_zero, clears_map_add d 1, stores_cons,
      Store.exec_put]
    rfl

/-! ### Overlapping ranges -/

/-- Nothing is copied to an address outside the destination. -/
lemma stores_moves_of_ne (mem : Memory) {d s : UInt32} {l : List ℕ} {a : UInt32}
    (h : ∀ i ∈ l, a ≠ d + UInt32.ofNat i) : stores mem (moves d s l) a = mem a := by
  refine stores_of_forall_ne mem fun t ht => ?_
  obtain ⟨i, hi, rfl⟩ := List.mem_map.mp ht
  exact h i hi

/-- Copying the offsets below `n` in an order in which no byte is overwritten before it is read. -/
lemma stores_moves (mem : Memory) {d s : UInt32} {n : ℕ} {l : List ℕ} (hn : n ≤ 2 ^ 32)
    (hmem : ∀ i, i ∈ l ↔ i < n) (hnodup : l.Nodup)
    (hread : l.Pairwise fun i j => s + UInt32.ofNat j ≠ d + UInt32.ofNat i) :
    (∀ i < n, stores mem (moves d s l) (d + UInt32.ofNat i) = mem (s + UInt32.ofNat i)) ∧
      ∀ a, (∀ i < n, a ≠ d + UInt32.ofNat i) → stores mem (moves d s l) a = mem a := by
  have hspares : (moves d s l).Pairwise Store.Spares := by
    rw [moves, List.pairwise_map]
    refine (hnodup.and hread).imp_of_mem fun {i j} hi hj h => ⟨fun heq => h.1 ?_, h.2⟩
    have hi := (hmem i).mp hi
    have hj := (hmem j).mp hj
    exact (add_ofNat_inj d (by omega) (by omega)).mp heq
  constructor
  · intro i hi
    exact stores_apply mem hspares (List.mem_map.mpr ⟨i, (hmem i).mpr hi, rfl⟩)
  · intro a ha
    exact stores_moves_of_ne mem fun i hi => ha i ((hmem i).mp hi)

/-- Clearing the offsets `l`, in any order. -/
lemma stores_clears (mem : Memory) {d : UInt32} {l : List ℕ} (hl : ∀ i ∈ l, i < 2 ^ 32)
    (hnodup : l.Nodup) :
    (∀ i ∈ l, stores mem (clears d l) (d + UInt32.ofNat i) = 0) ∧
      ∀ a, (∀ i ∈ l, a ≠ d + UInt32.ofNat i) → stores mem (clears d l) a = mem a := by
  have hspares : (clears d l).Pairwise Store.Spares := by
    rw [clears, List.pairwise_map]
    refine hnodup.imp_of_mem fun {i j} hi hj h => ⟨?_, id⟩
    exact mt (add_ofNat_inj d (hl i hi) (hl j hj)).mp h
  constructor
  · intro i hi
    exact stores_apply mem hspares (List.mem_map.mpr ⟨i, hi, rfl⟩)
  · intro a ha
    refine stores_of_forall_ne mem fun t ht => ?_
    obtain ⟨i, hi, rfl⟩ := List.mem_map.mp ht
    exact ha i hi

/-- `memmove` between two ranges that do not wrap around the address space, however they overlap:
the destination holds what the source held, and every other byte is as it was. -/
theorem memmove_copies (mem : Memory) {dst src n : UInt32} (hdst : dst.toNat + n.toNat ≤ 2 ^ 32)
    (hsrc : src.toNat + n.toNat ≤ 2 ^ 32) :
    (∀ i < n.toNat,
      (memmove mem dst src n).1 (dst + UInt32.ofNat i) = mem (src + UInt32.ofNat i)) ∧
      ∀ a, (∀ i < n.toNat, a ≠ dst + UInt32.ofNat i) → (memmove mem dst src n).1 a = mem a := by
  have hn : n.toNat ≤ 2 ^ 32 := by omega
  -- offsets in the two ranges, compared as addresses
  have hne {i j : ℕ} (hi : i < n.toNat) (hj : j < n.toNat)
      (h : src.toNat + j ≠ dst.toNat + i) : src + UInt32.ofNat j ≠ dst + UInt32.ofNat i := by
    intro heq
    have heq := congrArg UInt32.toNat heq
    rw [toNat_add_ofNat (by omega), toNat_add_ofNat (by omega)] at heq
    exact h heq
  by_cases hlt : dst < src
  · -- upwards, what is written lies below what is still to be read
    have hlt' : dst.toNat < src.toNat := UInt32.lt_iff_toNat_lt.mp hlt
    rw [memmove, if_pos hlt, copyUp_eq]
    refine stores_moves mem hn (fun i => List.mem_range) List.nodup_range ?_
    refine List.pairwise_lt_range.imp_of_mem fun {i j} hi hj hij => ?_
    exact hne (List.mem_range.mp hi) (List.mem_range.mp hj) (by omega)
  · -- downwards, what is written lies above it
    have hle : src.toNat ≤ dst.toNat := Nat.not_lt.mp (mt UInt32.lt_iff_toNat_lt.mpr hlt)
    have hdown := copyDown_eq mem dst src n.toNat
    rw [UInt32.ofNat_toNat] at hdown
    rw [memmove, if_neg hlt, hdown]
    refine stores_moves mem hn (fun i => by rw [List.mem_reverse, List.mem_range])
      (List.nodup_reverse.mpr List.nodup_range) ?_
    rw [List.pairwise_reverse]
    refine List.pairwise_lt_range.imp_of_mem fun {i j} hi hj hij => ?_
    exact hne (List.mem_range.mp hj) (List.mem_range.mp hi) (by omega)

/-- A memory in which each byte holds the low byte of its address. -/
def addressBytes : Memory := fun a => a.toUInt8

/-- Three bytes moved up by one. -/
theorem memmove_copies_up :
    (∀ i < (3 : UInt32).toNat,
      (memmove addressBytes 1 0 3).1 (1 + UInt32.ofNat i) = addressBytes (0 + UInt32.ofNat i)) ∧
      ∀ a, (∀ i < (3 : UInt32).toNat, a ≠ 1 + UInt32.ofNat i) →
        (memmove addressBytes 1 0 3).1 a = addressBytes a :=
  memmove_copies addressBytes (by decide) (by decide)

/-! ### Copying a text -/

/-- A text of `len` characters and its terminator at `p`. -/
structure TextAt (mem : Memory) (p : UInt32) (len : ℕ) : Prop where
  chars : ∀ i < len, mem (p + UInt32.ofNat i) ≠ 0
  nul : mem (p + UInt32.ofNat len) = 0

/-- The address space has no room for a longer text. -/
lemma TextAt.lt {mem : Memory} {p : UInt32} {len : ℕ} (h : TextAt mem p len) : len < 2 ^ 32 := by
  by_contra hle
  have hwrapped := h.chars (len % 2 ^ 32) (by omega)
  rw [UInt32.ofNat_mod_size] at hwrapped
  exact hwrapped h.nul

/-- The copy of a text of `len` characters at `s` begins inside it, behind its first character:
what is still to be read is overwritten. -/
def Overtakes (d s : UInt32) (len : ℕ) : Prop := 0 < (d - s).toNat ∧ (d - s).toNat ≤ len

/-- As long as no NUL is read, the loop copies. -/
lemma copyText_of_ne {mem : Memory} {d s : UInt32} {n : ℕ}
    (h : ∀ i < n, stores mem (moves d s (List.range i)) (s + UInt32.ofNat i) ≠ 0) :
    copyText mem d s n = (stores mem (moves d s (List.range n)), d + UInt32.ofNat n, 0) := by
  induction n generalizing mem d s with
  | zero =>
    rw [copyText, show UInt32.ofNat 0 = 0 from rfl, UInt32.add_zero]
    rfl
  | succ n ih =>
    have hfirst := h 0 n.succ_pos
    rw [stores_moves_zero] at hfirst
    rw [copyText, if_neg hfirst, ih, stores_moves_head, add_ofNat_succ]
    intro i hi
    rw [← add_ofNat_succ, ← stores_moves_head]
    exact h (i + 1) (by omega)

/-- The loop ends at the first NUL, which it has copied but not counted. -/
lemma copyText_of_nul {mem : Memory} {d s : UInt32} {n len : ℕ} (hlen : len < n)
    (h : ∀ i < len, stores mem (moves d s (List.range i)) (s + UInt32.ofNat i) ≠ 0)
    (hnul : stores mem (moves d s (List.range len)) (s + UInt32.ofNat len) = 0) :
    copyText mem d s n =
      (stores mem (moves d s (List.range (len + 1))), d + UInt32.ofNat (len + 1), n - len) := by
  obtain ⟨n, rfl⟩ : ∃ k, n = k + 1 := ⟨n - 1, by omega⟩
  induction len generalizing mem d s n with
  | zero =>
    rw [stores_moves_zero] at hnul
    rw [copyText, if_pos hnul, stores_moves_head]
    rfl
  | succ len ih =>
    obtain ⟨n, rfl⟩ : ∃ k, n = k + 1 := ⟨n - 1, by omega⟩
    have hfirst := h 0 len.succ_pos
    rw [stores_moves_zero] at hfirst
    rw [copyText, if_neg hfirst, ih, stores_moves_head mem d s (len + 1),
      add_ofNat_succ d (len + 1), Nat.succ_sub_succ]
    · intro i hi
      rw [← add_ofNat_succ, ← stores_moves_head]
      exact h (i + 1) (by omega)
    · rw [← add_ofNat_succ, ← stores_moves_head]
      exact hnul
    · omega

/-- A copy that does not overtake the text reads it as it was. -/
lemma ne_of_not_overtakes {d s : UInt32} {len : ℕ} (h : ¬ Overtakes d s len) (hlen : len < 2 ^ 32)
    {i j : ℕ} (hi : i ≤ len) (hj : j < i) : s + UInt32.ofNat i ≠ d + UInt32.ofNat j := by
  rw [Overtakes] at h
  have hd := (d - s).toNat_lt
  rw [Ne, add_ofNat_eq_iff d s (by omega) (by omega)]
  omega

lemma stores_moves_ahead {mem : Memory} {d s : UInt32} {len : ℕ} (h : ¬ Overtakes d s len)
    (hlen : len < 2 ^ 32) {i : ℕ} (hi : i ≤ len) :
    stores mem (moves d s (List.range i)) (s + UInt32.ofNat i) = mem (s + UInt32.ofNat i) :=
  stores_moves_of_ne mem fun _ hj => ne_of_not_overtakes h hlen hi (List.mem_range.mp hj)

/-- A copy to a place ahead repeats what lies between the two. -/
lemma stores_moves_repeat (mem : Memory) {d s : UInt32} (h : 0 < (d - s).toNat) {n : ℕ}
    (hn : n < 2 ^ 32) :
    (∀ i < n, stores mem (moves d s (List.range n)) (d + UInt32.ofNat i) =
        mem (s + UInt32.ofNat (i % (d - s).toNat))) ∧
      stores mem (moves d s (List.range n)) (s + UInt32.ofNat n) =
        mem (s + UInt32.ofNat (n % (d - s).toNat)) := by
  have hd := (d - s).toNat_lt
  -- the byte read next, when those before it have been copied
  have hread {n : ℕ} (hn : n < 2 ^ 32)
      (hcopied : ∀ i < n, stores mem (moves d s (List.range n)) (d + UInt32.ofNat i) =
        mem (s + UInt32.ofNat (i % (d - s).toNat))) :
      stores mem (moves d s (List.range n)) (s + UInt32.ofNat n) =
        mem (s + UInt32.ofNat (n % (d - s).toNat)) := by
    by_cases hlt : n < (d - s).toNat
    · rw [Nat.mod_eq_of_lt hlt]
      refine stores_moves_of_ne mem fun j hj => ?_
      have hj := List.mem_range.mp hj
      rw [Ne, add_ofNat_eq_iff d s hn (by omega)]
      omega
    · have hplace : s + UInt32.ofNat n = d + UInt32.ofNat (n - (d - s).toNat) := by
        rw [add_ofNat_eq_iff d s hn (by omega)]
        omega
      rw [hplace, hcopied _ (by omega), Nat.mod_eq_sub_mod (Nat.not_lt.mp hlt)]
  suffices hcopied : ∀ i < n, stores mem (moves d s (List.range n)) (d + UInt32.ofNat i) =
      mem (s + UInt32.ofNat (i % (d - s).toNat)) from ⟨hcopied, hread hn hcopied⟩
  induction n with
  | zero => exact fun i hi => absurd hi (Nat.not_lt_zero i)
  | succ n ih =>
    have ih := ih (by omega)
    intro i hi
    rw [stores_moves_last]
    rcases Nat.lt_or_eq_of_le (Nat.lt_succ_iff.mp hi) with hlt | rfl
    · rw [Function.update_of_ne (mt (add_ofNat_inj d (by omega) (by omega)).mp (by omega))]
      exact ih i hlt
    · rw [Function.update_self]
      exact hread (by omega) ih

/-- The memory `mem'` is `mem` with a text of `len` characters copied from `src` to the `n` bytes at
`dst`: its first `n` characters, then NUL bytes, and nothing from `dst + n` on. -/
structure TextCopied (mem mem' : Memory) (dst src n : UInt32) (len : ℕ) : Prop where
  text : ∀ i < n.toNat,
    mem' (dst + UInt32.ofNat i) = if i < len then mem (src + UInt32.ofNat i) else 0
  frame : ∀ a, (∀ i < n.toNat, a ≠ dst + UInt32.ofNat i) → mem' a = mem a

/-- A text that fills its field. -/
lemma strncpy_of_le {mem : Memory} {dst src n : UInt32} {len : ℕ} (htext : TextAt mem src len)
    (hlen : n.toNat ≤ len) (hapart : ¬ Overtakes dst src len) :
    TextCopied mem (strncpy mem dst src n).1 dst src n len := by
  have hrun : (strncpy mem dst src n).1 = stores mem (moves dst src (List.range n.toNat)) := by
    rw [strncpy, copyText_of_ne]
    · rfl
    · intro i hi
      rw [stores_moves_ahead hapart htext.lt (by omega)]
      exact htext.chars i (by omega)
  have hcopy := stores_moves mem (d := dst) (s := src) n.toNat_lt.le (fun i => List.mem_range)
    List.nodup_range (List.pairwise_lt_range.imp_of_mem fun {i j} hi hj hij =>
      ne_of_not_overtakes hapart htext.lt ((List.mem_range.mp hj).le.trans hlen) hij)
  rw [hrun]
  refine ⟨fun i hi => ?_, hcopy.2⟩
  rw [hcopy.1 i hi, if_pos (by omega)]

/-- A shorter text: `n + 1` bytes are written. -/
lemma strncpy_of_lt {mem : Memory} {dst src n : UInt32} {len : ℕ} (htext : TextAt mem src len)
    (hlen : len < n.toNat) (hapart : ¬ Overtakes dst src len) :
    (∀ i ≤ n.toNat, (strncpy mem dst src n).1 (dst + UInt32.ofNat i) =
        if i < len then mem (src + UInt32.ofNat i) else 0) ∧
      ∀ a, (∀ i ≤ n.toNat, a ≠ dst + UInt32.ofNat i) → (strncpy mem dst src n).1 a = mem a := by
  have hn := n.toNat_lt
  -- the offsets that the second loop clears
  let tail := (List.range (n.toNat - len)).map (· + (len + 1))
  have htail (i : ℕ) : i ∈ tail ↔ len + 1 ≤ i ∧ i ≤ n.toNat := by
    simp only [tail, List.mem_map, List.mem_range]
    exact ⟨fun ⟨k, hk, hik⟩ => by omega, fun hi => ⟨i - (len + 1), by omega, by omega⟩⟩
  have hrun : (strncpy mem dst src n).1 =
      stores (stores mem (moves dst src (List.range (len + 1)))) (clears dst tail) := by
    rw [strncpy, copyText_of_nul hlen, clears_map_add, ← fillNul_eq]
    · intro i hi
      rw [stores_moves_ahead hapart htext.lt hi.le]
      exact htext.chars i hi
    · rw [stores_moves_ahead hapart htext.lt (Nat.le_refl len)]
      exact htext.nul
  -- what the first loop copies, and what the second leaves of it
  obtain ⟨hcopied, hrest⟩ := stores_moves mem (d := dst) (s := src) (n := len + 1) (by omega)
    (fun i => List.mem_range) List.nodup_range
    (List.pairwise_lt_range.imp_of_mem fun {i j} _ hj hij =>
      ne_of_not_overtakes hapart htext.lt (Nat.lt_succ_iff.mp (List.mem_range.mp hj)) hij)
  obtain ⟨hcleared, hkept⟩ := stores_clears
    (stores mem (moves dst src (List.range (len + 1)))) (d := dst) (l := tail)
    (fun i hi => by have := (htail i).mp hi; omega)
    (List.nodup_range.map fun i j h => Nat.add_right_cancel h)
  rw [hrun]
  constructor
  · intro i hi
    by_cases hlt : i < len + 1
    · rw [hkept, hcopied i hlt]
      · split_ifs with hi'
        · rfl
        · rw [show i = len by omega, htext.nul]
      · intro j hj
        have hj := (htail j).mp hj
        exact mt (add_ofNat_inj dst (by omega) (by omega)).mp (by omega)
    · rw [hcleared i ((htail i).mpr (by omega)), if_neg (by omega)]
  · intro a ha
    rw [hkept a fun j hj => ha j ((htail j).mp hj).2, hrest a fun j hj => ha j (by omega)]

/-- A copy that overtakes the text never meets its terminator. What it repeats is the text when the
text repeats itself. -/
lemma strncpy_of_overtakes {mem : Memory} {dst src n : UInt32} {len : ℕ}
    (htext : TextAt mem src len) (hover : Overtakes dst src len) :
    TextCopied mem (strncpy mem dst src n).1 dst src n len ↔
      n.toNat ≤ len ∧ ∀ i < n.toNat,
        mem (src + UInt32.ofNat i) = mem (src + UInt32.ofNat (i % (dst - src).toNat)) := by
  obtain ⟨hpos, hle⟩ := hover
  have hn := n.toNat_lt
  have hchar (i : ℕ) : mem (src + UInt32.ofNat (i % (dst - src).toNat)) ≠ 0 :=
    htext.chars _ ((Nat.mod_lt i hpos).trans_le hle)
  have hrun : (strncpy mem dst src n).1 = stores mem (moves dst src (List.range n.toNat)) := by
    rw [strncpy, copyText_of_ne]
    · rfl
    · intro i hi
      rw [(stores_moves_repeat mem hpos (by omega)).2]
      exact hchar i
  have hcopied := (stores_moves_repeat mem hpos hn).1
  rw [hrun]
  constructor
  · intro h
    have hfull : n.toNat ≤ len := by
      by_contra hlt
      have hend := h.text len (Nat.not_le.mp hlt)
      rw [hcopied len (Nat.not_le.mp hlt), if_neg (Nat.lt_irrefl len)] at hend
      exact hchar len hend
    refine ⟨hfull, fun i hi => ?_⟩
    have hi' := h.text i hi
    rw [hcopied i hi, if_pos (by omega)] at hi'
    exact hi'.symm
  · rintro ⟨hfull, hrepeats⟩
    refine ⟨fun i hi => ?_, fun a ha => ?_⟩
    · rw [hcopied i hi, if_pos (by omega), hrepeats i hi]
    · exact stores_moves_of_ne mem fun i hi => ha i (List.mem_range.mp hi)

/-- `strncpy` does what it is to do when the text fills the field, and repeats itself if the copy
overtakes it, or when the byte after the field, which it clears, was NUL already and the copy does
not overtake the text. -/
theorem strncpy_copied_iff {mem : Memory} {dst src n : UInt32} {len : ℕ}
    (htext : TextAt mem src len) :
    TextCopied mem (strncpy mem dst src n).1 dst src n len ↔
      (n.toNat ≤ len ∧ (Overtakes dst src len → ∀ i < n.toNat,
        mem (src + UInt32.ofNat i) = mem (src + UInt32.ofNat (i % (dst - src).toNat)))) ∨
      (¬ Overtakes dst src len ∧ mem (dst + n) = 0) := by
  by_cases hover : Overtakes dst src len
  · rw [strncpy_of_overtakes htext hover]
    simp only [hover, not_true_eq_false, false_and, or_false, true_imp_iff]
  · simp only [hover, not_false_eq_true, true_and, false_imp_iff, and_true]
    by_cases hlen : n.toNat ≤ len
    · exact iff_of_true (strncpy_of_le htext hlen hover) (.inl hlen)
    · obtain ⟨hwritten, hframe⟩ := strncpy_of_lt htext (Nat.not_le.mp hlen) hover
      have hend : dst + UInt32.ofNat n.toNat = dst + n := by rw [UInt32.ofNat_toNat]
      have hlast : (strncpy mem dst src n).1 (dst + n) = 0 := by
        rw [← hend, hwritten n.toNat (Nat.le_refl _), if_neg (by omega)]
      constructor
      · intro h
        refine .inr ((h.frame (dst + n) fun i hi => ?_).symm.trans hlast)
        rw [← hend]
        exact mt (add_ofNat_inj dst n.toNat_lt (hi.trans n.toNat_lt)).mp (Nat.ne_of_gt hi)
      · intro h
        have hnul := h.resolve_left hlen
        refine ⟨fun i hi => hwritten i (Nat.le_of_lt hi), fun a ha => ?_⟩
        by_cases hlast' : a = dst + n
        · rw [hlast', hlast, hnul]
        · refine hframe a fun i hi => ?_
          rcases Nat.lt_or_eq_of_le hi with hi | rfl
          · exact ha i hi
          · rwa [hend]

/-- An empty text copied to a field of one byte clears the byte after the field. -/
theorem strncpy_overruns :
    TextAt addressBytes 0 0 ∧
      ¬ TextCopied addressBytes (strncpy addressBytes 512 0 1).1 512 0 1 0 := by
  refine ⟨⟨by decide, by decide⟩, fun h => ?_⟩
  have hkept : (strncpy addressBytes 512 0 1).1 513 = addressBytes 513 := h.frame 513 (by decide)
  exact absurd hkept (by decide)

/-- A text of three characters copied to a field of two bytes. -/
theorem strncpy_copied_iff_full :
    TextCopied addressBytes (strncpy addressBytes 512 253 2).1 512 253 2 3 ↔
      ((2 : UInt32).toNat ≤ 3 ∧ (Overtakes 512 253 3 → ∀ i < (2 : UInt32).toNat,
        addressBytes (253 + UInt32.ofNat i) =
          addressBytes (253 + UInt32.ofNat (i % (512 - 253 : UInt32).toNat)))) ∨
      (¬ Overtakes 512 253 3 ∧ addressBytes (512 + 2) = 0) :=
  strncpy_copied_iff ⟨by decide, by decide⟩

end EcuTelemetry.Lm3s
