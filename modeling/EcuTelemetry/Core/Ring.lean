import Mathlib.Data.List.Basic
import Mathlib.Data.Nat.ModEq
import Mathlib.Tactic.Common

/-!
# Ring buffers

`contents slot cap head count` reads `count` slots from `head` on, wrapping at `cap`. Writing one
past the last slot appends, and stepping `head` forward drops the oldest item; both hold whether or
not the run of slots in use wraps around.
-/

namespace EcuTelemetry.Core.Ring

variable {α : Type*}

/-- The items of a ring, oldest first. -/
def contents (slot : ℕ → α) (cap head count : ℕ) : List α :=
  (List.range count).map fun i => slot ((head + i) % cap)

@[simp] lemma length_contents (slot : ℕ → α) (cap head count : ℕ) :
    (contents slot cap head count).length = count := by
  simp [contents]

/-- Two offsets below the capacity name different slots. -/
lemma index_ne {cap head i j : ℕ} (hi : i < cap) (hj : j < cap) (h : i ≠ j) :
    (head + i) % cap ≠ (head + j) % cap := by
  intro heq
  exact h (Nat.ModEq.eq_of_lt_of_lt (Nat.ModEq.add_left_cancel' head heq) hi hj)

/-- Writing the slot after the last one appends. -/
lemma contents_write {slot slot' : ℕ → α} {cap head count : ℕ} {x : α} (hc : count < cap)
    (hx : slot' ((head + count) % cap) = x)
    (hold : ∀ k, k ≠ (head + count) % cap → slot' k = slot k) :
    contents slot' cap head (count + 1) = contents slot cap head count ++ [x] := by
  unfold contents
  rw [List.range_succ, List.map_append, List.map_singleton, hx]
  congr 1
  refine List.map_congr_left fun i hi => hold _ ?_
  have hi' : i < count := List.mem_range.mp hi
  exact index_ne (Nat.lt_trans hi' hc) hc (Nat.ne_of_lt hi')

/-- The oldest item is at `head`; the rest starts at the next slot. -/
lemma contents_succ (slot : ℕ → α) {cap head : ℕ} (hh : head < cap) (count : ℕ) :
    contents slot cap head (count + 1) =
      slot head :: contents slot cap ((head + 1) % cap) count := by
  unfold contents
  rw [List.range_succ_eq_map, List.map_cons, List.map_map, Nat.add_zero, Nat.mod_eq_of_lt hh]
  congr 1
  refine List.map_congr_left fun i _ => ?_
  simp only [Function.comp_apply, Nat.mod_add_mod]
  congr 2
  omega

/-- Where the next item goes after one more has been written. -/
lemma tail_write (cap head count : ℕ) :
    ((head + count) % cap + 1) % cap = (head + (count + 1)) % cap := by
  rw [Nat.mod_add_mod, Nat.add_assoc]

/-- The write position is unchanged when the oldest item is dropped. -/
lemma tail_drop (cap head count : ℕ) :
    (head + (count + 1)) % cap = ((head + 1) % cap + count) % cap := by
  rw [Nat.mod_add_mod]
  congr 1
  omega

end EcuTelemetry.Core.Ring
