import Mathlib.Data.List.Basic
import Mathlib.Tactic.Common

/-!
# Bounded FIFO lists

The abstract queue: a list of at most `cap` items, oldest first. An offer to a full queue is
refused and changes nothing, a removal takes the oldest item, and clearing leaves the empty list.
-/

namespace EcuTelemetry.Core.BoundedFifo

variable {α : Type*}

/-- Offer `x` to a queue of capacity `cap`: the new contents, and whether `x` was taken. -/
def push (cap : ℕ) (xs : List α) (x : α) : List α × Bool :=
  if xs.length < cap then (xs ++ [x], true) else (xs, false)

lemma push_of_lt {cap : ℕ} {xs : List α} (h : xs.length < cap) (x : α) :
    push cap xs x = (xs ++ [x], true) := if_pos h

lemma push_of_le {cap : ℕ} {xs : List α} (h : cap ≤ xs.length) (x : α) :
    push cap xs x = (xs, false) := if_neg (Nat.not_lt.mpr h)

/-- A queue after an offer holds what it held and perhaps the item offered. -/
lemma forall_mem_push {P : α → Prop} {xs : List α} {x : α} (h : ∀ y ∈ xs, P y) (hx : P x)
    (cap : ℕ) : ∀ y ∈ (push cap xs x).1, P y := by
  rw [push]
  split_ifs
  · intro y hy
    rcases List.mem_append.mp hy with hy | hy
    · exact h y hy
    · rwa [List.mem_singleton.mp hy]
  · exact h

/-- The calls a client of one queue makes. -/
inductive Call (α : Type*) where
  | push (x : α)
  | pop
  | count
  | clear
  deriving DecidableEq, Repr

/-- What a call answers. -/
inductive Reply (α : Type*) where
  | pushed (ok : Bool)
  | popped (x : α)
  | counted (n : ℕ)
  | cleared
  deriving DecidableEq, Repr

/-- One call on the abstract queue; a removal from the empty queue has no answer. -/
def call (cap : ℕ) (xs : List α) : Call α → Option (Reply α × List α)
  | .push x => some (.pushed (push cap xs x).2, (push cap xs x).1)
  | .pop    =>
    match xs with
    | []      => none
    | x :: ys => some (.popped x, ys)
  | .count  => some (.counted xs.length, xs)
  | .clear  => some (.cleared, [])

/-- A finite sequence of calls: the answers in order and the final contents. -/
def calls (cap : ℕ) (xs : List α) : List (Call α) → Option (List (Reply α) × List α)
  | []      => some ([], xs)
  | c :: cs => do
    let (r, ys) ← call cap xs c
    let (rs, zs) ← calls cap ys cs
    return (r :: rs, zs)

end EcuTelemetry.Core.BoundedFifo
