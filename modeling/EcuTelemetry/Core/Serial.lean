import Mathlib.Data.List.Basic
import Mathlib.Tactic.Common

/-!
# A device behind a mutex

A device takes items one at a time. Several parties write messages to it: a party takes the mutex
that guards the device, puts the items of its message one after the other, and gives the mutex back.
The parties take their steps in any order. What the device has received is then the messages in the
order in which the mutex was taken, each whole, and the part of the last one that is written.
-/

namespace EcuTelemetry.Core

/-- What the device has received, and the holder of the mutex with what it still has to put. -/
structure Serial (ι α : Type*) where
  out : List α
  holder : Option (ι × List α)
  deriving DecidableEq

namespace Serial

variable {ι α : Type*}

/-- A party begins with a message, or is done with it. -/
inductive Event (ι α : Type*) where
  | began (i : ι) (text : List α)
  | ended (i : ι)
  deriving DecidableEq

/-- The device before anything is written. -/
def start : Serial ι α := ⟨[], none⟩

/-- A step of party `i`, which has `text` to write: take the mutex if it is free, put the next item,
or give the mutex back. A party that finds the mutex taken waits. -/
def write [DecidableEq ι] (s : Serial ι α) (i : ι) (text : List α) :
    Serial ι α × List (Event ι α) :=
  match s.holder with
  | none                   => ({ s with holder := some (i, text) }, [.began i text])
  | some (j, [])           => if j = i then ({ s with holder := none }, [.ended i]) else (s, [])
  | some (j, item :: rest) =>
    if j = i then (⟨s.out ++ [item], some (i, rest)⟩, []) else (s, [])

/-- The messages begun, each with its party, in order. -/
def begun (log : List (Event ι α)) : List (ι × List α) :=
  log.flatMap fun
    | .began i text => [(i, text)]
    | .ended _      => []

@[simp] lemma begun_nil : begun ([] : List (Event ι α)) = [] := rfl

@[simp] lemma begun_append (log log' : List (Event ι α)) :
    begun (log ++ log') = begun log ++ begun log' := List.flatMap_append

/-- The device has received the messages begun, each whole, but for what the holder of the mutex
still has to put. -/
structure Whole (s : Serial ι α) (log : List (Event ι α)) : Prop where
  free : s.holder = none → s.out = ((begun log).map Prod.snd).flatten
  held : ∀ i rest, s.holder = some (i, rest) → ∃ done written,
    begun log = done ++ [(i, written ++ rest)] ∧ s.out = (done.map Prod.snd).flatten ++ written

lemma whole_start : Whole (start : Serial ι α) [] :=
  ⟨fun _ => rfl, fun i rest h => by simp [start] at h⟩

variable [DecidableEq ι] {s : Serial ι α} {log : List (Event ι α)}

/-- A party is done in the step in which it gives the mutex back. -/
lemma ended_mem_write {i : ι} {text : List α} :
    .ended i ∈ (s.write i text).2 ↔ s.holder = some (i, []) := by
  cases hs : s.holder with
  | none => simp [write, hs]
  | some held =>
    obtain ⟨j, rest⟩ := held
    cases rest with
    | nil => by_cases hj : j = i <;> simp [write, hs, hj]
    | cons item rest => by_cases hj : j = i <;> simp [write, hs, hj]

lemma write_done {i : ι} (h : s.holder = some (i, [])) (text : List α) :
    s.write i text = (⟨s.out, none⟩, [.ended i]) := by
  simp [write, h]

/-- The party that holds the mutex. -/
def party (s : Serial ι α) : Option ι := s.holder.map Prod.fst

/-- A party that is not done takes the free mutex, or leaves it where it is. -/
lemma write_cases {i : ι} (text : List α) (h : s.holder ≠ some (i, [])) :
    (s.holder = none ∧
        s.write i text = ({ s with holder := some (i, text) }, [.began i text])) ∨
      (s.write i text).1.party = s.party ∧ (s.write i text).2 = [] := by
  cases hs : s.holder with
  | none => exact .inl ⟨rfl, by simp [write, hs]⟩
  | some held =>
    obtain ⟨j, rest⟩ := held
    refine .inr ?_
    cases rest with
    | nil =>
      have hj : j ≠ i := fun hj => h (by rw [hs, hj])
      simp [write, party, hs, hj]
    | cons item rest => by_cases hj : j = i <;> simp [write, party, hs, hj]

/-- Every step of every party keeps messages whole. -/
lemma Whole.write (h : Whole s log) (i : ι) (text : List α) :
    Whole (s.write i text).1 (log ++ (s.write i text).2) := by
  cases hs : s.holder with
  | none =>
    have hout := h.free hs
    simp only [Serial.write, hs]
    refine ⟨fun hn => by simp at hn, fun j rest hj => ?_⟩
    obtain ⟨rfl, rfl⟩ : i = j ∧ text = rest := by simpa using hj
    exact ⟨begun log, [], by simp [begun], by simpa using hout⟩
  | some held =>
    obtain ⟨j, rest⟩ := held
    obtain ⟨done, written, hbegun, hout⟩ := h.held j rest hs
    by_cases hj : j = i
    · subst hj
      cases rest with
      | nil =>
        simp only [Serial.write, hs, if_true]
        refine ⟨fun _ => ?_, fun k rest hk => by simp at hk⟩
        have hnone : begun ([.ended j] : List (Event ι α)) = [] := rfl
        rw [begun_append, hbegun, hnone]
        simp [hout]
      | cons item rest =>
        simp only [Serial.write, hs, if_true, List.append_nil]
        refine ⟨fun hn => by simp at hn, fun k rest' hk => ?_⟩
        obtain ⟨rfl, rfl⟩ : j = k ∧ rest = rest' := by simpa using hk
        exact ⟨done, written ++ [item], by simpa using hbegun, by simp [hout]⟩
    · cases rest <;> simpa [Serial.write, hs, hj] using h

end Serial

end EcuTelemetry.Core
