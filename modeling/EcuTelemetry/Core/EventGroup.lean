import Mathlib.Data.Finset.Basic
import Mathlib.Data.Finset.SDiff

/-!
# FreeRTOS event groups

An event group is a set of bits. A task may wait until every bit of a mask is set, clearing the
mask when the wait is satisfied; the bits are then cleared by the very call that sets the last of
them. A wait that times out returns the bits as they are and clears none. One waiting task is
enough here.
-/

namespace EcuTelemetry.Core

variable {ι : Type*} [DecidableEq ι]

/-- The waiting task: none, one that waits for a mask, or one whose wait has returned. -/
inductive Waiter (ι : Type*) where
  | none
  | blocked (mask : Finset ι)
  | released (bits : Finset ι)
  deriving DecidableEq

/-- The bits of a group and its waiting task. -/
structure EventGroup (ι : Type*) where
  bits : Finset ι
  waiter : Waiter ι
  deriving DecidableEq

namespace EventGroup

/-- `xEventGroupSetBits`. -/
def setBits (g : EventGroup ι) (s : Finset ι) : EventGroup ι :=
  match g.waiter with
  | .blocked mask =>
    if mask ⊆ g.bits ∪ s then ⟨(g.bits ∪ s) \ mask, .released (g.bits ∪ s)⟩
    else { g with bits := g.bits ∪ s }
  | _ => { g with bits := g.bits ∪ s }

/-- `xEventGroupClearBits`. -/
def clearBits (g : EventGroup ι) (s : Finset ι) : EventGroup ι := { g with bits := g.bits \ s }

/-- The call of `xEventGroupWaitBits` with clear-on-exit and wait-for-all. -/
def waitBits (g : EventGroup ι) (mask : Finset ι) : EventGroup ι :=
  if mask ⊆ g.bits then ⟨g.bits \ mask, .released g.bits⟩ else { g with waiter := .blocked mask }

/-- The end of the block time of a wait. -/
def timeout (g : EventGroup ι) : EventGroup ι :=
  match g.waiter with
  | .blocked _ => { g with waiter := .released g.bits }
  | _          => g

/-- The task takes the value its wait returned. -/
def collect (g : EventGroup ι) : EventGroup ι := { g with waiter := .none }

@[simp] lemma clearBits_bits (g : EventGroup ι) (s : Finset ι) :
    (g.clearBits s).bits = g.bits \ s := rfl

@[simp] lemma clearBits_waiter (g : EventGroup ι) (s : Finset ι) :
    (g.clearBits s).waiter = g.waiter := rfl

lemma setBits_of_subset {g : EventGroup ι} {mask s : Finset ι} (hw : g.waiter = .blocked mask)
    (h : mask ⊆ g.bits ∪ s) :
    g.setBits s = ⟨(g.bits ∪ s) \ mask, .released (g.bits ∪ s)⟩ := by
  simp only [setBits, hw, if_pos h]

lemma setBits_of_not_subset {g : EventGroup ι} {mask s : Finset ι}
    (hw : g.waiter = .blocked mask) (h : ¬ mask ⊆ g.bits ∪ s) :
    g.setBits s = ⟨g.bits ∪ s, .blocked mask⟩ := by
  simp only [setBits, hw, if_neg h]

/-- Setting bits never adds another bit, and a wait it satisfies returns only bits that are set. -/
lemma setBits_cases (g : EventGroup ι) (s : Finset ι) :
    (g.setBits s).bits ⊆ g.bits ∪ s ∧
      ((g.setBits s).waiter = g.waiter ∨ (g.setBits s).waiter = .released (g.bits ∪ s)) := by
  cases h : g.waiter with
  | blocked mask =>
    by_cases hm : mask ⊆ g.bits ∪ s
    · rw [setBits_of_subset h hm]
      exact ⟨Finset.sdiff_subset, .inr rfl⟩
    · rw [setBits_of_not_subset h hm]
      exact ⟨Finset.Subset.refl _, .inl rfl⟩
  | none =>
    simp only [setBits, h]
    exact ⟨Finset.Subset.refl _, .inl trivial⟩
  | released bits =>
    simp only [setBits, h]
    exact ⟨Finset.Subset.refl _, .inl trivial⟩

/-- A wait returns at once or blocks, and adds no bit. -/
lemma waitBits_cases (g : EventGroup ι) (mask : Finset ι) :
    (g.waitBits mask).bits ⊆ g.bits ∧
      ((g.waitBits mask).waiter = .released g.bits ∨ (g.waitBits mask).waiter = .blocked mask) := by
  by_cases hm : mask ⊆ g.bits
  · rw [waitBits, if_pos hm]
    exact ⟨Finset.sdiff_subset, .inl rfl⟩
  · rw [waitBits, if_neg hm]
    exact ⟨Finset.Subset.refl _, .inr rfl⟩

end EventGroup

end EcuTelemetry.Core
