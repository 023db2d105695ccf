import Mathlib.Data.List.Basic
import Mathlib.Data.List.Perm.Basic

/-!
# Condition variables

Threads that wait on a condition variable for items behind a mutex. A thread sleeps until a signal,
the end of its block time or nothing at all wakes it, and has to take the mutex again before it goes
on. A signal wakes one of those asleep, whichever it likes, and is lost when there is none. The
block time of a thread may also end after it was woken: it then goes on as if the signal had not
come, and the signal is used up.

`Covers` is the rule that no other wakeup is lost: a thread sleeps only while at least as many are
awake as there are items, but for the wakeups used up. It is kept when a signal goes with every item
put, and when a thread that is awake takes at most one.
-/

namespace EcuTelemetry.Core

/-- The threads that wait: those asleep, those a signal has woken, and those whose block time has
ended. The latter have not yet taken the mutex. -/
structure Condition (ι : Type*) where
  asleep : List ι
  woken : List ι
  expired : List ι
  deriving DecidableEq

namespace Condition

variable {ι : Type*}

/-- Nobody waits. -/
def start : Condition ι := ⟨[], [], []⟩

/-- All that wait. -/
def waiting (c : Condition ι) : List ι := c.asleep ++ (c.woken ++ c.expired)

/-- A thread begins to wait. -/
def sleep (c : Condition ι) (i : ι) : Condition ι := { c with asleep := c.asleep ++ [i] }

variable [DecidableEq ι]

/-- A thread asleep is woken. -/
def wake (c : Condition ι) (i : ι) : Condition ι :=
  if i ∈ c.asleep then { c with asleep := c.asleep.erase i, woken := c.woken ++ [i] } else c

/-- A signal: it wakes one of the threads asleep, if there is one. -/
def signal (c : Condition ι) (choice : ℕ) : Condition ι :=
  match c.asleep[choice % c.asleep.length]? with
  | some i => c.wake i
  | none   => c

/-- The block time of a thread asleep ends. -/
def expire (c : Condition ι) (i : ι) : Condition ι :=
  if i ∈ c.asleep then { c with asleep := c.asleep.erase i, expired := c.expired ++ [i] } else c

/-- The block time of a thread ends after it was woken: its wakeup is used up. -/
def lapse (c : Condition ι) (i : ι) : Condition ι :=
  if i ∈ c.woken then { c with woken := c.woken.erase i, expired := c.expired ++ [i] } else c

/-- A thread that was woken goes on. -/
def resume (c : Condition ι) (i : ι) : Condition ι := { c with woken := c.woken.erase i }

/-- A thread whose block time has ended goes on. -/
def giveUp (c : Condition ι) (i : ι) : Condition ι := { c with expired := c.expired.erase i }

/-! ### Who waits -/

variable {c : Condition ι} {i : ι}

omit [DecidableEq ι] in
lemma waiting_sleep (c : Condition ι) (i : ι) : (c.sleep i).waiting.Perm (i :: c.waiting) := by
  rw [waiting, sleep, List.append_assoc]
  exact List.perm_middle

lemma waiting_wake (c : Condition ι) (i : ι) : (c.wake i).waiting.Perm c.waiting := by
  rw [wake]
  split_ifs with h
  · have herase : (i :: c.asleep.erase i).Perm c.asleep := (List.perm_cons_erase h).symm
    rw [waiting, waiting, List.append_assoc]
    exact (List.perm_middle.symm.append_left _).symm.trans <|
      List.perm_middle.trans (herase.append_right _)
  · exact List.Perm.refl _

lemma waiting_signal (c : Condition ι) (choice : ℕ) :
    (c.signal choice).waiting.Perm c.waiting := by
  rw [signal]
  split
  · exact waiting_wake c _
  · exact List.Perm.refl _

lemma waiting_expire (c : Condition ι) (i : ι) : (c.expire i).waiting.Perm c.waiting := by
  rw [expire]
  split_ifs with h
  · have herase : (i :: c.asleep.erase i).Perm c.asleep := (List.perm_cons_erase h).symm
    have hlast : (c.asleep.erase i ++ (c.woken ++ (c.expired ++ [i]))).Perm
        (i :: (c.asleep.erase i ++ (c.woken ++ c.expired))) := by
      rw [← List.append_assoc, ← List.append_assoc, ← List.append_assoc]
      exact (List.perm_append_singleton i _)
    exact hlast.trans (herase.append_right _)
  · exact List.Perm.refl _

lemma waiting_lapse (c : Condition ι) (i : ι) : (c.lapse i).waiting.Perm c.waiting := by
  rw [lapse]
  split_ifs with h
  · have herase : (i :: c.woken.erase i).Perm c.woken := (List.perm_cons_erase h).symm
    have hlast : (c.woken.erase i ++ (c.expired ++ [i])).Perm
        (i :: (c.woken.erase i ++ c.expired)) := by
      rw [← List.append_assoc]
      exact List.perm_append_singleton i _
    exact (hlast.trans (herase.append_right _)).append_left _
  · exact List.Perm.refl _

lemma waiting_resume (h : i ∈ c.woken) : (i :: (c.resume i).waiting).Perm c.waiting := by
  have herase : (i :: c.woken.erase i).Perm c.woken := (List.perm_cons_erase h).symm
  exact List.perm_middle.symm.trans ((herase.append_right _).append_left _)

lemma waiting_giveUp (h : i ∈ c.expired) : (i :: (c.giveUp i).waiting).Perm c.waiting := by
  have herase : (i :: c.expired.erase i).Perm c.expired := (List.perm_cons_erase h).symm
  exact List.perm_middle.symm.trans
    ((List.perm_middle.symm.trans (herase.append_left _)).append_left _)

/-! ### Whose block time has ended -/

@[simp] lemma expired_wake (c : Condition ι) (i : ι) : (c.wake i).expired = c.expired := by
  rw [wake]
  split_ifs <;> rfl

@[simp] lemma expired_signal (c : Condition ι) (choice : ℕ) :
    (c.signal choice).expired = c.expired := by
  rw [signal]
  split
  · exact expired_wake c _
  · rfl

lemma mem_expired_expire {j : ι} (h : j ∈ (c.expire i).expired) : j ∈ c.expired ∨ j = i := by
  rw [expire] at h
  split_ifs at h
  · simpa using h
  · exact .inl h

lemma mem_expired_lapse {j : ι} (h : j ∈ (c.lapse i).expired) : j ∈ c.expired ∨ j = i := by
  rw [lapse] at h
  split_ifs at h
  · simpa using h
  · exact .inl h

/-! ### No wakeup is lost -/

omit [DecidableEq ι] in
/-- A thread sleeps only while at least as many are awake as there are items, but for `used`
wakeups. -/
def Covers (c : Condition ι) (items used : ℕ) : Prop :=
  c.asleep ≠ [] → items ≤ c.woken.length + used

variable {n used : ℕ}

omit [DecidableEq ι] in
lemma covers_start : (start : Condition ι).Covers n used := fun h => absurd rfl h

omit [DecidableEq ι] in
/-- With fewer items the rule holds all the more. -/
lemma Covers.mono {m : ℕ} (h : c.Covers n used) (hm : m ≤ n) : c.Covers m used := by
  intro hne
  exact Nat.le_trans hm (h hne)

omit [DecidableEq ι] in
/-- A thread may go to sleep when there is no item. -/
lemma covers_sleep (c : Condition ι) (i : ι) (used : ℕ) : (c.sleep i).Covers 0 used :=
  fun _ => Nat.zero_le _

/-- A wakeup that nothing has caused does no harm. -/
lemma Covers.wake (h : c.Covers n used) (i : ι) : (c.wake i).Covers n used := by
  rw [Condition.wake]
  split_ifs with hi
  · intro _
    have hitems := h (List.ne_nil_of_mem hi)
    rw [List.length_append]
    omega
  · exact h

/-- The signal that goes with an item. -/
lemma Covers.signal (h : c.Covers n used) (choice : ℕ) : (c.signal choice).Covers (n + 1) used := by
  rw [Condition.signal]
  split
  · next i hi =>
    have hmem : i ∈ c.asleep := List.mem_of_getElem? hi
    rw [Condition.wake, if_pos hmem]
    intro _
    have hitems := h (List.ne_nil_of_mem hmem)
    rw [List.length_append, List.length_singleton]
    omega
  · next hnone =>
    -- the choice is a place in the list, unless nobody sleeps
    intro hne
    rw [List.getElem?_eq_none_iff] at hnone
    exact absurd (Nat.mod_lt choice (List.length_pos_iff.mpr hne)) (Nat.not_lt.mpr hnone)

lemma Covers.expire (h : c.Covers n used) (i : ι) : (c.expire i).Covers n used := by
  rw [Condition.expire]
  split_ifs with hi
  · exact fun _ => h (List.ne_nil_of_mem hi)
  · exact h

/-- A wakeup is used up. -/
lemma Covers.lapse (h : c.Covers n used) (i : ι) : (c.lapse i).Covers n (used + 1) := by
  rw [Condition.lapse]
  split_ifs with hi
  · intro hne
    have hlength : (c.woken.erase i).length = c.woken.length - 1 := List.length_erase_of_mem hi
    have hitems : n ≤ c.woken.length + used := h hne
    rw [hlength]
    omega
  · intro hne
    exact Nat.le_succ_of_le (h hne)

/-- A thread that was woken takes an item. -/
lemma Covers.resume (h : c.Covers (n + 1) used) (hi : i ∈ c.woken) :
    (c.resume i).Covers n used := by
  intro hne
  have hlength : (c.woken.erase i).length = c.woken.length - 1 := List.length_erase_of_mem hi
  have hpos : 0 < c.woken.length := List.length_pos_of_mem hi
  have hitems : n + 1 ≤ c.woken.length + used := h hne
  rw [Condition.resume, hlength]
  omega

lemma Covers.giveUp (h : c.Covers n used) (i : ι) : (c.giveUp i).Covers n used := h

end Condition

end EcuTelemetry.Core
