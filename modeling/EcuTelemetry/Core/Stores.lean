import Mathlib.Data.List.Basic
import Mathlib.Logic.Function.Basic
import Mathlib.Tactic.Common

/-!
# Sequences of stores

A memory is a function from addresses to values. A loop that copies or fills memory performs a list
of stores, each of a given value or of the value that another address holds at that moment. When no
store disturbs a later one, by writing where the later one writes or reads, every store leaves at
its address what it would have stored at first (`stores_apply`), however the addresses overlap.
-/

namespace EcuTelemetry.Core

variable {A V : Type*}

/-- One store to memory. -/
inductive Store (A V : Type*) where
  | put (dst : A) (value : V)
  | move (dst src : A)

namespace Store

/-- The address written. -/
def dst : Store A V → A
  | put d _  => d
  | move d _ => d

/-- The value written, from a memory. -/
def value (m : A → V) : Store A V → V
  | put _ v  => v
  | move _ s => m s

/-- The store reads the address `a`. -/
def Reads (a : A) : Store A V → Prop
  | put _ _  => False
  | move _ s => s = a

/-- The store `t` after `s` writes elsewhere and does not read what `s` has written. -/
def Spares (s t : Store A V) : Prop := s.dst ≠ t.dst ∧ ¬ t.Reads s.dst

variable [DecidableEq A]

/-- The memory after the store. -/
def exec (m : A → V) (t : Store A V) : A → V := Function.update m t.dst (t.value m)

@[simp] lemma exec_put (m : A → V) (d : A) (v : V) : (put d v).exec m = Function.update m d v := rfl

@[simp] lemma exec_move (m : A → V) (d s : A) :
    (move d s).exec m = Function.update m d (m s) := rfl

lemma exec_of_ne (m : A → V) {t : Store A V} {a : A} (h : a ≠ t.dst) : t.exec m a = m a :=
  Function.update_of_ne h _ _

lemma exec_dst (m : A → V) (t : Store A V) : t.exec m t.dst = t.value m :=
  Function.update_self _ _ _

/-- A store that does not read what was written stores the same value as before. -/
lemma Spares.value_exec {s t : Store A V} (h : s.Spares t) (m : A → V) :
    t.value (s.exec m) = t.value m := by
  cases t with
  | put d v => rfl
  | move d src => exact exec_of_ne m h.2

end Store

variable [DecidableEq A]

/-- The memory after a list of stores. -/
def stores (m : A → V) (l : List (Store A V)) : A → V := l.foldl Store.exec m

@[simp] lemma stores_cons (m : A → V) (t : Store A V) (l : List (Store A V)) :
    stores m (t :: l) = stores (t.exec m) l := rfl

lemma stores_append (m : A → V) (l l' : List (Store A V)) :
    stores m (l ++ l') = stores (stores m l) l' := List.foldl_append

/-- An address that no store writes keeps its value. -/
theorem stores_of_forall_ne (m : A → V) {l : List (Store A V)} {a : A} (h : ∀ t ∈ l, a ≠ t.dst) :
    stores m l a = m a := by
  induction l generalizing m with
  | nil => rfl
  | cons t l ih =>
    rw [stores_cons, ih _ fun u hu => h u (List.mem_cons_of_mem t hu)]
    exact Store.exec_of_ne m (h t List.mem_cons_self)

/-- No store disturbs a later one: each address written ends with the value that its store takes
from the memory at the start. -/
theorem stores_apply (m : A → V) {l : List (Store A V)} (hl : l.Pairwise Store.Spares)
    {t : Store A V} (ht : t ∈ l) : stores m l t.dst = t.value m := by
  induction l generalizing m with
  | nil => exact absurd ht List.not_mem_nil
  | cons s l ih =>
    obtain ⟨hs, hl⟩ := List.pairwise_cons.mp hl
    rw [stores_cons]
    rcases List.mem_cons.mp ht with rfl | ht
    · rw [stores_of_forall_ne _ fun u hu => (hs u hu).1, Store.exec_dst]
    · rw [ih _ hl ht, (hs t ht).value_exec]

end EcuTelemetry.Core
