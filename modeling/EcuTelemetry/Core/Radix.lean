import Mathlib.Data.List.Basic
import Mathlib.Tactic.Common

/-!
# Numerals in a base up to sixteen

A numeral is a string of digits, most significant first, with lower case letters for the digits from
ten on. `decode` reads one back. The digits Lean prints are the numeral of their number, without a
zero in front (`isNumeral_toDigits`).
-/

namespace EcuTelemetry.Core.Radix

/-- The value of a digit. -/
def digitValue (c : Char) : Option ℕ :=
  if '0' ≤ c ∧ c ≤ '9' then some (c.toNat - '0'.toNat)
  else if 'a' ≤ c ∧ c ≤ 'f' then some (c.toNat - 'a'.toNat + 10)
  else none

/-- The value of a numeral `n` with one more digit, in base `b`. -/
def readDigit (b n : ℕ) (c : Char) : Option ℕ := do
  let d ← digitValue c
  if d < b then some (b * n + d) else none

/-- The value of a numeral in base `b`. -/
def decode (b : ℕ) (s : List Char) : Option ℕ :=
  if s = [] then none else s.foldlM (readDigit b) 0

/-- `s` is the numeral of `n` in base `b`, without a superfluous zero in front. -/
structure IsNumeral (b n : ℕ) (s : List Char) : Prop where
  decodes : decode b s = some n
  canonical : s.head? = some '0' → s = ['0']

variable {b n : ℕ}

/-- The digits of a number are digits of its base. -/
lemma exists_digitChar (hlo : 1 < b) {c : Char} (hc : c ∈ Nat.toDigits b n) :
    ∃ d < b, c = d.digitChar := by
  induction n using Nat.strongRecOn generalizing c with
  | ind n ih =>
    rcases Nat.lt_or_ge n b with hlt | hge
    · rw [Nat.toDigits_of_lt_base hlt] at hc
      exact ⟨n, hlt, List.mem_singleton.mp hc⟩
    · rw [Nat.toDigits_of_base_le hlo hge] at hc
      rcases List.mem_append.mp hc with hc | hc
      · exact ih _ (Nat.div_lt_self (Nat.zero_lt_of_lt (Nat.lt_of_lt_of_le hlo hge)) hlo) hc
      · exact ⟨n % b, Nat.mod_lt _ (Nat.zero_lt_of_lt hlo), List.mem_singleton.mp hc⟩

lemma digitValue_digitChar {d : ℕ} (h : d < 16) : digitValue d.digitChar = some d := by
  have hall : ∀ d < 16, digitValue (Nat.digitChar d) = some d := by decide
  exact hall d h

lemma readDigit_digitChar {d : ℕ} (hd : d < b) (hb : b ≤ 16) (n : ℕ) :
    readDigit b n d.digitChar = some (b * n + d) := by
  rw [readDigit, digitValue_digitChar (Nat.lt_of_lt_of_le hd hb)]
  exact if_pos hd

/-- The digits of a number are read as the number. -/
lemma foldlM_toDigits (hlo : 1 < b) (hhi : b ≤ 16) (n : ℕ) :
    (Nat.toDigits b n).foldlM (readDigit b) 0 = some n := by
  induction n using Nat.strongRecOn with
  | ind n ih =>
    rcases Nat.lt_or_ge n b with hlt | hge
    · rw [Nat.toDigits_of_lt_base hlt, List.foldlM_cons, readDigit_digitChar hlt hhi, Nat.mul_zero,
        Nat.zero_add]
      rfl
    · have hpos : 0 < b := Nat.zero_lt_of_lt hlo
      rw [Nat.toDigits_of_base_le hlo hge, List.foldlM_append,
        ih (n / b) (Nat.div_lt_self (Nat.lt_of_lt_of_le hpos hge) hlo)]
      simp only [List.foldlM_cons, List.foldlM_nil, Option.bind_eq_bind, Option.bind_some,
        readDigit_digitChar (Nat.mod_lt n hpos) hhi, Nat.div_add_mod, Option.pure_def]

/-- A positive number does not begin with a zero. -/
lemma head?_toDigits (hlo : 1 < b) (hhi : b ≤ 16) (hn : 0 < n) :
    (Nat.toDigits b n).head? ≠ some '0' := by
  induction n using Nat.strongRecOn with
  | ind n ih =>
    rcases Nat.lt_or_ge n b with hlt | hge
    · rw [Nat.toDigits_of_lt_base hlt]
      have hall : ∀ d < 16, 0 < d → [Nat.digitChar d].head? ≠ some '0' := by decide
      exact hall n (Nat.lt_of_lt_of_le hlt hhi) hn
    · rw [Nat.toDigits_of_base_le hlo hge,
        List.head?_append_of_ne_nil _ Nat.toDigits_ne_nil]
      exact ih (n / b) (Nat.div_lt_self hn hlo) (Nat.div_pos hge (Nat.zero_lt_of_lt hlo))

theorem isNumeral_toDigits (hlo : 1 < b) (hhi : b ≤ 16) (n : ℕ) :
    IsNumeral b n (Nat.toDigits b n) := by
  constructor
  · rw [decode, if_neg Nat.toDigits_ne_nil, foldlM_toDigits hlo hhi]
  · intro hzero
    rcases Nat.eq_zero_or_pos n with rfl | hpos
    · exact Nat.toDigits_of_lt_base (Nat.zero_lt_of_lt hlo)
    · exact absurd hzero (head?_toDigits hlo hhi hpos)

end EcuTelemetry.Core.Radix
