import Mathlib.Data.Nat.Sqrt
import Mathlib.Tactic.Common
import Mathlib.Tactic.Linarith

/-!
# Checked machine arithmetic

The arithmetic of a fixed-width program, carried out in the integers and checked against the range
of the type of each operation: a result outside the range, unsigned or signed, is a trap, and so is
a division by zero. A computation that ends without a trap has the same value in the integers and in
the machine.
-/

namespace EcuTelemetry.Core.Checked

/-- What goes wrong in an operation. -/
inductive Trap where
  | overflow
  | divByZero
  deriving DecidableEq, Repr

/-- The result `x` of an operation at the signed type of width `w`. -/
def signed (w : ℕ) (x : ℤ) : Except Trap ℤ :=
  if -2 ^ (w - 1) ≤ x ∧ x < 2 ^ (w - 1) then .ok x else .error .overflow

/-- The result `x` of an operation at the unsigned type of width `w`. -/
def unsigned (w : ℕ) (x : ℤ) : Except Trap ℕ :=
  if 0 ≤ x ∧ x < 2 ^ w then .ok x.toNat else .error .overflow

/-- Unsigned division. -/
def quotient (n d : ℕ) : Except Trap ℕ := if d = 0 then .error .divByZero else .ok (n / d)

-- the brackets keep `simp` from using this by unfolding, which would evaluate the ranges
@[simp] lemma ok_bind {α β : Type} (a : α) (f : α → Except Trap β) :
    (Except.ok a >>= f) = f a := (rfl)

lemma signed_ok {w : ℕ} {x : ℤ} (h : -2 ^ (w - 1) ≤ x ∧ x < 2 ^ (w - 1)) : signed w x = .ok x :=
  if_pos h

lemma unsigned_ok {w n : ℕ} (h : n < 2 ^ w) : unsigned w n = .ok n := by
  have hn : (n : ℤ) < 2 ^ w := by exact_mod_cast h
  rw [unsigned, if_pos ⟨Int.natCast_nonneg n, hn⟩, Int.toNat_natCast]

lemma unsigned_ok_of_nonneg {w : ℕ} {x : ℤ} (h : 0 ≤ x ∧ x < 2 ^ w) :
    unsigned w x = .ok x.toNat := if_pos h

lemma quotient_ok (n : ℕ) {d : ℕ} (h : 0 < d) : quotient n d = .ok (n / d) := if_neg h.ne'

/-! ### Words -/

/-- A small word is itself as a signed number. -/
lemma toInt_toInt32_of_lt {x : UInt32} (h : x.toNat < 2 ^ 31) : x.toInt32.toInt = x.toNat := by
  have hx : x.toInt32.toInt = (x.toNat : ℤ).bmod (2 ^ 32) := BitVec.toInt_eq_toNat_bmod _
  rw [hx]
  exact Int.bmod_eq_of_le (by omega) (by omega)

/-- The low bits of a word are a small number. -/
lemma toInt_lowBits (x : UInt32) {mask : UInt32} {n : ℕ} (hn : n ≤ 31)
    (hmask : mask.toNat < 2 ^ n) :
    0 ≤ (x &&& mask).toInt32.toInt ∧ (x &&& mask).toInt32.toInt < 2 ^ n := by
  have hlt : (x &&& mask).toNat < 2 ^ n := by
    rw [UInt32.toNat_and]
    exact Nat.and_lt_two_pow _ hmask
  rw [toInt_toInt32_of_lt (hlt.trans_le (Nat.pow_le_pow_right (by decide) hn))]
  exact ⟨Int.natCast_nonneg _, by exact_mod_cast hlt⟩

lemma int16_lt_zero_iff (x : Int16) : x < 0 ↔ x.toInt < 0 := by
  rw [Int16.lt_iff_toInt_lt, Int16.toInt_zero]

lemma int32_lt_zero_iff (x : Int32) : x < 0 ↔ x.toInt < 0 := by
  rw [Int32.lt_iff_toInt_lt, Int32.toInt_zero]

/-- The word of a signed value's magnitude, the least value included. -/
lemma toNat_magnitude (value : Int32) :
    (if value < 0 then (-value).toUInt32 else value.toUInt32).toNat = value.toInt.natAbs := by
  have hint : value.toInt = if 2 * value.toUInt32.toNat < 2 ^ 32 then (value.toUInt32.toNat : ℤ)
      else (value.toUInt32.toNat : ℤ) - 2 ^ 32 := BitVec.toInt_eq_toNat_cond _
  have hneg : (-value).toUInt32.toNat = (2 ^ 32 - value.toUInt32.toNat) % 2 ^ 32 :=
    BitVec.toNat_neg _
  have hlt := value.toUInt32.toNat_lt
  by_cases h : value < 0
  · have h0 := (int32_lt_zero_iff value).mp h
    rw [if_pos h]
    omega
  · have h0 := mt (int32_lt_zero_iff value).mpr h
    rw [if_neg h]
    omega

/-! ### Newton's iteration for the square root -/

/-- One step of the iteration for the root of `n`, from `x`. -/
def newton (n x : ℕ) : ℕ := (x + n / x) / 2

/-- A step never falls below the root. -/
lemma lt_newton_succ_sq (n : ℕ) {x : ℕ} (hx : 0 < x) :
    n < (newton n x + 1) * (newton n x + 1) := by
  -- with q = n / x the step is the mean of x and q, and n < x * (q + 1)
  have hq : n < x * (n / x + 1) := by
    have h := Nat.lt_div_mul_add (a := n) hx
    rwa [Nat.mul_succ, mul_comm x]
  have hsum : x + n / x + 1 ≤ 2 * (newton n x + 1) := by
    have h := Nat.div_add_mod (x + n / x) 2
    have hlt := Nat.mod_lt (x + n / x) (y := 2) (by decide)
    rw [newton]
    omega
  -- the mean of x and q + 1 is at least their geometric mean
  have hmean : 4 * (x * (n / x + 1)) ≤ (x + n / x + 1) * (x + n / x + 1) := by
    have h := four_mul_le_sq_add x (n / x + 1)
    nlinarith
  have hsq := Nat.mul_le_mul hsum hsum
  nlinarith

/-- A step that does not go down has reached the root. -/
lemma sqrt_of_le_newton {n x : ℕ} (hx : 0 < x) (hlt : n < (x + 1) * (x + 1))
    (hle : x ≤ newton n x) : x = n.sqrt := by
  have hxq : x ≤ n / x := by
    rw [newton] at hle
    omega
  exact Nat.eq_sqrt.mpr ⟨(Nat.le_div_iff_mul_le hx).mp hxq, hlt⟩

/-- A step stays positive. -/
lemma newton_pos {n x : ℕ} (hx : 0 < x) (hxn : x ≤ n) : 0 < newton n x := by
  have hq : 1 ≤ n / x := (Nat.one_le_div_iff hx).mpr hxn
  rw [newton]
  omega

/-- Up to `n`, the sum a step halves is at most `n + 1`. -/
lemma newton_sum_le {n x : ℕ} (hx : 0 < x) (hxn : x ≤ n) : x + n / x ≤ n + 1 := by
  have hq : 1 ≤ n / x := (Nat.one_le_div_iff hx).mpr hxn
  have hmul : x * (n / x) ≤ n := Nat.mul_div_le n x
  obtain ⟨a, rfl⟩ := Nat.exists_eq_add_of_lt hx
  obtain ⟨b, hb⟩ := Nat.exists_eq_add_of_le hq
  rw [hb] at hmul ⊢
  nlinarith

end EcuTelemetry.Core.Checked
