import Mathlib.Algebra.Field.Rat
import Mathlib.Tactic.Common
import Mathlib.Tactic.Ring

/-!
# Decimal numerals

Reading numerals back: `readNat` reads a string of decimal digits, `read` an optional minus sign,
digits and, after a point, more digits, as the exact rational it denotes.
-/

namespace EcuTelemetry.Core.Decimal

/-- Digits are tested one by one. -/
instance decidableAllDigits (s : List Char) : Decidable (∀ c ∈ s, c.isDigit) :=
  List.decidableBAll (fun c => c.isDigit) s

/-- The value of a string of decimal digits. -/
def readNat (s : List Char) : Option ℕ :=
  if s ≠ [] ∧ ∀ c ∈ s, c.isDigit then some (Nat.ofDigitChars 10 s 0) else none

/-- The value of `digits` or `digits.digits`. -/
def readUnsigned (s : List Char) : Option ℚ :=
  let whole := s.takeWhile (· ≠ '.')
  match s.dropWhile (· ≠ '.') with
  | []        => (readNat whole).map fun n => (n : ℚ)
  | _ :: frac => do
    let n ← readNat whole
    let k ← readNat frac
    return n + k / 10 ^ frac.length

/-- The value of a numeral with an optional minus sign. -/
def read : List Char → Option ℚ
  | '-' :: s => (readUnsigned s).map fun q => -q
  | s        => readUnsigned s

/-! ### Digits written by a program -/

/-- The range test for a digit. -/
lemma isDigit_iff (c : Char) : ('0' ≤ c ∧ c ≤ '9') ↔ c.isDigit := by
  simp [Char.isDigit, Char.le_def]

lemma isDigit_of_mem_toDigits {c : Char} {n : ℕ} (h : c ∈ Nat.toDigits 10 n) : c.isDigit :=
  Nat.isDigit_of_mem_toDigits (by decide) (by decide) h

lemma isDigit_of_mem_leftpad {c : Char} {w n : ℕ}
    (h : c ∈ (Nat.toDigits 10 n).leftpad w '0') : c.isDigit := by
  rcases List.mem_append.mp h with hpad | hdigit
  · rw [List.eq_of_mem_replicate hpad]
    decide
  · exact isDigit_of_mem_toDigits hdigit

lemma leftpad_ne_nil (w n : ℕ) (a : Char) : (Nat.toDigits 10 n).leftpad w a ≠ [] := by
  simp [List.leftpad]

/-- Zero padding does not change the value. -/
lemma readNat_leftpad (w n : ℕ) : readNat ((Nat.toDigits 10 n).leftpad w '0') = some n := by
  rw [readNat, if_pos ⟨leftpad_ne_nil w n '0', fun c hc => isDigit_of_mem_leftpad hc⟩]
  rw [List.leftpad, Nat.ofDigitChars_append, Nat.ofDigitChars_replicate_zero, Nat.mul_zero,
    Nat.ofDigitChars_ten_toDigits]

lemma readNat_toDigits (n : ℕ) : readNat (Nat.toDigits 10 n) = some n := by
  simpa [List.leftpad] using readNat_leftpad 0 n

/-- A number below `10 ^ w` fills `w` columns exactly. -/
lemma length_leftpad {w k : ℕ} (hw : 0 < w) (hk : k < 10 ^ w) (a : Char) :
    ((Nat.toDigits 10 k).leftpad w a).length = w := by
  rw [List.length_leftpad]
  exact Nat.max_eq_left ((Nat.length_toDigits_le_iff (by decide) hw).mpr hk)

/-- Whole part, point and the digits of a fraction. -/
lemma readUnsigned_point (n : ℕ) {s : List Char} {k : ℕ} (hs : readNat s = some k) :
    readUnsigned (Nat.toDigits 10 n ++ '.' :: s) = some ((n : ℚ) + k / 10 ^ s.length) := by
  have hpoint : ∀ c ∈ Nat.toDigits 10 n, decide (c ≠ '.') = true := by
    intro c hc
    have hdigit := isDigit_of_mem_toDigits hc
    refine decide_eq_true ?_
    rintro rfl
    exact absurd hdigit (by decide)
  simp only [readUnsigned, List.takeWhile_append_of_pos hpoint, List.dropWhile_append_of_pos hpoint,
    List.takeWhile_cons, List.dropWhile_cons, decide_false, ne_eq, not_true_eq_false,
    Bool.false_eq_true, if_false, List.append_nil, readNat_toDigits, hs, Option.pure_def,
    Option.bind_eq_bind, Option.bind_some]

/-- Whole part, point and a fraction padded to `w` digits. -/
lemma readUnsigned_fixed {w k : ℕ} (n : ℕ) (hw : 0 < w) (hk : k < 10 ^ w) :
    readUnsigned (Nat.toDigits 10 n ++ '.' :: (Nat.toDigits 10 k).leftpad w '0') =
      some ((n : ℚ) + k / 10 ^ w) := by
  rw [readUnsigned_point n (readNat_leftpad w k), length_leftpad hw hk]

/-- A numeral that starts with a digit has no sign. -/
lemma read_of_digits {d s : List Char} (hne : d ≠ []) (hd : ∀ c ∈ d, c.isDigit) :
    read (d ++ s) = readUnsigned (d ++ s) := by
  obtain ⟨c, t, rfl⟩ := List.exists_cons_of_ne_nil hne
  have hc := hd c List.mem_cons_self
  rw [List.cons_append, read.eq_2]
  rintro u hu
  obtain ⟨rfl, -⟩ := List.cons.inj hu
  exact absurd hc (by decide)

lemma read_neg (s : List Char) : read ('-' :: s) = (readUnsigned s).map fun q => -q := rfl

/-- Quotient and remainder by the scale give the number over the scale. -/
lemma whole_add_frac (n : ℕ) {d : ℕ} (hd : 0 < d) :
    ((n / d : ℕ) : ℚ) + (n % d : ℕ) / d = n / d := by
  have hne : (d : ℚ) ≠ 0 := Nat.cast_ne_zero.mpr (Nat.ne_of_gt hd)
  have hsum : (d : ℚ) * (n / d : ℕ) + (n % d : ℕ) = n := mod_cast Nat.div_add_mod n d
  rw [eq_div_iff hne, add_mul, div_mul_cancel₀ _ hne, mul_comm, hsum]

end EcuTelemetry.Core.Decimal
