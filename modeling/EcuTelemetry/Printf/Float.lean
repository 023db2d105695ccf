import EcuTelemetry.Printf.Render
import Mathlib.Algebra.Order.Round

/-!
# Rounding in `fmt_float`

`fmt_float` prints the whole part of a number and, after the point, the rest rounded to the digits
of the precision. The two are printed apart, so that a rest that rounds up to one is printed as
zeros and its carry is lost. Everywhere else the numeral is within half a unit of its last digit.
-/

namespace EcuTelemetry.Printf

open EcuTelemetry.Core Decimal

/-! ### The digits of the fraction -/

@[simp] lemma length_fracLoop (n : ℕ) (w : UInt32) : (fracLoop n w).length = n := by
  induction n generalizing w with
  | zero => rfl
  | succ n ih => rw [fracLoop, List.length_cons, ih]

lemma fracDigit {d : ℕ} (h : d < 10) :
    (Char.ofNat ('0'.toNat + d)).isDigit ∧ (Char.ofNat ('0'.toNat + d)).toNat - '0'.toNat = d := by
  have hall : ∀ d < 10, (Char.ofNat ('0'.toNat + d)).isDigit ∧
      (Char.ofNat ('0'.toNat + d)).toNat - '0'.toNat = d := by
    decide
  exact hall d h

lemma isDigit_of_mem_fracLoop {n : ℕ} {w : UInt32} {c : Char} (h : c ∈ fracLoop n w) :
    c.isDigit := by
  induction n generalizing w with
  | zero => exact absurd h List.not_mem_nil
  | succ n ih =>
    rw [fracLoop] at h
    rcases List.mem_cons.mp h with rfl | h
    · rw [UInt32.toNat_mod]
      exact (fracDigit (Nat.mod_lt _ (by decide))).1
    · exact ih h

/-- The loop prints the number modulo the scale. -/
lemma ofDigitChars_fracLoop (n : ℕ) (w : UInt32) :
    Nat.ofDigitChars 10 (fracLoop n w).reverse 0 = w.toNat % 10 ^ n := by
  induction n generalizing w with
  | zero => rw [Nat.pow_zero, Nat.mod_one]; rfl
  | succ n ih =>
    have hdigit := (fracDigit (Nat.mod_lt w.toNat (y := 10) (by decide))).2
    have hmod : (w % 10).toNat = w.toNat % 10 := UInt32.toNat_mod w 10
    have hdiv : (w / 10).toNat = w.toNat / 10 := UInt32.toNat_div w 10
    rw [fracLoop, List.reverse_cons, Nat.ofDigitChars_append, ih, hmod, hdiv,
      Nat.ofDigitChars_cons, Nat.ofDigitChars_nil, hdigit, Nat.pow_succ', Nat.mod_mul, Nat.add_comm]

lemma readNat_fracLoop {n : ℕ} (hn : 0 < n) (w : UInt32) :
    readNat (fracLoop n w).reverse = some (w.toNat % 10 ^ n) := by
  have hne : (fracLoop n w).reverse ≠ [] := by
    rw [← List.length_pos_iff, List.length_reverse, length_fracLoop]
    exact hn
  have hdigits : ∀ c ∈ (fracLoop n w).reverse, c.isDigit :=
    fun c hc => isDigit_of_mem_fracLoop (List.mem_reverse.mp hc)
  rw [readNat, if_pos ⟨hne, hdigits⟩, ofDigitChars_fracLoop]

/-! ### The text -/

/-- The cast to `unsigned long` takes the whole part. -/
lemma unsignedLong_ok {x : ℚ} (h0 : 0 ≤ x) (h : x < 2 ^ 32) :
    ∃ w, unsignedLong x = .ok w ∧ (w.toNat : ℤ) = ⌊x⌋ := by
  have hnonneg : 0 ≤ ⌊x⌋ := Int.floor_nonneg.mpr h0
  have hlt : ⌊x⌋ < 2 ^ 32 := Int.floor_lt.mpr (by exact_mod_cast h)
  have hnat : ⌊x⌋.toNat < 2 ^ 32 := by omega
  refine ⟨UInt32.ofNat ⌊x⌋.toNat, if_pos ⟨by linarith, h⟩, ?_⟩
  rw [UInt32.toNat_ofNat_of_lt' hnat]
  exact Int.toNat_of_nonneg hnonneg

/-- The text of a number: sign, whole part, point and `prec` digits of the number `w`. -/
def floatText (val : ℚ) (n prec : ℕ) (w : UInt32) : List Char :=
  (if val < 0 then ['-'] else []) ++ (Nat.toDigits 10 n ++ '.' :: (fracLoop prec w).reverse)

/-- `fmt_float` prints the whole part and, apart from it, the rounded rest. -/
lemma fmtFloat_eq {val : ℚ} (hval : |val| < 2 ^ 32) {prec : ℕ} (hprec : prec ≤ 9) :
    ∃ (n : ℕ) (w : UInt32), (n : ℤ) = ⌊|val|⌋ ∧
      (w.toNat : ℤ) = round (Int.fract |val| * 10 ^ prec) ∧
      ∀ size o, fmtFloat size o val prec =
        .ok ((floatText val n prec w).foldl (bufPutc size) o) := by
  obtain ⟨whole, hwhole, hn⟩ := unsignedLong_ok (abs_nonneg val) hval
  have hscale : (10 : ℚ) ^ prec ≤ 10 ^ 9 := pow_le_pow_right₀ (by norm_num) hprec
  have hfract : |val| - (whole.toNat : ℚ) = Int.fract |val| := by
    rw [Int.fract, ← hn, Int.cast_natCast]
  have hrest : 0 ≤ Int.fract |val| * 10 ^ prec := mul_nonneg (Int.fract_nonneg _) (by positivity)
  have hrest' : Int.fract |val| * 10 ^ prec ≤ 10 ^ prec :=
    mul_le_of_le_one_left (by positivity) (Int.fract_lt_one _).le
  obtain ⟨w, hw, hwfloor⟩ := @unsignedLong_ok (Int.fract |val| * 10 ^ prec + 1 / 2)
    (by linarith) (by linarith)
  refine ⟨whole.toNat, w, hn, by rw [hwfloor, round_eq], fun size o => ?_⟩
  have hsmall : ¬ (prec : ℤ) < 0 := by omega
  have hlarge : ¬ (prec : ℤ) > 9 := by omega
  have hdigits : field false ' ' 0 (digitsText 10 false whole.toNat) =
      Nat.toDigits 10 whole.toNat := by
    simp [field, digitsText, List.leftpad]
  -- a negative number continues behind its sign as its absolute value
  have hsign : (if val < 0 then (bufPutc size o '-', -val) else (o, val)) =
      ((if val < 0 then ['-'] else []).foldl (bufPutc size) o, |val|) := by
    split_ifs with hneg
    · rw [abs_of_neg hneg]
      rfl
    · rw [abs_of_nonneg (not_lt.mp hneg)]
      rfl
  have hint (o : Out) : fmtUint size o whole 10 false 0 ' ' false =
      .ok ((Nat.toDigits 10 whole.toNat).foldl (bufPutc size) o) := by
    rw [← hdigits]
    exact fmtUint_eq (.inl rfl) o whole false 0 ' ' false
  rw [fmtFloat]
  simp only [if_neg hsmall, if_neg hlarge, Int.toNat_natCast, hsign, hwhole, hint, hfract, hw, bind,
    Except.bind]
  rw [floatText, List.foldl_append, List.foldl_append, List.foldl_cons]
  rfl

/-- What is read back: the fraction modulo the scale. -/
lemma read_floatText (val : ℚ) (n : ℕ) {prec : ℕ} (hprec : 0 < prec) (w : UInt32) :
    read (floatText val n prec w) =
      some ((if val < 0 then -1 else 1) * ((n : ℚ) + (w.toNat % 10 ^ prec : ℕ) / 10 ^ prec)) := by
  have hunsigned := readUnsigned_point n (readNat_fracLoop hprec w)
  rw [List.length_reverse, length_fracLoop] at hunsigned
  by_cases hneg : val < 0
  · rw [floatText, if_pos hneg, if_pos hneg, List.singleton_append, read_neg, hunsigned,
      Option.map_some, neg_one_mul]
  · rw [floatText, if_neg hneg, if_neg hneg, List.nil_append, one_mul, ← hunsigned]
    exact read_of_digits Nat.toDigits_ne_nil fun c hc => isDigit_of_mem_toDigits hc

/-- The error of the numeral is that of its fraction. -/
lemma abs_sub_val {val : ℚ} {n : ℕ} (hn : (n : ℤ) = ⌊|val|⌋) (y : ℚ) :
    |(if val < 0 then -1 else 1) * ((n : ℚ) + y) - val| = |y - Int.fract (|val|)| := by
  have hwhole : (n : ℚ) + Int.fract |val| = |val| := by
    rw [← Int.cast_natCast, hn]
    exact Int.floor_add_fract _
  by_cases hneg : val < 0
  · rw [if_pos hneg]
    have hval : val = -((n : ℚ) + Int.fract |val|) := by rw [hwhole, abs_of_neg hneg, neg_neg]
    calc |-1 * ((n : ℚ) + y) - val| = |-(y - Int.fract (|val|))| := by
          congr 1
          linarith
      _ = |y - Int.fract (|val|)| := abs_neg _
  · rw [if_neg hneg]
    have hval : val = (n : ℚ) + Int.fract |val| := by rw [hwhole, abs_of_nonneg (not_lt.mp hneg)]
    congr 1
    linarith

/-- A fraction rounded at a scale and taken modulo it is within half a unit, unless the rounding
reaches the scale. -/
lemma rounded_mod_iff {f : ℚ} (h0 : 0 ≤ f) (h1 : f < 1) {scale k : ℕ} (hscale : 1 < scale)
    (hk : (k : ℤ) = round (f * scale)) :
    |((k % scale : ℕ) : ℚ) / scale - f| ≤ 1 / (2 * scale) ↔ f * scale + 1 / 2 < scale := by
  have hpos : (0 : ℚ) < scale := by exact_mod_cast Nat.zero_lt_of_lt hscale
  have hone : (1 : ℚ) < scale := by exact_mod_cast hscale
  have hfloor : (k : ℤ) = ⌊f * scale + 1 / 2⌋ := by rw [hk, round_eq]
  constructor
  · contrapose!
    intro hle
    -- the rounding reaches the scale: zeros are printed for a fraction near one
    have hreach : k = scale := by
      have hlt : f * scale < scale := mul_lt_of_lt_one_left hpos h1
      have heq : ⌊f * (scale : ℚ) + 1 / 2⌋ = (scale : ℤ) := by
        rw [Int.floor_eq_iff]
        constructor
        · exact_mod_cast hle
        · push_cast
          linarith
      exact_mod_cast hfloor.trans heq
    rw [hreach, Nat.mod_self, Nat.cast_zero, zero_div, zero_sub, abs_neg, abs_of_nonneg h0,
      div_lt_iff₀ (by positivity)]
    linarith
  · intro hlt
    have hsmall : k < scale := by
      have h : (k : ℤ) < scale := by
        rw [hfloor, Int.floor_lt]
        exact_mod_cast hlt
      exact_mod_cast h
    have herror := abs_sub_round (f * scale)
    rw [← hk, Int.cast_natCast] at herror
    have hscaled : (k : ℚ) / scale - f = -(f * scale - k) / scale := by
      field_simp
      ring
    rw [Nat.mod_eq_of_lt hsmall, hscaled, abs_div, abs_neg, abs_of_pos hpos, ← div_div]
    exact div_le_div_of_nonneg_right herror hpos.le

/-- At a precision from 1 to 9, `fmt_float` prints a numeral within half a unit of its last digit
when the rounded fraction does not carry into the whole part. -/
theorem fmtFloat_rounds_iff {val : ℚ} (hval : |val| + 1 < 2 ^ 32) {prec : ℕ} (hlo : 1 ≤ prec)
    (hhi : prec ≤ 9) :
    ∃ s, (∀ size o, fmtFloat size o val prec = .ok (s.foldl (bufPutc size) o)) ∧
      ((∃ q, read s = some q ∧ |q - val| ≤ 1 / (2 * 10 ^ prec)) ↔
        Int.fract |val| * 10 ^ prec + 1 / 2 < 10 ^ prec) := by
  obtain ⟨n, w, hn, hw, hprint⟩ := fmtFloat_eq (by linarith) hhi
  refine ⟨floatText val n prec w, hprint, ?_⟩
  have hscale : 1 < 10 ^ prec := Nat.one_lt_pow (by omega) (by decide)
  have hiff := rounded_mod_iff (Int.fract_nonneg |val|) (Int.fract_lt_one |val|) hscale
    (by rw [hw, Nat.cast_pow]; rfl)
  rw [Nat.cast_pow, Nat.cast_ofNat] at hiff
  rw [← hiff, ← abs_sub_val hn]
  rw [read_floatText val n hlo w]
  constructor
  · rintro ⟨q, hq, herror⟩
    rw [Option.some_inj.mp hq]
    exact herror
  · intro herror
    exact ⟨_, rfl, herror⟩

/-- A quarter printed with one digit behind its sign. -/
theorem fmtFloat_rounds_iff_quarter :
    ∃ s, (∀ size o, fmtFloat size o (-1 / 4) (1 : ℕ) = .ok (s.foldl (bufPutc size) o)) ∧
      ((∃ q, read s = some q ∧ |q - -1 / 4| ≤ 1 / (2 * 10 ^ 1)) ↔
        Int.fract (|(-1 / 4 : ℚ)|) * 10 ^ 1 + 1 / 2 < 10 ^ 1) :=
  fmtFloat_rounds_iff (by norm_num [abs_of_neg]) (by decide) (by decide)

/-- 0.96875, which is 31/32, is printed with one digit as 0.0. -/
theorem fmtFloat_loses_carry :
    (∀ size o, fmtFloat size o (31 / 32) (1 : ℕ) =
      .ok (['0', '.', '0'].foldl (bufPutc size) o)) ∧
      ¬ ∃ q, read ['0', '.', '0'] = some q ∧ |q - 31 / 32| ≤ 1 / (2 * 10 ^ 1) := by
  have habs : |(31 / 32 : ℚ)| = 31 / 32 := abs_of_nonneg (by norm_num)
  obtain ⟨n, w, hn, hw, hprint⟩ := @fmtFloat_eq (31 / 32) (by rw [habs]; norm_num) 1 (by decide)
  have hfloor : ⌊(31 / 32 : ℚ)⌋ = 0 := by norm_num [Int.floor_eq_iff]
  rw [habs, hfloor] at hn
  have hround : round (Int.fract (31 / 32 : ℚ) * 10 ^ 1) = 10 := by
    rw [Int.fract, hfloor, round_eq, Int.floor_eq_iff]
    norm_num
  rw [habs, hround] at hw
  have hw10 : w = 10 := UInt32.toNat_inj.mp (by exact_mod_cast hw)
  have hn0 : n = 0 := by exact_mod_cast hn
  have htext : floatText (31 / 32) n 1 w = ['0', '.', '0'] := by
    rw [floatText, if_neg (by norm_num), hn0, hw10]
    decide
  rw [htext] at hprint
  refine ⟨hprint, ?_⟩
  rintro ⟨q, hq, herror⟩
  have hzero : read ['0', '.', '0'] = some 0 := by
    have hdigits : Nat.toDigits 10 0 = ['0'] := Nat.toDigits_of_lt_base (by decide)
    have h := readUnsigned_point 0 (readNat_toDigits 0)
    rw [hdigits, Nat.cast_zero, zero_div, zero_add] at h
    exact h
  rw [Option.some_inj.mp (hq.symm.trans hzero), zero_sub, abs_neg, habs] at herror
  norm_num at herror

end EcuTelemetry.Printf
