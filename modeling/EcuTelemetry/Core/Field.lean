import EcuTelemetry.Core.Decimal
import EcuTelemetry.Core.Radix
import Mathlib.Data.List.Basic
import Mathlib.Data.List.TakeWhile

/-!
# Numerals in fields

The decimal numeral of an integer in a field of some width, as C prints it: behind a filling of
blanks, or with zeros between the sign and the digits. A field is told by its length, the place of
the sign and the value that is read back.
-/

namespace EcuTelemetry.Core.Decimal

/-- The sign of a number, where it is printed. -/
def signText (n : ℤ) : List Char := if n < 0 then ['-'] else []

/-- The digits of a number without its sign. -/
def magnitudeText (n : ℤ) : List Char := Nat.toDigits 10 n.natAbs

/-- The decimal numeral of a number. -/
def numeral (n : ℤ) : List Char := signText n ++ magnitudeText n

/-- `n` in a field of `width` columns. -/
def fieldText (zero : Bool) (width : ℕ) (n : ℤ) : List Char :=
  if zero then signText n ++ (magnitudeText n).leftpad (width - (signText n).length) '0'
  else (numeral n).leftpad width ' '

/-- `s` is `n` in a field of `width` columns: it has the length of the field, or of the numeral if
that is longer, the sign stands in front of the zeros but behind the blanks, and the value can be
read back. -/
structure IsField (zero : Bool) (width : ℕ) (n : ℤ) (s : List Char) : Prop where
  length : s.length = max width (numeral n).length
  sign : ∃ k, s =
    if zero then signText n ++ (List.replicate k '0' ++ magnitudeText n)
    else List.replicate k ' ' ++ numeral n
  reads : read (s.dropWhile (· = ' ')) = some (n : ℚ)

/-! ### Digits -/

/-- What stands in front of a number that is not zero is neither padding nor a sign. -/
lemma head_magnitude {n : ℤ} (hn : n ≠ 0) :
    ∃ c t, magnitudeText n = c :: t ∧ c ≠ '0' ∧ c ≠ ' ' := by
  obtain ⟨c, t, hct⟩ :=
    List.exists_cons_of_ne_nil (Nat.toDigits_ne_nil (b := 10) (n := n.natAbs))
  have hhead := @Radix.head?_toDigits 10 _ (by decide) (by decide) (Int.natAbs_pos.mpr hn)
  have hdigit : c.isDigit := isDigit_of_mem_toDigits (hct ▸ List.mem_cons_self)
  refine ⟨c, t, hct, ?_, ?_⟩
  · rintro rfl
    rw [hct] at hhead
    exact hhead rfl
  · rintro rfl
    exact absurd hdigit (by decide)

lemma readUnsigned_digits {s : List Char} (hs : ∀ c ∈ s, c.isDigit) :
    readUnsigned s = (readNat s).map Nat.cast := by
  have hpoint : ∀ c ∈ s, decide (c ≠ '.') = true := by
    intro c hc
    refine decide_eq_true ?_
    rintro rfl
    exact absurd (hs '.' hc) (by decide)
  have hdrop : s.dropWhile (· ≠ '.') = [] := List.dropWhile_eq_nil_iff.mpr hpoint
  have htake : s.takeWhile (· ≠ '.') = s := List.takeWhile_eq_self_iff.mpr hpoint
  rw [readUnsigned]
  simp only [hdrop, htake]
  cases readNat s <;> rfl

/-- A numeral with zeros behind its sign is read as its number. -/
lemma read_zeros (n : ℤ) (k : ℕ) :
    read (signText n ++ (List.replicate k '0' ++ magnitudeText n)) = some (n : ℚ) := by
  have hdigits : ∀ c ∈ List.replicate k '0' ++ magnitudeText n, c.isDigit := by
    intro c hc
    rcases List.mem_append.mp hc with hpad | hmag
    · rw [List.eq_of_mem_replicate hpad]
      decide
    · exact isDigit_of_mem_toDigits hmag
  have hne : List.replicate k '0' ++ magnitudeText n ≠ [] :=
    List.append_ne_nil_of_right_ne_nil _ Nat.toDigits_ne_nil
  have hnat : readNat (List.replicate k '0' ++ magnitudeText n) = some n.natAbs := by
    rw [readNat, if_pos ⟨hne, hdigits⟩, Nat.ofDigitChars_append, Nat.ofDigitChars_replicate_zero,
      Nat.mul_zero, magnitudeText, Nat.ofDigitChars_ten_toDigits]
  have habs : ((n.natAbs : ℕ) : ℚ) = (n.natAbs : ℤ) := rfl
  by_cases hneg : n < 0
  · rw [signText, if_pos hneg, List.singleton_append, read_neg,
      readUnsigned_digits hdigits, hnat, Option.map_some, Option.map_some, habs,
      Int.ofNat_natAbs_of_nonpos (Int.le_of_lt hneg), Int.cast_neg, neg_neg]
  · rw [signText, if_neg hneg, List.nil_append]
    have hread := read_of_digits (s := []) hne hdigits
    rw [List.append_nil] at hread
    rw [hread, readUnsigned_digits hdigits, hnat, Option.map_some, habs,
      Int.natAbs_of_nonneg (Int.not_lt.mp hneg)]

/-! ### Fields -/

/-- A numeral does not begin with a blank. -/
lemma dropWhile_numeral (n : ℤ) (k : ℕ) :
    (signText n ++ (List.replicate k '0' ++ magnitudeText n)).dropWhile (· = ' ') =
      signText n ++ (List.replicate k '0' ++ magnitudeText n) := by
  obtain ⟨c, t, hct⟩ :=
    List.exists_cons_of_ne_nil (Nat.toDigits_ne_nil (b := 10) (n := n.natAbs))
  have hc : c ≠ ' ' := by
    rintro rfl
    have hdigit : (' ' : Char).isDigit := isDigit_of_mem_toDigits (hct ▸ List.mem_cons_self)
    exact absurd hdigit (by decide)
  rw [signText, magnitudeText, hct]
  split_ifs
  · rfl
  · cases k with
    | zero =>
      rw [List.replicate_zero, List.nil_append, List.nil_append, List.dropWhile_cons,
        if_neg (by simpa using hc)]
    | succ k => rfl

/-- Blanks are skipped when a field is read. -/
lemma dropWhile_blanks (k : ℕ) (n : ℤ) :
    (List.replicate k ' ' ++ numeral n).dropWhile (· = ' ') = numeral n := by
  rw [List.dropWhile_append_of_pos]
  · exact dropWhile_numeral n 0
  · intro c hc
    rw [List.eq_of_mem_replicate hc]
    rfl

lemma isField_fieldText (zero : Bool) (width : ℕ) (n : ℤ) :
    IsField zero width n (fieldText zero width n) := by
  have hnumeral : numeral n = signText n ++ (List.replicate 0 '0' ++ magnitudeText n) := rfl
  cases zero with
  | true =>
    have hlength : (numeral n).length = (signText n).length + (magnitudeText n).length :=
      List.length_append
    constructor
    · rw [fieldText, if_pos rfl, List.length_append, List.length_leftpad, hlength]
      omega
    · exact ⟨_, rfl⟩
    · rw [fieldText, if_pos rfl, List.leftpad, dropWhile_numeral, read_zeros]
  | false =>
    constructor
    · rw [fieldText, if_neg (by decide), List.length_leftpad]
    · exact ⟨_, rfl⟩
    · rw [fieldText, if_neg (by decide), List.leftpad, dropWhile_blanks, hnumeral, read_zeros]

/-- The first digit of a negative number that is padded. -/
lemma fieldText_padded {n : ℤ} (hneg : n < 0) {width : ℕ} (h : (magnitudeText n).length < width)
    (zero : Bool) :
    (fieldText zero width n)[width - (magnitudeText n).length]? = (magnitudeText n).head? := by
  obtain ⟨k, hk⟩ := Nat.exists_eq_add_of_lt h
  have hplace : width - (magnitudeText n).length = k + 1 := by omega
  have hsign : signText n = ['-'] := if_pos hneg
  have hdigits : (magnitudeText n)[0]? = (magnitudeText n).head? := List.head?_eq_getElem?.symm
  rw [hplace, ← hdigits]
  cases zero with
  | true =>
    have hpad : width - 1 - (magnitudeText n).length = k := by omega
    rw [fieldText, if_pos rfl, hsign, List.length_singleton, List.leftpad, hpad,
      List.singleton_append, List.getElem?_cons_succ, List.getElem?_append_right (by simp),
      List.length_replicate, Nat.sub_self]
  | false =>
    have hpad : width - ((magnitudeText n).length + 1) = k := by omega
    rw [fieldText, if_neg (by decide), numeral, hsign, List.singleton_append, List.leftpad,
      List.length_cons, hpad, List.getElem?_append_right (by simp), List.length_replicate,
      Nat.add_sub_cancel_left, List.getElem?_cons_succ]

/-- Length and sign tell a field. -/
lemma IsField.eq {zero : Bool} {width : ℕ} {n : ℤ} {s : List Char} (h : IsField zero width n s) :
    s = fieldText zero width n := by
  obtain ⟨k, hk⟩ := h.sign
  obtain ⟨k', hk'⟩ := (isField_fieldText zero width n).sign
  have hlength := h.length.trans (isField_fieldText zero width n).length.symm
  have hkk : k = k' := by
    rw [hk, hk'] at hlength
    cases zero with
    | true =>
      simp only [if_true, List.length_append, List.length_replicate] at hlength
      omega
    | false =>
      simp only [Bool.false_eq_true, if_false, List.length_append, List.length_replicate] at hlength
      omega
  rw [hk, hk', hkk]

end EcuTelemetry.Core.Decimal
