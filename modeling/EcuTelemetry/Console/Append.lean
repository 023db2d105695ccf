import EcuTelemetry.Core.Checked
import Mathlib.Data.List.Basic
import Mathlib.Data.Vector.Basic
import Mathlib.Tactic.Common

/-!
# Appending to a console buffer

The appenders of `console.c`. A buffer is the `char` array of the caller, whatever it held before,
with the number of characters appended so far; every store stays inside it because the structure
says that the terminator's place does. A `char` is a `Char` with a code below 256.
-/

namespace EcuTelemetry.Console

/-- The character that ends a C string. -/
def nul : Char := '\x00'

/-- `buffer` and `used`, for a `buffer_size` of `size`. -/
structure Buffer (size : ℕ) where
  cells : Vector Char size
  used : ℕ
  used_lt : used < size

variable {size : ℕ}

/-- The characters appended so far. -/
def Buffer.text (b : Buffer size) : List Char := b.cells.toList.take b.used

/-- Whether a terminator stands behind the characters appended so far. -/
def Buffer.Terminated (b : Buffer size) : Prop := b.cells.toList[b.used]? = some nul

/-- `prvAppendChar`. -/
def prvAppendChar (b : Buffer size) (c : Char) : Buffer size :=
  if h : b.used + 1 < size then
    { cells := (b.cells.set b.used c b.used_lt).set (b.used + 1) nul h
      used := b.used + 1
      used_lt := h }
  else b

/-- `prvAppendString`: a null pointer is printed as a text of its own. -/
def prvAppendString (b : Buffer size) (text : Option (List Char)) : Buffer size :=
  (text.getD "(null)".toList).foldl prvAppendChar b

/-- The character of a digit, in `prvAppendUnsigned`. -/
def digitOf (digit : UInt32) : Char :=
  if digit < 10 then Char.ofNat ('0'.toNat + digit.toNat)
  else Char.ofNat ('a'.toNat + (digit.toNat - 10))

/-- The first loop of `prvAppendUnsigned`: digits, lowest first, until the value is used up or the
`room` left in `digits` is. -/
def digitLoop (base : UInt32) : ℕ → UInt32 → List Char
  | 0, _            => []
  | room + 1, value =>
    digitOf (value % base) ::
      if value / base ≠ 0 then digitLoop base room (value / base) else []

/-- The second loop of `prvAppendUnsigned`: `width` counts down to `count`. -/
def padLoop (count : ℕ) (pad : Char) : ℕ → Buffer size → Buffer size
  | 0, b         => b
  | width + 1, b =>
    if count < width + 1 then padLoop count pad width (prvAppendChar b pad) else b

/-- `prvAppendUnsigned`. -/
def prvAppendUnsigned (b : Buffer size) (value base width : UInt32) (zeroPad : Bool) :
    Buffer size :=
  let digits := digitLoop base 32 value
  let b := padLoop digits.length (if zeroPad then '0' else ' ') width.toNat b
  digits.reverse.foldl prvAppendChar b

/-- `prvAppendSigned`: the sign is written before the padding. -/
def prvAppendSigned (b : Buffer size) (value : Int32) (width : UInt32) (zeroPad : Bool) :
    Buffer size :=
  if value < 0 then
    prvAppendUnsigned (prvAppendChar b '-') (-value).toUInt32 10 width zeroPad
  else prvAppendUnsigned b value.toUInt32 10 width zeroPad

/-! ### What an append leaves in the buffer -/

lemma Buffer.length_text (b : Buffer size) : b.text.length = b.used := by
  simp [Buffer.text, Nat.min_eq_left (Nat.le_of_lt b.used_lt)]

/-- A character is taken as long as the terminator still fits behind it. -/
lemma prvAppendChar_text (b : Buffer size) (c : Char) :
    (prvAppendChar b c).text = (b.text ++ [c]).take (size - 1) := by
  have hlt := b.used_lt
  by_cases h : b.used + 1 < size
  · have hcells : (prvAppendChar b c).text = b.text ++ [c] := by
      simp only [prvAppendChar, h, dif_pos, Buffer.text, Vector.toList_set]
      rw [List.take_set_of_le (Nat.le_refl _), List.take_add_one,
        List.take_set_of_le (Nat.le_refl _), List.getElem?_set_self (by simpa using hlt),
        Option.toList_some]
    rw [hcells, List.take_of_length_le]
    rw [List.length_append, b.length_text, List.length_singleton]
    exact Nat.le_sub_one_of_lt h
  · have hfull : b.text.length = size - 1 := by
      rw [b.length_text]
      omega
    rw [prvAppendChar, dif_neg h, ← hfull, List.take_left]

lemma prvAppendChar_terminated {b : Buffer size} (c : Char)
    (h : b.used + 1 < size ∨ b.Terminated) : (prvAppendChar b c).Terminated := by
  by_cases hroom : b.used + 1 < size
  · simp [prvAppendChar, hroom, Buffer.Terminated]
  · rw [prvAppendChar, dif_neg hroom]
    exact h.resolve_left hroom

/-- What a prefix cut off is not needed for the same prefix of a longer text. -/
lemma take_append_take {α : Type*} (l s : List α) (n : ℕ) :
    (l.take n ++ s).take n = (l ++ s).take n := by
  rcases Nat.le_total l.length n with h | h
  · rw [List.take_of_length_le h]
  · rw [List.take_append_of_le_length h, List.take_append_of_le_length (by simp [h]),
      List.take_take, Nat.min_self]

/-- A run of appends writes the text, cut off where the buffer is full. -/
lemma foldl_prvAppendChar_text (s : List Char) (b : Buffer size) :
    (s.foldl prvAppendChar b).text = (b.text ++ s).take (size - 1) := by
  induction s generalizing b with
  | nil         =>
    rw [List.foldl_nil, List.append_nil, List.take_of_length_le]
    rw [b.length_text]
    exact Nat.le_sub_one_of_lt b.used_lt
  | cons c s ih =>
    rw [List.foldl_cons, ih, prvAppendChar_text, take_append_take, List.append_assoc,
      List.singleton_append]

lemma foldl_prvAppendChar_terminated (s : List Char) {b : Buffer size} (h : b.Terminated) :
    (s.foldl prvAppendChar b).Terminated := by
  induction s generalizing b with
  | nil         => exact h
  | cons c s ih => exact ih (prvAppendChar_terminated c (.inr h))

/-! ### What the appenders write -/

/-- The text of an unsigned conversion. -/
def unsignedText (value base width : UInt32) (zeroPad : Bool) : List Char :=
  (Nat.toDigits base.toNat value.toNat).leftpad width.toNat (if zeroPad then '0' else ' ')

/-- The text of a signed conversion. -/
def signedText (value : Int32) (width : UInt32) (zeroPad : Bool) : List Char :=
  (if value < 0 then ['-'] else []) ++
    (Nat.toDigits 10 value.toInt.natAbs).leftpad width.toNat (if zeroPad then '0' else ' ')

lemma digitOf_eq {digit : UInt32} (h : digit.toNat < 16) :
    digitOf digit = digit.toNat.digitChar := by
  have hall : ∀ d < 16, digitOf (UInt32.ofNat d) = Nat.digitChar d := by decide
  simpa using hall digit.toNat h

/-- The digit loop ends on its own when the digits of the value fit the array. -/
lemma digitLoop_eq {base : UInt32} (hlo : 1 < base.toNat) (hhi : base.toNat ≤ 16) (room : ℕ)
    (value : UInt32) (h : value.toNat < base.toNat ^ room) (hroom : 0 < room) :
    (digitLoop base room value).reverse = Nat.toDigits base.toNat value.toNat := by
  induction room generalizing value with
  | zero         => exact absurd hroom (Nat.lt_irrefl 0)
  | succ room ih =>
    have hdigit : digitOf (value % base) = (value.toNat % base.toNat).digitChar := by
      rw [digitOf_eq, UInt32.toNat_mod]
      rw [UInt32.toNat_mod]
      exact Nat.lt_of_lt_of_le (Nat.mod_lt _ (Nat.zero_lt_of_lt hlo)) hhi
    rw [digitLoop, List.reverse_cons, hdigit]
    by_cases hlast : value / base = 0
    · have hlt : value.toNat < base.toNat := by
        have hquot : value.toNat / base.toNat = 0 := by
          rw [← UInt32.toNat_div, hlast, UInt32.toNat_zero]
        exact (Nat.div_eq_zero_iff_lt (Nat.zero_lt_of_lt hlo)).mp hquot
      rw [if_neg (not_not.mpr hlast), Nat.toDigits_of_lt_base hlt, Nat.mod_eq_of_lt hlt]
      rfl
    · have hle : base.toNat ≤ value.toNat := by
        by_contra hlt
        refine hlast (UInt32.toNat_inj.mp ?_)
        rw [UInt32.toNat_div, UInt32.toNat_zero]
        exact Nat.div_eq_of_lt (Nat.lt_of_not_le hlt)
      have hquot : (value / base).toNat < base.toNat ^ room := by
        rw [UInt32.toNat_div]
        exact Nat.div_lt_of_lt_mul (by rwa [← Nat.pow_succ'])
      have hroom' : 0 < room := by
        rcases Nat.eq_zero_or_pos room with rfl | hpos
        · rw [Nat.zero_add, Nat.pow_one] at h
          exact absurd h (Nat.not_lt_of_le hle)
        · exact hpos
      rw [if_pos hlast, ih _ hquot hroom', UInt32.toNat_div, ← Nat.toDigits_of_base_le hlo hle]

/-- The padding loop writes one character for each column the digits leave. -/
lemma padLoop_eq (count : ℕ) (pad : Char) (width : ℕ) (b : Buffer size) :
    padLoop count pad width b = (List.replicate (width - count) pad).foldl prvAppendChar b := by
  induction width generalizing b with
  | zero          => rw [Nat.zero_sub]; rfl
  | succ width ih =>
    by_cases h : count < width + 1
    · rw [padLoop, if_pos h, ih, Nat.succ_sub (Nat.le_of_lt_succ h), List.replicate_succ,
        List.foldl_cons]
    · rw [padLoop, if_neg h, Nat.sub_eq_zero_of_le (Nat.le_of_not_lt h)]
      rfl

lemma prvAppendUnsigned_eq {base : UInt32} (hbase : base = 10 ∨ base = 16) (b : Buffer size)
    (value width : UInt32) (zeroPad : Bool) :
    prvAppendUnsigned b value base width zeroPad =
      (unsignedText value base width zeroPad).foldl prvAppendChar b := by
  have hdigits : (digitLoop base 32 value).reverse = Nat.toDigits base.toNat value.toNat := by
    have hlt := value.toNat_lt
    refine digitLoop_eq ?_ ?_ 32 value ?_ (by decide)
    · rcases hbase with rfl | rfl <;> decide
    · rcases hbase with rfl | rfl <;> decide
    · rcases hbase with rfl | rfl <;> exact Nat.lt_of_lt_of_le hlt (by decide)
  have hlength := congrArg List.length hdigits
  rw [List.length_reverse] at hlength
  rw [prvAppendUnsigned, padLoop_eq, hdigits, hlength, unsignedText, List.leftpad,
    List.foldl_append]

lemma prvAppendSigned_eq (b : Buffer size) (value : Int32) (width : UInt32) (zeroPad : Bool) :
    prvAppendSigned b value width zeroPad =
      (signedText value width zeroPad).foldl prvAppendChar b := by
  have hmag := Core.Checked.toNat_magnitude value
  by_cases h : value < 0
  · rw [if_pos h] at hmag
    rw [prvAppendSigned, if_pos h, prvAppendUnsigned_eq (.inl rfl), unsignedText, hmag, signedText,
      if_pos h]
    rfl
  · rw [if_neg h] at hmag
    rw [prvAppendSigned, if_neg h, prvAppendUnsigned_eq (.inl rfl), unsignedText, hmag, signedText,
      if_neg h]
    rfl

end EcuTelemetry.Console
