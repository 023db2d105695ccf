import EcuTelemetry.Console.Append
import EcuTelemetry.Core.Radix
import EcuTelemetry.Printf.Truncation

/-!
# Unsigned fields

`prvAppendUnsigned` and `fmt_uint` write an unsigned number in a field. They use different loops for
the digits and for the padding; what they write is the same.
-/

namespace EcuTelemetry.Formats

open EcuTelemetry.Core Radix

/-- `s` is the numeral `d` of `n` in base `base`, behind as much padding as a field of `width`
columns needs. -/
structure IsPadded (base width n : ℕ) (pad : Char) (s d : List Char) : Prop where
  numeral : IsNumeral base n d
  padded : s = List.replicate (width - d.length) pad ++ d
  length : s.length = max width d.length

/-- `buf_putc` has stored the text `s` whole, between `o` and `o'`, and nothing else. -/
structure Stored (o o' : Printf.Out) (s : List Char) : Prop where
  pos : o'.pos.toNat = o.pos.toNat + s.length
  text : Reader.Holds o'.mem o.pos.toNat s
  frame : ∀ i, i < o.pos.toNat ∨ o.pos.toNat + s.length ≤ i → o'.mem i = o.mem i

lemma isPadded_leftpad {base : ℕ} (hlo : 1 < base) (hhi : base ≤ 16) (width n : ℕ) (pad : Char) :
    IsPadded base width n pad ((Nat.toDigits base n).leftpad width pad) (Nat.toDigits base n) where
  numeral := isNumeral_toDigits hlo hhi n
  padded := rfl
  length := List.length_leftpad

lemma length_digitLoop_le (base : UInt32) (room : ℕ) (value : UInt32) :
    (Console.digitLoop base room value).length ≤ room := by
  induction room generalizing value with
  | zero => exact Nat.le_refl 0
  | succ room ih =>
    rw [Console.digitLoop, List.length_cons]
    apply Nat.succ_le_succ
    split_ifs
    · exact ih _
    · exact Nat.zero_le room

/-- A text for which there is room is stored whole. -/
lemma stored_foldl {size : UInt32} {o : Printf.Out} {s : List Char}
    (hroom : o.pos.toNat + s.length < size.toNat) :
    Stored o (s.foldl (Printf.bufPutc size) o) s := by
  have hsize := size.toNat_lt
  have hlength : s.length < 2 ^ 32 := by omega
  have hmem := @Printf.foldl_bufPutc_mem size s o (by omega)
  constructor
  · rw [Printf.foldl_bufPutc_pos, UInt32.toNat_add, UInt32.toNat_ofNat_of_lt' hlength]
    exact Nat.mod_eq_of_lt (by omega)
  · intro i hi
    rw [hmem, if_pos (by omega), Nat.add_sub_cancel_left, List.getElem?_eq_getElem hi]
    rfl
  · intro i hi
    rw [hmem]
    split_ifs with hin
    · rw [List.getElem?_eq_none (by omega)]
      rfl
    · rfl

/-- For every value, in base 10 or 16, at every width and with either padding, the two formatters
write the same text: the numeral of the value behind its padding. Neither leaves its array of
digits. -/
theorem unsigned_fields_agree (value : UInt32) {base : UInt32} (hbase : base = 10 ∨ base = 16)
    (width : UInt32) (zeroPad : Bool) :
    ∃ s d, IsPadded base.toNat width.toNat value.toNat (if zeroPad then '0' else ' ') s d ∧
      (Console.digitLoop base 32 value).length ≤ 32 ∧
      (∀ {size : ℕ} (b : Console.Buffer size), b.used + s.length < size →
        (Console.prvAppendUnsigned b value base width zeroPad).text = b.text ++ s) ∧
      ∀ (size : UInt32) (o : Printf.Out),
        ∃ o', Printf.fmtUint size o value base false width.toNat
            (if zeroPad then '0' else ' ') false = .ok o' ∧
          (o.pos.toNat + s.length < size.toNat → Stored o o' s) := by
  have hlo : 1 < base.toNat := by rcases hbase with rfl | rfl <;> decide
  have hhi : base.toNat ≤ 16 := by rcases hbase with rfl | rfl <;> decide
  refine ⟨Console.unsignedText value base width zeroPad, Nat.toDigits base.toNat value.toNat,
    isPadded_leftpad hlo hhi _ _ _, length_digitLoop_le base 32 value, ?_, ?_⟩
  · intro size b hroom
    rw [Console.prvAppendUnsigned_eq hbase, Console.foldl_prvAppendChar_text,
      List.take_of_length_le]
    rw [List.length_append, b.length_text]
    exact Nat.le_sub_one_of_lt hroom
  · intro size o
    have htext : Printf.field false (if zeroPad then '0' else ' ') width.toNat
        (Printf.digitsText base.toNat false value.toNat) =
          Console.unsignedText value base width zeroPad := by
      rw [Printf.digitsText, Printf.field, if_neg (by decide)]
      simp only [Bool.false_eq_true, if_false, List.map_id']
      rfl
    refine ⟨_, Printf.fmtUint_eq hbase o value false width.toNat _ false, ?_⟩
    rw [htext]
    exact stored_foldl

/-- A byte in hexadecimal. -/
theorem unsigned_fields_agree_hex :
    ∃ s d, IsPadded (16 : UInt32).toNat (4 : UInt32).toNat (0xA5 : UInt32).toNat
        (if true then '0' else ' ') s d ∧
      (Console.digitLoop 16 32 0xA5).length ≤ 32 ∧
      (∀ {size : ℕ} (b : Console.Buffer size), b.used + s.length < size →
        (Console.prvAppendUnsigned b 0xA5 16 4 true).text = b.text ++ s) ∧
      ∀ (size : UInt32) (o : Printf.Out),
        ∃ o', Printf.fmtUint size o 0xA5 16 false (4 : UInt32).toNat
            (if true then '0' else ' ') false = .ok o' ∧
          (o.pos.toNat + s.length < size.toNat → Stored o o' s) :=
  unsigned_fields_agree 0xA5 (.inr rfl) 4 true

end EcuTelemetry.Formats
