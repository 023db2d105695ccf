import EcuTelemetry.Console.Terminator
import EcuTelemetry.Core.Field
import EcuTelemetry.Printf.Truncation

/-!
# Signed fields

`%Nd` and `%0Nd` in the two formatters. Both write the sign before the padding. `mini_vsnprintf`
takes a column of the field for it, `console_writef` does not, so that they come apart from each
other and from C where a negative number is padded.
-/

namespace EcuTelemetry.Formats

open EcuTelemetry.Core Decimal

/-- The width as it stands in a format. -/
def widthDigits (width : ℕ) : List Char := if width = 0 then [] else Nat.toDigits 10 width

/-- `%Nd`, or `%0Nd`. -/
def signedFormat (zero : Bool) (width : ℕ) : List Char :=
  '%' :: ((if zero then ['0'] else []) ++ (widthDigits width ++ ['d']))

/-- Both formatters print `value` in a field of `width` columns, as C does. -/
def Agree (stack : Vector Char 256) (mem : ℕ → Char) (size : UInt32) (zero : Bool) (width : ℕ)
    (value : Int32) : Prop :=
  ∃ s, IsField zero width value.toInt s ∧
    Console.consoleWritef stack (signedFormat zero width) [.word value.toUInt32] = .ok s ∧
    ∃ mem' r, Printf.miniVsnprintf mem size (signedFormat zero width) [.word value.toUInt32] =
        .ok (mem', r) ∧
      Reader.Holds mem' 0 (s ++ [Printf.nul])

/-! ### The format -/

lemma isDigit_of_mem_widthDigits {width : ℕ} {c : Char} (h : c ∈ widthDigits width) :
    c.isDigit := by
  rw [widthDigits] at h
  split_ifs at h
  · exact absurd h List.not_mem_nil
  · exact isDigit_of_mem_toDigits h

lemma ofDigitChars_widthDigits (width : ℕ) :
    Nat.ofDigitChars 10 (widthDigits width) 0 = width := by
  rw [widthDigits]
  split_ifs with hzero
  · exact hzero.symm
  · exact Nat.ofDigitChars_ten_toDigits

lemma head?_widthDigits (width : ℕ) : (widthDigits width).head? ≠ some '0' := by
  rw [widthDigits]
  split_ifs with hzero
  · decide
  · exact Radix.head?_toDigits (by decide) (by decide) (Nat.pos_of_ne_zero hzero)

/-! ### What the formatters print -/

/-- The text of `console_writef` has the width of the field for the digits alone. -/
lemma console_signedText (value : Int32) {width : ℕ} (hwidth : width < 2 ^ 32) (zero : Bool) :
    Console.signedText value (UInt32.ofNat width) zero =
      signText value.toInt ++
        (magnitudeText value.toInt).leftpad width (if zero then '0' else ' ') := by
  have hnat : (UInt32.ofNat width).toNat = width := UInt32.toNat_ofNat_of_lt' hwidth
  simp only [Console.signedText, Checked.int32_lt_zero_iff, hnat]
  rfl

/-- The text of `mini_vsnprintf` has the width of the field for the sign and the digits. -/
lemma printf_signedText (value : Int32) (width : ℕ) (zero : Bool) :
    Printf.signedText false (if zero then '0' else ' ') width value =
      signText value.toInt ++ (magnitudeText value.toInt).leftpad
        (width - (signText value.toInt).length) (if zero then '0' else ' ') := by
  have hdigits : Printf.digitsText 10 false value.toInt.natAbs = magnitudeText value.toInt :=
    List.map_id _
  rw [Printf.signedText, hdigits, signText]
  by_cases hneg : value < 0
  · rw [if_pos hneg, if_pos ((Checked.int32_lt_zero_iff value).mp hneg)]
    rfl
  · rw [if_neg hneg, if_neg fun h => hneg ((Checked.int32_lt_zero_iff value).mpr h)]
    rfl

variable {zero : Bool} {width : ℕ} {value : Int32}

lemma consoleWritef_signed (stack : Vector Char 256) :
    Console.consoleWritef stack (signedFormat zero width) [.word value.toUInt32] =
      .ok ((Console.signedText value (UInt32.ofNat width) zero).take 255) := by
  have hdigits : ∀ c ∈ (if zero then ['0'] else []) ++ widthDigits width, c.isDigit := by
    intro c hc
    rcases List.mem_append.mp hc with hflag | hwidth
    · cases zero with
      | true => exact List.mem_singleton.mp hflag ▸ rfl
      | false => exact absurd hflag List.not_mem_nil
    · exact isDigit_of_mem_widthDigits hwidth
  have hflag : (((if zero then ['0'] else []) ++ widthDigits width).head? = some '0') = zero := by
    cases zero with
    | true => simp
    | false => simpa using head?_widthDigits width
  have hvalue : Nat.ofDigitChars 10 ((if zero then ['0'] else []) ++ widthDigits width) 0 =
      width := by
    rw [Nat.ofDigitChars_append]
    cases zero <;> exact ofDigitChars_widthDigits width
  obtain ⟨hne, hnul⟩ := Console.signedText_printable value (UInt32.ofNat width) zero
  have hformat : signedFormat zero width =
      [Console.Piece.conv ((if zero then ['0'] else []) ++ widthDigits width) false 'd'].flatMap
        Console.Piece.format := by
    simp [signedFormat, Console.Piece.format]
  rw [hformat]
  refine Console.consoleWritef_pieces ?_ ?_ hne hnul stack
  · rintro p hp
    rw [List.mem_singleton.mp hp]
    exact ⟨List.all_eq_true.mpr hdigits, by decide⟩
  · have htext : Console.conversionText zero (UInt32.ofNat width) 'd' [.word value.toUInt32] =
        .ok ([], Console.signedText value (UInt32.ofNat width) zero) := rfl
    simp only [Console.render, hvalue, hflag, Bool.decide_coe, htext]
    exact congrArg Except.ok (List.append_nil _)

lemma miniVsnprintf_signed {size : UInt32} (hint : max width (numeral value.toInt).length < 2 ^ 31)
    (hsize : max width (numeral value.toInt).length < size.toNat) (mem : ℕ → Char) :
    ∃ mem' r, Printf.miniVsnprintf mem size (signedFormat zero width) [.word value.toUInt32] =
        .ok (mem', r) ∧
      Reader.Holds mem' 0
        (Printf.signedText false (if zero then '0' else ' ') width value ++ [Printf.nul]) := by
  have hwell : (Printf.Piece.conv false zero (widthDigits width) false 'd').WellFormed := by
    refine ⟨?_, ?_, ?_, by decide⟩
    · exact List.all_eq_true.mpr fun c hc => isDigit_of_mem_widthDigits hc
    · rw [Printf.widthOf, ofDigitChars_widthDigits]
      exact (Nat.le_max_left _ _).trans_lt hint
    · exact .inr (head?_widthDigits width)
  have hformat : signedFormat zero width =
      [Printf.Piece.conv false zero (widthDigits width) false 'd'].flatMap
        Printf.Piece.format := by
    simp [signedFormat, Printf.Piece.format]
  have hrender : Printf.render [.conv false zero (widthDigits width) false 'd']
      [.word value.toUInt32] =
        .ok (Printf.signedText false (if zero then '0' else ' ') width value) := by
    have htext : Printf.conversionText false (if zero then '0' else ' ') width 'd'
        [.word value.toUInt32] =
          .ok ([], Printf.signedText false (if zero then '0' else ' ') width value) := rfl
    simp only [Printf.render, Printf.widthOf, ofDigitChars_widthDigits, htext]
    exact congrArg Except.ok (List.append_nil _)
  have hlength : (Printf.signedText false (if zero then '0' else ' ') width value).length =
      max width (numeral value.toInt).length := by
    rw [printf_signedText, numeral, List.length_append, List.length_append, List.length_leftpad]
    omega
  rw [hformat]
  obtain ⟨mem', r, hrun, -, hholds⟩ := @Printf.miniVsnprintf_fits size
    [.conv false zero (widthDigits width) false 'd'] (by simpa using hwell) _ _ hrender
    (by rwa [hlength]) (by rwa [hlength]) mem
  exact ⟨mem', r, hrun, hholds⟩

/-! ### Where they agree -/

/-- A number that is not padded behind its sign is printed as C prints it. -/
lemma texts_eq_fieldText (h : 0 ≤ value.toInt ∨ width ≤ (magnitudeText value.toInt).length)
    (hwidth : width < 2 ^ 32) :
    Console.signedText value (UInt32.ofNat width) zero = fieldText zero width value.toInt ∧
      Printf.signedText false (if zero then '0' else ' ') width value =
        fieldText zero width value.toInt := by
  rw [console_signedText value hwidth, printf_signedText]
  rcases h with hnonneg | hle
  · have hsign : signText value.toInt = [] := if_neg (Int.not_lt.mpr hnonneg)
    rw [fieldText, numeral, hsign]
    cases zero <;> exact ⟨rfl, rfl⟩
  · -- no padding is written
    have hpad : ∀ w ≤ width, ∀ c, (magnitudeText value.toInt).leftpad w c =
        magnitudeText value.toInt := by
      intro w hw c
      rw [List.leftpad, Nat.sub_eq_zero_of_le (hw.trans hle), List.replicate_zero, List.nil_append]
    have hnumeral : (numeral value.toInt).leftpad width ' ' = numeral value.toInt := by
      rw [List.leftpad, numeral, List.length_append,
        Nat.sub_eq_zero_of_le (hle.trans (Nat.le_add_left _ _)), List.replicate_zero,
        List.nil_append]
    rw [fieldText, hnumeral, hpad _ le_rfl, hpad _ (Nat.sub_le _ _), hpad _ (Nat.sub_le _ _)]
    cases zero <;> exact ⟨rfl, rfl⟩

/-- Where a negative number is padded, `console_writef` has padding in the place of its first
digit. -/
lemma console_padded (hneg : value.toInt < 0) (hlt : (magnitudeText value.toInt).length < width)
    (hconsole : width < 256) :
    ((Console.signedText value (UInt32.ofNat width) zero).take 255)[
        width - (magnitudeText value.toInt).length]? =
      some (if zero then '0' else ' ') := by
  obtain ⟨k, hk⟩ := Nat.exists_eq_add_of_lt hlt
  have hpos : 0 < (magnitudeText value.toInt).length := Nat.length_toDigits_pos
  have hplace : width - (magnitudeText value.toInt).length = k + 1 := by omega
  have hsign : signText value.toInt = ['-'] := if_pos hneg
  rw [hplace, List.getElem?_take_of_lt (by omega), console_signedText value (by omega), hsign,
    List.singleton_append, List.getElem?_cons_succ, List.leftpad, hplace,
    List.getElem?_append_left (by simp), List.getElem?_replicate_of_lt (Nat.lt_succ_self k)]

/-- A padded negative number is not printed by `console_writef` as C prints it. -/
lemma not_agree_of_padded (hneg : value.toInt < 0)
    (hlt : (magnitudeText value.toInt).length < width) (hwidth : width < 256) (size : UInt32)
    (stack : Vector Char 256) (mem : ℕ → Char) :
    ¬ Agree stack mem size zero width value := by
  rintro ⟨s, hfield, hrun, -⟩
  have hwritef := @consoleWritef_signed zero width value stack
  have hplace := @console_padded zero width value hneg hlt hwidth
  obtain ⟨c, t, hct, hzero, hblank⟩ := head_magnitude (Int.ne_of_lt hneg)
  rw [Except.ok.inj (hwritef.symm.trans hrun), hfield.eq, fieldText_padded hneg hlt, hct] at hplace
  obtain rfl := Option.some.inj hplace
  cases zero with
  | true => exact hzero rfl
  | false => exact hblank rfl

/-- The two signed formatters agree with each other and with C exactly if the number is not
negative or its digits alone fill the field. -/
theorem signed_fields_agree_iff {size : UInt32}
    (hconsole : max width (numeral value.toInt).length < 256)
    (hsize : max width (numeral value.toInt).length < size.toNat) (stack : Vector Char 256)
    (mem : ℕ → Char) :
    Agree stack mem size zero width value ↔
      0 ≤ value.toInt ∨ width ≤ (magnitudeText value.toInt).length := by
  have hwidth : width < 256 := (Nat.le_max_left _ _).trans_lt hconsole
  constructor
  · intro hagree
    by_contra h
    obtain ⟨hneg, hlt⟩ := not_or.mp h
    exact not_agree_of_padded (Int.not_le.mp hneg) (Nat.not_le.mp hlt) hwidth size stack mem hagree
  · intro h
    have hfield := isField_fieldText zero width value.toInt
    have hwritef := @consoleWritef_signed zero width value stack
    obtain ⟨hcon, hmini⟩ := @texts_eq_fieldText zero width value h (hwidth.trans (by decide))
    obtain ⟨mem', r, hrun, hholds⟩ :=
      @miniVsnprintf_signed zero width value size (hconsole.trans (by decide)) hsize mem
    rw [hcon, List.take_of_length_le] at hwritef
    · rw [hmini] at hholds
      exact ⟨_, hfield, hwritef, mem', r, hrun, hholds⟩
    · rw [hfield.length]
      exact Nat.le_of_lt_succ hconsole

/-- The least number in a field that its digits fill. -/
theorem signed_fields_agree_iff_least :
    Agree (Vector.replicate 256 'x') (fun _ => 'x') 16 true 10 (-2147483648) :=
  (@signed_fields_agree_iff true 10 (-2147483648) 16 (by decide) (by decide)
    (Vector.replicate 256 'x') (fun _ => 'x')).mpr (.inr (by decide))

/-- A negative number in a field wider than its digits. -/
theorem padded_negative_disagrees :
    ¬ Agree (Vector.replicate 256 'x') (fun _ => 'x') 16 false 4 (-5) :=
  not_agree_of_padded (by decide) (by decide) (by decide) 16 _ _

end EcuTelemetry.Formats
