import EcuTelemetry.Console.Format
import EcuTelemetry.Core.Decimal
import EcuTelemetry.Firmware.Basic

/-!
# The text of a frame

`prvPrintFrame` and the line it writes. A reading with decimals is printed as its quotient, a point
and the absolute value of its remainder, so the sign of the line is the sign of the quotient.
-/

namespace EcuTelemetry.Firmware

open EcuTelemetry.Core EcuTelemetry.Core.Checked Console

/-- `prvAbs16`. -/
def prvAbs16 (v : Int16) : Int16 := if v < 0 then -v else v

/-- The format of `prvPrintFrame`. -/
def frameFormat : List Char :=
  ("[telemetry] seq=%lu temp=%d.%dC ax=%d.%02d ay=%d.%02d az=%d.%02d spd=%u.%ukm/h " ++
    "rpm=%u thr=%u.%u%% valid=%s tick=%lu\n").toList

/-- `valid` in words. -/
def validText (valid : Bool) : List Char := if valid then "yes".toList else "no".toList

/-- The arguments of `prvPrintFrame` after the format. -/
def frameArgs (frame : TelemetryFrame) : List Arg :=
  [ .word frame.sequence,
    .word (frame.temperatureCX10.toInt32 / 10).toUInt32,
    .word (if frame.temperatureCX10 < 0 then (-frame.temperatureCX10.toInt32) % 10
      else frame.temperatureCX10.toInt32 % 10).toUInt32,
    .word (frame.accelXX100.toInt32 / 100).toUInt32,
    .word (prvAbs16 (frame.accelXX100.toInt32 % 100).toInt16).toInt32.toUInt32,
    .word (frame.accelYX100.toInt32 / 100).toUInt32,
    .word (prvAbs16 (frame.accelYX100.toInt32 % 100).toInt16).toInt32.toUInt32,
    .word (frame.accelZX100.toInt32 / 100).toUInt32,
    .word (prvAbs16 (frame.accelZX100.toInt32 % 100).toInt16).toInt32.toUInt32,
    .word (frame.speedKmhX10 / 10).toUInt32,
    .word (frame.speedKmhX10 % 10).toUInt32,
    .word frame.rpm.toUInt32,
    .word (frame.throttlePctX10 / 10).toUInt32,
    .word (frame.throttlePctX10 % 10).toUInt32,
    .text (some (validText frame.valid)),
    .word frame.tick ]

/-- `prvPrintFrame`, when `stack` is what the buffer of `console_writef` holds on entry. -/
def prvPrintFrame (stack : Vector Char 256) (frame : TelemetryFrame) :
    Except Undefined (List Char) :=
  consoleWritef stack frameFormat (frameArgs frame)

/-! ### Decimals -/

/-- A whole part, a point and a fraction of `w` digits. -/
def fixedText (w whole frac : ℕ) : List Char :=
  Nat.toDigits 10 whole ++ '.' :: (Nat.toDigits 10 frac).leftpad w '0'

/-- A reading `x` over `10 ^ w` as `prvPrintFrame` writes it: with a sign only when the quotient has
one. -/
def readingText (w : ℕ) (x : Int16) : List Char :=
  (if x.toInt ≤ -10 ^ w then ['-'] else []) ++
    fixedText w (x.toInt.natAbs / 10 ^ w) (x.toInt.natAbs % 10 ^ w)

/-- A counter over ten. -/
def tenthsText (x : UInt16) : List Char := fixedText 1 (x.toNat / 10) (x.toNat % 10)

/-- The line of a frame. -/
def frameText (frame : TelemetryFrame) : List Char :=
  "[telemetry] seq=".toList ++ Nat.toDigits 10 frame.sequence.toNat ++
    " temp=".toList ++ readingText 1 frame.temperatureCX10 ++
    "C ax=".toList ++ readingText 2 frame.accelXX100 ++
    " ay=".toList ++ readingText 2 frame.accelYX100 ++
    " az=".toList ++ readingText 2 frame.accelZX100 ++
    " spd=".toList ++ tenthsText frame.speedKmhX10 ++
    "km/h rpm=".toList ++ Nat.toDigits 10 frame.rpm.toNat ++
    " thr=".toList ++ tenthsText frame.throttlePctX10 ++
    "%".toList ++ " valid=".toList ++ validText frame.valid ++
    " tick=".toList ++ Nat.toDigits 10 frame.tick.toNat ++ "\n".toList

lemma toInt_quotient (x : Int16) (d : Int32) (hd : d ≠ -1) :
    (x.toInt32 / d).toInt = x.toInt.tdiv d.toInt := by
  rw [Int32.toInt_div_of_ne_right _ _ hd, Int16.toInt_toInt32]

/-- The absolute value of a remainder. -/
lemma toInt_prvAbs16 {v : Int32} (hlo : -32768 < v.toInt) (hhi : v.toInt < 32768) :
    (prvAbs16 v.toInt16).toInt32.toInt = v.toInt.natAbs := by
  have hv : v.toInt16.toInt = v.toInt := by
    rw [Int32.toInt_toInt16]
    exact Int.bmod_eq_of_le (by omega) (by omega)
  rw [Int16.toInt_toInt32, prvAbs16]
  by_cases h : v.toInt16 < 0
  · have h0 := (int16_lt_zero_iff _).mp h
    rw [hv] at h0
    rw [if_pos h, Int16.toInt_neg, hv, Int.bmod_eq_of_le (by omega) (by omega)]
    omega
  · have h0 := mt (int16_lt_zero_iff _).mpr h
    rw [hv] at h0
    rw [if_neg h, hv]
    omega

lemma leftpad_of_le {w : ℕ} {s : List Char} (h : w ≤ s.length) (a : Char) : s.leftpad w a = s := by
  rw [List.leftpad, Nat.sub_eq_zero_of_le h, List.replicate_zero, List.nil_append]

lemma signedText_of_nonneg {v : Int32} {n : ℕ} (h : v.toInt = n) (width : UInt32) (zeroPad : Bool) :
    signedText v width zeroPad =
      (Nat.toDigits 10 n).leftpad width.toNat (if zeroPad then '0' else ' ') := by
  have hsign : ¬ v < 0 := by
    rw [int32_lt_zero_iff, h]
    exact Int.not_lt.mpr (Int.natCast_nonneg n)
  rw [signedText, if_neg hsign, h, Int.natAbs_natCast, List.nil_append]

/-- A truncated quotient is negative exactly from the negated divisor down. -/
lemma tdiv_neg_iff (x : ℤ) {n : ℕ} (hn : 0 < n) : x.tdiv n < 0 ↔ x ≤ -n := by
  rcases Int.le_total 0 x with h | h
  · have hquot := Int.tdiv_nonneg h (Int.natCast_nonneg n)
    omega
  · obtain ⟨m, rfl⟩ := Int.exists_eq_neg_ofNat h
    have hpos : 0 < m / n ↔ n ≤ m := Nat.div_pos_iff.trans ⟨fun h => h.2, fun h => ⟨hn, h⟩⟩
    rw [Int.neg_tdiv, ← Int.ofNat_tdiv]
    omega

/-- The quotient of a reading, with the sign of the quotient. -/
lemma signedText_quotient (x : Int16) {d : Int32} {n : ℕ} (hn : 0 < n) (hd : d.toInt = n) :
    signedText (x.toInt32 / d) 0 false =
      (if x.toInt ≤ -n then ['-'] else []) ++ Nat.toDigits 10 (x.toInt.natAbs / n) := by
  have hne : d ≠ -1 := by
    rintro rfl
    have hneg : (-1 : Int32).toInt = -1 := by decide
    omega
  have hquot : (x.toInt32 / d).toInt = x.toInt.tdiv n := by rw [toInt_quotient x d hne, hd]
  have hsign : x.toInt32 / d < 0 ↔ x.toInt ≤ -n := by
    rw [int32_lt_zero_iff, hquot, tdiv_neg_iff _ hn]
  have habs : (x.toInt.tdiv n).natAbs = x.toInt.natAbs / n := Int.natAbs_tdiv _ _
  simp only [signedText, hsign, hquot, habs]
  rw [leftpad_of_le (show (0 : UInt32).toNat ≤ _ from Nat.zero_le _)]

/-- The absolute value of the remainder of an acceleration. -/
lemma signedText_remainder (x : Int16) (width : UInt32) (zeroPad : Bool) :
    signedText (prvAbs16 (x.toInt32 % 100).toInt16).toInt32 width zeroPad =
      (Nat.toDigits 10 (x.toInt.natAbs % 100)).leftpad width.toNat
        (if zeroPad then '0' else ' ') := by
  have hrem : (x.toInt32 % 100).toInt = x.toInt.tmod 100 := by
    rw [Int32.toInt_mod, Int16.toInt_toInt32]
    rfl
  have habs : (x.toInt.tmod 100).natAbs = x.toInt.natAbs % 100 := Int.natAbs_tmod _ _
  have hlt := Nat.mod_lt x.toInt.natAbs (show 0 < 100 by decide)
  apply signedText_of_nonneg
  rw [toInt_prvAbs16 (by omega) (by omega), hrem, habs]

/-- The last digit of a temperature. -/
lemma signedText_lastDigit (x : Int16) :
    signedText (if x < 0 then (-x.toInt32) % 10 else x.toInt32 % 10) 0 false =
      (Nat.toDigits 10 (x.toInt.natAbs % 10)).leftpad 1 '0' := by
  have hlo := x.le_toInt
  have hhi := x.toInt_lt
  have hneg : (-x.toInt32).toInt = -x.toInt := by
    rw [Int32.toInt_neg, Int16.toInt_toInt32]
    exact Int.bmod_eq_of_le (by omega) (by omega)
  have hdigit : (if x < 0 then (-x.toInt32) % 10 else x.toInt32 % 10).toInt =
      (x.toInt.natAbs % 10 : ℕ) := by
    by_cases h : x < 0
    · have h0 := (int16_lt_zero_iff x).mp h
      rw [if_pos h, Int32.toInt_mod, hneg, show (10 : Int32).toInt = 10 from rfl,
        Int.tmod_eq_emod_of_nonneg (by omega)]
      omega
    · have h0 := Int.not_lt.mp (mt (int16_lt_zero_iff x).mpr h)
      rw [if_neg h, Int32.toInt_mod, Int16.toInt_toInt32, show (10 : Int32).toInt = 10 from rfl,
        Int.tmod_eq_emod_of_nonneg h0]
      omega
  rw [signedText_of_nonneg hdigit, leftpad_of_le (show (0 : UInt32).toNat ≤ _ from Nat.zero_le _),
    leftpad_of_le Nat.length_toDigits_pos]

/-! ### The line -/

/-- The format of `prvPrintFrame`, conversion by conversion. -/
def framePieces : List Piece :=
  [ .plain "[telemetry] seq=".toList, .conv [] true 'u',
    .plain " temp=".toList, .conv [] false 'd', .plain ".".toList, .conv [] false 'd',
    .plain "C ax=".toList, .conv [] false 'd', .plain ".".toList, .conv ['0', '2'] false 'd',
    .plain " ay=".toList, .conv [] false 'd', .plain ".".toList, .conv ['0', '2'] false 'd',
    .plain " az=".toList, .conv [] false 'd', .plain ".".toList, .conv ['0', '2'] false 'd',
    .plain " spd=".toList, .conv [] false 'u', .plain ".".toList, .conv [] false 'u',
    .plain "km/h rpm=".toList, .conv [] false 'u',
    .plain " thr=".toList, .conv [] false 'u', .plain ".".toList, .conv [] false 'u',
    .conv [] false '%', .plain " valid=".toList, .conv [] false 's',
    .plain " tick=".toList, .conv [] true 'u', .plain "\n".toList ]

lemma framePieces_format : framePieces.flatMap Piece.format = frameFormat := by decide +kernel

lemma framePieces_wellFormed : ∀ p ∈ framePieces, p.WellFormed := by decide +kernel

lemma unsignedText_plain (v : UInt32) :
    unsignedText v 10 0 false = Nat.toDigits 10 v.toNat := leftpad_of_le (Nat.zero_le _) _

/-- A reading over a hundred, printed by `%d.%02d`. -/
lemma readingText_hundredths (x : Int16) :
    signedText (x.toInt32 / 100) 0 false ++
        '.' :: signedText (prvAbs16 (x.toInt32 % 100).toInt16).toInt32 2 true =
      readingText 2 x := by
  rw [signedText_quotient x (n := 100) (by decide) rfl, signedText_remainder, List.append_assoc]
  rfl

/-- A reading over ten, printed by `%d.%d`. -/
lemma readingText_tenths (x : Int16) :
    signedText (x.toInt32 / 10) 0 false ++
        '.' :: signedText (if x < 0 then (-x.toInt32) % 10 else x.toInt32 % 10) 0 false =
      readingText 1 x := by
  rw [signedText_quotient x (n := 10) (by decide) rfl, signedText_lastDigit, List.append_assoc]
  rfl

lemma unsignedText_tenths (x : UInt16) :
    Nat.toDigits 10 (x / 10).toUInt32.toNat ++ '.' :: Nat.toDigits 10 (x % 10).toUInt32.toNat =
      tenthsText x := by
  rw [tenthsText, fixedText, leftpad_of_le Nat.length_toDigits_pos]
  simp

lemma render_plain (s : List Char) (ps : List Piece) (args : List Arg) :
    render (.plain s :: ps) args = (render ps args).map (s ++ ·) := rfl

lemma render_unsigned (long : Bool) (ps : List Piece) (w : UInt32) (args : List Arg) :
    render (.conv [] long 'u' :: ps) (.word w :: args) =
      (render ps args).map (Nat.toDigits 10 w.toNat ++ ·) := by
  rw [← unsignedText_plain]
  rfl

lemma render_signed (long : Bool) (ps : List Piece) (v : Int32) (args : List Arg) :
    render (.conv [] long 'd' :: ps) (.word v.toUInt32 :: args) =
      (render ps args).map (signedText v 0 false ++ ·) := rfl

lemma render_signed_padded (long : Bool) (ps : List Piece) (v : Int32) (args : List Arg) :
    render (.conv ['0', '2'] long 'd' :: ps) (.word v.toUInt32 :: args) =
      (render ps args).map (signedText v 2 true ++ ·) := rfl

lemma render_string (long : Bool) (ps : List Piece) (s : List Char) (args : List Arg) :
    render (.conv [] long 's' :: ps) (.text (some s) :: args) =
      (render ps args).map (s ++ ·) := rfl

lemma render_percent (long : Bool) (ps : List Piece) (args : List Arg) :
    render (.conv [] long '%' :: ps) args = (render ps args).map ("%".toList ++ ·) := rfl

lemma point_append (s : List Char) : ".".toList ++ s = '.' :: s := rfl

/-- The text `console_writef` makes of the format and the arguments. -/
lemma render_frame (frame : TelemetryFrame) :
    render framePieces (frameArgs frame) = .ok (frameText frame) := by
  simp only [framePieces, frameArgs, render_plain, render_unsigned, render_signed,
    render_signed_padded, render_string, render_percent, show render [] [] = .ok [] from rfl,
    Except.map]
  refine congrArg Except.ok ?_
  unfold frameText
  rw [← readingText_tenths, ← readingText_hundredths, ← readingText_hundredths,
    ← readingText_hundredths, ← unsignedText_tenths, ← unsignedText_tenths]
  simp only [List.append_assoc, List.cons_append, point_append, UInt16.toNat_toUInt32,
    List.append_nil]

/-! ### The line fits the buffer -/

lemma length_toDigits_le {n : ℕ} (k : ℕ) (hk : 0 < k) (h : n < 10 ^ k) :
    (Nat.toDigits 10 n).length ≤ k := (Nat.length_toDigits_le_iff (by decide) hk).mpr h

lemma length_fixedText {w whole frac : ℕ} (k : ℕ) (hk : 0 < k) (hwhole : whole < 10 ^ k)
    (hw : 0 < w) (hfrac : frac < 10 ^ w) : (fixedText w whole frac).length ≤ k + 1 + w := by
  have hdigits := length_toDigits_le k hk hwhole
  rw [fixedText, List.length_append, List.length_cons, Decimal.length_leftpad hw hfrac]
  omega

lemma length_readingText (x : Int16) :
    (readingText 1 x).length ≤ 7 ∧ (readingText 2 x).length ≤ 7 := by
  have hlo := x.le_toInt
  have hhi := x.toInt_lt
  have hsign : ∀ p : Prop, [Decidable p] → (if p then ['-'] else []).length ≤ 1 := by
    intro p _
    split <;> decide
  refine ⟨?_, ?_⟩
  · have htext := @length_fixedText 1 (x.toInt.natAbs / 10 ^ 1) _ 4 (by decide)
      (by omega) (by decide) (Nat.mod_lt x.toInt.natAbs (by decide))
    rw [readingText, List.length_append]
    exact (Nat.add_le_add (hsign _) htext).trans (by decide)
  · have htext := @length_fixedText 2 (x.toInt.natAbs / 10 ^ 2) _ 3 (by decide)
      (by omega) (by decide) (Nat.mod_lt x.toInt.natAbs (by decide))
    rw [readingText, List.length_append]
    exact (Nat.add_le_add (hsign _) htext).trans (by decide)

lemma length_tenthsText (x : UInt16) : (tenthsText x).length ≤ 6 := by
  have hlt := x.toNat_lt
  exact length_fixedText 4 (by decide) (by omega) (by decide) (Nat.mod_lt _ (by decide))

/-- No frame's line is too long for the buffer. -/
lemma length_frameText (frame : TelemetryFrame) : (frameText frame).length ≤ 255 := by
  have hseq := length_toDigits_le 10 (by decide) (frame.sequence.toNat_lt.trans (by decide))
  have htick := length_toDigits_le 10 (by decide) (frame.tick.toNat_lt.trans (by decide))
  have hrpm := length_toDigits_le 5 (by decide) (frame.rpm.toNat_lt.trans (by decide))
  have htemp := (length_readingText frame.temperatureCX10).1
  have hax := (length_readingText frame.accelXX100).2
  have hay := (length_readingText frame.accelYX100).2
  have haz := (length_readingText frame.accelZX100).2
  have hspd := length_tenthsText frame.speedKmhX10
  have hthr := length_tenthsText frame.throttlePctX10
  have hvalid : (validText frame.valid).length ≤ 3 := by
    cases frame.valid <;> decide
  unfold frameText
  simp only [List.length_append, String.reduceToList, List.length_cons, List.length_nil]
  omega

lemma nul_notMem_leftpad (w n : ℕ) : nul ∉ (Nat.toDigits 10 n).leftpad w '0' := by
  intro h
  exact absurd (Decimal.isDigit_of_mem_leftpad h) (by decide)

lemma nul_notMem_toDigits (n : ℕ) : nul ∉ Nat.toDigits 10 n := by
  intro h
  exact absurd (Decimal.isDigit_of_mem_toDigits h) (by decide)

lemma nul_notMem_fixedText (w whole frac : ℕ) : nul ∉ fixedText w whole frac := by
  intro h
  rcases List.mem_append.mp h with h | h
  · exact nul_notMem_toDigits whole h
  · rcases List.mem_cons.mp h with h | h
    · exact absurd h (by decide)
    · exact nul_notMem_leftpad w frac h

lemma nul_notMem_readingText (w : ℕ) (x : Int16) : nul ∉ readingText w x := by
  intro h
  rcases List.mem_append.mp h with h | h
  · split at h <;> simp [nul] at h
  · exact nul_notMem_fixedText _ _ _ h

lemma nul_notMem_frameText (frame : TelemetryFrame) : nul ∉ frameText frame := by
  have hvalid : nul ∉ validText frame.valid := by
    cases frame.valid <;> decide
  unfold frameText tenthsText
  simp only [List.mem_append, nul_notMem_toDigits, nul_notMem_readingText, nul_notMem_fixedText,
    hvalid, or_false]
  decide

/-- Every frame is printed, complete. -/
lemma prvPrintFrame_text (stack : Vector Char 256) (frame : TelemetryFrame) :
    prvPrintFrame stack frame = .ok (frameText frame) := by
  have hne : frameText frame ≠ [] := by
    unfold frameText
    simp
  rw [prvPrintFrame, ← framePieces_format,
    consoleWritef_pieces framePieces_wellFormed (render_frame frame) hne
      (nul_notMem_frameText frame),
    List.take_of_length_le (length_frameText frame)]

end EcuTelemetry.Firmware
