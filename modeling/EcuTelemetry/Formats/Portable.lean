import EcuTelemetry.Console.Format
import EcuTelemetry.Firmware.FrameText
import EcuTelemetry.Printf.Truncation

/-!
# Formats for both formatters

The two builds have a formatter each, `console_writef` and `mini_vsnprintf`. They differ in the
padding of a negative number, and in the width of a string, which only the second one minds. A
format that stays clear of this is printed alike by both, whatever its arguments; that of
`prvPrintFrame` is one.
-/

namespace EcuTelemetry.Formats

open EcuTelemetry.Core Console

/-! ### Pieces and arguments -/

/-- The number of columns that the digits of a conversion ask for. -/
abbrev columns (digits : List Char) : ℕ := Nat.ofDigitChars 10 digits 0

/-- A piece as `mini_vsnprintf` reads it: a zero in front of the width is a flag. -/
def printfPiece : Console.Piece → Printf.Piece
  | .plain s                 => .plain s
  | .conv digits long letter =>
    if digits.head? = some '0' then .conv false true digits.tail long letter
    else .conv false false digits long letter

/-- An argument as `mini_vsnprintf` takes it. -/
def printfArg : Console.Arg → Printf.Arg
  | .word w => .word w
  | .text s => .text s

/-- What a conversion in a field of `width` columns may get, so that both formatters print it
alike. -/
inductive Takes (width : ℕ) : Char → List Console.Arg → Prop where
  | percent : Takes width '%' []
  | char (w : UInt32) : Takes width 'c' [.word w]
  | unsigned (w : UInt32) : Takes width 'u' [.word w]
  | hex (w : UInt32) : Takes width 'x' [.word w]
  | signed (v : Int32) (h : 0 ≤ v.toInt ∨ width ≤ (Nat.toDigits 10 v.toInt.natAbs).length) :
      Takes width 'd' [.word v.toUInt32]
  | string (s : Option (List Char)) (h : width ≤ (s.getD "(null)".toList).length) :
      Takes width 's' [.text s]

/-- A format with arguments that both formatters print alike. -/
inductive Portable : List Console.Piece → List Console.Arg → Prop where
  | nil (args : List Console.Arg) : Portable [] args
  | plain {ps : List Console.Piece} {args : List Console.Arg} {s : List Char} (hs : '%' ∉ s)
      (h : Portable ps args) : Portable (.plain s :: ps) args
  | conv {ps : List Console.Piece} {used args : List Console.Arg} {digits : List Char}
      {long : Bool} {letter : Char} (hdigits : digits.all Char.isDigit)
      (hwidth : columns digits < 2 ^ 31) (htakes : Takes (columns digits) letter used)
      (h : Portable ps args) : Portable (.conv digits long letter :: ps) (used ++ args)

lemma printfPiece_format (p : Console.Piece) : (printfPiece p).format = p.format := by
  cases p with
  | plain s => rfl
  | conv digits long letter =>
    rw [printfPiece]
    split_ifs with hzero
    · obtain ⟨rest, rfl⟩ := List.head?_eq_some_iff.mp hzero
      simp [Printf.Piece.format, Console.Piece.format]
    · simp [Printf.Piece.format, Console.Piece.format]

/-- The zero is worth nothing. -/
lemma columns_tail {digits : List Char} (h : digits.head? = some '0') :
    columns digits.tail = columns digits := by
  obtain ⟨rest, rfl⟩ := List.head?_eq_some_iff.mp h
  rw [columns, columns, Nat.ofDigitChars_cons]
  rfl

lemma Takes.letter_mem {width : ℕ} {letter : Char} {used : List Console.Arg}
    (h : Takes width letter used) :
    letter ∈ "%scudx".toList ∧ letter ∈ "diuxXpsc%".toList := by
  cases h <;> decide

namespace Portable

section

variable {long : Bool} {ps : List Console.Piece} {args : List Console.Arg}

lemma percent (h : Portable ps args) : Portable (.conv [] long '%' :: ps) args :=
  .conv rfl (by decide) .percent h

lemma unsigned {w : UInt32} (h : Portable ps args) :
    Portable (.conv [] long 'u' :: ps) (.word w :: args) :=
  .conv rfl (by decide) (.unsigned w) h

lemma string {s : Option (List Char)} (h : Portable ps args) :
    Portable (.conv [] long 's' :: ps) (.text s :: args) :=
  .conv rfl (by decide) (.string s (Nat.zero_le _)) h

lemma signed {v : Int32} (h : Portable ps args) :
    Portable (.conv [] long 'd' :: ps) (.word v.toUInt32 :: args) :=
  .conv rfl (by decide) (.signed v (.inr (Nat.zero_le _))) h

/-- A number that is not negative, in a field of two columns. -/
lemma natural {v : Int32} (hv : 0 ≤ v.toInt) (h : Portable ps args) :
    Portable (.conv ['0', '2'] long 'd' :: ps) (.word v.toUInt32 :: args) :=
  .conv (by decide) (by decide) (.signed v (.inl hv)) h

end

variable {ps : List Console.Piece} {args : List Console.Arg}

lemma wellFormed (h : Portable ps args) : ∀ p ∈ ps, p.WellFormed := by
  induction h with
  | nil args => exact List.forall_mem_nil _
  | plain hs _ ih => exact List.forall_mem_cons.mpr ⟨hs, ih⟩
  | conv hdigits _ htakes _ ih =>
    exact List.forall_mem_cons.mpr ⟨⟨hdigits, htakes.letter_mem.1⟩, ih⟩

lemma wellFormed_printf (h : Portable ps args) : ∀ p ∈ ps.map printfPiece, p.WellFormed := by
  induction h with
  | nil args => exact List.forall_mem_nil _
  | plain hs _ ih => exact List.forall_mem_cons.mpr ⟨hs, ih⟩
  | @conv ps used args digits long letter hdigits hwidth htakes _ ih =>
    refine List.forall_mem_cons.mpr ⟨?_, ih⟩
    have hletter := htakes.letter_mem.2
    rw [printfPiece]
    split_ifs with hzero
    · refine ⟨?_, (columns_tail hzero).trans_lt hwidth, .inl rfl, hletter⟩
      exact List.all_eq_true.mpr fun c hc =>
        List.all_eq_true.mp hdigits c (List.mem_of_mem_tail hc)
    · exact ⟨hdigits, hwidth, .inr hzero, hletter⟩

end Portable

/-! ### Conversions -/

lemma digitsText_eq (base n : ℕ) : Printf.digitsText base false n = Nat.toDigits base n :=
  List.map_id _

/-- A field that is full takes no padding. -/
lemma field_of_le {width : ℕ} {s : List Char} (h : width ≤ s.length) (pad : Char) :
    Printf.field false pad width s = s := Firmware.leftpad_of_le h pad

/-- A signed number, not negative or as wide as its field. -/
lemma signedText_alike {v : Int32} {width : ℕ} {w : UInt32} (hw : w.toNat = width)
    (h : 0 ≤ v.toInt ∨ width ≤ (Nat.toDigits 10 v.toInt.natAbs).length) (zero : Bool) :
    Printf.signedText false (if zero then '0' else ' ') width v = Console.signedText v w zero := by
  rw [Printf.signedText, Console.signedText, digitsText_eq, hw]
  by_cases hneg : v < 0
  · have hle : width ≤ (Nat.toDigits 10 v.toInt.natAbs).length :=
      h.resolve_left (Int.not_le.mpr ((Checked.int32_lt_zero_iff v).mp hneg))
    rw [if_pos hneg, if_pos hneg, field_of_le ((Nat.sub_le _ _).trans hle),
      Firmware.leftpad_of_le hle]
    rfl
  · rw [if_neg hneg, if_neg hneg, List.nil_append]
    rfl

/-- A conversion with such arguments is printed alike. -/
lemma conversion_alike {digits : List Char} {letter : Char} {used : List Console.Arg}
    (hwidth : columns digits < 2 ^ 31) (h : Takes (columns digits) letter used) (zero : Bool)
    (rest : List Console.Arg) :
    ∃ s, Console.conversionText zero (UInt32.ofNat (columns digits)) letter (used ++ rest) =
        .ok (rest, s) ∧
      Printf.conversionText false (if zero then '0' else ' ') (columns digits) letter
        ((used ++ rest).map printfArg) = .ok (rest.map printfArg, s) := by
  have hw : (UInt32.ofNat (columns digits)).toNat = columns digits :=
    UInt32.toNat_ofNat_of_lt' (hwidth.trans (by decide))
  have hunsigned (base : UInt32) (w : UInt32) :
      Printf.field false (if zero then '0' else ' ') (columns digits)
          (Printf.digitsText base.toNat false w.toNat) =
        unsignedText w base (UInt32.ofNat (columns digits)) zero := by
    rw [unsignedText, hw, digitsText_eq]
    rfl
  cases h with
  | percent => exact ⟨_, rfl, rfl⟩
  | char w => exact ⟨_, rfl, rfl⟩
  | unsigned w =>
    refine ⟨_, rfl, ?_⟩
    rw [← hunsigned]
    rfl
  | hex w =>
    refine ⟨_, rfl, ?_⟩
    rw [← hunsigned]
    rfl
  | signed v h =>
    refine ⟨_, rfl, ?_⟩
    rw [Int32.toInt32_toUInt32, ← signedText_alike hw h]
    rfl
  | string s h =>
    refine ⟨_, rfl, ?_⟩
    rw [← field_of_le h (if zero then '0' else ' ')]
    rfl

/-! ### Formats -/

lemma render_printfPiece (digits : List Char) (long : Bool) (letter : Char)
    (ps : List Printf.Piece) (args : List Printf.Arg) {rest : List Printf.Arg} {s t : List Char}
    (hs : Printf.conversionText false (if digits.head? = some '0' then '0' else ' ')
      (columns digits) letter args = .ok (rest, s)) (ht : Printf.render ps rest = .ok t) :
    Printf.render (printfPiece (.conv digits long letter) :: ps) args = .ok (s ++ t) := by
  have hpiece : printfPiece (.conv digits long letter) =
      .conv false (digits.head? = some '0')
        (if digits.head? = some '0' then digits.tail else digits) long letter := by
    rw [printfPiece]
    split_ifs with hzero
    · rw [decide_eq_true hzero]
    · rw [decide_eq_false hzero]
  have hwidth : Printf.widthOf (if digits.head? = some '0' then digits.tail else digits) =
      columns digits := by
    split_ifs with hzero
    · exact columns_tail hzero
    · rfl
  rw [hpiece, Printf.render, hwidth]
  simp only [decide_eq_true_eq, hs]
  show (Printf.render ps rest).map (s ++ ·) = _
  rw [ht]
  rfl

/-- Both formatters have the same text for a portable format. -/
lemma Portable.render {ps : List Console.Piece} {args : List Console.Arg} (h : Portable ps args) :
    ∃ s, Console.render ps args = .ok s ∧
      Printf.render (ps.map printfPiece) (args.map printfArg) = .ok s := by
  induction h with
  | nil args => exact ⟨[], rfl, rfl⟩
  | @plain ps args s hs _ ih =>
    obtain ⟨t, hconsole, hprintf⟩ := ih
    refine ⟨s ++ t, ?_, ?_⟩
    · rw [Console.render, hconsole]
      rfl
    · show (Printf.render (ps.map printfPiece) (args.map printfArg)).map (s ++ ·) = _
      rw [hprintf]
      rfl
  | @conv ps used args digits long letter hdigits hwidth htakes _ ih =>
    obtain ⟨t, hconsole, hprintf⟩ := ih
    obtain ⟨s, hs, hs'⟩ :=
      conversion_alike hwidth htakes (digits.head? = some '0') args
    simp only [decide_eq_true_eq] at hs'
    refine ⟨s ++ t, ?_, render_printfPiece digits long letter _ _ hs' hprintf⟩
    rw [Console.render, hs]
    show (Console.render ps args).map (s ++ ·) = _
    rw [hconsole]
    rfl

/-- What `mini_vsnprintf` makes of a portable format. -/
lemma Portable.truncates {ps : List Console.Piece} {args : List Console.Arg} (h : Portable ps args)
    {s : List Char} (hs : Printf.render (ps.map printfPiece) (args.map printfArg) = .ok s)
    (hlen : s.length < 2 ^ 31) (mem : ℕ → Char) {size : UInt32} (hsize : 0 < size) :
    ∃ mem' r, Printf.miniVsnprintf mem size (ps.flatMap Console.Piece.format)
        (args.map printfArg) = .ok (mem', r) ∧ r.toInt = s.length ∧
      Printf.Truncates mem mem' size.toNat s := by
  have hlen' : s.length < 2 ^ 32 := hlen.trans (by decide)
  have hrun := @Printf.miniVsnprintf_eq size _ h.wellFormed_printf _ s hs
    (Printf.textsFit_of_render hs hlen) hlen' mem
  rw [List.flatMap_map] at hrun
  simp only [printfPiece_format, if_pos hsize] at hrun
  exact ⟨_, _, hrun, Printf.toInt_returned hlen, Printf.truncates_foldl hlen' mem hsize⟩

/-- A portable format is printed alike by both formatters: each writes as much of its text as its
buffer takes. -/
theorem formatters_agree {ps : List Console.Piece} {args : List Console.Arg}
    (h : Portable ps args) :
    ∃ s, Console.render ps args = .ok s ∧ (s ≠ [] → nul ∉ s → ∀ stack,
        consoleWritef stack (ps.flatMap Console.Piece.format) args = .ok (s.take 255)) ∧
      (s.length < 2 ^ 31 → ∀ mem (size : UInt32), 0 < size → ∃ mem' r,
        Printf.miniVsnprintf mem size (ps.flatMap Console.Piece.format) (args.map printfArg) =
            .ok (mem', r) ∧ r.toInt = s.length ∧ Printf.Truncates mem mem' size.toNat s) := by
  obtain ⟨s, hconsole, hprintf⟩ := h.render
  refine ⟨s, hconsole, fun hne hnul => consoleWritef_pieces h.wellFormed hconsole hne hnul,
    fun hlen mem size hsize => h.truncates hprintf hlen mem hsize⟩

/-- A number in a field of four columns, the second time with room for four characters. -/
theorem formatters_agree_field :
    consoleWritef (Vector.replicate 256 'x') "x=%04u\n".toList [.word 7] =
        .ok "x=0007\n".toList ∧
      ∃ mem' r, Printf.miniVsnprintf (fun _ => 'x') 5 "x=%04u\n".toList [.word 7] =
          .ok (mem', r) ∧ r.toInt = 7 ∧
        Printf.Truncates (fun _ => 'x') mem' 5 "x=0007\n".toList := by
  have hportable : Portable
      [.plain "x=".toList, .conv ['0', '4'] false 'u', .plain "\n".toList] [.word 7] :=
    .plain (by decide) (.conv (by decide) (by decide) (.unsigned 7) (.plain (by decide) (.nil [])))
  obtain ⟨s, hs, hconsole, hprintf⟩ := formatters_agree hportable
  obtain rfl : "x=0007\n".toList = s := Except.ok.inj (Eq.trans (by decide +kernel) hs)
  exact ⟨hconsole (by decide) (by decide) _, hprintf (by decide) _ 5 (by decide)⟩

/-! ### The line of a frame -/

/-- The remainder of a reading, without its sign. -/
lemma remainder_nonneg (x : Int16) :
    0 ≤ (Firmware.prvAbs16 (x.toInt32 % 100).toInt16).toInt32.toInt := by
  have hrem : (x.toInt32 % 100).toInt = x.toInt.tmod 100 := by
    rw [Int32.toInt_mod, Int16.toInt_toInt32]
    rfl
  have hlo := Int.lt_tmod_of_pos x.toInt (show (0 : ℤ) < 100 by decide)
  have hhi := Int.tmod_lt_of_pos x.toInt (show (0 : ℤ) < 100 by decide)
  rw [Firmware.toInt_prvAbs16 (by omega) (by omega)]
  exact Int.natCast_nonneg _

/-- Whatever the frame, the format of `prvPrintFrame` is portable. -/
lemma portable_frame (frame : Firmware.TelemetryFrame) :
    Portable Firmware.framePieces (Firmware.frameArgs frame) := by
  have hx := remainder_nonneg frame.accelXX100
  have hy := remainder_nonneg frame.accelYX100
  have hz := remainder_nonneg frame.accelZX100
  unfold Firmware.framePieces Firmware.frameArgs
  refine .plain (by decide) (.unsigned ?_)
  refine .plain (by decide) (.signed (.plain (by decide) (.signed ?_)))
  refine .plain (by decide) (.signed (.plain (by decide) (.natural hx ?_)))
  refine .plain (by decide) (.signed (.plain (by decide) (.natural hy ?_)))
  refine .plain (by decide) (.signed (.plain (by decide) (.natural hz ?_)))
  refine .plain (by decide) (.unsigned (.plain (by decide) (.unsigned ?_)))
  refine .plain (by decide) (.unsigned ?_)
  refine .plain (by decide) (.unsigned (.plain (by decide) (.unsigned ?_)))
  refine .percent (.plain (by decide) (.string ?_))
  exact .plain (by decide) (.unsigned (.plain (by decide) (.nil [])))

/-- Whatever the frame, `mini_vsnprintf` leaves as much of the line of `prvPrintFrame` as its buffer
takes, and returns the length of the line. -/
theorem frame_printed_alike (frame : Firmware.TelemetryFrame) (stack : Vector Char 256)
    (mem : ℕ → Char) {size : UInt32} (hsize : 0 < size) :
    ∃ s, Firmware.prvPrintFrame stack frame = .ok s ∧ ∃ mem' r,
      Printf.miniVsnprintf mem size Firmware.frameFormat
          ((Firmware.frameArgs frame).map printfArg) = .ok (mem', r) ∧
        r.toInt = s.length ∧ Printf.Truncates mem mem' size.toNat s := by
  obtain ⟨s, hconsole, hprintf⟩ := (portable_frame frame).render
  obtain rfl : Firmware.frameText frame = s :=
    Except.ok.inj ((Firmware.render_frame frame).symm.trans hconsole)
  have hlen := (Firmware.length_frameText frame).trans_lt (show 255 < 2 ^ 31 by decide)
  refine ⟨_, Firmware.prvPrintFrame_text stack frame, ?_⟩
  rw [← Firmware.framePieces_format]
  exact (portable_frame frame).truncates hprintf hlen mem hsize

/-- A frame in a buffer of eight places. -/
theorem frame_printed_alike_short :
    ∃ s, Firmware.prvPrintFrame (Vector.replicate 256 nul)
        (Firmware.prvProcessSample (Firmware.prvMakeSample 1 .none 100) 101) = .ok s ∧
      ∃ mem' r, Printf.miniVsnprintf (fun _ => 'x') 8 Firmware.frameFormat
          ((Firmware.frameArgs (Firmware.prvProcessSample
            (Firmware.prvMakeSample 1 .none 100) 101)).map printfArg) = .ok (mem', r) ∧
        r.toInt = s.length ∧ Printf.Truncates (fun _ => 'x') mem' 8 s :=
  frame_printed_alike _ _ _ (by decide)

end EcuTelemetry.Formats
