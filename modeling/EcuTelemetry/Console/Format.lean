import EcuTelemetry.Console.Append
import EcuTelemetry.Core.Decimal

/-!
# Formatted console output

`console_writef` and the buffer it hands to `prvWriteBuffer`. A format is a C string without its
terminator; on the target `int`, `long` and their unsigned kin are one 32-bit word each, so the `l`
modifier is scanned and changes nothing. What C leaves undefined is an outcome of its own.
-/

namespace EcuTelemetry.Console

/-- A variadic argument: a word, or a pointer to a C string, which may be null. -/
inductive Arg where
  | word (w : UInt32)
  | text (s : Option (List Char))
  deriving DecidableEq, Repr

/-- Behaviour without a meaning in C. -/
inductive Undefined where
  | pastFormat
  | noArgument
  | pastBuffer
  deriving DecidableEq, Repr

/-- `va_arg` for a word. -/
def vaWord : List Arg → Except Undefined (UInt32 × List Arg)
  | .word w :: args => .ok (w, args)
  | _               => .error .noArgument

/-- `va_arg` for a pointer to text. -/
def vaText : List Arg → Except Undefined (Option (List Char) × List Arg)
  | .text s :: args => .ok (s, args)
  | _               => .error .noArgument

/-! ### The scan of a conversion -/

/-- The loop over the digits of a width. -/
def scanWidth (width : UInt32) : List Char → UInt32 × List Char
  | []       => (width, [])
  | c :: fmt =>
    if '0' ≤ c ∧ c ≤ '9' then
      scanWidth (width * 10 + UInt32.ofNat (c.toNat - '0'.toNat)) fmt
    else (width, c :: fmt)

/-- The flag in front of a width. -/
def scanZero : List Char → Bool × List Char
  | '0' :: fmt => (true, fmt)
  | fmt        => (false, fmt)

/-- The length modifier. -/
def scanLong : List Char → List Char
  | 'l' :: fmt => fmt
  | fmt        => fmt

/-- `zero_pad`, `width` and the format from the conversion character on. -/
def scanFlags (fmt : List Char) : Bool × UInt32 × List Char :=
  let (zeroPad, fmt) := scanZero fmt
  let (width, fmt) := scanWidth 0 fmt
  (zeroPad, width, scanLong fmt)

lemma scanWidth_suffix (width : UInt32) (fmt : List Char) : (scanWidth width fmt).2 <:+ fmt := by
  induction fmt generalizing width with
  | nil           => exact List.suffix_refl _
  | cons c fmt ih =>
    rw [scanWidth]
    split
    · exact (ih _).trans (List.suffix_cons c fmt)
    · exact List.suffix_refl _

lemma scanFlags_suffix (fmt : List Char) : (scanFlags fmt).2.2 <:+ fmt := by
  have hzero : (scanZero fmt).2 <:+ fmt := by
    unfold scanZero
    split
    · exact List.suffix_cons _ _
    · exact List.suffix_refl _
  have hlong : ∀ rest, scanLong rest <:+ rest := by
    intro rest
    unfold scanLong
    split
    · exact List.suffix_cons _ _
    · exact List.suffix_refl _
  exact (hlong _).trans ((scanWidth_suffix 0 _).trans hzero)

/-! ### `console_writef` -/

/-- The `switch` on the conversion character: the buffer and the arguments left. -/
def convert (zeroPad : Bool) (width : UInt32) (letter : Char) (args : List Arg)
    (b : Buffer 256) : Except Undefined (List Arg × Buffer 256) :=
  match letter with
  | '%' => .ok (args, prvAppendChar b '%')
  | 's' => do
    let (text, args) ← vaText args
    return (args, prvAppendString b text)
  | 'c' => do
    let (w, args) ← vaWord args
    return (args, prvAppendChar b (Char.ofNat (w.toNat % 256)))
  | 'u' => do
    let (w, args) ← vaWord args
    return (args, prvAppendUnsigned b w 10 width zeroPad)
  | 'd' => do
    let (w, args) ← vaWord args
    return (args, prvAppendSigned b w.toInt32 width zeroPad)
  | 'x' => do
    let (w, args) ← vaWord args
    return (args, prvAppendUnsigned b w 16 width zeroPad)
  | c   => .ok (args, prvAppendChar (prvAppendChar b '%') c)

/-- The loop of `console_writef`. When the format ends inside a conversion the terminator is taken
for the conversion character, and the scan goes on behind it. -/
def writefLoop : List Char → List Arg → Buffer 256 → Except Undefined (Buffer 256)
  | [], _, b          => .ok b
  | c :: fmt, args, b =>
    if c ≠ '%' then writefLoop fmt args (prvAppendChar b c)
    else
      match _hscan : scanFlags fmt with
      | (_, _, [])                       => .error .pastFormat
      | (zeroPad, width, letter :: rest) => do
        let (args, b) ← convert zeroPad width letter args b
        writefLoop rest args b
termination_by fmt => fmt.length
decreasing_by
  · exact Nat.lt_succ_self _
  · have hle := (scanFlags_suffix fmt).length_le
    rw [_hscan] at hle
    exact Nat.lt_succ_of_lt (Nat.lt_of_succ_le hle)

/-- `prvWriteBuffer`: the C string in the buffer goes to the console and to the log. -/
def prvWriteBuffer {size : ℕ} (cells : Vector Char size) : Except Undefined (List Char) :=
  if nul ∈ cells.toList then .ok (cells.toList.takeWhile (· ≠ nul)) else .error .pastBuffer

/-- `console_writef`, when `stack` is what its buffer holds on entry: the text written. -/
def consoleWritef (stack : Vector Char 256) (fmt : List Char) (args : List Arg) :
    Except Undefined (List Char) := do
  let b ← writefLoop fmt args ⟨stack, 0, by decide⟩
  prvWriteBuffer b.cells

/-! ### Formats made of complete conversions -/

/-- The text of a conversion and the arguments left. -/
def conversionText (zeroPad : Bool) (width : UInt32) (letter : Char) (args : List Arg) :
    Except Undefined (List Arg × List Char) :=
  match letter with
  | '%' => .ok (args, ['%'])
  | 's' => do
    let (text, args) ← vaText args
    return (args, text.getD "(null)".toList)
  | 'c' => do
    let (w, args) ← vaWord args
    return (args, [Char.ofNat (w.toNat % 256)])
  | 'u' => do
    let (w, args) ← vaWord args
    return (args, unsignedText w 10 width zeroPad)
  | 'd' => do
    let (w, args) ← vaWord args
    return (args, signedText w.toInt32 width zeroPad)
  | 'x' => do
    let (w, args) ← vaWord args
    return (args, unsignedText w 16 width zeroPad)
  | c   => .ok (args, ['%', c])

/-- Every conversion appends its text. -/
lemma convert_eq (zeroPad : Bool) (width : UInt32) (letter : Char) (args : List Arg)
    (b : Buffer 256) :
    convert zeroPad width letter args b =
      (conversionText zeroPad width letter args).map fun r => (r.1, r.2.foldl prvAppendChar b) := by
  unfold convert conversionText
  split
  case h_2 =>
    cases vaText args <;> rfl
  case h_4 =>
    cases vaWord args with
    | error e => rfl
    | ok r    =>
      show Except.ok (r.2, prvAppendUnsigned b r.1 10 width zeroPad) = _
      rw [prvAppendUnsigned_eq (.inl rfl)]
      rfl
  case h_5 =>
    cases vaWord args with
    | error e => rfl
    | ok r    =>
      show Except.ok (r.2, prvAppendSigned b r.1.toInt32 width zeroPad) = _
      rw [prvAppendSigned_eq]
      rfl
  case h_6 =>
    cases vaWord args with
    | error e => rfl
    | ok r    =>
      show Except.ok (r.2, prvAppendUnsigned b r.1 16 width zeroPad) = _
      rw [prvAppendUnsigned_eq (.inr rfl)]
      rfl
  case h_3 => cases vaWord args <;> rfl
  case h_1 => rfl
  case h_7 => rfl

/-- A stretch of plain text, or a conversion: the digits after its `%`, the modifier, the letter. -/
inductive Piece where
  | plain (s : List Char)
  | conv (digits : List Char) (long : Bool) (letter : Char)
  deriving DecidableEq, Repr

/-- The characters of a piece in the format. -/
def Piece.format : Piece → List Char
  | .plain s                 => s
  | .conv digits long letter => '%' :: (digits ++ (if long then ['l'] else []) ++ [letter])

/-- Plain text has no `%`, and a conversion is complete. -/
def Piece.WellFormed : Piece → Prop
  | .plain s              => '%' ∉ s
  | .conv digits _ letter => digits.all Char.isDigit ∧ letter ∈ "%scudx".toList

instance : DecidablePred Piece.WellFormed
  | .plain s              => inferInstanceAs (Decidable ('%' ∉ s))
  | .conv digits _ letter =>
    inferInstanceAs (Decidable (digits.all Char.isDigit ∧ letter ∈ "%scudx".toList))

/-- The full text of a format, before it meets any buffer. -/
def render : List Piece → List Arg → Except Undefined (List Char)
  | [], _                        => .ok []
  | .plain s :: ps, args         => (render ps args).map (s ++ ·)
  | .conv digits _ letter :: ps, args => do
    let (args, s) ←
      conversionText (digits.head? = some '0') (UInt32.ofNat (Nat.ofDigitChars 10 digits 0)) letter
        args
    (render ps args).map (s ++ ·)

/-- The width is the value of its digits, modulo `2 ^ 32`. -/
lemma scanWidth_digits {digits rest : List Char} (hdigits : ∀ c ∈ digits, c.isDigit)
    (hrest : ∀ c ∈ rest.head?, ¬ c.isDigit) (n : ℕ) :
    scanWidth (UInt32.ofNat n) (digits ++ rest) =
      (UInt32.ofNat (Nat.ofDigitChars 10 digits n), rest) := by
  induction digits generalizing n with
  | nil               =>
    cases rest with
    | nil        => rfl
    | cons c fmt =>
      rw [List.nil_append, scanWidth, if_neg]
      · rfl
      · rw [Core.Decimal.isDigit_iff]
        exact hrest c rfl
  | cons c digits ih =>
    rw [List.cons_append, scanWidth,
      if_pos ((Core.Decimal.isDigit_iff c).mpr (hdigits c List.mem_cons_self)),
      Nat.ofDigitChars_cons, ← ih fun a ha => hdigits a (List.mem_cons_of_mem c ha)]
    congr 1
    rw [Nat.mul_comm]
    simp

lemma scanZero_of_ne {fmt : List Char} (h : fmt.head? ≠ some '0') :
    scanZero fmt = (false, fmt) := by
  unfold scanZero
  split
  · exact absurd rfl h
  · rfl

lemma scanLong_modifier {letter : Char} (hl : letter ≠ 'l') (long : Bool) (rest : List Char) :
    scanLong ((if long then ['l'] else []) ++ letter :: rest) = letter :: rest := by
  cases long with
  | true  => rfl
  | false =>
    show scanLong (letter :: rest) = letter :: rest
    unfold scanLong
    split
    · rename_i heq
      exact absurd (List.cons.inj heq).1 hl
    · rfl

/-- The scan of a complete conversion ends at its letter. -/
lemma scanFlags_conv {digits : List Char} {letter : Char} (hdigits : ∀ c ∈ digits, c.isDigit)
    (hletter : letter ∈ "%scudx".toList) (long : Bool) (rest : List Char) :
    scanFlags (digits ++ ((if long then ['l'] else []) ++ letter :: rest)) =
      (decide (digits.head? = some '0'), UInt32.ofNat (Nat.ofDigitChars 10 digits 0),
        letter :: rest) := by
  have hletters : "%scudx".toList.all (fun a => a.isDigit = false ∧ a ≠ 'l') := by decide
  obtain ⟨hd, hl⟩ := of_decide_eq_true (List.all_eq_true.mp hletters letter hletter)
  have hstop : ∀ c ∈ ((if long then ['l'] else []) ++ letter :: rest).head?, ¬ c.isDigit := by
    rintro c hc
    cases long with
    | true  =>
      obtain rfl : 'l' = c := Option.some.inj hc
      decide
    | false =>
      obtain rfl : letter = c := Option.some.inj hc
      rw [hd]
      decide
  have hscan := fun ds (h : ∀ c ∈ ds, Char.isDigit c = true) => scanWidth_digits h hstop 0
  by_cases hzero : digits.head? = some '0'
  · obtain ⟨ds, rfl⟩ := List.head?_eq_some_iff.mp hzero
    show (true, (scanWidth (UInt32.ofNat 0) (ds ++ _)).1,
      scanLong (scanWidth (UInt32.ofNat 0) (ds ++ _)).2) = _
    rw [hscan ds fun c hc => hdigits c (List.mem_cons_of_mem _ hc), scanLong_modifier hl]
    rfl
  · have hhead : (digits ++ ((if long then ['l'] else []) ++ letter :: rest)).head? ≠ some '0' := by
      cases digits with
      | nil       =>
        intro h
        exact hstop '0' h (by decide)
      | cons c ds => exact hzero
    rw [scanFlags, scanZero_of_ne hhead]
    show (false, (scanWidth (UInt32.ofNat 0) (digits ++ _)).1,
      scanLong (scanWidth (UInt32.ofNat 0) (digits ++ _)).2) = _
    rw [hscan digits hdigits, scanLong_modifier hl, decide_eq_false hzero]

/-! ### From the format to the text written -/

lemma writefLoop_plain {s : List Char} (h : '%' ∉ s) (fmt : List Char) (args : List Arg)
    (b : Buffer 256) :
    writefLoop (s ++ fmt) args b = writefLoop fmt args (s.foldl prvAppendChar b) := by
  induction s generalizing b with
  | nil         => rfl
  | cons c s ih =>
    rw [List.mem_cons, not_or] at h
    rw [List.cons_append, writefLoop, if_pos (Ne.symm h.1), ih h.2, List.foldl_cons]

/-- A conversion whose scan comes to the end of the format. -/
lemma writefLoop_cut {fmt : List Char} (h : (scanFlags fmt).2.2 = []) (args : List Arg)
    (b : Buffer 256) : writefLoop ('%' :: fmt) args b = .error .pastFormat := by
  rw [writefLoop, if_neg (not_not.mpr rfl)]
  split
  · rfl
  · rename_i heq
    rw [heq] at h
    exact absurd h (List.cons_ne_nil _ _)

/-- A conversion whose scan comes to a letter. -/
lemma writefLoop_convert {fmt rest : List Char} {letter : Char}
    (h : (scanFlags fmt).2.2 = letter :: rest) (args : List Arg) (b : Buffer 256) :
    writefLoop ('%' :: fmt) args b =
      convert (scanFlags fmt).1 (scanFlags fmt).2.1 letter args b
        >>= fun r => writefLoop rest r.1 r.2 := by
  rw [writefLoop, if_neg (not_not.mpr rfl)]
  split
  · rename_i heq
    rw [heq] at h
    exact absurd h.symm (List.cons_ne_nil _ _)
  · rename_i heq
    rw [heq] at h ⊢
    obtain ⟨rfl, rfl⟩ := List.cons.inj h
    rfl

lemma writefLoop_conv {digits : List Char} {letter : Char} (hdigits : ∀ c ∈ digits, c.isDigit)
    (hletter : letter ∈ "%scudx".toList) (long : Bool) (fmt : List Char) (args : List Arg)
    (b : Buffer 256) :
    writefLoop ((Piece.conv digits long letter).format ++ fmt) args b =
      convert (digits.head? = some '0') (UInt32.ofNat (Nat.ofDigitChars 10 digits 0)) letter args b
        >>= fun r => writefLoop fmt r.1 r.2 := by
  have hformat : (Piece.conv digits long letter).format ++ fmt =
      '%' :: (digits ++ ((if long then ['l'] else []) ++ letter :: fmt)) := by
    simp [Piece.format]
  have hscan := scanFlags_conv hdigits hletter long fmt
  rw [hformat, writefLoop_convert (by rw [hscan]), hscan]

/-- The loop writes the full text into the buffer, as far as it fits. -/
theorem writefLoop_pieces {ps : List Piece} (hps : ∀ p ∈ ps, p.WellFormed) (args : List Arg)
    (b : Buffer 256) :
    writefLoop (ps.flatMap Piece.format) args b =
      (render ps args).map fun s => s.foldl prvAppendChar b := by
  induction ps generalizing args b with
  | nil          => simp [writefLoop, render, Except.map]
  | cons p ps ih =>
    have hp := hps p List.mem_cons_self
    have ih := ih fun q hq => hps q (List.mem_cons_of_mem p hq)
    cases p with
    | plain s                  =>
      rw [List.flatMap_cons, Piece.format, writefLoop_plain hp, ih, render]
      cases render ps args with
      | error e => rfl
      | ok t    => simp [Except.map]
    | conv digits long letter  =>
      rw [List.flatMap_cons, writefLoop_conv (List.all_eq_true.mp hp.1) hp.2, convert_eq, render]
      cases conversionText (digits.head? = some '0')
        (UInt32.ofNat (Nat.ofDigitChars 10 digits 0)) letter args with
      | error e => rfl
      | ok r    =>
        show writefLoop (ps.flatMap Piece.format) r.1 (r.2.foldl prvAppendChar b) =
          ((render ps r.1).map (r.2 ++ ·)).map _
        rw [ih]
        cases render ps r.1 with
        | error e => rfl
        | ok t    => simp [Except.map]

/-- A terminated buffer is its text, the terminator and what the stack left behind it. -/
lemma Buffer.Terminated.cells_eq {size : ℕ} {b : Buffer size} (h : b.Terminated) :
    b.cells.toList = b.text ++ nul :: b.cells.toList.drop (b.used + 1) := by
  have hsome : b.cells.toList[b.used]? = some nul := h
  obtain ⟨hlt, hget⟩ := List.getElem?_eq_some_iff.mp hsome
  rw [Buffer.text, ← hget, List.getElem_cons_drop, List.take_append_drop]

/-- The C string in a terminated buffer is its text. -/
lemma Buffer.Terminated.cString {size : ℕ} {b : Buffer size} (h : b.Terminated)
    (hnul : nul ∉ b.text) :
    nul ∈ b.cells.toList ∧ b.cells.toList.takeWhile (· ≠ nul) = b.text := by
  have htext : ∀ c ∈ b.text, decide (c ≠ nul) = true := by
    intro c hc
    refine decide_eq_true ?_
    rintro rfl
    exact hnul hc
  rw [h.cells_eq, List.takeWhile_append_of_pos htext]
  simp

/-- The text in the buffer is what is written, when it is not empty and has no terminator inside. -/
lemma prvWriteBuffer_terminated {size : ℕ} {b : Buffer size} (hterm : b.Terminated)
    (hnul : nul ∉ b.text) : prvWriteBuffer b.cells = .ok b.text := by
  obtain ⟨hmem, htext⟩ := hterm.cString hnul
  rw [prvWriteBuffer, if_pos hmem, htext]

/-- Appending a text that is not empty terminates the buffer behind its first 255 characters. -/
lemma foldl_prvAppendChar_stack {s : List Char} (hne : s ≠ []) (stack : Vector Char 256) :
    (s.foldl prvAppendChar (⟨stack, 0, by decide⟩ : Buffer 256)).text = s.take 255 ∧
      (s.foldl prvAppendChar (⟨stack, 0, by decide⟩ : Buffer 256)).Terminated := by
  constructor
  · rw [foldl_prvAppendChar_text]
    rfl
  · obtain ⟨c, t, rfl⟩ := List.exists_cons_of_ne_nil hne
    have hroom : 0 + 1 < 256 := by decide
    exact foldl_prvAppendChar_terminated t (prvAppendChar_terminated c (.inl hroom))

/-- A text that is not empty is written up to its first 255 characters. -/
theorem consoleWritef_pieces {ps : List Piece} (hps : ∀ p ∈ ps, p.WellFormed) {args : List Arg}
    {s : List Char} (hs : render ps args = .ok s) (hne : s ≠ []) (hnul : nul ∉ s)
    (stack : Vector Char 256) :
    consoleWritef stack (ps.flatMap Piece.format) args = .ok (s.take 255) := by
  obtain ⟨htext, hterm⟩ := foldl_prvAppendChar_stack hne stack
  rw [consoleWritef, writefLoop_pieces hps, hs]
  show prvWriteBuffer (s.foldl prvAppendChar (⟨stack, 0, by decide⟩ : Buffer 256)).cells = _
  rw [prvWriteBuffer_terminated hterm, htext]
  rw [htext]
  intro h
  exact hnul (List.mem_of_mem_take h)

end EcuTelemetry.Console
