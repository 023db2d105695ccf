import EcuTelemetry.Core.Decimal
import EcuTelemetry.Printf.Basic

/-!
# The full rendering of a format

Formats made of plain text and complete specifications, and the text they stand for, before it meets
any buffer. `mini_vsnprintf` offers this text to `buf_putc` character by character.
-/

namespace EcuTelemetry.Printf

open EcuTelemetry.Core EcuTelemetry.Core.Checked

/-! ### Renderings -/

/-- A text in a field of `width` columns. -/
def field (leftAlign : Bool) (pad : Char) (width : ℕ) (s : List Char) : List Char :=
  if leftAlign then s.rightpad width ' ' else s.leftpad width pad

/-- The digits of a number. -/
def digitsText (base : ℕ) (upper : Bool) (n : ℕ) : List Char :=
  (Nat.toDigits base n).map fun c => if upper then c.toUpper else c

/-- The text of a signed conversion: the sign stands in front of the field of the digits. -/
def signedText (leftAlign : Bool) (pad : Char) (width : ℕ) (val : Int32) : List Char :=
  if val < 0 then '-' :: field leftAlign pad (width - 1) (digitsText 10 false val.toInt.natAbs)
  else field leftAlign pad width (digitsText 10 false val.toInt.natAbs)

/-- The text of a conversion and the arguments left. -/
def conversionText (leftAlign : Bool) (pad : Char) (width : ℕ) (letter : Char) (args : List Arg) :
    Except Undefined (List Arg × List Char) :=
  match letter with
  | 'd' | 'i' => do
    let (w, args) ← vaWord args
    return (args, signedText leftAlign pad width w.toInt32)
  | 'u' => do
    let (w, args) ← vaWord args
    return (args, field leftAlign pad width (digitsText 10 false w.toNat))
  | 'x' => do
    let (w, args) ← vaWord args
    return (args, field leftAlign pad width (digitsText 16 false w.toNat))
  | 'X' => do
    let (w, args) ← vaWord args
    return (args, field leftAlign pad width (digitsText 16 true w.toNat))
  | 'p' => do
    let (w, args) ← vaWord args
    return (args, '0' :: 'x' :: field false '0' 8 (digitsText 16 false w.toNat))
  | 's' => do
    let (s, args) ← vaText args
    return (args, field leftAlign pad width (s.getD nullText))
  | 'c' => do
    let (w, args) ← vaWord args
    return (args, [Char.ofNat (w.toNat % 256)])
  | _   => .ok (args, ['%'])

/-- A stretch of plain text, or a specification: its flags, the digits of its width, its modifier
and its letter. -/
inductive Piece where
  | plain (s : List Char)
  | conv (leftAlign zero : Bool) (digits : List Char) (long : Bool) (letter : Char)
  deriving DecidableEq, Repr

/-- The characters of a piece in the format. -/
def Piece.format : Piece → List Char
  | .plain s => s
  | .conv leftAlign zero digits long letter =>
    '%' :: ((if leftAlign then ['-'] else []) ++ ((if zero then ['0'] else []) ++ (digits ++
      ((if long then ['l'] else []) ++ [letter]))))

/-- The width that digits stand for. -/
def widthOf (digits : List Char) : ℕ := Nat.ofDigitChars 10 digits 0

/-- Plain text has no `%`. A specification is complete, its width is an `int` and starts with a zero
only behind the flag. -/
def Piece.WellFormed : Piece → Prop
  | .plain s                      => '%' ∉ s
  | .conv _ zero digits _ letter =>
    digits.all Char.isDigit ∧ widthOf digits < 2 ^ 31 ∧ (zero ∨ digits.head? ≠ some '0') ∧
      letter ∈ "diuxXpsc%".toList

instance : DecidablePred Piece.WellFormed
  | .plain s                     => inferInstanceAs (Decidable ('%' ∉ s))
  | .conv _ zero digits _ letter =>
    inferInstanceAs (Decidable (digits.all Char.isDigit ∧ widthOf digits < 2 ^ 31 ∧
      (zero ∨ digits.head? ≠ some '0') ∧ letter ∈ "diuxXpsc%".toList))

/-- The full text of a format. -/
def render : List Piece → List Arg → Except Undefined (List Char)
  | [], _                => .ok []
  | .plain s :: ps, args => (render ps args).map (s ++ ·)
  | .conv leftAlign zero digits _ letter :: ps, args => do
    let (args, s) ←
      conversionText leftAlign (if zero then '0' else ' ') (widthOf digits) letter args
    (render ps args).map (s ++ ·)

/-- The strings that are printed have lengths that fit an `int`. -/
def TextsFit : List Piece → List Arg → Prop
  | [], _                => True
  | .plain _ :: ps, args => TextsFit ps args
  | .conv leftAlign zero digits _ letter :: ps, args =>
    (letter = 's' → ∀ s rest, vaText args = .ok (s, rest) → (s.getD nullText).length < 2 ^ 31) ∧
      ∀ args' t, conversionText leftAlign (if zero then '0' else ' ') (widthOf digits) letter
        args = .ok (args', t) → TextsFit ps args'

/-! ### Fields -/

variable {size : UInt32}

lemma padLoop_eq (pad : Char) (n : ℕ) (o : Out) :
    padLoop size pad n o = (List.replicate n pad).foldl (bufPutc size) o := by
  induction n generalizing o with
  | zero => rfl
  | succ n ih => rw [padLoop, ih, List.replicate_succ, List.foldl_cons]

/-- The padding loops make a field. -/
lemma putPadded_eq (o : Out) (s : List Char) (width : ℕ) (leftAlign : Bool) (pad : Char) :
    putPadded size o s s.length width leftAlign pad =
      (field leftAlign pad width s).foldl (bufPutc size) o := by
  have hcount : (if (width : ℤ) > s.length then ((width : ℤ) - s.length).toNat else 0) =
      width - s.length := by
    split_ifs <;> omega
  cases leftAlign with
  | true =>
    simp only [putPadded, hcount, if_true, padLoop_eq, field, List.rightpad, List.foldl_append]
  | false =>
    simp only [putPadded, hcount, Bool.false_eq_true, if_false, padLoop_eq, field, List.leftpad,
      List.foldl_append]

/-- The tables hold the digits. -/
lemma digitTable_get (upper : Bool) {d : ℕ} (h : d < 16) :
    (digitTable upper)[d]? = some (if upper then d.digitChar.toUpper else d.digitChar) := by
  have hall : ∀ d < 16, ∀ upper : Bool,
      (digitTable upper)[d]? = some (if upper then d.digitChar.toUpper else d.digitChar) := by
    decide
  exact hall d h upper

lemma tmpLoop_zero (digits : List Char) (base : UInt32) (room : ℕ) :
    tmpLoop digits base room 0 = .ok [] := by
  rw [tmpLoop.eq_def]
  exact if_pos rfl

/-- The loop over `tmp` ends on its own when the digits fit, and leaves them lowest first. -/
lemma tmpLoop_eq {base : UInt32} (hbase : base = 10 ∨ base = 16) (upper : Bool) (room : ℕ)
    {val : UInt32} (hval : val ≠ 0) (h : val.toNat < base.toNat ^ room) :
    ∃ tmp, tmpLoop (digitTable upper) base room val = .ok tmp ∧
      tmp.reverse = digitsText base.toNat upper val.toNat := by
  have hlo : 1 < base.toNat := by rcases hbase with rfl | rfl <;> decide
  have hhi : base.toNat ≤ 16 := by rcases hbase with rfl | rfl <;> decide
  have hpos : 0 < val.toNat := Nat.pos_of_ne_zero fun h0 => hval (UInt32.toNat_inj.mp h0)
  induction room generalizing val with
  | zero =>
    rw [Nat.pow_zero] at h
    omega
  | succ room ih =>
    have hdigit := digitTable_get upper
      ((Nat.mod_lt val.toNat (Nat.zero_lt_of_lt hlo)).trans_le hhi)
    rw [← UInt32.toNat_mod] at hdigit
    rw [tmpLoop.eq_def]
    simp only [if_neg hval, hdigit]
    by_cases hlast : val / base = 0
    · have hlt : val.toNat < base.toNat := by
        have hquot : val.toNat / base.toNat = 0 := by
          rw [← UInt32.toNat_div, hlast, UInt32.toNat_zero]
        exact (Nat.div_eq_zero_iff_lt (Nat.zero_lt_of_lt hlo)).mp hquot
      refine ⟨_, by rw [hlast, tmpLoop_zero]; rfl, ?_⟩
      rw [digitsText, Nat.toDigits_of_lt_base hlt, UInt32.toNat_mod, Nat.mod_eq_of_lt hlt]
      rfl
    · have hquot : (val / base).toNat < base.toNat ^ room := by
        rw [UInt32.toNat_div]
        exact Nat.div_lt_of_lt_mul (by rwa [← Nat.pow_succ'])
      have hle : base.toNat ≤ val.toNat := by
        by_contra hlt
        refine hlast (UInt32.toNat_inj.mp ?_)
        rw [UInt32.toNat_div, UInt32.toNat_zero]
        exact Nat.div_eq_of_lt (Nat.lt_of_not_le hlt)
      have hpos' : 0 < (val / base).toNat :=
        Nat.pos_of_ne_zero fun h0 => hlast (UInt32.toNat_inj.mp h0)
      obtain ⟨tmp, htmp, hrev⟩ := ih hlast hquot hpos'
      refine ⟨_, by rw [htmp]; rfl, ?_⟩
      rw [List.reverse_cons, hrev, digitsText, digitsText, UInt32.toNat_div, UInt32.toNat_mod,
        Nat.toDigits_of_base_le hlo hle, List.map_append]
      rfl

/-- `fmt_uint` writes the digits in a field. -/
lemma fmtUint_eq {base : UInt32} (hbase : base = 10 ∨ base = 16) (o : Out) (val : UInt32)
    (upper : Bool) (width : ℕ) (pad : Char) (leftAlign : Bool) :
    fmtUint size o val base upper width pad leftAlign =
      .ok ((field leftAlign pad width (digitsText base.toNat upper val.toNat)).foldl
        (bufPutc size) o) := by
  by_cases hval : val = 0
  · subst hval
    have hzero : digitsText base.toNat upper (0 : UInt32).toNat = ['0'] := by
      rcases hbase with rfl | rfl <;> cases upper <;> decide
    rw [hzero, ← putPadded_eq]
    rfl
  · obtain ⟨tmp, htmp, hrev⟩ := tmpLoop_eq hbase upper 32 hval
      (by
        have hlt := val.toNat_lt
        rcases hbase with rfl | rfl <;> exact hlt.trans_le (by decide))
    rw [← hrev, ← putPadded_eq, List.length_reverse, fmtUint, if_neg hval, htmp]
    rfl

/-! ### Conversions -/

lemma int_ok {x : ℤ} (h : -2 ^ 31 ≤ x ∧ x < 2 ^ 31) : int x = .ok x := by
  rw [int, signed_ok h]
  rfl

/-- The branches of the signed conversions: a minus sign takes a column of the field. -/
lemma fmtUint_signed (o : Out) (val : Int32) (width : ℕ) (pad : Char) (leftAlign : Bool) :
    (if val < 0 then
      fmtUint size (bufPutc size o '-') (-val).toUInt32 10 false
        (if (width : ℤ) > 0 then (width : ℤ) - 1 else width) pad leftAlign
    else fmtUint size o val.toUInt32 10 false width pad leftAlign) =
      .ok ((signedText leftAlign pad width val).foldl (bufPutc size) o) := by
  have hmag := toNat_magnitude val
  by_cases hneg : val < 0
  · have hwidth : (if (width : ℤ) > 0 then (width : ℤ) - 1 else width) = ((width - 1 : ℕ) : ℤ) := by
      split_ifs <;> omega
    rw [if_pos hneg] at hmag ⊢
    rw [hwidth, fmtUint_eq (.inl rfl), hmag, signedText, if_pos hneg]
    rfl
  · rw [if_neg hneg] at hmag ⊢
    rw [fmtUint_eq (.inl rfl), hmag, signedText, if_neg hneg]
    rfl

/-- `buf_puts_n` writes the text in a field. -/
lemma bufPutsN_eq (o : Out) {s : List Char} (hs : s.length < 2 ^ 31) (width : ℕ)
    (leftAlign : Bool) (pad : Char) :
    bufPutsN size o s width leftAlign pad =
      .ok ((field leftAlign pad width s).foldl (bufPutc size) o) := by
  rw [bufPutsN, int_ok (by omega), ← putPadded_eq]
  rfl

/-- A conversion that takes an argument and then writes a text for it. -/
lemma bind_write {α : Type} {o : Out} (r : Except Undefined (α × List Arg))
    {write : α → Except Undefined Out} {text : α → List Char}
    (h : ∀ a args, r = .ok (a, args) → write a = .ok ((text a).foldl (bufPutc size) o)) :
    (r >>= fun p => write p.1 >>= fun o => pure (p.2, o)) =
      (r >>= fun p => pure (p.2, text p.1)).map fun r => (r.1, r.2.foldl (bufPutc size) o) := by
  cases r with
  | error e => rfl
  | ok p =>
    show (write p.1 >>= fun o => pure (p.2, o)) = _
    rw [h p.1 p.2 rfl]
    rfl

/-- The letters of complete specifications take their arguments from the list and write their text;
the length of a text is to fit an `int`. -/
lemma convert_eq {letter : Char} (hletter : letter ∈ "diuxXpsc%".toList) (leftAlign : Bool)
    (pad : Char) (width : ℕ) (prec : ℤ) (long : Bool) (args : List Arg) (o : Out)
    (htext : letter = 's' → ∀ s args', vaText args = .ok (s, args') →
      (s.getD nullText).length < 2 ^ 31) :
    convert size ⟨leftAlign, pad, width, prec, long⟩ letter args o =
      (conversionText leftAlign pad width letter args).map fun r =>
        (r.1, r.2.foldl (bufPutc size) o) := by
  have hletters : letter = 'd' ∨ letter = 'i' ∨ letter = 'u' ∨ letter = 'x' ∨ letter = 'X' ∨
      letter = 'p' ∨ letter = 's' ∨ letter = 'c' ∨ letter = '%' := by simpa using hletter
  have hsigned : convert size ⟨leftAlign, pad, width, prec, long⟩ 'd' args o =
      (conversionText leftAlign pad width 'd' args).map fun r =>
        (r.1, r.2.foldl (bufPutc size) o) := by
    cases hva : vaWord args with
    | error e => simp only [convert, conversionText, hva]; rfl
    | ok r =>
      have h := @fmtUint_signed size o r.1.toInt32 width pad leftAlign
      by_cases hneg : r.1.toInt32 < 0
      · rw [if_pos hneg] at h
        simp only [convert, conversionText, hva, bind, Except.bind, if_pos hneg, h]
        rfl
      · rw [if_neg hneg] at h
        simp only [convert, conversionText, hva, bind, Except.bind, if_neg hneg, h]
        rfl
  have hpointer (w : UInt32) : fmtUint size (bufPutc size (bufPutc size o '0') 'x') w 16 false 8
      '0' false = .ok (('0' :: 'x' :: field false '0' 8 (digitsText 16 false w.toNat)).foldl
        (bufPutc size) o) := fmtUint_eq (.inr rfl) _ w false 8 '0' false
  rcases hletters with rfl | rfl | rfl | rfl | rfl | rfl | rfl | rfl | rfl
  · exact hsigned
  · exact hsigned
  · exact bind_write _ fun w _ _ => fmtUint_eq (.inl rfl) o w false width pad leftAlign
  · exact bind_write _ fun w _ _ => fmtUint_eq (.inr rfl) o w false width pad leftAlign
  · exact bind_write _ fun w _ _ => fmtUint_eq (.inr rfl) o w true width pad leftAlign
  · exact bind_write _ fun w _ _ => hpointer w
  · exact @bind_write size _ o (vaText args)
      (fun s => bufPutsN size o (s.getD nullText) width leftAlign pad)
      (fun s => field leftAlign pad width (s.getD nullText))
      fun s args' hva => bufPutsN_eq o (htext rfl s args' hva) width leftAlign pad
  · cases hva : vaWord args with
    | error e => simp only [convert, conversionText, hva]; rfl
    | ok r => simp only [convert, conversionText, hva]; rfl
  · rfl

/-! ### The scan of a complete specification -/

lemma scanFlag_some (flag : Char) (on : Bool) {fmt : List Char}
    (h : on = true ∨ fmt.head? ≠ some flag) :
    scanFlag flag ((if on then [flag] else []) ++ fmt) = (on, fmt) := by
  cases on with
  | true => exact if_pos rfl
  | false =>
    have hne := h.resolve_left (by simp)
    cases fmt with
    | nil => rfl
    | cons c fmt => exact if_neg fun hc => hne (congrArg some hc)

lemma le_ofDigitChars (digits : List Char) (n : ℕ) : n ≤ Nat.ofDigitChars 10 digits n := by
  induction digits generalizing n with
  | nil => exact Nat.le_refl n
  | cons c digits ih =>
    rw [Nat.ofDigitChars_cons]
    calc n ≤ 10 * n + (c.toNat - '0'.toNat) := by omega
      _ ≤ _ := ih _

/-- A number that fits an `int` is read without overflow. -/
lemma scanNumber_digits {digits rest : List Char} (hdigits : ∀ c ∈ digits, c.isDigit)
    (hrest : ∀ c ∈ rest.head?, ¬ c.isDigit) {n : ℕ}
    (hfit : Nat.ofDigitChars 10 digits n < 2 ^ 31) :
    scanNumber n (digits ++ rest) = .ok ((Nat.ofDigitChars 10 digits n : ℕ), rest) := by
  induction digits generalizing n with
  | nil =>
    cases rest with
    | nil => rfl
    | cons c fmt =>
      rw [List.nil_append, scanNumber, if_neg]
      · rfl
      · rw [Decimal.isDigit_iff]
        exact hrest c rfl
  | cons c digits ih =>
    have hc := (Decimal.isDigit_iff c).mpr (hdigits c List.mem_cons_self)
    have hzero : '0'.toNat ≤ c.toNat := hc.1
    rw [Nat.ofDigitChars_cons] at hfit ⊢
    have hle := le_ofDigitChars digits (10 * n + (c.toNat - '0'.toNat))
    have htens : (n : ℤ) * 10 + (c.toNat - '0'.toNat) = (10 * n + (c.toNat - '0'.toNat) : ℕ) := by
      omega
    rw [List.cons_append, scanNumber, if_pos hc, int_ok (by omega)]
    show (int ((n : ℤ) * 10 + (c.toNat - '0'.toNat)) >>= fun n => scanNumber n (digits ++ rest)) = _
    rw [htens, int_ok (by omega)]
    exact ih (fun a ha => hdigits a (List.mem_cons_of_mem c ha)) hfit

lemma scanPrec_of_ne {fmt : List Char} (h : fmt.head? ≠ some '.') :
    scanPrec fmt = .ok (-1, fmt) := by
  unfold scanPrec
  split
  · exact absurd rfl h
  · rfl

lemma scanLong_modifier {letter : Char} (hl : letter ≠ 'l') (long : Bool) (rest : List Char) :
    scanLong ((if long then ['l'] else []) ++ letter :: rest) = (long, letter :: rest) := by
  have hletter : scanLong (letter :: rest) = (false, letter :: rest) := by
    unfold scanLong
    split
    · rename_i heq
      exact absurd (List.cons.inj heq).1 hl
    · rename_i heq
      exact absurd (List.cons.inj heq).1 hl
    · rfl
  cases long with
  | false => exact hletter
  | true =>
    show scanLong ('l' :: letter :: rest) = _
    unfold scanLong
    split
    · rename_i heq
      exact absurd (List.cons.inj (List.cons.inj heq).2).1 hl
    · rename_i heq
      rw [← (List.cons.inj heq).2]
    · rename_i hne
      exact absurd rfl (hne _)

lemma head?_append_ne {s t : List Char} {c : Char} (hs : s.head? ≠ some c)
    (ht : t.head? ≠ some c) : (s ++ t).head? ≠ some c := by
  cases s with
  | nil => exact ht
  | cons a s => exact hs

/-- What a modifier or a letter cannot be taken for. -/
lemma modifier_head {letter : Char} (hletter : letter ∈ "diuxXpsc%".toList) (long : Bool)
    (rest : List Char) :
    ∀ c ∈ ((if long then ['l'] else []) ++ letter :: rest).head?,
      c.isDigit = false ∧ c ≠ '.' ∧ c ≠ '-' ∧ c ≠ '0' := by
  have hall : ('l' :: "diuxXpsc%".toList).all
      (fun c => c.isDigit = false ∧ c ≠ '.' ∧ c ≠ '-' ∧ c ≠ '0') := by decide
  have hof : ∀ c ∈ 'l' :: "diuxXpsc%".toList, c.isDigit = false ∧ c ≠ '.' ∧ c ≠ '-' ∧ c ≠ '0' :=
    fun c hc => of_decide_eq_true (List.all_eq_true.mp hall c hc)
  intro c hc
  cases long with
  | true =>
    obtain rfl : 'l' = c := Option.some.inj hc
    exact hof _ List.mem_cons_self
  | false =>
    obtain rfl : letter = c := Option.some.inj hc
    exact hof _ (List.mem_cons_of_mem _ hletter)

/-- The scan of a complete specification ends at its letter. -/
lemma scanSpec_conv {leftAlign zero : Bool} {digits : List Char} {long : Bool} {letter : Char}
    (h : (Piece.conv leftAlign zero digits long letter).WellFormed) (rest : List Char) :
    scanSpec ((if leftAlign then ['-'] else []) ++ ((if zero then ['0'] else []) ++ (digits ++
        ((if long then ['l'] else []) ++ letter :: rest)))) =
      .ok (⟨leftAlign, if zero then '0' else ' ', widthOf digits, -1, long⟩, letter :: rest) := by
  obtain ⟨hdigits, hfit, hzero, hletter⟩ := h
  rw [List.all_eq_true] at hdigits
  have hhead := modifier_head hletter long rest
  have hl : letter ≠ 'l' := by
    rintro rfl
    exact absurd hletter (by decide)
  have hnodash : digits.head? ≠ some '-' := by
    intro hd
    exact absurd (hdigits '-' (List.mem_of_mem_head? hd)) (by decide)
  have hflag : ((if zero then ['0'] else []) ++ (digits ++
      ((if long then ['l'] else []) ++ letter :: rest))).head? ≠ some '-' := by
    refine head?_append_ne ?_ (head?_append_ne hnodash fun hd => (hhead '-' hd).2.2.1 rfl)
    cases zero with
    | true => decide
    | false => decide
  have hpad : zero = true ∨ (digits ++
      ((if long then ['l'] else []) ++ letter :: rest)).head? ≠ some '0' :=
    hzero.imp_right fun hd => head?_append_ne hd fun hd => (hhead '0' hd).2.2.2 rfl
  have hwidth := @scanNumber_digits digits ((if long then ['l'] else []) ++ letter :: rest) hdigits
    (fun c hc => by rw [(hhead c hc).1]; decide) 0 hfit
  have hprec := scanPrec_of_ne fun hd => (hhead '.' hd).2.1 rfl
  rw [Nat.cast_zero] at hwidth
  simp only [scanSpec, scanFlag_some '-' leftAlign (.inr hflag), scanFlag_some '0' zero hpad,
    hwidth, hprec, bind, Except.bind, scanLong_modifier hl]
  rfl

/-! ### From the format to the output -/

lemma vsnprintfLoop_plain {s : List Char} (h : '%' ∉ s) (fmt : List Char) (args : List Arg)
    (o : Out) :
    vsnprintfLoop size (s ++ fmt) args o =
      vsnprintfLoop size fmt args (s.foldl (bufPutc size) o) := by
  induction s generalizing o with
  | nil => rfl
  | cons c s ih =>
    rw [List.mem_cons, not_or] at h
    rw [List.cons_append, vsnprintfLoop, if_pos (Ne.symm h.1), ih h.2, List.foldl_cons]

/-- A conversion, by the result of the scan. -/
lemma vsnprintfLoop_percent {fmt rest : List Char} (hne : fmt ≠ []) {spec : Except Undefined Spec}
    (h : scanSpec fmt = spec.map fun spec => (spec, rest)) (args : List Arg) (o : Out) :
    vsnprintfLoop size ('%' :: fmt) args o =
      spec >>= fun spec => match rest with
        | []             => .error .pastFormat
        | letter :: rest =>
          convert size spec letter args o >>= fun r => vsnprintfLoop size rest r.1 r.2 := by
  rw [vsnprintfLoop, if_neg (not_not.mpr rfl), if_neg hne]
  cases spec with
  | error e =>
    split
    · rename_i heq
      rw [h] at heq
      obtain rfl := Except.error.inj heq
      rfl
    · rename_i heq
      rw [h] at heq
      cases heq
    · rename_i heq
      rw [h] at heq
      cases heq
  | ok spec =>
    split
    · rename_i heq
      rw [h] at heq
      cases heq
    · rename_i heq
      rw [h] at heq
      obtain ⟨rfl, rfl⟩ := Prod.mk.inj (Except.ok.inj heq)
      rfl
    · rename_i heq
      rw [h] at heq
      obtain ⟨rfl, rfl⟩ := Prod.mk.inj (Except.ok.inj heq)
      rfl

lemma vsnprintfLoop_conv {leftAlign zero : Bool} {digits : List Char} {long : Bool} {letter : Char}
    (h : (Piece.conv leftAlign zero digits long letter).WellFormed) (fmt : List Char)
    (args : List Arg) (o : Out) :
    vsnprintfLoop size ((Piece.conv leftAlign zero digits long letter).format ++ fmt) args o =
      convert size ⟨leftAlign, if zero then '0' else ' ', widthOf digits, -1, long⟩ letter args o
        >>= fun r => vsnprintfLoop size fmt r.1 r.2 := by
  have hformat : (Piece.conv leftAlign zero digits long letter).format ++ fmt =
      '%' :: ((if leftAlign then ['-'] else []) ++ ((if zero then ['0'] else []) ++ (digits ++
        ((if long then ['l'] else []) ++ letter :: fmt)))) := by
    simp [Piece.format]
  rw [hformat]
  exact @vsnprintfLoop_percent size _ _ (by simp) (.ok _) (scanSpec_conv h fmt) args o

lemma length_le_field (leftAlign : Bool) (pad : Char) (width : ℕ) (s : List Char) :
    s.length ≤ (field leftAlign pad width s).length := by
  cases leftAlign with
  | true => simp [field, List.rightpad]
  | false => simp [field, List.leftpad]

lemma render_plain {t s : List Char} {ps : List Piece} {args : List Arg}
    (hs : render (.plain t :: ps) args = .ok s) :
    ∃ s', render ps args = .ok s' ∧ s = t ++ s' := by
  rw [render] at hs
  cases hrest : render ps args with
  | error e =>
    rw [hrest] at hs
    cases hs
  | ok s' =>
    rw [hrest] at hs
    exact ⟨s', rfl, (Except.ok.inj hs).symm⟩

lemma render_conv {leftAlign zero : Bool} {digits : List Char} {long : Bool} {letter : Char}
    {s : List Char} {ps : List Piece} {args : List Arg}
    (hs : render (.conv leftAlign zero digits long letter :: ps) args = .ok s) :
    ∃ args' t s', conversionText leftAlign (if zero then '0' else ' ') (widthOf digits) letter
        args = .ok (args', t) ∧ render ps args' = .ok s' ∧ s = t ++ s' := by
  rw [render] at hs
  cases hconv : conversionText leftAlign (if zero then '0' else ' ') (widthOf digits) letter
      args with
  | error e =>
    rw [hconv] at hs
    cases hs
  | ok r =>
    rw [hconv] at hs
    replace hs : (render ps r.1).map (r.2 ++ ·) = .ok s := hs
    cases hrest : render ps r.1 with
    | error e =>
      rw [hrest] at hs
      cases hs
    | ok s' =>
      rw [hrest] at hs
      exact ⟨r.1, r.2, s', rfl, hrest, (Except.ok.inj hs).symm⟩

/-- A text argument is part of the rendering of its conversion. -/
lemma conversionText_text {leftAlign : Bool} {pad : Char} {width : ℕ} {letter : Char}
    {args args' : List Arg} {t : List Char}
    (h : conversionText leftAlign pad width letter args = .ok (args', t)) :
    letter = 's' → ∀ s rest, vaText args = .ok (s, rest) → (s.getD nullText).length ≤ t.length := by
  rintro rfl s rest hva
  rw [conversionText, hva] at h
  obtain ⟨-, rfl⟩ := Prod.mk.inj (Except.ok.inj h)
  exact length_le_field leftAlign pad width _

/-- The strings fit where the rendering does. -/
lemma textsFit_of_render {ps : List Piece} {args : List Arg} {s : List Char}
    (hs : render ps args = .ok s) (hlen : s.length < 2 ^ 31) : TextsFit ps args := by
  induction ps generalizing args s with
  | nil => trivial
  | cons p ps ih =>
    cases p with
    | plain t =>
      obtain ⟨s', hrest, rfl⟩ := render_plain hs
      rw [List.length_append] at hlen
      exact ih hrest (Nat.lt_of_add_left_lt hlen)
    | conv leftAlign zero digits long letter =>
      obtain ⟨args', t, s', hconv, hrest, rfl⟩ := render_conv hs
      rw [List.length_append] at hlen
      refine ⟨fun hl s rest hva => ?_, fun args'' t' hconv' => ?_⟩
      · exact (conversionText_text hconv hl s rest hva).trans_lt (Nat.lt_of_add_right_lt hlen)
      · obtain ⟨rfl, rfl⟩ := Prod.mk.inj (Except.ok.inj (hconv.symm.trans hconv'))
        exact ih hrest (Nat.lt_of_add_left_lt hlen)

/-- The loop offers the full rendering to the buffer. -/
theorem vsnprintfLoop_pieces {ps : List Piece} (hps : ∀ p ∈ ps, p.WellFormed) {args : List Arg}
    {s : List Char} (hs : render ps args = .ok s) (htexts : TextsFit ps args) (o : Out) :
    vsnprintfLoop size (ps.flatMap Piece.format) args o = .ok (s.foldl (bufPutc size) o) := by
  induction ps generalizing args s o with
  | nil =>
    rw [← Except.ok.inj hs, List.flatMap_nil, vsnprintfLoop]
    rfl
  | cons p ps ih =>
    have hp := hps p List.mem_cons_self
    have ih := @ih fun q hq => hps q (List.mem_cons_of_mem p hq)
    cases p with
    | plain t =>
      obtain ⟨s', hrest, rfl⟩ := render_plain hs
      rw [List.flatMap_cons, Piece.format, vsnprintfLoop_plain hp, ih hrest htexts,
        List.foldl_append]
    | conv leftAlign zero digits long letter =>
      obtain ⟨args', t, s', hconv, hrest, rfl⟩ := render_conv hs
      obtain ⟨htext, htexts⟩ := htexts
      rw [List.flatMap_cons, vsnprintfLoop_conv hp, convert_eq hp.2.2.2 _ _ _ _ _ _ _ htext, hconv]
      show vsnprintfLoop size (ps.flatMap Piece.format) args' (t.foldl (bufPutc size) o) = _
      rw [ih hrest (htexts args' t hconv), List.foldl_append]

end EcuTelemetry.Printf
