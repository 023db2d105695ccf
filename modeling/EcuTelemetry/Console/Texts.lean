import EcuTelemetry.Console.Terminator

/-!
# What the formats of a program print

A format is cut into its conversions by `parse`, so that it can be used as it stands in the source.
What `console_writef` writes for it is then made of the format's own characters, of those of the
strings among its arguments, and of those in which numbers are written.
-/

namespace EcuTelemetry.Console

/-! ### Cutting a format into its conversions -/

/-- What follows the `%` of a conversion: its digits and its modifier, its letter, and the rest. -/
def parseConv (fmt : List Char) : Option (Piece × List Char) :=
  let digits := fmt.takeWhile Char.isDigit
  match fmt.dropWhile Char.isDigit with
  | 'l' :: letter :: rest =>
    if letter ∈ "%scudx".toList then some (.conv digits true letter, rest) else none
  | letter :: rest =>
    if letter ∈ "%scudx".toList then some (.conv digits false letter, rest) else none
  | [] => none

/-- A format in pieces, plain characters one by one. -/
def parse : ℕ → List Char → Option (List Piece)
  | _, []           => some []
  | 0, _ :: _       => none
  | n + 1, c :: fmt =>
    if c ≠ '%' then (parse n fmt).map (.plain [c] :: ·)
    else (parseConv fmt).bind fun r => (parse n r.2).map (r.1 :: ·)

/-- What follows the `%` is spelled by the conversion. -/
lemma parseConv_spec {fmt rest : List Char} {p : Piece} (h : parseConv fmt = some (p, rest)) :
    p.format ++ rest = '%' :: fmt ∧ p.WellFormed := by
  have hdigits : (fmt.takeWhile Char.isDigit).all Char.isDigit = true := List.all_takeWhile
  have hsplit : fmt = fmt.takeWhile Char.isDigit ++ fmt.dropWhile Char.isDigit :=
    (List.takeWhile_append_dropWhile).symm
  unfold parseConv at h
  split at h
  · rename_i letter tail hdrop
    obtain ⟨hletter, heq⟩ := Option.ite_none_right_eq_some.mp h
    obtain ⟨rfl, rfl⟩ := Prod.mk.inj (Option.some.inj heq)
    refine ⟨?_, hdigits, hletter⟩
    rw [hdrop] at hsplit
    conv_rhs => rw [hsplit]
    simp [Piece.format]
  · rename_i letter tail _ hdrop
    obtain ⟨hletter, heq⟩ := Option.ite_none_right_eq_some.mp h
    obtain ⟨rfl, rfl⟩ := Prod.mk.inj (Option.some.inj heq)
    refine ⟨?_, hdigits, hletter⟩
    rw [hdrop] at hsplit
    conv_rhs => rw [hsplit]
    simp [Piece.format]
  · cases h

/-- The pieces spell the format. -/
theorem parse_spec {n : ℕ} {fmt : List Char} {ps : List Piece} (h : parse n fmt = some ps) :
    ps.flatMap Piece.format = fmt ∧ ∀ p ∈ ps, p.WellFormed := by
  induction n generalizing fmt ps with
  | zero =>
    cases fmt with
    | nil =>
      obtain rfl := Option.some.inj h
      exact ⟨rfl, List.forall_mem_nil _⟩
    | cons c fmt => cases h
  | succ n ih =>
    cases fmt with
    | nil =>
      obtain rfl := Option.some.inj h
      exact ⟨rfl, List.forall_mem_nil _⟩
    | cons c fmt =>
      rw [parse] at h
      split at h
      · rename_i hc
        obtain ⟨qs, hqs, rfl⟩ := Option.map_eq_some_iff.mp h
        obtain ⟨hspell, hwell⟩ := ih hqs
        refine ⟨by rw [List.flatMap_cons, hspell]; rfl, List.forall_mem_cons.mpr ⟨?_, hwell⟩⟩
        exact fun hmem => hc (List.mem_singleton.mp hmem).symm
      · rename_i hc
        obtain ⟨⟨p, rest⟩, hp, hmap⟩ := Option.bind_eq_some_iff.mp h
        obtain ⟨qs, hqs, rfl⟩ := Option.map_eq_some_iff.mp hmap
        obtain ⟨hspell, hwell⟩ := ih hqs
        obtain ⟨hformat, hpwell⟩ := parseConv_spec hp
        refine ⟨?_, List.forall_mem_cons.mpr ⟨hpwell, hwell⟩⟩
        rw [List.flatMap_cons, hspell, hformat, not_not.mp hc]

/-! ### The arguments a format takes -/

/-- The kinds of arguments. -/
inductive Kind where
  | word
  | text
  deriving DecidableEq, Repr

/-- The kind of an argument. -/
def Arg.kind : Arg → Kind
  | .word _ => .word
  | .text _ => .text

/-- The arguments that a piece takes; a single character is not among the conversions here. -/
def Piece.kinds : Piece → Option (List Kind)
  | .plain _         => some []
  | .conv _ _ letter =>
    if letter = '%' then some []
    else if letter = 's' then some [.text]
    else if letter = 'c' then none
    else some [.word]

/-- The arguments that the pieces of a format take. -/
def kindsOf : List Piece → Option (List Kind)
  | []      => some []
  | p :: ps => p.kinds.bind fun ks => (kindsOf ps).map (ks ++ ·)

/-- Characters of a class: those in which numbers are written, and others. -/
structure CharClass where
  Has : Char → Prop
  numerals : ∀ c ∈ "0123456789abcdef- %".toList, Has c
  nul_not : ¬ Has nul

variable (P : CharClass)

/-- A string among the arguments has only characters of the class. -/
def Arg.Of : Arg → Prop
  | .word _        => True
  | .text none     => False
  | .text (some s) => ∀ c ∈ s, P.Has c

/-- The plain text of a piece has only characters of the class. -/
def Piece.Of : Piece → Prop
  | .plain s    => ∀ c ∈ s, P.Has c
  | .conv _ _ _ => True

/-- The characters of a string among the arguments. -/
def Arg.length : Arg → ℕ
  | .word _ => 0
  | .text s => (s.getD "(null)".toList).length

/-- The most characters that a piece prints, but for those of a string: a number has ten digits at
most. -/
def Piece.room : Piece → ℕ
  | .plain s              => s.length
  | .conv digits _ letter =>
    if letter = 's' then 0 else 1 + max (UInt32.ofNat (Nat.ofDigitChars 10 digits 0)).toNat 10

/-! ### What conversions print -/

variable {P}

lemma has_of_mem_toDigits {base n : ℕ} (hbase : 1 < base) (hle : base ≤ 16) {c : Char}
    (h : c ∈ Nat.toDigits base n) : P.Has c := by
  obtain ⟨d, hd, rfl⟩ := Core.Radix.exists_digitChar hbase h
  have hall : ∀ d < 16, d.digitChar ∈ "0123456789abcdef- %".toList := by decide
  exact P.numerals _ (hall d (Nat.lt_of_lt_of_le hd hle))

/-- A padded number. -/
lemma has_of_mem_leftpad {base n width : ℕ} (hbase : 1 < base) (hle : base ≤ 16) (zeroPad : Bool)
    {c : Char} (h : c ∈ (Nat.toDigits base n).leftpad width (if zeroPad then '0' else ' ')) :
    P.Has c := by
  rw [List.leftpad] at h
  rcases List.mem_append.mp h with h | h
  · have hpad := List.eq_of_mem_replicate h
    refine P.numerals c ?_
    rw [hpad]
    cases zeroPad <;> decide
  · exact has_of_mem_toDigits hbase hle h

lemma length_leftpad_le {base n : ℕ} (hbase : 1 < base) (hn : n < base ^ 10) (width : ℕ)
    (pad : Char) :
    ((Nat.toDigits base n).leftpad width pad).length ≤ max width 10 := by
  have hdigits : (Nat.toDigits base n).length ≤ 10 :=
    (Nat.length_toDigits_le_iff hbase (by decide)).mpr hn
  rw [List.length_leftpad]
  exact max_le_max (Nat.le_refl _) hdigits

/-- What a number prints is of the class and not long. -/
def Fits (P : CharClass) (width : UInt32) (s : List Char) : Prop :=
  (∀ c ∈ s, P.Has c) ∧ s.length ≤ 1 + max width.toNat 10

lemma fits_unsignedText {base : UInt32} (hbase : base = 10 ∨ base = 16) (value width : UInt32)
    (zeroPad : Bool) : Fits P width (unsignedText value base width zeroPad) := by
  have hvalue := value.toNat_lt
  have hpad (b : ℕ) (hlo : 1 < b) (hhi : b ≤ 16) (hpow : value.toNat < b ^ 10) :
      Fits P width
        ((Nat.toDigits b value.toNat).leftpad width.toNat (if zeroPad then '0' else ' ')) :=
    ⟨fun c hc => has_of_mem_leftpad hlo hhi zeroPad hc,
      (length_leftpad_le hlo hpow _ _).trans (Nat.le_add_left _ _)⟩
  rcases hbase with rfl | rfl
  · exact hpad 10 (by decide) (by decide) (hvalue.trans (by decide))
  · exact hpad 16 (by decide) (by decide) (hvalue.trans (by decide))

lemma fits_signedText (value : Int32) (width : UInt32) (zeroPad : Bool) :
    Fits P width (signedText value width zeroPad) := by
  have hlo := value.le_toInt
  have hhi := value.toInt_lt
  have hpow : value.toInt.natAbs < 10 ^ 10 := by omega
  have hlen := length_leftpad_le (by decide) hpow width.toNat (if zeroPad then '0' else ' ')
  rw [signedText]
  constructor
  · intro c hc
    rcases List.mem_append.mp hc with hsign | hdigits
    · split at hsign
      · rw [List.mem_singleton.mp hsign]
        exact P.numerals _ (by decide)
      · exact absurd hsign List.not_mem_nil
    · exact has_of_mem_leftpad (by decide) (by decide) zeroPad hdigits
  · rw [List.length_append]
    refine Nat.add_le_add ?_ hlen
    split <;> decide

/-- A number, from the one argument it takes. -/
lemma word_of_kinds {used : List Arg} (h : used.map Arg.kind = [.word]) :
    ∃ w, used = [.word w] := by
  obtain ⟨a, rfl, ha⟩ := List.map_eq_singleton_iff.mp h
  cases a with
  | word w => exact ⟨w, rfl⟩
  | text s => cases ha

/-- A conversion that gets the arguments it takes. -/
lemma conversion_fits {letter : Char} (hletter : letter ∈ "%scudx".toList) {ks : List Kind}
    (digits : List Char) (long : Bool) (hkinds : (Piece.conv digits long letter).kinds = some ks)
    {used : List Arg} (hused : used.map Arg.kind = ks) (hargs : ∀ a ∈ used, a.Of P)
    (rest : List Arg) (zeroPad : Bool) :
    ∃ s, conversionText zeroPad (UInt32.ofNat (Nat.ofDigitChars 10 digits 0)) letter
        (used ++ rest) = .ok (rest, s) ∧ (∀ c ∈ s, P.Has c) ∧
      s.length ≤ (Piece.conv digits long letter).room + (used.map Arg.length).sum := by
  have hcases : letter = '%' ∨ letter = 's' ∨ letter = 'c' ∨ letter = 'u' ∨ letter = 'd' ∨
      letter = 'x' := by simpa using hletter
  rcases hcases with rfl | rfl | rfl | rfl | rfl | rfl
  · obtain rfl := Option.some.inj hkinds
    obtain rfl := List.map_eq_nil_iff.mp hused
    refine ⟨['%'], rfl, List.forall_mem_singleton.mpr (P.numerals _ (by decide)), ?_⟩
    exact Nat.le_add_right 1 _
  · obtain rfl := Option.some.inj hkinds
    obtain ⟨a, rfl, ha⟩ := List.map_eq_singleton_iff.mp hused
    have hof := hargs a List.mem_cons_self
    cases a with
    | word w => cases ha
    | text t =>
      cases t with
      | none => exact hof.elim
      | some t => exact ⟨t, rfl, hof, Nat.le_add_left t.length 0⟩
  · cases hkinds
  · obtain rfl := Option.some.inj hkinds
    obtain ⟨w, rfl⟩ := word_of_kinds hused
    obtain ⟨hof, hlen⟩ := fits_unsignedText (P := P) (.inl rfl) w _ zeroPad
    exact ⟨_, rfl, hof, hlen⟩
  · obtain rfl := Option.some.inj hkinds
    obtain ⟨w, rfl⟩ := word_of_kinds hused
    obtain ⟨hof, hlen⟩ := fits_signedText (P := P) w.toInt32 _ zeroPad
    exact ⟨_, rfl, hof, hlen⟩
  · obtain rfl := Option.some.inj hkinds
    obtain ⟨w, rfl⟩ := word_of_kinds hused
    obtain ⟨hof, hlen⟩ := fits_unsignedText (P := P) (.inr rfl) w _ zeroPad
    exact ⟨_, rfl, hof, hlen⟩

/-! ### What a format prints -/

/-- A format that gets the arguments it takes prints its text, of characters of the class, in so
much room. -/
theorem render_fits {ps : List Piece} (hwell : ∀ p ∈ ps, p.WellFormed) (hps : ∀ p ∈ ps, p.Of P)
    {args : List Arg} (hkinds : kindsOf ps = some (args.map Arg.kind))
    (hargs : ∀ a ∈ args, a.Of P) :
    ∃ s, render ps args = .ok s ∧ (∀ c ∈ s, P.Has c) ∧
      s.length ≤ (ps.map Piece.room).sum + (args.map Arg.length).sum := by
  induction ps generalizing args with
  | nil => exact ⟨[], rfl, List.forall_mem_nil _, Nat.zero_le _⟩
  | cons p ps ih =>
    obtain ⟨hp, hwell⟩ := List.forall_mem_cons.mp hwell
    obtain ⟨hof, hps⟩ := List.forall_mem_cons.mp hps
    obtain ⟨ks, hks, hmap⟩ := Option.bind_eq_some_iff.mp hkinds
    obtain ⟨later, hlater, happend⟩ := Option.map_eq_some_iff.mp hmap
    -- the arguments of this piece and those of the rest
    obtain ⟨used, rest, rfl, hused, hrest⟩ := List.map_eq_append_iff.mp happend.symm
    rw [← hrest] at hlater
    obtain ⟨s, hs, hchars, hlen⟩ :=
      ih hwell hps hlater fun a ha => hargs a (List.mem_append_right _ ha)
    rw [List.map_append, List.sum_append, List.map_cons, List.sum_cons]
    cases p with
    | plain t =>
      obtain rfl := Option.some.inj hks
      obtain rfl := List.map_eq_nil_iff.mp hused
      refine ⟨t ++ s, by rw [List.nil_append, render, hs]; rfl, ?_, ?_⟩
      · exact List.forall_mem_append.mpr ⟨hof, hchars⟩
      · rw [List.length_append, List.map_nil, List.sum_nil, Nat.zero_add]
        show t.length + s.length ≤ t.length + _ + _
        omega
    | conv digits long letter =>
      obtain ⟨t, ht, htchars, htlen⟩ := conversion_fits hp.2 digits long hks hused
        (fun a ha => hargs a (List.mem_append_left _ ha)) rest (digits.head? = some '0')
      refine ⟨t ++ s, ?_, List.forall_mem_append.mpr ⟨htchars, hchars⟩, ?_⟩
      · rw [render, ht]
        show (render ps rest).map (t ++ ·) = _
        rw [hs]
        rfl
      · rw [List.length_append]
        omega

/-- A call of `console_writef`: its format and what follows it. -/
structure Call where
  format : List Char
  args : List Arg

/-- What the format takes is what follows it. -/
def Call.Takes (call : Call) (ps : List Piece) : Prop :=
  parse call.format.length call.format = some ps ∧ kindsOf ps = some (call.args.map Arg.kind)

/-- Whatever is on the stack, the call writes `s`. -/
def Call.Writes (call : Call) (s : List Char) : Prop :=
  ∀ stack, consoleWritef stack call.format call.args = .ok s

/-- A character of a piece is one of the format. -/
lemma piece_of_format {ps : List Piece} {fmt : List Char}
    (hspell : ps.flatMap Piece.format = fmt) (hfmt : ∀ c ∈ fmt, P.Has c) :
    ∀ p ∈ ps, p.Of P := by
  intro p hp
  cases p with
  | plain t =>
    intro c hc
    refine hfmt c ?_
    rw [← hspell]
    exact List.mem_flatMap.mpr ⟨.plain t, hp, hc⟩
  | conv digits long letter => trivial

/-- A call with room in its buffer for what it prints writes all of it, in characters of the
class. -/
theorem Call.writes_of_takes {call : Call} {ps : List Piece} (h : call.Takes ps)
    (hfmt : ∀ c ∈ call.format, P.Has c) (hargs : ∀ a ∈ call.args, a.Of P)
    (hroom : (ps.map Piece.room).sum + (call.args.map Arg.length).sum ≤ 255)
    (hplain : ∃ c ps', ps = .plain [c] :: ps') :
    ∃ s, render ps call.args = .ok s ∧ (∀ c ∈ s, P.Has c) ∧ call.Writes s := by
  obtain ⟨hspell, hwell⟩ := parse_spec h.1
  obtain ⟨s, hs, hchars, hlen⟩ := render_fits hwell (piece_of_format hspell hfmt) h.2 hargs
  refine ⟨s, hs, hchars, fun stack => ?_⟩
  have hne : s ≠ [] := by
    obtain ⟨c, ps', rfl⟩ := hplain
    intro hnil
    rw [render, hnil] at hs
    cases hr : render ps' call.args with
    | error e => simp [hr, Except.map] at hs
    | ok t => simp [hr, Except.map] at hs
  have hwrite := consoleWritef_pieces hwell hs hne (fun hnul => P.nul_not (hchars _ hnul)) stack
  rwa [hspell, List.take_of_length_le (hlen.trans hroom)] at hwrite

/-! ### Formats as they stand -/

/-- The format takes arguments of these kinds, starts with a plain character and prints no more than
`n` characters but for those of strings. -/
def declares (fmt : List Char) (ks : List Kind) (n : ℕ) : Bool :=
  match parse fmt.length fmt with
  | some (.plain [c] :: ps) =>
    decide (kindsOf (.plain [c] :: ps) = some ks) &&
      decide (((.plain [c] :: ps).map Piece.room).sum ≤ n)
  | _ => false

/-- What has to be evaluated of a format, so that a call with suitable arguments writes all its
text. -/
theorem Call.writes_of_declares {call : Call} {ks : List Kind} {n : ℕ}
    (h : declares call.format ks n = true) (hkinds : call.args.map Arg.kind = ks)
    (hfmt : ∀ c ∈ call.format, P.Has c) (hargs : ∀ a ∈ call.args, a.Of P)
    (hroom : n + (call.args.map Arg.length).sum ≤ 255) :
    ∃ s, (∀ c ∈ s, P.Has c) ∧ call.Writes s := by
  unfold declares at h
  split at h
  · rename_i c ps hparse
    obtain ⟨hks, hn⟩ := Bool.and_eq_true_iff.mp h
    have htakes : call.Takes (.plain [c] :: ps) :=
      ⟨hparse, by rw [of_decide_eq_true hks, hkinds]⟩
    obtain ⟨s, -, hs⟩ := Call.writes_of_takes htakes hfmt hargs
      ((Nat.add_le_add_right (of_decide_eq_true hn) _).trans hroom) ⟨c, ps, rfl⟩
    exact ⟨s, hs⟩
  · cases h

/-! ### `console_writeln` -/

/-- `console_writeln`, when `stack` is what its buffer holds on entry: the text written. -/
def consoleWriteln (stack : Vector Char 256) (text : List Char) : Except Undefined (List Char) :=
  prvWriteBuffer (prvAppendChar (prvAppendString ⟨stack, 0, stack_room⟩ (some text)) '\n').cells

/-- A text that leaves room for its end is written with it. -/
lemma consoleWriteln_eq (stack : Vector Char 256) {text : List Char} (hnul : nul ∉ text)
    (hlen : text.length < 255) : consoleWriteln stack text = .ok (text ++ ['\n']) := by
  have hfold : prvAppendChar (prvAppendString ⟨stack, 0, stack_room⟩ (some text)) '\n' =
      (text ++ ['\n']).foldl prvAppendChar (⟨stack, 0, stack_room⟩ : Buffer 256) := by
    rw [List.foldl_append]
    rfl
  obtain ⟨htext, hterm⟩ := foldl_prvAppendChar_stack (s := text ++ ['\n']) (by simp) stack
  rw [List.take_of_length_le (by simp; omega)] at htext
  rw [consoleWriteln, hfold, prvWriteBuffer_terminated hterm, htext]
  rw [htext, List.mem_append, not_or]
  exact ⟨hnul, by decide⟩

end EcuTelemetry.Console
