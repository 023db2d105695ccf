import EcuTelemetry.Console.Format
import EcuTelemetry.Core.Radix

/-!
# The end of what `console_writef` hands on

The terminator in the buffer of `console_writef` is set by every append and by nothing else. Where
nothing is appended, the buffer is handed on as the stack left it.
-/

namespace EcuTelemetry.Console

/-! ### Arguments that suit a format -/

/-- The first argument is of the kind the conversion takes, and has no terminator in it. -/
def ArgSuits (letter : Char) : List Arg → Prop
  | .word w :: _ => letter ∈ "cudx".toList ∧ (letter = 'c' → w.toNat % 256 ≠ 0)
  | .text t :: _ => letter = 's' ∧ ∀ s ∈ t, nul ∉ s
  | []           => False

/-- The arguments suit the format, and no character to be printed is the terminator. -/
def Suits : List Piece → List Arg → Prop
  | [], _                        => True
  | .plain s :: ps, args         => nul ∉ s ∧ Suits ps args
  | .conv _ _ letter :: ps, args =>
    if letter = '%' then Suits ps args else ArgSuits letter args ∧ Suits ps args.tail

/-- Nothing is printed: there is no plain text, and every conversion is `%s` of an empty string. -/
def Silent : List Piece → List Arg → Prop
  | [], _                        => True
  | .plain s :: ps, args         => s = [] ∧ Silent ps args
  | .conv _ _ letter :: ps, args =>
    letter = 's' ∧ args.head? = some (.text (some [])) ∧ Silent ps args.tail

/-! ### Digits -/

/-- A padded number is not empty and has no terminator in it. -/
lemma leftpad_digits {base : ℕ} (hbase : 1 < base) (hle : base ≤ 16) (n width : ℕ)
    (zeroPad : Bool) :
    (Nat.toDigits base n).leftpad width (if zeroPad then '0' else ' ') ≠ [] ∧
      nul ∉ (Nat.toDigits base n).leftpad width (if zeroPad then '0' else ' ') := by
  rw [List.leftpad]
  refine ⟨List.append_ne_nil_of_right_ne_nil _ Nat.toDigits_ne_nil, ?_⟩
  rw [List.mem_append, not_or]
  constructor
  · intro h
    have hpad := List.eq_of_mem_replicate h
    cases zeroPad <;> exact absurd hpad (by decide)
  · intro h
    obtain ⟨d, hd, hchar⟩ := Core.Radix.exists_digitChar hbase h
    have hall : ∀ d < 16, nul ≠ Nat.digitChar d := by decide
    exact hall d (Nat.lt_of_lt_of_le hd hle) hchar

lemma unsignedText_printable {base : UInt32} (hbase : base = 10 ∨ base = 16)
    (value width : UInt32) (zeroPad : Bool) :
    unsignedText value base width zeroPad ≠ [] ∧ nul ∉ unsignedText value base width zeroPad := by
  rcases hbase with rfl | rfl
  · exact leftpad_digits (by decide) (by decide) _ _ _
  · exact leftpad_digits (by decide) (by decide) _ _ _

lemma signedText_printable (value : Int32) (width : UInt32) (zeroPad : Bool) :
    signedText value width zeroPad ≠ [] ∧ nul ∉ signedText value width zeroPad := by
  obtain ⟨hne, hnul⟩ :=
    leftpad_digits (by decide : 1 < 10) (by decide) value.toInt.natAbs width.toNat zeroPad
  refine ⟨List.append_ne_nil_of_right_ne_nil _ hne, ?_⟩
  rw [signedText, List.mem_append, not_or]
  refine ⟨fun h => ?_, hnul⟩
  split at h
  · exact absurd (List.mem_singleton.mp h) (by decide)
  · exact absurd h List.not_mem_nil

/-- A byte is the code of its character. -/
lemma toNat_ofNat_byte {n : ℕ} (h : n < 256) : (Char.ofNat n).toNat = n := by
  have hvalid : n.isValidChar := .inl (Nat.lt_trans h (by decide))
  rw [Char.ofNat, dif_pos hvalid]
  rfl

/-! ### Renderings -/

/-- A conversion with a suitable argument prints text without a terminator, and none at all only
for `%s` of an empty string. -/
lemma conversionText_suits {letter : Char} {args : List Arg} (h : ArgSuits letter args)
    (zeroPad : Bool) (width : UInt32) :
    ∃ s, conversionText zeroPad width letter args = .ok (args.tail, s) ∧ nul ∉ s ∧
      (s = [] ↔ letter = 's' ∧ args.head? = some (.text (some []))) := by
  match args, h with
  | .word w :: args, ⟨hletter, hc⟩ =>
    have hs : ¬ (letter = 's' ∧ (Arg.word w :: args).head? = some (.text (some []))) := by
      rintro ⟨-, htext⟩
      simp at htext
    have hcases : letter = 'c' ∨ letter = 'u' ∨ letter = 'd' ∨ letter = 'x' := by
      simpa using hletter
    rcases hcases with rfl | rfl | rfl | rfl
    · refine ⟨[Char.ofNat (w.toNat % 256)], rfl, ?_, iff_of_false (by simp) hs⟩
      rw [List.mem_singleton]
      intro h
      have hcode := toNat_ofNat_byte (Nat.mod_lt w.toNat (by decide : 0 < 256))
      rw [← h] at hcode
      exact hc rfl hcode.symm
    · obtain ⟨hne, hnul⟩ := unsignedText_printable (.inl rfl) w width zeroPad
      exact ⟨_, rfl, hnul, iff_of_false hne hs⟩
    · obtain ⟨hne, hnul⟩ := signedText_printable w.toInt32 width zeroPad
      exact ⟨_, rfl, hnul, iff_of_false hne hs⟩
    · obtain ⟨hne, hnul⟩ := unsignedText_printable (.inr rfl) w width zeroPad
      exact ⟨_, rfl, hnul, iff_of_false hne hs⟩
  | .text t :: args, ⟨hletter, ht⟩ =>
    subst hletter
    refine ⟨t.getD "(null)".toList, rfl, ?_, ?_⟩
    · cases t with
      | none   => decide
      | some s => exact ht s rfl
    · cases t with
      | none   => exact iff_of_false (by decide) (by simp)
      | some s => simp

/-- A suitable format renders, to text without a terminator that is empty only if the format is
silent. -/
lemma render_suits {ps : List Piece} {args : List Arg} (h : Suits ps args) :
    ∃ s, render ps args = .ok s ∧ nul ∉ s ∧ (s = [] ↔ Silent ps args) := by
  induction ps generalizing args with
  | nil          => exact ⟨[], rfl, List.not_mem_nil, iff_of_true rfl trivial⟩
  | cons p ps ih =>
    cases p with
    | plain t                 =>
      obtain ⟨hplain, hrest⟩ := h
      obtain ⟨s, hs, hnul, hsilent⟩ := ih hrest
      refine ⟨t ++ s, by rw [render, hs]; rfl, ?_, ?_⟩
      · rw [List.mem_append, not_or]
        exact ⟨hplain, hnul⟩
      · rw [List.append_eq_nil_iff, hsilent, Silent]
    | conv digits long letter =>
      simp only [Suits] at h
      by_cases hp : letter = '%'
      · subst hp
        rw [if_pos rfl] at h
        obtain ⟨s, hs, hnul, -⟩ := ih h
        refine ⟨'%' :: s, ?_, ?_, ?_⟩
        · show (render ps args).map ('%' :: ·) = _
          rw [hs]
          rfl
        · rw [List.mem_cons, not_or]
          exact ⟨by decide, hnul⟩
        · exact iff_of_false (by simp) fun hsilent => absurd hsilent.1 (by decide)
      · rw [if_neg hp] at h
        obtain ⟨t, ht, hplain, hempty⟩ := conversionText_suits h.1 (digits.head? = some '0')
          (UInt32.ofNat (Nat.ofDigitChars 10 digits 0))
        obtain ⟨s, hs, hnul, hsilent⟩ := ih h.2
        refine ⟨t ++ s, ?_, ?_, ?_⟩
        · rw [render, ht]
          show (render ps args.tail).map (t ++ ·) = _
          rw [hs]
          rfl
        · rw [List.mem_append, not_or]
          exact ⟨hplain, hnul⟩
        · rw [List.append_eq_nil_iff, hempty, hsilent, Silent, and_assoc]

/-! ### What `prvWriteBuffer` is handed -/

/-- There is room for a terminator on the stack. -/
lemma stack_room : 0 < 256 := by decide

/-- `console_writef` hands on a buffer with a terminator in its 256 bytes, and the string before it
is the first 255 characters of `s`. -/
def HandsOn (stack : Vector Char 256) (fmt : List Char) (args : List Arg) (s : List Char) : Prop :=
  ∃ b, writefLoop fmt args ⟨stack, 0, stack_room⟩ = .ok b ∧ nul ∈ b.cells.toList ∧
    b.cells.toList.takeWhile (· ≠ nul) = s.take 255

/-- Where nothing is appended, the buffer holds the empty string only if the stack happens to start
with a terminator. -/
lemma takeWhile_stack (stack : Vector Char 256) :
    nul ∈ stack.toList ∧ stack.toList.takeWhile (· ≠ nul) = [] ↔ stack[0] = nul := by
  obtain ⟨c, rest, hcells⟩ : ∃ c rest, stack.toList = c :: rest := by
    apply List.exists_cons_of_length_pos
    rw [Vector.length_toList]
    decide
  have hhead : stack[0] = c := by
    have hget := congrArg (·[0]?) hcells
    simpa using hget
  rw [hhead, hcells]
  by_cases hc : c = nul
  · simp [hc]
  · simp [hc]

/-- For complete conversions with suitable arguments, `prvWriteBuffer` is handed the first 255
characters of the rendering as a C string, if and only if something is printed or the stack starts
with a terminator. -/
theorem writef_hands_on_iff {ps : List Piece} (hps : ∀ p ∈ ps, p.WellFormed) {args : List Arg}
    (hargs : Suits ps args) (stack : Vector Char 256) :
    (∃ s, render ps args = .ok s ∧ HandsOn stack (ps.flatMap Piece.format) args s) ↔
      ¬ Silent ps args ∨ stack[0] = nul := by
  obtain ⟨s, hs, hnul, hsilent⟩ := render_suits hargs
  have hloop := writefLoop_pieces hps args ⟨stack, 0, by decide⟩
  rw [hs] at hloop
  rw [← hsilent]
  have hcells : (∃ s', render ps args = .ok s' ∧ HandsOn stack (ps.flatMap Piece.format) args s') ↔
      nul ∈ (s.foldl prvAppendChar (⟨stack, 0, by decide⟩ : Buffer 256)).cells.toList ∧
        (s.foldl prvAppendChar (⟨stack, 0, by decide⟩ : Buffer 256)).cells.toList.takeWhile
          (· ≠ nul) = s.take 255 := by
    constructor
    · rintro ⟨s', hs', b, hb, hmem, htext⟩
      obtain rfl : s = s' := Except.ok.inj (hs.symm.trans hs')
      obtain rfl := Except.ok.inj (hloop.symm.trans hb)
      exact ⟨hmem, htext⟩
    · rintro ⟨hmem, htext⟩
      exact ⟨s, hs, _, hloop, hmem, htext⟩
  rw [hcells]
  by_cases hne : s = []
  · subst hne
    rw [List.foldl_nil, List.take_nil, takeWhile_stack]
    simp
  · obtain ⟨htext, hterm⟩ := foldl_prvAppendChar_stack hne stack
    refine iff_of_true ?_ (.inl hne)
    rw [← htext]
    apply hterm.cString
    rw [htext]
    exact fun h => hnul (List.mem_of_mem_take h)

/-- A number and the end of a line. -/
theorem writef_hands_on_heartbeat :
    ∃ s, render [.plain "sensor=".toList, .conv [] true 'u', .plain "\n".toList] [.word 7] = .ok s ∧
      HandsOn (Vector.replicate 256 'x') "sensor=%lu\n".toList [.word 7] s :=
  (@writef_hands_on_iff [.plain "sensor=".toList, .conv [] true 'u', .plain "\n".toList]
    (by decide) [.word 7] ⟨by decide, ⟨by decide, by decide⟩, by decide, trivial⟩
    (Vector.replicate 256 'x')).mpr (.inl fun h => absurd h.1 (by decide))

/-- The buffer of `console_writef` when its format is `%s` and the string is empty. -/
theorem writef_empty_unterminated :
    ¬ ∃ s, render [.conv [] false 's'] [.text (some [])] = .ok s ∧
      HandsOn (Vector.replicate 256 'x') "%s".toList [.text (some [])] s := by
  rintro ⟨s, -, b, hb, hmem, -⟩
  have hloop := @writefLoop_pieces [.conv [] false 's'] (by decide) [.text (some [])]
    ⟨Vector.replicate 256 'x', 0, by decide⟩
  obtain rfl := Except.ok.inj (hb.symm.trans hloop)
  have hx := List.eq_of_mem_replicate (hmem : nul ∈ List.replicate 256 'x')
  exact absurd hx (by decide)

end EcuTelemetry.Console
