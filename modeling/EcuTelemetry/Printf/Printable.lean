import EcuTelemetry.Core.Radix
import EcuTelemetry.Core.Reader
import EcuTelemetry.Printf.Length

/-!
# Renderings that are one line

What a format prints is made of its plain text, of numbers and of the texts among its arguments, so
that none of it is a control character unless one of these has it. A text without a NUL is what
`uart_puts` sends from a buffer that holds it.
-/

namespace EcuTelemetry.Printf

open EcuTelemetry.Core

/-- Not a control character. -/
def Printable (c : Char) : Prop := 32 ≤ c.toNat

instance (c : Char) : Decidable (Printable c) := inferInstanceAs (Decidable (_ ≤ _))

/-- All characters of a text are printable. -/
def IsLine (s : List Char) : Prop := ∀ c ∈ s, Printable c

instance (s : List Char) : Decidable (IsLine s) := List.decidableBAll _ s

lemma isLine_nil : IsLine [] := List.forall_mem_nil _

lemma IsLine.append {s t : List Char} (hs : IsLine s) (ht : IsLine t) : IsLine (s ++ t) := by
  intro c hc
  rcases List.mem_append.mp hc with hc | hc
  · exact hs c hc
  · exact ht c hc

lemma IsLine.cons {c : Char} {s : List Char} (hc : Printable c) (hs : IsLine s) :
    IsLine (c :: s) := List.forall_mem_cons.mpr ⟨hc, hs⟩

lemma IsLine.replicate {c : Char} (hc : Printable c) (n : ℕ) : IsLine (List.replicate n c) :=
  fun _ hd => List.eq_of_mem_replicate hd ▸ hc

/-! ### Conversions -/

lemma IsLine.field {s : List Char} (hs : IsLine s) (leftAlign : Bool) {pad : Char}
    (hpad : Printable pad) (width : ℕ) : IsLine (Printf.field leftAlign pad width s) := by
  rw [Printf.field]
  split_ifs
  · exact hs.append (.replicate (by decide) _)
  · exact (IsLine.replicate hpad _).append hs

/-- A digit is printable, in either case. -/
lemma printable_digitChar (upper : Bool) {d : ℕ} (hd : d < 16) :
    Printable (if upper then d.digitChar.toUpper else d.digitChar) := by
  have hall : ∀ d < 16, ∀ upper : Bool,
      Printable (if upper then d.digitChar.toUpper else d.digitChar) := by decide
  exact hall d hd upper

lemma isLine_digitsText {b : ℕ} (hlo : 1 < b) (hhi : b ≤ 16) (upper : Bool) (n : ℕ) :
    IsLine (digitsText b upper n) := by
  intro c hc
  obtain ⟨a, ha, rfl⟩ := List.mem_map.mp hc
  obtain ⟨d, hd, rfl⟩ := Radix.exists_digitChar hlo ha
  exact printable_digitChar upper (hd.trans_le hhi)

lemma isLine_signedText (leftAlign : Bool) {pad : Char} (hpad : Printable pad) (width : ℕ)
    (val : Int32) : IsLine (signedText leftAlign pad width val) := by
  have hdigits := isLine_digitsText (b := 10) (by decide) (by decide) false val.toInt.natAbs
  rw [signedText]
  split_ifs
  · exact (hdigits.field leftAlign hpad _).cons (by decide)
  · exact hdigits.field leftAlign hpad _

/-- The texts among the arguments are lines. -/
def Arg.IsLine : Arg → Prop
  | .text (some s) => Printf.IsLine s
  | _              => True

/-- An argument taken and printed. -/
lemma bind_ok {α : Type} {r : Except Undefined (α × List Arg)} {f : α → List Char}
    {args' : List Arg} {s : List Char}
    (h : (r >>= fun p => pure (p.2, f p.1) : Except Undefined (List Arg × List Char)) =
      .ok (args', s)) : ∃ a, r = .ok (a, args') ∧ s = f a := by
  cases r with
  | error e => cases h
  | ok p =>
    obtain ⟨hargs, hs⟩ := Prod.mk.inj (Except.ok.inj h)
    exact ⟨p.1, by rw [← hargs], hs.symm⟩

lemma vaWord_ok {args args' : List Arg} {w : UInt32} (h : vaWord args = .ok (w, args')) :
    args = .word w :: args' := by
  unfold vaWord at h
  split at h
  · obtain ⟨rfl, rfl⟩ := Prod.mk.inj (Except.ok.inj h)
    rfl
  · cases h

lemma vaText_ok {args args' : List Arg} {t : Option (List Char)}
    (h : vaText args = .ok (t, args')) : args = .text t :: args' := by
  unfold vaText at h
  split at h
  · obtain ⟨rfl, rfl⟩ := Prod.mk.inj (Except.ok.inj h)
    rfl
  · cases h

/-- A conversion of anything but a single character prints a line. -/
lemma isLine_conversionText {leftAlign zero : Bool} {width : ℕ} {letter : Char}
    (hletter : letter ≠ 'c') {args args' : List Arg} (hargs : ∀ a ∈ args, a.IsLine) {s : List Char}
    (h : conversionText leftAlign (if zero then '0' else ' ') width letter args =
      .ok (args', s)) : IsLine s ∧ ∀ a ∈ args', a.IsLine := by
  have hpad : Printable (if zero then '0' else ' ') := by cases zero <;> decide
  have hdec (upper : Bool) (n : ℕ) := isLine_digitsText (b := 10) (by decide) (by decide) upper n
  have hhex (upper : Bool) (n : ℕ) := isLine_digitsText (b := 16) (by decide) (by decide) upper n
  have hword {f : UInt32 → List Char} (hf : ∀ w, IsLine (f w))
      (h : (vaWord args >>= fun p => pure (p.2, f p.1) : Except Undefined (List Arg × List Char)) =
        .ok (args', s)) : IsLine s ∧ ∀ a ∈ args', a.IsLine := by
    obtain ⟨w, hw, rfl⟩ := bind_ok h
    rw [vaWord_ok hw] at hargs
    exact ⟨hf w, (List.forall_mem_cons.mp hargs).2⟩
  unfold conversionText at h
  split at h
  · exact hword (fun w => isLine_signedText leftAlign hpad width w.toInt32) h
  · exact hword (fun w => isLine_signedText leftAlign hpad width w.toInt32) h
  · exact hword (fun w => (hdec false w.toNat).field leftAlign hpad width) h
  · exact hword (fun w => (hhex false w.toNat).field leftAlign hpad width) h
  · exact hword (fun w => (hhex true w.toNat).field leftAlign hpad width) h
  · refine hword (f := fun w => '0' :: 'x' :: field false '0' 8 (digitsText 16 false w.toNat))
      (fun w => ?_) h
    exact (((hhex false w.toNat).field false (by decide) 8).cons (by decide)).cons (by decide)
  · obtain ⟨t, ht, rfl⟩ := bind_ok (f := fun t : Option (List Char) =>
      field leftAlign (if zero then '0' else ' ') width (t.getD nullText)) h
    rw [vaText_ok ht] at hargs
    obtain ⟨hline, hrest⟩ := List.forall_mem_cons.mp hargs
    refine ⟨IsLine.field ?_ leftAlign hpad width, hrest⟩
    cases t with
    | none => decide
    | some t => exact hline
  · exact absurd rfl hletter
  · obtain ⟨hargs', rfl⟩ := Prod.mk.inj (Except.ok.inj h)
    exact ⟨by decide, hargs' ▸ hargs⟩

/-! ### Formats -/

/-- The plain text of a piece is a line, and it is not the conversion of a single character. -/
def Piece.IsLine : Piece → Prop
  | .plain s         => Printf.IsLine s
  | .conv _ _ _ _ letter => letter ≠ 'c'

instance : DecidablePred Piece.IsLine
  | .plain s             => inferInstanceAs (Decidable (Printf.IsLine s))
  | .conv _ _ _ _ letter => inferInstanceAs (Decidable (letter ≠ 'c'))

lemma map_ok {r : Except Undefined (List Char)} {f : List Char → List Char} {s : List Char}
    (h : r.map f = .ok s) : ∃ t, r = .ok t ∧ s = f t := by
  cases r with
  | error e => cases h
  | ok t => exact ⟨t, rfl, (Except.ok.inj h).symm⟩

lemma render_conv_ok {leftAlign zero long : Bool} {digits : List Char} {letter : Char}
    {ps : List Piece} {args : List Arg} {s : List Char}
    (h : render (.conv leftAlign zero digits long letter :: ps) args = .ok s) :
    ∃ args' t u, conversionText leftAlign (if zero then '0' else ' ') (widthOf digits) letter args =
      .ok (args', t) ∧ render ps args' = .ok u ∧ s = t ++ u := by
  rw [render] at h
  cases hconv : conversionText leftAlign (if zero then '0' else ' ') (widthOf digits) letter
    args with
  | error e =>
    rw [hconv] at h
    cases h
  | ok r =>
    rw [hconv] at h
    obtain ⟨u, hu, rfl⟩ := map_ok h
    exact ⟨r.1, r.2, u, rfl, hu, rfl⟩

/-- A format of such pieces prints a line. -/
lemma isLine_render {ps : List Piece} (hps : ∀ p ∈ ps, p.IsLine) {args : List Arg}
    (hargs : ∀ a ∈ args, a.IsLine) {s : List Char} (h : render ps args = .ok s) : IsLine s := by
  induction ps generalizing args s with
  | nil =>
    obtain rfl : [] = s := Except.ok.inj h
    exact isLine_nil
  | cons p ps ih =>
    obtain ⟨hp, hrest⟩ := List.forall_mem_cons.mp hps
    cases p with
    | plain t =>
      obtain ⟨u, hu, rfl⟩ := map_ok h
      exact IsLine.append hp (ih hrest hargs hu)
    | conv leftAlign zero digits long letter =>
      obtain ⟨args', t, u, hconv, hu, rfl⟩ := render_conv_ok h
      obtain ⟨ht, hargs'⟩ := isLine_conversionText hp hargs hconv
      exact ht.append (ih hrest hargs' hu)

/-- Plain text at the end of a format is printed at the end. -/
lemma render_concat (ps : List Piece) (t : List Char) (args : List Arg) :
    render (ps ++ [.plain t]) args = (render ps args).map (· ++ t) := by
  induction ps generalizing args with
  | nil => simp [render, Except.map]
  | cons p ps ih =>
    cases p with
    | plain s =>
      rw [List.cons_append, render, render, ih]
      cases render ps args <;> simp [Except.map]
    | conv leftAlign zero digits long letter =>
      rw [List.cons_append, render, render]
      cases conversionText leftAlign (if zero then '0' else ' ') (widthOf digits) letter args with
      | error e => rfl
      | ok r =>
        simp only [bind, Except.bind, ih]
        cases render ps r.1 <;> simp [Except.map]

/-! ### `uart_puts` -/

/-- The loop of `uart_puts` on a buffer with `n` places left: the characters it sends, when it comes
to the terminator in the buffer. -/
def putsLoop (mem : ℕ → Char) : ℕ → ℕ → Option (List Char)
  | 0, _     => none
  | n + 1, i => if mem i = nul then some [] else (putsLoop mem n (i + 1)).map (mem i :: ·)

/-- `uart_puts` on a buffer of `size` places. -/
def uartPuts (mem : ℕ → Char) (size : ℕ) : Option (List Char) := putsLoop mem size 0

/-- A text without a terminator in it is sent whole. -/
lemma putsLoop_holds {mem : ℕ → Char} {s : List Char} (hs : nul ∉ s) {n i : ℕ} (hn : s.length < n)
    (h : Reader.Holds mem i (s ++ [nul])) : putsLoop mem n i = some s := by
  induction s generalizing n i with
  | nil =>
    obtain ⟨n, rfl⟩ := Nat.exists_eq_succ_of_ne_zero (Nat.ne_of_gt hn)
    rw [putsLoop, if_pos h.head]
  | cons c s ih =>
    obtain ⟨hc, hs⟩ := List.ne_and_not_mem_of_not_mem_cons hs
    obtain ⟨n, rfl⟩ := Nat.exists_eq_succ_of_ne_zero (Nat.ne_of_gt (Nat.zero_lt_of_lt hn))
    rw [putsLoop, h.head, if_neg (Ne.symm hc), ih hs (Nat.lt_of_succ_lt_succ hn) h.tail]
    rfl

lemma IsLine.nul_notMem {s : List Char} (h : IsLine s) : nul ∉ s := by
  intro hnul
  exact absurd (h nul hnul) (by decide)

end EcuTelemetry.Printf
