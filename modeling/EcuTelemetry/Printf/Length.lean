import EcuTelemetry.Printf.Truncation

/-!
# How long a rendering gets

A format with its arguments is bounded piece by piece: `Bounded` has a rule for plain text and one
for a conversion, and the rules below it bound a conversion by the size of its argument. From the
bound follows that a buffer is large enough.
-/

namespace EcuTelemetry.Printf

open EcuTelemetry.Core

/-! ### The length of a conversion -/

lemma length_field (leftAlign : Bool) (pad : Char) (width : ℕ) (s : List Char) :
    (field leftAlign pad width s).length = max width s.length := by
  cases leftAlign with
  | true => exact List.length_rightpad
  | false => exact List.length_leftpad

lemma length_digitsText_le {base n k : ℕ} (hbase : 1 < base) (upper : Bool) (hk : 0 < k)
    (hn : n < base ^ k) : (digitsText base upper n).length ≤ k := by
  rw [digitsText, List.length_map]
  exact (Nat.length_toDigits_le_iff hbase hk).mpr hn

/-- A field of digits is no longer than its width and its digits ask for. -/
lemma length_field_digitsText_le {base n k width : ℕ} (hbase : 1 < base) (leftAlign : Bool)
    (pad : Char) (upper : Bool) (hk : 0 < k) (hn : n < base ^ k) (hwidth : width ≤ k) :
    (field leftAlign pad width (digitsText base upper n)).length ≤ k := by
  rw [length_field]
  exact Nat.max_le.mpr ⟨hwidth, length_digitsText_le hbase upper hk hn⟩

/-- A number that is not negative has no place for a sign. -/
lemma length_signedText_of_nonneg {val : Int32} {k width : ℕ} (leftAlign : Bool) (pad : Char)
    (hk : 0 < k) (hnonneg : 0 ≤ val.toInt) (hval : val.toInt < 10 ^ k) (hwidth : width ≤ k) :
    (signedText leftAlign pad width val).length ≤ k := by
  have hsign : ¬ val < 0 := by
    rw [Checked.int32_lt_zero_iff]
    exact Int.not_lt.mpr hnonneg
  have habs : val.toInt.natAbs < 10 ^ k := by
    zify
    rw [abs_of_nonneg hnonneg]
    exact hval
  rw [signedText, if_neg hsign]
  exact length_field_digitsText_le (by decide) leftAlign pad false hk habs hwidth

/-- A number of `k` digits takes `k` places and one for the sign. -/
lemma length_signedText_le {val : Int32} {k width : ℕ} (leftAlign : Bool) (pad : Char)
    (hk : 0 < k) (hval : val.toInt.natAbs < 10 ^ k) (hwidth : width ≤ k + 1) :
    (signedText leftAlign pad width val).length ≤ k + 1 := by
  rw [signedText]
  split_ifs
  · rw [List.length_cons]
    exact Nat.succ_le_succ (length_field_digitsText_le (by decide) leftAlign pad false hk hval
      (Nat.sub_le_of_le_add hwidth))
  · exact length_field_digitsText_le (by decide) leftAlign pad false (Nat.succ_pos k)
      (hval.trans (Nat.pow_lt_pow_succ (by decide))) hwidth

/-! ### Bounds -/

/-- The arguments serve the pieces, and the text has at most so many characters. -/
inductive Bounded : List Piece → List Arg → ℕ → Prop
  | nil : Bounded [] [] 0
  | plain {ps : List Piece} {args : List Arg} {n : ℕ} (s : List Char) (h : Bounded ps args n) :
      Bounded (.plain s :: ps) args (s.length + n)
  | conv {leftAlign zero long : Bool} {digits : List Char} {letter : Char} {ps : List Piece}
      {args args' : List Arg} {t : List Char} {k n : ℕ}
      (hconv : conversionText leftAlign (if zero then '0' else ' ') (widthOf digits) letter args =
        .ok (args', t)) (ht : t.length ≤ k) (h : Bounded ps args' n) :
      Bounded (.conv leftAlign zero digits long letter :: ps) args (k + n)

namespace Bounded

variable {leftAlign zero long : Bool} {digits : List Char} {ps : List Piece} {args : List Arg}
  {k n : ℕ}

/-- A bounded format has a text, of no more characters than the bound. -/
lemma render (h : Bounded ps args n) : ∃ s, Printf.render ps args = .ok s ∧ s.length ≤ n := by
  induction h with
  | nil => exact ⟨[], rfl, Nat.le_refl _⟩
  | plain s _ ih =>
    obtain ⟨t, ht, hlen⟩ := ih
    refine ⟨s ++ t, by rw [Printf.render, ht]; rfl, ?_⟩
    rw [List.length_append]
    exact Nat.add_le_add_left hlen _
  | conv hconv ht _ ih =>
    obtain ⟨s, hs, hlen⟩ := ih
    refine ⟨_ ++ s, by rw [Printf.render, hconv]; exact congrArg (Except.map _) hs, ?_⟩
    rw [List.length_append]
    exact Nat.add_le_add ht hlen

/-- `%d` on a number of at most `k` digits. -/
lemma signed {val : Int32} (k : ℕ) (hk : 0 < k) (hval : val.toInt.natAbs < 10 ^ k)
    (hwidth : widthOf digits ≤ k + 1) (h : Bounded ps args n) :
    Bounded (.conv leftAlign zero digits long 'd' :: ps) (.word val.toUInt32 :: args)
      (k + 1 + n) :=
  .conv rfl (length_signedText_le leftAlign _ hk hval hwidth) h

/-- `%d` on a number of at most `k` digits that is not negative. -/
lemma natural {val : Int32} (k : ℕ) (hk : 0 < k) (hnonneg : 0 ≤ val.toInt)
    (hval : val.toInt < 10 ^ k) (hwidth : widthOf digits ≤ k) (h : Bounded ps args n) :
    Bounded (.conv leftAlign zero digits long 'd' :: ps) (.word val.toUInt32 :: args) (k + n) :=
  .conv rfl (length_signedText_of_nonneg leftAlign _ hk hnonneg hval hwidth) h

/-- `%u`. -/
lemma unsigned {w : UInt32} (k : ℕ) (hk : 0 < k) (hw : w.toNat < 10 ^ k)
    (hwidth : widthOf digits ≤ k) (h : Bounded ps args n) :
    Bounded (.conv leftAlign zero digits long 'u' :: ps) (.word w :: args) (k + n) :=
  .conv rfl (length_field_digitsText_le (by decide) leftAlign _ false hk hw hwidth) h

/-- `%u` on any word. -/
lemma word (w : UInt32) (h : Bounded ps args n) :
    Bounded (.conv leftAlign zero [] long 'u' :: ps) (.word w :: args) (10 + n) := by
  have hw : w.toNat < 10 ^ 10 := w.toNat_lt.trans (by decide)
  exact .unsigned 10 (by decide) hw (Nat.zero_le _) h

/-- `%X`. -/
lemma hex {w : UInt32} (k : ℕ) (hk : 0 < k) (hw : w.toNat < 16 ^ k)
    (hwidth : widthOf digits ≤ k) (h : Bounded ps args n) :
    Bounded (.conv leftAlign zero digits long 'X' :: ps) (.word w :: args) (k + n) :=
  .conv rfl (length_field_digitsText_le (by decide) leftAlign _ true hk hw hwidth) h

/-- `%s`. -/
lemma text {s : List Char} (k : ℕ) (hs : s.length ≤ k) (hwidth : widthOf digits ≤ k)
    (h : Bounded ps args n) :
    Bounded (.conv leftAlign zero digits long 's' :: ps) (.text (some s) :: args) (k + n) := by
  refine .conv rfl ?_ h
  rw [length_field]
  exact Nat.max_le.mpr ⟨hwidth, hs⟩

/-- `%%`. -/
lemma percent (h : Bounded ps args n) :
    Bounded (.conv leftAlign zero digits long '%' :: ps) args (1 + n) :=
  .conv rfl (Nat.le_refl 1) h

end Bounded

/-! ### Buffers -/

/-- A call leaves the text `s` in its buffer of `size` places, with its terminator, and returns the
length of `s`. -/
def Whole (call : (ℕ → Char) → Except Undefined ((ℕ → Char) × Int32)) (size : ℕ)
    (s : List Char) : Prop :=
  s.length < size ∧ ∀ mem, ∃ mem' r, call mem = .ok (mem', r) ∧ r.toInt = s.length ∧
    Reader.Holds mem' 0 (s ++ [nul])

/-- A buffer longer than the bound takes the whole text. -/
lemma Bounded.whole {ps : List Piece} (hps : ∀ p ∈ ps, p.WellFormed) {args : List Arg} {n : ℕ}
    (h : Bounded ps args n) (hn : n < 2 ^ 31) (size : UInt32) (hsize : n < size.toNat) :
    ∃ s, Printf.render ps args = .ok s ∧
      Whole (miniVsnprintf · size (ps.flatMap Piece.format) args) size.toNat s := by
  obtain ⟨s, hs, hlen⟩ := h.render
  exact ⟨s, hs, hlen.trans_lt hsize, fun mem =>
    miniVsnprintf_fits hps hs (hlen.trans_lt hn) (hlen.trans_lt hsize) mem⟩

end EcuTelemetry.Printf
