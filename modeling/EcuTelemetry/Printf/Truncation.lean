import EcuTelemetry.Core.Reader
import EcuTelemetry.Printf.Render

/-!
# Truncation

What `mini_vsnprintf` leaves in memory and returns. `buf_putc` counts every character it is offered
and stores those in front of the last place, so that the return value is the length of the rendering
whatever the size, up to the range of an `int`.
-/

namespace EcuTelemetry.Printf

open EcuTelemetry.Core

variable {size : UInt32}

/-! ### A run of `buf_putc` -/

lemma foldl_bufPutc_pos (s : List Char) (o : Out) :
    (s.foldl (bufPutc size) o).pos = o.pos + UInt32.ofNat s.length := by
  induction s generalizing o with
  | nil => simp
  | cons c s ih =>
    rw [List.foldl_cons, ih, bufPutc, List.length_cons, UInt32.ofNat_add, UInt32.add_assoc,
      UInt32.add_comm 1]
    rfl

/-- Until `pos` wraps, a character goes to its own place when a terminator still fits behind it. -/
lemma bufPutc_mem {o : Out} (h : o.pos.toNat + 1 < 2 ^ 32) (c : Char) (i : ℕ) :
    (bufPutc size o c).mem i =
      if i = o.pos.toNat ∧ i + 1 < size.toNat then c else o.mem i := by
  have hpos : (o.pos + 1).toNat = o.pos.toNat + 1 := by
    rw [UInt32.toNat_add]
    exact Nat.mod_eq_of_lt h
  have hroom : o.pos + 1 < size ↔ o.pos.toNat + 1 < size.toNat := by
    rw [UInt32.lt_iff_toNat_lt, hpos]
  by_cases hlt : o.pos + 1 < size
  · have hlt' := hroom.mp hlt
    simp only [bufPutc, if_pos hlt, Function.update_apply]
    by_cases hi : i = o.pos.toNat
    · rw [if_pos hi, if_pos ⟨hi, hi ▸ hlt'⟩]
    · rw [if_neg hi, if_neg fun h => hi h.1]
  · simp only [bufPutc, if_neg hlt]
    rw [if_neg]
    rintro ⟨rfl, hi⟩
    exact hlt (hroom.mpr hi)

/-- The invariant of every emitter: the text stands from the start position on, as far as it fits,
and the rest of the memory is as it was. -/
lemma foldl_bufPutc_mem {s : List Char} {o : Out} (h : o.pos.toNat + s.length < 2 ^ 32) (i : ℕ) :
    (s.foldl (bufPutc size) o).mem i =
      if o.pos.toNat ≤ i ∧ i + 1 < size.toNat then (s[i - o.pos.toNat]?).getD (o.mem i)
      else o.mem i := by
  induction s generalizing o with
  | nil => simp
  | cons c s ih =>
    rw [List.length_cons] at h
    have hpos : (bufPutc size o c).pos.toNat = o.pos.toNat + 1 := by
      rw [bufPutc, UInt32.toNat_add]
      exact Nat.mod_eq_of_lt (by simp; omega)
    rw [List.foldl_cons, ih (by omega), bufPutc_mem (by omega), hpos]
    rcases Nat.lt_trichotomy i o.pos.toNat with hlt | rfl | hgt
    · rw [if_neg (by omega), if_neg (by omega), if_neg (by omega)]
    · by_cases hroom : o.pos.toNat + 1 < size.toNat
      · rw [if_neg (by omega), if_pos ⟨rfl, hroom⟩, if_pos ⟨le_rfl, hroom⟩, Nat.sub_self]
        rfl
      · rw [if_neg (by omega), if_neg (by omega), if_neg (by omega)]
    · obtain ⟨k, rfl⟩ := Nat.exists_eq_add_of_lt hgt
      have hk : o.pos.toNat + k + 1 - o.pos.toNat = k + 1 := by omega
      have hk' : o.pos.toNat + k + 1 - (o.pos.toNat + 1) = k := by omega
      rw [hk, hk', List.getElem?_cons_succ]
      by_cases hroom : o.pos.toNat + k + 1 + 1 < size.toNat
      · rw [if_pos (by omega), if_neg (by omega), if_pos (by omega)]
      · rw [if_neg (by omega), if_neg (by omega), if_neg (by omega)]

/-! ### The contract -/

/-- The memory `mem'` holds, from index 0 on, the text `s` cut off for a buffer of `size` places and
its terminator, and is `mem` outside the buffer. -/
structure Truncates (mem mem' : ℕ → Char) (size : ℕ) (s : List Char) : Prop where
  outside : ∀ i, size ≤ i → mem' i = mem i
  text : ∀ i (h : i < s.length), i < size - 1 → mem' i = s[i]
  terminator : 0 < size → mem' (min s.length (size - 1)) = nul

/-- A text that fits is there whole. -/
lemma Truncates.holds {mem mem' : ℕ → Char} {size : ℕ} {s : List Char}
    (h : Truncates mem mem' size s) (hfits : s.length < size) :
    Reader.Holds mem' 0 (s ++ [nul]) := by
  intro i hi
  rw [List.length_append, List.length_singleton] at hi
  rw [Nat.zero_add]
  rcases Nat.lt_succ_iff_lt_or_eq.mp hi with hlt | rfl
  · rw [h.text i hlt (by omega), List.getElem_append_left hlt]
  · have hend := h.terminator (Nat.zero_lt_of_lt hfits)
    rw [Nat.min_eq_left (Nat.le_sub_one_of_lt hfits)] at hend
    rw [hend, List.getElem_concat_length rfl]

/-- The terminator goes behind the text or to the last place. -/
lemma terminator_index {n : ℕ} {pos : UInt32} (hpos : pos.toNat = n) (hsize : 0 < size) :
    (if pos < size then pos else size - 1).toNat = min n (size.toNat - 1) := by
  have hpred : (size - 1).toNat = size.toNat - 1 :=
    UInt32.toNat_sub_of_le size 1 (UInt32.le_iff_toNat_le.mpr hsize)
  by_cases hlt : pos < size
  · have hlt' := UInt32.lt_iff_toNat_lt.mp hlt
    rw [if_pos hlt, hpos]
    omega
  · have hle := UInt32.le_iff_toNat_le.mp (UInt32.not_lt.mp hlt)
    rw [if_neg hlt, hpred]
    omega

/-- What the run of `buf_putc` and the terminator leave. -/
lemma truncates_foldl {s : List Char} (hlen : s.length < 2 ^ 32) (mem : ℕ → Char)
    (hsize : 0 < size) :
    Truncates mem
      (Function.update (s.foldl (bufPutc size) ⟨mem, 0⟩).mem (min s.length (size.toNat - 1)) nul)
      size.toNat s := by
  have hpos : 0 < size.toNat := UInt32.lt_iff_toNat_lt.mp hsize
  have hmem := @foldl_bufPutc_mem size s ⟨mem, 0⟩ (by simpa using hlen)
  simp only [UInt32.toNat_zero, Nat.zero_le, true_and, Nat.sub_zero] at hmem
  constructor
  · intro i hi
    rw [Function.update_of_ne (by omega), hmem, if_neg (by omega)]
  · intro i hi hlast
    rw [Function.update_of_ne (by omega), hmem, if_pos (by omega), List.getElem?_eq_getElem hi]
    rfl
  · exact fun _ => Function.update_self _ _ _

/-- What `mini_vsnprintf` returns for a rendering of `n` characters. -/
def returned (n : ℕ) : Int32 := (UInt32.ofNat n).toInt32

lemma toInt_returned {n : ℕ} (h : n < 2 ^ 31) : (returned n).toInt = n := by
  have hn : (UInt32.ofNat n).toNat = n := UInt32.toNat_ofNat_of_lt' (h.trans (by decide))
  rw [returned, Checked.toInt_toInt32_of_lt (hn.symm ▸ h), hn]

/-- What `mini_vsnprintf` leaves for a format made of complete specifications, and what it
returns. -/
lemma miniVsnprintf_eq {ps : List Piece} (hps : ∀ p ∈ ps, p.WellFormed) {args : List Arg}
    {s : List Char} (hs : render ps args = .ok s) (htexts : TextsFit ps args)
    (hlen : s.length < 2 ^ 32) (mem : ℕ → Char) :
    miniVsnprintf mem size (ps.flatMap Piece.format) args =
      .ok (if 0 < size then
          Function.update (s.foldl (bufPutc size) ⟨mem, 0⟩).mem
            (min s.length (size.toNat - 1)) nul
        else (s.foldl (bufPutc size) ⟨mem, 0⟩).mem, returned s.length) := by
  have hloop := @vsnprintfLoop_pieces size ps hps args s hs htexts ⟨mem, 0⟩
  have hpos : (s.foldl (bufPutc size) ⟨mem, 0⟩).pos = UInt32.ofNat s.length := by
    rw [foldl_bufPutc_pos, UInt32.zero_add]
  have hpos' : (s.foldl (bufPutc size) ⟨mem, 0⟩).pos.toNat = s.length := by
    rw [hpos]
    exact UInt32.toNat_ofNat_of_lt' hlen
  rw [miniVsnprintf, hloop, returned, ← hpos]
  by_cases hsize : 0 < size
  · rw [if_pos hsize, ← terminator_index hpos' hsize]
    exact congrArg (fun m => Except.ok (m, _)) (if_pos hsize)
  · rw [if_neg hsize]
    exact congrArg (fun m => Except.ok (m, _)) (if_neg hsize)

/-- A rendering that fits the buffer stands there whole, with its terminator. -/
lemma miniVsnprintf_fits {ps : List Piece} (hps : ∀ p ∈ ps, p.WellFormed) {args : List Arg}
    {s : List Char} (hs : render ps args = .ok s) (hlen : s.length < 2 ^ 31)
    (hfits : s.length < size.toNat) (mem : ℕ → Char) :
    ∃ mem' r, miniVsnprintf mem size (ps.flatMap Piece.format) args = .ok (mem', r) ∧
      r.toInt = s.length ∧ Reader.Holds mem' 0 (s ++ [nul]) := by
  have hlen' : s.length < 2 ^ 32 := hlen.trans (by decide)
  have hrun := @miniVsnprintf_eq size ps hps args s hs (textsFit_of_render hs hlen) hlen' mem
  have hsize : 0 < size := UInt32.lt_iff_toNat_lt.mpr (Nat.zero_lt_of_lt hfits)
  rw [if_pos hsize] at hrun
  exact ⟨_, _, hrun, toInt_returned hlen, (truncates_foldl hlen' mem hsize).holds hfits⟩

/-- `mini_vsnprintf` obeys the contract of `snprintf`, for every format made of complete
specifications, every argument list with a rendering whose length fits a `uint32_t`, and every size.
The value returned, the same for every size, is that length where it fits an `int`; the strings have
to fit one in any case, as they do where the rendering does (`textsFit_of_render`). -/
theorem vsnprintf_truncates {ps : List Piece} (hps : ∀ p ∈ ps, p.WellFormed) {args : List Arg}
    {s : List Char} (hs : render ps args = .ok s) (htexts : TextsFit ps args)
    (hlen : s.length < 2 ^ 32) :
    ∃ r : Int32, (s.length < 2 ^ 31 → r.toInt = s.length) ∧
      ∀ (mem : ℕ → Char) (size : UInt32), ∃ mem',
        miniVsnprintf mem size (ps.flatMap Piece.format) args = .ok (mem', r) ∧
          (0 < size → Truncates mem mem' size.toNat s) ∧ (size = 0 → mem' = mem) := by
  refine ⟨returned s.length, toInt_returned, fun mem size => ?_⟩
  refine ⟨_, @miniVsnprintf_eq size ps hps args s hs htexts hlen mem, ?_, ?_⟩
  · intro hsize
    rw [if_pos hsize]
    exact truncates_foldl hlen mem hsize
  · rintro rfl
    funext i
    rw [if_neg (by decide), foldl_bufPutc_mem (by simpa using hlen), if_neg]
    simp

/-- The line `n=7` in a buffer of three places. -/
theorem vsnprintf_truncates_n7 :
    ∃ mem' r, miniVsnprintf (fun _ => 'x') 3 "n=%u\n".toList [.word 7] = .ok (mem', r) ∧
      r.toInt = 4 ∧ Truncates (fun _ => 'x') mem' 3 "n=7\n".toList := by
  obtain ⟨r, hr, h⟩ :=
    @vsnprintf_truncates [.plain "n=".toList, .conv false false [] false 'u', .plain "\n".toList]
      (by decide) [.word 7] "n=7\n".toList (by decide)
      (textsFit_of_render (s := "n=7\n".toList) (by decide) (by decide)) (by decide)
  obtain ⟨mem', hrun, htrunc, -⟩ := h (fun _ => 'x') 3
  exact ⟨mem', r, hrun, hr (by decide), htrunc (by decide)⟩

/-! ### A rendering that does not fit an `int` -/

/-- One signed field and one character more. -/
def fieldAndMore (digits : List Char) : List Piece :=
  [.conv false false digits false 'd', .plain ['x']]

lemma vsnprintfLoop_fieldAndMore {digits : List Char}
    (h : (Piece.conv false false digits false 'd').WellFormed) (w : UInt32) (o : Out) :
    vsnprintfLoop size ((fieldAndMore digits).flatMap Piece.format) [.word w] o =
      .ok ((signedText false ' ' (widthOf digits) w.toInt32 ++ ['x']).foldl (bufPutc size) o) := by
  rw [fieldAndMore, List.flatMap_cons, vsnprintfLoop_conv h,
    convert_eq h.2.2.2 _ _ _ _ _ _ _ (by simp), List.foldl_append]
  show vsnprintfLoop size (['x'] ++ []) [] _ = _
  rw [vsnprintfLoop_plain (by decide), vsnprintfLoop]
  rfl

lemma render_fieldAndMore (digits : List Char) (w : UInt32) :
    render (fieldAndMore digits) [.word w] =
      .ok (signedText false ' ' (widthOf digits) w.toInt32 ++ ['x']) := rfl

/-- A field as wide as an `int` goes. -/
lemma length_widest :
    (signedText false ' ' (widthOf "2147483647".toList) 0).length = 2147483647 := by
  have hwidth : widthOf "2147483647".toList = 2147483647 := by decide
  have hone : (digitsText 10 false 0).length = 1 := by decide
  rw [hwidth, signedText, if_neg (by decide), field, if_neg (by decide), List.length_leftpad,
    show (0 : Int32).toInt.natAbs = 0 from rfl, hone]
  rfl

/-- The value returned for a rendering of `2 ^ 31` characters is not its length. -/
theorem vsnprintf_widest :
    (∀ p ∈ fieldAndMore "2147483647".toList, p.WellFormed) ∧
      ¬ ∃ s mem' r, render (fieldAndMore "2147483647".toList) [.word 0] = .ok s ∧
        miniVsnprintf (fun _ => 'x') 16 ((fieldAndMore "2147483647".toList).flatMap Piece.format)
          [.word 0] = .ok (mem', r) ∧ r.toInt = s.length := by
  refine ⟨by decide, ?_⟩
  rintro ⟨s, mem', r, hs, hrun, hr⟩
  have hlength := length_widest
  rw [render_fieldAndMore] at hs
  rw [miniVsnprintf, vsnprintfLoop_fieldAndMore (by decide)] at hrun
  obtain ⟨-, rfl⟩ := Prod.mk.inj (Except.ok.inj hrun)
  obtain rfl := Except.ok.inj hs
  rw [foldl_bufPutc_pos, List.length_append, show (0 : UInt32).toInt32 = 0 from rfl, hlength] at hr
  exact absurd hr (by decide)

end EcuTelemetry.Printf
