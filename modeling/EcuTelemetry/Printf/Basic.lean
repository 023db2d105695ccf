import EcuTelemetry.Core.Checked
import Mathlib.Algebra.Order.Field.Rat
import Mathlib.Data.Rat.Floor
import Mathlib.Logic.Function.Basic

/-!
# `mini_vsnprintf`

The formatter of `printf.c` on a 32-bit target: `size_t`, `int`, `long` and pointers are words, so
the `l` modifier is scanned and changes nothing. The memory from `buf` on is a function, so that a
store at any index can be told. A format and a text are C strings without their terminators, a
`double` is the rational it stands for and its arithmetic is exact. What C leaves undefined is an
outcome of its own; `val = -val` on the least `long` wraps.
-/

namespace EcuTelemetry.Printf

open EcuTelemetry.Core.Checked

/-- The character that ends a C string. -/
def nul : Char := '\x00'

/-- A variadic argument. -/
inductive Arg where
  | word (w : UInt32)
  | text (s : Option (List Char))
  | double (val : ℚ)
  deriving DecidableEq

/-- Behaviour without a meaning in C. -/
inductive Undefined where
  | pastFormat
  | noArgument
  | overflow
  | pastBuffer
  deriving DecidableEq, Repr

/-- The result of an operation on `int`. -/
def int (x : ℤ) : Except Undefined ℤ := (signed 32 x).mapError fun _ => .overflow

/-- The cast of a `double` to `unsigned long`. -/
def unsignedLong (val : ℚ) : Except Undefined UInt32 :=
  if -1 < val ∧ val < 2 ^ 32 then .ok (UInt32.ofNat val.floor.toNat) else .error .overflow

/-- `va_arg` for a word. -/
def vaWord : List Arg → Except Undefined (UInt32 × List Arg)
  | .word w :: args => .ok (w, args)
  | _               => .error .noArgument

/-- `va_arg` for a pointer to text. -/
def vaText : List Arg → Except Undefined (Option (List Char) × List Arg)
  | .text s :: args => .ok (s, args)
  | _               => .error .noArgument

/-- `va_arg` for a `double`. -/
def vaDouble : List Arg → Except Undefined (ℚ × List Arg)
  | .double val :: args => .ok (val, args)
  | _                   => .error .noArgument

/-! ### Output -/

/-- The memory from `buf` on, and `pos`. -/
structure Out where
  mem : ℕ → Char
  pos : UInt32

/-- `buf_putc`. -/
def bufPutc (size : UInt32) (o : Out) (c : Char) : Out :=
  { mem := if o.pos + 1 < size then Function.update o.mem o.pos.toNat c else o.mem
    pos := o.pos + 1 }

/-- The loop that writes `n` padding characters. -/
def padLoop (size : UInt32) (pad : Char) : ℕ → Out → Out
  | 0, o     => o
  | n + 1, o => padLoop size pad n (bufPutc size o pad)

/-- The end of `buf_puts_n` and of `fmt_uint`: `s`, of length `len`, between the padding loops. -/
def putPadded (size : UInt32) (o : Out) (s : List Char) (len width : ℤ) (leftAlign : Bool)
    (pad : Char) : Out :=
  let padCount := if width > len then (width - len).toNat else 0
  let o := if leftAlign then o else padLoop size pad padCount o
  let o := s.foldl (bufPutc size) o
  if leftAlign then padLoop size ' ' padCount o else o

/-- `buf_puts_n`, which measures the text in an `int`. -/
def bufPutsN (size : UInt32) (o : Out) (s : List Char) (width : ℤ) (leftAlign : Bool)
    (pad : Char) : Except Undefined Out := do
  let len ← int s.length
  return putPadded size o s len width leftAlign pad

/-- `digits_lo` and `digits_up`. -/
def digitTable (upper : Bool) : List Char :=
  if upper then "0123456789ABCDEF".toList else "0123456789abcdef".toList

/-- The loop that fills `tmp`, digits lowest first, when it has room for `room` more. -/
def tmpLoop (digits : List Char) (base : UInt32) : ℕ → UInt32 → Except Undefined (List Char)
  | room, val =>
    if val = 0 then .ok []
    else
      match room, digits[(val % base).toNat]? with
      | room + 1, some c => (tmpLoop digits base room (val / base)).map (c :: ·)
      | _, _             => .error .pastBuffer

/-- `fmt_uint`. -/
def fmtUint (size : UInt32) (o : Out) (val base : UInt32) (upper : Bool) (width : ℤ) (pad : Char)
    (leftAlign : Bool) : Except Undefined Out := do
  let tmp ← if val = 0 then .ok ['0'] else tmpLoop (digitTable upper) base 32 val
  return putPadded size o tmp.reverse tmp.length width leftAlign pad

/-- The digits of the fraction in `fmt_float`, lowest first. -/
def fracLoop : ℕ → UInt32 → List Char
  | 0, _            => []
  | n + 1, fracInt => Char.ofNat ('0'.toNat + (fracInt % 10).toNat) :: fracLoop n (fracInt / 10)

/-- `fmt_float`. -/
def fmtFloat (size : UInt32) (o : Out) (val : ℚ) (prec : ℤ) : Except Undefined Out := do
  let prec := if prec < 0 then 6 else prec
  let prec := if prec > 9 then 9 else prec
  let (o, val) := if val < 0 then (bufPutc size o '-', -val) else (o, val)
  let intPart ← unsignedLong val
  let o ← fmtUint size o intPart 10 false 0 ' ' false
  let o := bufPutc size o '.'
  let frac := val - intPart.toNat
  let fracInt ← unsignedLong (frac * 10 ^ prec.toNat + 1 / 2)
  return (fracLoop prec.toNat fracInt).reverse.foldl (bufPutc size) o

/-! ### The scan of a conversion -/

/-- What stands between a `%` and the conversion character. -/
structure Spec where
  leftAlign : Bool
  pad : Char
  width : ℤ
  prec : ℤ
  isLong : Bool
  deriving DecidableEq, Repr

/-- The test for the flag `flag`. -/
def scanFlag (flag : Char) : List Char → Bool × List Char
  | []       => (false, [])
  | c :: fmt => if c = flag then (true, fmt) else (false, c :: fmt)

/-- The loop over the digits of a width or a precision. -/
def scanNumber (n : ℤ) : List Char → Except Undefined (ℤ × List Char)
  | []       => .ok (n, [])
  | c :: fmt =>
    if '0' ≤ c ∧ c ≤ '9' then do
      let tens ← int (n * 10)
      let n ← int (tens + (c.toNat - '0'.toNat))
      scanNumber n fmt
    else .ok (n, c :: fmt)

/-- The precision, `-1` when there is none. -/
def scanPrec : List Char → Except Undefined (ℤ × List Char)
  | '.' :: fmt => scanNumber 0 fmt
  | fmt        => .ok (-1, fmt)

/-- The length modifier. -/
def scanLong : List Char → Bool × List Char
  | 'l' :: 'l' :: fmt => (true, fmt)
  | 'l' :: fmt        => (true, fmt)
  | fmt               => (false, fmt)

/-- The specification and the format from the conversion character on. -/
def scanSpec (fmt : List Char) : Except Undefined (Spec × List Char) := do
  let (leftAlign, fmt) := scanFlag '-' fmt
  let (zero, fmt) := scanFlag '0' fmt
  let (width, fmt) ← scanNumber 0 fmt
  let (prec, fmt) ← scanPrec fmt
  let (isLong, fmt) := scanLong fmt
  return (⟨leftAlign, if zero then '0' else ' ', width, prec, isLong⟩, fmt)

lemma length_scanFlag (flag : Char) (fmt : List Char) :
    (scanFlag flag fmt).2.length ≤ fmt.length := by
  cases fmt with
  | nil => exact Nat.le_refl _
  | cons c fmt =>
    rw [scanFlag]
    split_ifs
    · exact Nat.le_succ _
    · exact Nat.le_refl _

lemma length_scanNumber {fmt rest : List Char} {n m : ℤ} (h : scanNumber n fmt = .ok (m, rest)) :
    rest.length ≤ fmt.length := by
  induction fmt generalizing n with
  | nil =>
    obtain ⟨-, rfl⟩ := Prod.mk.inj (Except.ok.inj h)
    exact Nat.le_refl _
  | cons c fmt ih =>
    rw [scanNumber] at h
    split_ifs at h
    · cases htens : int (n * 10) with
      | error e =>
        rw [htens] at h
        cases h
      | ok tens =>
        rw [htens] at h
        cases hn : int (tens + (c.toNat - '0'.toNat)) with
        | error e =>
          simp only [hn, bind, Except.bind] at h
          cases h
        | ok k =>
          simp only [hn, bind, Except.bind] at h
          exact Nat.le_succ_of_le (ih h)
    · obtain ⟨-, rfl⟩ := Prod.mk.inj (Except.ok.inj h)
      exact Nat.le_refl _

lemma length_scanPrec {fmt rest : List Char} {m : ℤ} (h : scanPrec fmt = .ok (m, rest)) :
    rest.length ≤ fmt.length := by
  unfold scanPrec at h
  split at h
  · exact Nat.le_succ_of_le (length_scanNumber h)
  · obtain ⟨-, rfl⟩ := Prod.mk.inj (Except.ok.inj h)
    exact Nat.le_refl _

lemma length_scanLong (fmt : List Char) : (scanLong fmt).2.length ≤ fmt.length := by
  unfold scanLong
  split
  · exact Nat.le_add_right _ 2
  · exact Nat.le_succ _
  · exact Nat.le_refl _

lemma length_scanSpec {fmt rest : List Char} {spec : Spec}
    (h : scanSpec fmt = .ok (spec, rest)) : rest.length ≤ fmt.length := by
  simp only [scanSpec] at h
  cases hwidth : scanNumber 0 (scanFlag '0' (scanFlag '-' fmt).2).2 with
  | error e =>
    simp only [hwidth, bind, Except.bind] at h
    cases h
  | ok r =>
    cases hprec : scanPrec r.2 with
    | error e =>
      simp only [hwidth, hprec, bind, Except.bind] at h
      cases h
    | ok r' =>
      simp only [hwidth, hprec, bind, Except.bind] at h
      obtain ⟨-, rfl⟩ := Prod.mk.inj (Except.ok.inj h)
      calc (scanLong r'.2).2.length ≤ r'.2.length := length_scanLong _
        _ ≤ r.2.length := length_scanPrec hprec
        _ ≤ (scanFlag '0' (scanFlag '-' fmt).2).2.length := length_scanNumber hwidth
        _ ≤ (scanFlag '-' fmt).2.length := length_scanFlag _ _
        _ ≤ fmt.length := length_scanFlag _ _

/-! ### `mini_vsnprintf` -/

/-- What is printed for a null pointer. -/
def nullText : List Char := "(null)".toList

/-- The `switch` on the conversion character: the arguments left and the output. -/
def convert (size : UInt32) (spec : Spec) (letter : Char) (args : List Arg) (o : Out) :
    Except Undefined (List Arg × Out) :=
  match letter with
  | 'd' | 'i' => do
    let (w, args) ← vaWord args
    let val := w.toInt32
    if val < 0 then
      let width := if spec.width > 0 then spec.width - 1 else spec.width
      let o ← fmtUint size (bufPutc size o '-') (-val).toUInt32 10 false width spec.pad
        spec.leftAlign
      return (args, o)
    else
      let o ← fmtUint size o val.toUInt32 10 false spec.width spec.pad spec.leftAlign
      return (args, o)
  | 'u' => do
    let (w, args) ← vaWord args
    let o ← fmtUint size o w 10 false spec.width spec.pad spec.leftAlign
    return (args, o)
  | 'x' => do
    let (w, args) ← vaWord args
    let o ← fmtUint size o w 16 false spec.width spec.pad spec.leftAlign
    return (args, o)
  | 'X' => do
    let (w, args) ← vaWord args
    let o ← fmtUint size o w 16 true spec.width spec.pad spec.leftAlign
    return (args, o)
  | 'p' => do
    let (w, args) ← vaWord args
    let o ← fmtUint size (bufPutc size (bufPutc size o '0') 'x') w 16 false 8 '0' false
    return (args, o)
  | 's' => do
    let (s, args) ← vaText args
    let o ← bufPutsN size o (s.getD nullText) spec.width spec.leftAlign spec.pad
    return (args, o)
  | 'c' => do
    let (w, args) ← vaWord args
    return (args, bufPutc size o (Char.ofNat (w.toNat % 256)))
  | 'f' => do
    let (val, args) ← vaDouble args
    let o ← fmtFloat size o val (if spec.prec < 0 then 1 else spec.prec)
    return (args, o)
  | '%' => .ok (args, bufPutc size o '%')
  | c   => .ok (args, bufPutc size (bufPutc size o '%') c)

/-- The loop of `mini_vsnprintf`. When the format ends inside a specification the terminator is
taken for the conversion character, and the scan goes on behind it. -/
def vsnprintfLoop (size : UInt32) : List Char → List Arg → Out → Except Undefined Out
  | [], _, o          => .ok o
  | c :: fmt, args, o =>
    if c ≠ '%' then vsnprintfLoop size fmt args (bufPutc size o c)
    else if fmt = [] then .ok o
    else
      match _hscan : scanSpec fmt with
      | .error e                   => .error e
      | .ok (_, [])                => .error .pastFormat
      | .ok (spec, letter :: rest) => do
        let (args, o) ← convert size spec letter args o
        vsnprintfLoop size rest args o
termination_by fmt => fmt.length
decreasing_by
  · exact Nat.lt_succ_self _
  · exact Nat.lt_succ_of_lt (Nat.lt_of_succ_le (length_scanSpec _hscan))

/-- `mini_vsnprintf`: the memory from `buf` on and the value returned. -/
def miniVsnprintf (mem : ℕ → Char) (size : UInt32) (fmt : List Char) (args : List Arg) :
    Except Undefined ((ℕ → Char) × Int32) := do
  let o ← vsnprintfLoop size fmt args ⟨mem, 0⟩
  let mem :=
    if size > 0 then Function.update o.mem (if o.pos < size then o.pos else size - 1).toNat nul
    else o.mem
  return (mem, o.pos.toInt32)

end EcuTelemetry.Printf
