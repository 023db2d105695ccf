import EcuTelemetry.Core.Chunks
import Mathlib.Data.Vector.Basic

/-!
# Commands from UART0

`poll_uart` of `diagnostics_task.c` and the static buffer that carries a command from one poll to
the next. What a poll reads is the chunk of bytes that the receiver holds until it is empty. Stores
to the buffer are checked, and so is the scan of the string that `do_cmd` is given.
-/

namespace EcuTelemetry.Lm3s

open EcuTelemetry.Core

/-- An access outside `cmd_buf`. -/
inductive OutOfBounds where
  | store
  | scan
  deriving DecidableEq, Repr

/-- `cmd_buf` and `cmd_len`. -/
structure CommandBuffer where
  cmdBuf : Vector UInt8 64
  cmdLen : ℤ

/-- What `poll_uart` does besides: the mutex, the echo and the call of `do_cmd`, with the string it
sees. -/
inductive UartEvent where
  | take
  | puts (s : String)
  | give
  | doCmd (cmd : List UInt8)
  deriving DecidableEq

/-- The buffer before the first poll. -/
def CommandBuffer.init : CommandBuffer := ⟨Vector.replicate 64 0, 0⟩

/-- `cmd_buf[cmd_len] = c`. -/
def CommandBuffer.store (b : CommandBuffer) (c : UInt8) : Except OutOfBounds CommandBuffer :=
  if h : b.cmdLen.toNat < 64 ∧ 0 ≤ b.cmdLen then
    .ok { b with cmdBuf := b.cmdBuf.set b.cmdLen.toNat c h.1 }
  else .error .store

/-- The C string in `cmd_buf`. -/
def CommandBuffer.string (b : CommandBuffer) : Except OutOfBounds (List UInt8) :=
  if 0 ∈ b.cmdBuf.toList then .ok (b.cmdBuf.toList.takeWhile (· ≠ 0)) else .error .scan

/-- `c == '\r' || c == '\n'`. -/
def isEol (c : UInt8) : Bool := c = 13 || c = 10

/-- The body of the loop of `poll_uart`, for the byte `c`. -/
def pollByte (b : CommandBuffer) (c : UInt8) :
    Except OutOfBounds (CommandBuffer × List UartEvent) :=
  if isEol c then
    if b.cmdLen > 0 then do
      let b ← b.store 0
      let b := { b with cmdLen := 0 }
      let cmd ← b.string
      return (b, [.take, .puts "\r\n", .give, .doCmd cmd])
    else .ok (b, [])
  else if b.cmdLen < 64 - 1 then do
    let b ← b.store c
    return ({ b with cmdLen := b.cmdLen + 1 }, [])
  else .ok (b, [])

/-- `poll_uart`, for the bytes it reads. -/
def pollUart : CommandBuffer → List UInt8 → Except OutOfBounds (CommandBuffer × List UartEvent) :=
  feed pollByte

/-- The loop of `diagnostics_task`, for what each of its polls reads. -/
def diagnosticsTask :
    CommandBuffer → List (List UInt8) → Except OutOfBounds (CommandBuffer × List UartEvent) :=
  feed pollUart

/-! ### Command lines -/

/-- The strings passed to `do_cmd`. -/
def commands (log : List UartEvent) : List (List UInt8) :=
  log.filterMap fun
    | .doCmd cmd => some cmd
    | _          => none

/-- The maximal runs of a stream that a line end has completed, the empty ones left out. -/
def completedLines (stream : List UInt8) : List (List UInt8) :=
  (stream.splitOnP isEol).dropLast.filter (· ≠ [])

/-- A line as a command: its first 63 bytes, up to the first NUL. -/
def commandOf (line : List UInt8) : List UInt8 := (line.take 63).takeWhile (· ≠ 0)

/-! ### One byte -/

/-- The buffer holds the part of the current line for which it has room. -/
structure CommandBuffer.Holding (b : CommandBuffer) (line : List UInt8) : Prop where
  len : b.cmdLen = (line.take 63).length
  text : line.take 63 <+: b.cmdBuf.toList

variable {b : CommandBuffer} {line : List UInt8}

lemma CommandBuffer.Holding.range (h : b.Holding line) : 0 ≤ b.cmdLen ∧ b.cmdLen ≤ 63 := by
  have hle := List.length_take_le 63 line
  rw [h.len]
  omega

/-- A byte stored behind the line. -/
lemma CommandBuffer.Holding.store (h : b.Holding line) (c : UInt8) :
    ∃ b' rest, b.store c = .ok b' ∧ b'.cmdLen = b.cmdLen ∧
      b'.cmdBuf.toList = line.take 63 ++ c :: rest := by
  obtain ⟨hlo, hhi⟩ := h.range
  have hindex : b.cmdLen.toNat = (line.take 63).length := by rw [h.len, Int.toNat_natCast]
  obtain ⟨rest, hrest⟩ := h.text
  have hlength := congrArg List.length hrest
  rw [List.length_append, Vector.length_toList] at hlength
  obtain ⟨d, rest, rfl⟩ : ∃ d t, rest = d :: t :=
    List.exists_cons_of_length_pos (by omega)
  refine ⟨_, rest, dif_pos ⟨by omega, hlo⟩, rfl, ?_⟩
  rw [Vector.toList_set, ← hrest, hindex, List.set_append_right _ _ (Nat.le_refl _), Nat.sub_self,
    List.set_cons_zero]

/-- The scan of a string ends at the first NUL. -/
lemma takeWhile_append_nul (s rest : List UInt8) :
    (s ++ 0 :: rest).takeWhile (· ≠ 0) = s.takeWhile (· ≠ 0) := by
  induction s with
  | nil => rfl
  | cons c s ih => simp only [List.cons_append, List.takeWhile_cons, ih]

/-- A character joins the line, whether or not there is room for it. -/
lemma pollByte_char (h : b.Holding line) {c : UInt8} (hc : isEol c = false) :
    ∃ b', pollByte b c = .ok (b', []) ∧ b'.Holding (line ++ [c]) := by
  obtain ⟨hlo, hhi⟩ := h.range
  rw [pollByte, if_neg (by rw [hc]; decide)]
  by_cases hroom : line.length < 63
  · have htake : line.take 63 = line := List.take_of_length_le (by omega)
    have htake' : (line ++ [c]).take 63 = line ++ [c] :=
      List.take_of_length_le (by rw [List.length_append, List.length_singleton]; omega)
    have hlen := h.len
    obtain ⟨b', rest, hstore, hkept, hcells⟩ := h.store c
    rw [htake] at hlen hcells
    rw [if_pos (by omega), hstore]
    refine ⟨{ b' with cmdLen := b'.cmdLen + 1 }, rfl, ?_, ?_⟩
    · rw [htake', List.length_append, List.length_singleton, hkept, hlen]
      rfl
    · rw [htake', hcells]
      exact ⟨rest, by rw [List.append_assoc]; rfl⟩
  · have htake : (line ++ [c]).take 63 = line.take 63 :=
      List.take_append_of_le_length (by omega)
    have hlen := h.len
    rw [List.length_take] at hlen
    rw [if_neg (by omega)]
    exact ⟨b, rfl, by rw [htake]; exact h.len, by rw [htake]; exact h.text⟩

/-- A line end passes the line on, unless it is empty, and the next line begins. -/
lemma pollByte_eol (h : b.Holding line) {c : UInt8} (hc : isEol c = true) :
    ∃ b' log, pollByte b c = .ok (b', log) ∧ b'.Holding [] ∧
      commands log = ([line].filter (· ≠ [])).map commandOf := by
  have hempty (cells : Vector UInt8 64) : CommandBuffer.Holding ⟨cells, 0⟩ [] :=
    ⟨rfl, List.nil_prefix⟩
  have hlen := h.len
  rw [List.length_take] at hlen
  rw [pollByte, if_pos hc]
  by_cases hline : line = []
  · rw [hline, List.length_nil] at hlen
    rw [if_neg (by omega)]
    refine ⟨b, [], rfl, ?_, by rw [hline]; rfl⟩
    rw [← hline]
    exact h
  · have hpos := List.length_pos_iff.mpr hline
    obtain ⟨b', rest, hstore, -, hcells⟩ := h.store 0
    have hstring : CommandBuffer.string ⟨b'.cmdBuf, 0⟩ = .ok (commandOf line) := by
      rw [CommandBuffer.string, if_pos (by rw [hcells]; simp), hcells, takeWhile_append_nul]
      rfl
    rw [if_pos (by omega), hstore]
    simp only [bind, Except.bind, hstring]
    exact ⟨_, _, rfl, hempty _, by simp [commands, hline]⟩

/-! ### The stream -/

/-- The pieces of a stream never run out: a last one is open. -/
lemma exists_splitOnP_eq (p : UInt8 → Bool) (stream : List UInt8) :
    ∃ done line, stream.splitOnP p = done ++ [line] :=
  ⟨_, _, (List.dropLast_append_getLast (List.splitOnP_ne_nil p stream)).symm⟩

/-- A byte that does not end a line extends the open piece. -/
lemma splitOnP_append_char {p : UInt8 → Bool} {stream : List UInt8} {done : List (List UInt8)}
    {line : List UInt8} (h : stream.splitOnP p = done ++ [line]) {c : UInt8} (hc : p c = false) :
    (stream ++ [c]).splitOnP p = done ++ [line ++ [c]] := by
  induction stream generalizing done line with
  | nil =>
    have h : [] ++ [[]] = done ++ [line] := h
    obtain ⟨rfl, rfl⟩ := List.append_singleton_inj.mp h
    exact List.splitOnP_eq_singleton (by simpa using hc)
  | cons x stream ih =>
    obtain ⟨done', line', h'⟩ := exists_splitOnP_eq p stream
    rw [List.splitOnP_cons_eq_if_modifyHead, h'] at h
    rw [List.cons_append, List.splitOnP_cons_eq_if_modifyHead, ih h']
    split_ifs at h ⊢ with hx
    · have h : ([] :: done') ++ [line'] = done ++ [line] := h
      obtain ⟨rfl, rfl⟩ := List.append_singleton_inj.mp h
      rfl
    · cases done' with
      | nil =>
        have h : [] ++ [x :: line'] = done ++ [line] := h
        obtain ⟨rfl, rfl⟩ := List.append_singleton_inj.mp h
        rfl
      | cons d done' =>
        have h : ((x :: d) :: done') ++ [line'] = done ++ [line] := h
        obtain ⟨rfl, rfl⟩ := List.append_singleton_inj.mp h
        rfl

/-- The invariant of the polls: the buffer holds the line that is still open, and the commands so
far are the completed lines. -/
def Framed (b : CommandBuffer) (stream : List UInt8) (log : List UartEvent) : Prop :=
  ∃ done line, stream.splitOnP isEol = done ++ [line] ∧ b.Holding line ∧
    commands log = (done.filter (· ≠ [])).map commandOf

lemma commands_append (log log' : List UartEvent) :
    commands (log ++ log') = commands log ++ commands log' := List.filterMap_append

lemma framed_init : Framed .init [] [] := ⟨[], [], rfl, ⟨rfl, List.nil_prefix⟩, rfl⟩

lemma framed_pollByte {b : CommandBuffer} {stream : List UInt8} {log : List UartEvent} (c : UInt8)
    (h : Framed b stream log) : ∃ b' log', pollByte b c = .ok (b', log') ∧
      Framed b' (stream ++ [c]) (log ++ log') := by
  obtain ⟨done, line, hsplit, hholding, hcommands⟩ := h
  by_cases hc : isEol c
  · obtain ⟨b', log', hstep, hholding', hlog⟩ := pollByte_eol hholding hc
    refine ⟨b', log', hstep, done ++ [line], [], ?_, hholding', ?_⟩
    · rw [List.splitOnP_append_cons stream [] hc, hsplit]
      rfl
    · rw [commands_append, hcommands, hlog, List.filter_append, List.map_append]
  · have hchar : isEol c = false := Bool.eq_false_iff.mpr hc
    obtain ⟨b', hstep, hholding'⟩ := pollByte_char hholding hchar
    refine ⟨b', [], hstep, done, line ++ [c], splitOnP_append_char hsplit hchar, hholding', ?_⟩
    rw [List.append_nil]
    exact hcommands

/-- However a stream is split over the polls, no access leaves the buffer, and the strings passed to
`do_cmd` are the completed lines that are not empty, each cut to 63 bytes. -/
theorem diagnosticsTask_commands (polls : List (List UInt8)) :
    ∃ b log, diagnosticsTask .init polls = .ok (b, log) ∧ (0 ≤ b.cmdLen ∧ b.cmdLen ≤ 63) ∧
      commands log = (completedLines polls.flatten).map commandOf := by
  obtain ⟨b, log, hrun, done, line, hsplit, hholding, hcommands⟩ :=
    feed_invariant (fun b stream log c => framed_pollByte c) framed_init polls.flatten
  refine ⟨b, log, ?_, hholding.range, ?_⟩
  · rw [diagnosticsTask, pollUart, feed_flatten, hrun]
  · rw [hcommands, completedLines, hsplit, List.dropLast_concat]

end EcuTelemetry.Lm3s
