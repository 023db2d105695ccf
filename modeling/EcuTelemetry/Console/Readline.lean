import EcuTelemetry.Console.Log
import EcuTelemetry.Core.Reader

/-!
# Reading a line

`console_readline` of `console.c`. It stores a terminator together with each character it stores,
and at no other time: where no character is stored, for an empty line or in a buffer of one byte,
the caller's buffer is left as it was and may still hold an earlier line.
-/

namespace EcuTelemetry.Console

open EcuTelemetry.Core

/-- A call of `semihost_read` for one byte: what it returns and the byte it leaves in `c`. -/
structure ReadResult where
  remaining : ℤ
  c : Char
  deriving DecidableEq, Repr

/-- The calls that `console_readline` makes. -/
inductive ReadlineCall where
  | take
  | give
  | write0 (text : List Char)
  | read
  deriving DecidableEq, Repr

/-- The memory from `buffer` on, the calls made and what is returned, or nothing while
`semihost_read` has not come back. -/
structure Outcome where
  mem : ℕ → Char
  calls : List ReadlineCall
  returned : Option Bool

/-- `c == '\r' || c == '\n'`. -/
def isEol (c : Char) : Bool := c = '\r' || c = '\n'

/-- The store of a character in the loop: the memory and `used` after it. -/
def storeChar (bufferSize : ℕ) (mem : ℕ → Char) (used : ℕ) (c : Char) : (ℕ → Char) × ℕ :=
  if used + 1 < bufferSize then
    (Function.update (Function.update mem used c) (used + 1) nul, used + 1)
  else (mem, used)

/-- `xSemaphoreGive`, if there is a mutex. -/
def giveMutex (mutex : Bool) : List ReadlineCall := if mutex then [.give] else []

/-- The loop of `console_readline`, for what the calls of `semihost_read` return. -/
def readLoop (bufferSize : ℕ) (handle : ℤ) (mutex : Bool) :
    List ReadResult → (ℕ → Char) → ℕ → Outcome
  | [], mem, _           =>
    if handle < 0 then ⟨mem, giveMutex mutex, some false⟩ else ⟨mem, [], none⟩
  | r :: reads, mem, used =>
    if handle < 0 then ⟨mem, giveMutex mutex, some false⟩
    else if r.remaining ≠ 0 then ⟨mem, .read :: giveMutex mutex, some false⟩
    else if isEol r.c then ⟨mem, .read :: .write0 ['\n'] :: giveMutex mutex, some true⟩
    else
      let (mem, used) := storeChar bufferSize mem used r.c
      let out := readLoop bufferSize handle mutex reads mem used
      { out with calls := .read :: .write0 (semihostWrite0 [r.c, nul]) :: out.calls }

/-- `console_readline`, with the input handle and whether the mutex has been created. -/
def consoleReadline (isNull : Bool) (mem : ℕ → Char) (bufferSize : ℕ) (handle : ℤ) (mutex : Bool)
    (reads : List ReadResult) : Outcome :=
  if isNull ∨ bufferSize = 0 then ⟨mem, [], some false⟩
  else
    let out := readLoop bufferSize handle mutex reads mem 0
    { out with
      calls := (if mutex then [.take] else []) ++ .write0 "ecu> ".toList :: out.calls }

/-! ### What is to be returned -/

/-- The characters received before a carriage return or a newline, if no read fails before it. -/
def typed : List ReadResult → Option (List Char)
  | []         => none
  | r :: reads =>
    if r.remaining ≠ 0 then none
    else if isEol r.c then some []
    else (typed reads).map (r.c :: ·)

/-- The memory from `buffer` on holds the C string `s`. -/
def HoldsString (mem : ℕ → Char) (s : List Char) : Prop :=
  nul ∉ s ∧ Reader.Holds mem 0 (s ++ [nul])

/-- The contract of `console_readline` for a buffer of `n` bytes that held `mem`: a line returned is
the line typed, as far as there is room for it; nothing behind the buffer is written; and the mutex
is given as often as it was taken. -/
structure ReadsLine (mem : ℕ → Char) (n : ℕ) (reads : List ReadResult) (out : Outcome) : Prop where
  line : out.returned = some true →
    ∃ line, typed reads = some line ∧ HoldsString out.mem (line.take (n - 1))
  frame : ∀ i, n ≤ i → out.mem i = mem i
  balanced : out.returned ≠ none → out.calls.count .take = out.calls.count .give

/-! ### The buffer -/

/-- The invariant of the loop, for a buffer of `n` bytes that held `mem₀`: it holds the part of the
line for which there is room, with a terminator once there is a character. -/
structure Kept (mem₀ mem : ℕ → Char) (n used : ℕ) (line : List Char) : Prop where
  used_eq : used = (line.take (n - 1)).length
  text : Reader.Holds mem 0 (line.take (n - 1))
  last : mem used = if line.take (n - 1) = [] then mem₀ 0 else nul
  frame : ∀ i, n ≤ i → mem i = mem₀ i

variable {mem₀ mem : ℕ → Char} {n used : ℕ} {line : List Char}

lemma kept_nil (mem : ℕ → Char) (n : ℕ) : Kept mem mem n 0 [] where
  used_eq := by rw [List.take_nil]; rfl
  text := by
    intro i hi
    rw [List.take_nil] at hi
    exact absurd hi (Nat.not_lt_zero i)
  last := by rw [if_pos List.take_nil]
  frame _ _ := rfl

lemma Kept.store (hn : 1 ≤ n) (h : Kept mem₀ mem n used line) (c : Char) :
    Kept mem₀ (storeChar n mem used c).1 n (storeChar n mem used c).2 (line ++ [c]) := by
  have hused := h.used_eq
  rw [List.length_take] at hused
  by_cases hroom : used + 1 < n
  · have hline : line.take (n - 1) = line := List.take_of_length_le (by omega)
    have hlonger : (line ++ [c]).take (n - 1) = line ++ [c] :=
      List.take_of_length_le (by rw [List.length_append, List.length_singleton]; omega)
    obtain rfl : used = line.length := by omega
    have htext := h.text
    rw [hline] at htext
    simp only [storeChar, if_pos hroom]
    constructor
    · rw [hlonger, List.length_append, List.length_singleton]
    · rw [hlonger]
      intro i hi
      rw [List.length_append, List.length_singleton] at hi
      rw [Nat.zero_add, Function.update_of_ne (by omega)]
      rcases Nat.lt_or_eq_of_le (Nat.lt_succ_iff.mp hi) with hlt | rfl
      · rw [Function.update_of_ne (by omega), List.getElem_append_left hlt, ← htext i hlt,
          Nat.zero_add]
      · rw [Function.update_self, List.getElem_concat_length rfl]
    · rw [hlonger, if_neg (List.append_ne_nil_of_right_ne_nil _ (List.cons_ne_nil c [])),
        Function.update_self]
    · intro i hi
      rw [Function.update_of_ne (by omega), Function.update_of_ne (by omega)]
      exact h.frame i hi
  · have hline : (line ++ [c]).take (n - 1) = line.take (n - 1) :=
      List.take_append_of_le_length (by omega)
    simp only [storeChar, if_neg hroom]
    exact ⟨by rw [hline]; exact h.used_eq, by rw [hline]; exact h.text,
      by rw [hline]; exact h.last, h.frame⟩

/-- The buffer holds the line as a string if there was a character to be stored, or the terminator
was there before, unless a NUL in the line cuts it short. -/
lemma Kept.holdsString_iff (h : Kept mem₀ mem n used line) :
    HoldsString mem (line.take (n - 1)) ↔
      nul ∉ line.take (n - 1) ∧ (line.take (n - 1) ≠ [] ∨ mem₀ 0 = nul) := by
  have hlast : Reader.Holds mem 0 (line.take (n - 1) ++ [nul]) ↔ mem used = nul := by
    rw [h.used_eq]
    constructor
    · intro hholds
      have hend := hholds (line.take (n - 1)).length (by simp)
      rwa [Nat.zero_add, List.getElem_concat_length rfl] at hend
    · intro hend i hi
      rw [List.length_append, List.length_singleton] at hi
      rcases Nat.lt_or_eq_of_le (Nat.lt_succ_iff.mp hi) with hlt | rfl
      · rw [List.getElem_append_left hlt]
        exact h.text i hlt
      · rw [Nat.zero_add, hend, List.getElem_concat_length rfl]
  rw [HoldsString, hlast, h.last]
  by_cases hempty : line.take (n - 1) = []
  · simp [hempty]
  · simp [hempty]

/-! ### The loop -/

section Loop

variable {handle : ℤ} (mutex : Bool) (r : ReadResult) (reads : List ReadResult)

lemma readLoop_invalid (h : handle < 0) :
    readLoop n handle mutex reads mem used = ⟨mem, giveMutex mutex, some false⟩ := by
  cases reads <;> exact if_pos h

lemma readLoop_waits (h : 0 ≤ handle) :
    readLoop n handle mutex [] mem used = ⟨mem, [], none⟩ := if_neg (Int.not_lt.mpr h)

lemma readLoop_fails (h : 0 ≤ handle) (hfail : r.remaining ≠ 0) :
    readLoop n handle mutex (r :: reads) mem used =
      ⟨mem, .read :: giveMutex mutex, some false⟩ := by
  rw [readLoop, if_neg (Int.not_lt.mpr h), if_pos hfail]

lemma readLoop_eol (h : 0 ≤ handle) (hok : r.remaining = 0) (heol : isEol r.c) :
    readLoop n handle mutex (r :: reads) mem used =
      ⟨mem, .read :: .write0 ['\n'] :: giveMutex mutex, some true⟩ := by
  rw [readLoop, if_neg (Int.not_lt.mpr h), if_neg (not_not.mpr hok), if_pos heol]

lemma readLoop_char (h : 0 ≤ handle) (hok : r.remaining = 0) (hchar : ¬ isEol r.c) :
    readLoop n handle mutex (r :: reads) mem used =
      let out := readLoop n handle mutex reads (storeChar n mem used r.c).1
        (storeChar n mem used r.c).2
      { out with calls := .read :: .write0 (semihostWrite0 [r.c, nul]) :: out.calls } := by
  rw [readLoop, if_neg (Int.not_lt.mpr h), if_neg (not_not.mpr hok), if_neg hchar]

/-- Whatever the reads return, the loop leaves in the buffer what it has kept and some characters
more. It returns true when a line is typed, and then these are the line. -/
lemma readLoop_spec (hn : 1 ≤ n) (hhandle : 0 ≤ handle) (h : Kept mem₀ mem n used line) :
    (∃ used' rest, Kept mem₀ (readLoop n handle mutex reads mem used).mem n used' (line ++ rest) ∧
      ((readLoop n handle mutex reads mem used).returned = some true →
        typed reads = some rest)) ∧
      ∀ rest, typed reads = some rest →
        (readLoop n handle mutex reads mem used).returned = some true := by
  have hkept : Kept mem₀ mem n used (line ++ []) := by rwa [List.append_nil]
  induction reads generalizing mem used line with
  | nil =>
    rw [readLoop_waits mutex hhandle]
    refine ⟨⟨used, [], hkept, ?_⟩, ?_⟩
    · intro htrue
      cases htrue
    · intro rest htyped
      cases htyped
  | cons r reads ih =>
    by_cases hok : r.remaining = 0
    · by_cases heol : isEol r.c
      · rw [readLoop_eol mutex r reads hhandle hok heol, typed, if_neg (not_not.mpr hok),
          if_pos heol]
        exact ⟨⟨used, [], hkept, fun _ => rfl⟩, fun _ _ => rfl⟩
      · rw [readLoop_char mutex r reads hhandle hok heol, typed, if_neg (not_not.mpr hok),
          if_neg heol]
        have hstore := h.store hn r.c
        obtain ⟨⟨used', rest, hkept', htyped⟩, hreturns⟩ := ih hstore (by rwa [List.append_nil])
        refine ⟨⟨used', r.c :: rest, ?_, ?_⟩, ?_⟩
        · rwa [List.append_cons]
        · intro htrue
          rw [htyped htrue]
          rfl
        · intro rest' hrest'
          obtain ⟨rest', htyped', -⟩ := Option.map_eq_some_iff.mp hrest'
          exact hreturns rest' htyped'
    · rw [readLoop_fails mutex r reads hhandle hok, typed, if_pos hok]
      refine ⟨⟨used, [], hkept, ?_⟩, ?_⟩
      · intro htrue
        cases htrue
      · intro rest htyped
        cases htyped

lemma count_giveMutex : (giveMutex mutex).count .take = 0 ∧
    (giveMutex mutex).count .give = if mutex then 1 else 0 := by
  cases mutex <;> decide

/-- When the loop returns it has given the mutex, once. -/
lemma readLoop_calls (hhandle : 0 ≤ handle)
    (hreturned : (readLoop n handle mutex reads mem used).returned ≠ none) :
    (readLoop n handle mutex reads mem used).calls.count .take = 0 ∧
      (readLoop n handle mutex reads mem used).calls.count .give = if mutex then 1 else 0 := by
  have hgive := count_giveMutex mutex
  induction reads generalizing mem used with
  | nil =>
    rw [readLoop_waits mutex hhandle] at hreturned
    exact absurd rfl hreturned
  | cons r reads ih =>
    by_cases hok : r.remaining = 0
    · by_cases heol : isEol r.c
      · rw [readLoop_eol mutex r reads hhandle hok heol]
        simpa using hgive
      · rw [readLoop_char mutex r reads hhandle hok heol] at hreturned ⊢
        simpa using ih hreturned
    · rw [readLoop_fails mutex r reads hhandle hok]
      simpa using hgive

end Loop

/-- The calls of `console_readline` before its loop do not touch the buffer. -/
lemma consoleReadline_eq (mem : ℕ → Char) (hn : 1 ≤ n) (handle : ℤ) (mutex : Bool)
    (reads : List ReadResult) :
    consoleReadline false mem n handle mutex reads =
      let out := readLoop n handle mutex reads mem 0
      { out with
        calls := (if mutex then [.take] else []) ++ .write0 "ecu> ".toList :: out.calls } := by
  have hrun : ¬ (false = true ∨ n = 0) := by
    simp only [Bool.false_eq_true, false_or]
    exact Nat.ne_of_gt hn
  rw [consoleReadline, if_neg hrun]

/-- An invalid handle: nothing is read and the mutex is given. -/
lemma readsLine_invalid (mem : ℕ → Char) (hn : 1 ≤ n) {handle : ℤ} (h : handle < 0)
    (mutex : Bool) (reads : List ReadResult) :
    ReadsLine mem n reads (consoleReadline false mem n handle mutex reads) := by
  rw [consoleReadline_eq mem hn, readLoop_invalid mutex reads h]
  constructor
  case line =>
    intro htrue
    cases htrue
  case frame => exact fun i _ => rfl
  case balanced =>
    intro _
    cases mutex <;> rfl

/-- `console_readline` keeps its contract when, on a valid handle, every line typed leaves a
character in the buffer or finds a terminator there, and has no NUL in the part that is kept. -/
theorem consoleReadline_readsLine_iff (mem : ℕ → Char) {n : ℕ} (hn : 1 ≤ n) (handle : ℤ)
    (mutex : Bool) (reads : List ReadResult) :
    ReadsLine mem n reads (consoleReadline false mem n handle mutex reads) ↔
      (0 ≤ handle → ∀ line, typed reads = some line →
        nul ∉ line.take (n - 1) ∧ (line.take (n - 1) ≠ [] ∨ mem 0 = nul)) := by
  by_cases hhandle : 0 ≤ handle
  · rw [consoleReadline_eq mem hn]
    obtain ⟨⟨used, line, hkept, htyped⟩, hreturns⟩ :=
      readLoop_spec mutex reads hn hhandle (kept_nil mem n)
    rw [List.nil_append] at hkept
    constructor
    · intro h _ line' hline'
      have htrue := hreturns line' hline'
      obtain rfl := Option.some_inj.mp ((htyped htrue).symm.trans hline')
      obtain ⟨line', hline', hstring⟩ := h.line htrue
      obtain rfl := Option.some_inj.mp ((htyped htrue).symm.trans hline')
      exact hkept.holdsString_iff.mp hstring
    · intro h
      constructor
      case line =>
        intro htrue
        have hline := htyped htrue
        exact ⟨line, hline, hkept.holdsString_iff.mpr (h hhandle line hline)⟩
      case frame => exact hkept.frame
      case balanced =>
        intro hreturned
        obtain ⟨htake, hgive⟩ := readLoop_calls mutex reads hhandle hreturned
        cases mutex with
        | false => simp [htake, hgive]
        | true => simp [htake, hgive]
  · exact iff_of_true (readsLine_invalid mem hn (Int.not_le.mp hhandle) mutex reads)
      fun h => absurd h hhandle

/-- A line of two characters in a buffer with room for one. -/
theorem consoleReadline_readsLine_iff_short :
    ReadsLine (fun _ => 'x') 2 [⟨0, 'o'⟩, ⟨0, 'k'⟩, ⟨0, '\r'⟩]
        (consoleReadline false (fun _ => 'x') 2 1 true [⟨0, 'o'⟩, ⟨0, 'k'⟩, ⟨0, '\r'⟩]) ↔
      (0 ≤ (1 : ℤ) → ∀ line, typed [⟨0, 'o'⟩, ⟨0, 'k'⟩, ⟨0, '\r'⟩] = some line →
        nul ∉ line.take (2 - 1) ∧ (line.take (2 - 1) ≠ [] ∨ 'x' = nul)) :=
  consoleReadline_readsLine_iff (fun _ => 'x') (by decide) 1 true _

/-- An empty line leaves the earlier one in the buffer. -/
theorem consoleReadline_keeps_old_line :
    ¬ ReadsLine (fun _ => 'x') 2 [⟨0, '\n'⟩]
      (consoleReadline false (fun _ => 'x') 2 1 true [⟨0, '\n'⟩]) := by
  intro h
  obtain ⟨line, hline, -, hholds⟩ := h.line rfl
  obtain rfl : line = [] := (Option.some_inj.mp hline).symm
  exact absurd (hholds 0 (by decide)) (by decide)

end EcuTelemetry.Console
