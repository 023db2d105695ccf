import EcuTelemetry.Commands.Agreement
import EcuTelemetry.Console.Append

/-!
# The firmware's dispatcher on memory

`prvHandleCommand` once more, on the block of memory that holds the line: its letters are lowered in
place up to the terminator, and `strcmp` compares them with the keywords character by character.
Scans that leave the block have no result. On any line they stay inside, and the call then acts on
the state of the firmware as the command does that the lowered text names.
-/

namespace EcuTelemetry.Commands

open EcuTelemetry.Core Firmware
open Console (nul)

/-! ### Scans of a line -/

/-- The loop at the head of `prvHandleCommand`, on the memory from `line` on. -/
def lowerLoop : List Char → Option (List Char)
  | []     => none
  | c :: s => if c = nul then some (c :: s) else (lowerLoop s).map (lowerLetter c :: ·)

/-- `strcmp` of `libc_shim.c`, on the memory from either pointer on. -/
def strcmp : List Char → List Char → Option ℤ
  | a :: s, b :: t => if a ≠ nul ∧ a = b then strcmp s t else some ((a.toNat : ℤ) - b.toNat)
  | _, _           => none

/-- The keywords of `prvHandleCommand` in the order of the comparisons, each with its branch. -/
def keywords : List (List Char × Command) :=
  [("help".toList, .help), ("status".toList, .status), ("tasks".toList, .tasks),
    ("heap".toList, .heap), ("stats".toList, .stats), ("reset".toList, .reset),
    ("fault none".toList, .fault .none), ("fault overflow".toList, .fault .overflow),
    ("fault sensor".toList, .fault .sensor), ("fault stall".toList, .fault .stall)]

/-- The comparisons of `prvHandleCommand`: the first keyword for which `strcmp` is zero. -/
def compareLoop (line : List Char) : List (List Char × Command) → Option Command
  | []                => some .unknown
  | (word, command) :: rest => do
    let difference ← strcmp line (word ++ [nul])
    if difference = 0 then return command else compareLoop line rest

/-- A call of `prvHandleCommand` with nothing in between: the memory of the line after it and the
state of the firmware. -/
def handleLine (w : World) (line : List Char) : Option (List Char × World) := do
  let line ← lowerLoop line
  let command ← compareLoop line keywords
  return (line,
    firmware.run { w with diagnostics := command.entry } (List.replicate 4 .diagnostics))

/-- The line that sets a fault mode. -/
def faultLine : FaultMode → List Char
  | .none     => "fault none".toList
  | .overflow => "fault overflow".toList
  | .sensor   => "fault sensor".toList
  | .stall    => "fault stall".toList

/-! ### Lines with a terminator -/

lemma lowerLetter_ne_nul {c : Char} (h : c ≠ nul) : lowerLetter c ≠ nul := by
  by_cases hupper : 'A' ≤ c ∧ c ≤ 'Z'
  · exact @forall_upper (fun c => lowerLetter c ≠ nul) (by decide) c hupper
  · rwa [lowerLetter, if_neg hupper]

lemma nul_notMem_lowered {text : List Char} (h : nul ∉ text) : nul ∉ text.map lowerLetter := by
  intro hmem
  obtain ⟨c, hc, hnul⟩ := List.mem_map.mp hmem
  exact lowerLetter_ne_nul (fun hc' => h (hc' ▸ hc)) hnul

/-- The letters are lowered up to the terminator, and no further. -/
lemma lowerLoop_eq {text : List Char} (h : nul ∉ text) (rest : List Char) :
    lowerLoop (text ++ nul :: rest) = some (text.map lowerLetter ++ nul :: rest) := by
  induction text with
  | nil => rw [List.nil_append, lowerLoop, if_pos rfl]; rfl
  | cons c text ih =>
    obtain ⟨hc, htext⟩ := List.ne_and_not_mem_of_not_mem_cons h
    rw [List.cons_append, lowerLoop, if_neg (Ne.symm hc), ih htext]
    rfl

/-- `strcmp` ends inside both texts, and is zero if they are the same. -/
lemma strcmp_eq_zero_iff {a b : List Char} (ha : nul ∉ a) (hb : nul ∉ b) (s t : List Char) :
    ∃ d, strcmp (a ++ nul :: s) (b ++ nul :: t) = some d ∧ (d = 0 ↔ a = b) := by
  -- the codes of two characters, one of which may be a terminator
  have hcode {x y : Char} (hne : x ≠ y) : ((x.toNat : ℤ) - y.toNat) ≠ 0 := by
    intro h
    exact hne (Char.toNat_inj.mp (by omega))
  induction a generalizing b with
  | nil =>
    cases b with
    | nil => exact ⟨0, rfl, iff_of_true rfl rfl⟩
    | cons y b =>
      obtain ⟨hy, -⟩ := List.ne_and_not_mem_of_not_mem_cons hb
      refine ⟨_, if_neg fun h => h.1 rfl, ?_⟩
      exact iff_of_false (hcode hy) (List.cons_ne_nil y b).symm
  | cons x a ih =>
    obtain ⟨hx, ha⟩ := List.ne_and_not_mem_of_not_mem_cons ha
    cases b with
    | nil =>
      refine ⟨_, if_neg fun h => hx h.2.symm, ?_⟩
      exact iff_of_false (hcode (Ne.symm hx)) (List.cons_ne_nil x a)
    | cons y b =>
      obtain ⟨-, hb'⟩ := List.ne_and_not_mem_of_not_mem_cons hb
      by_cases hxy : x = y
      · subst hxy
        obtain ⟨d, hd, hiff⟩ := ih ha hb'
        refine ⟨d, ?_, by rw [hiff, List.cons_inj_right]⟩
        rw [List.cons_append, List.cons_append, strcmp, if_pos ⟨Ne.symm hx, rfl⟩, hd]
      · refine ⟨_, if_neg fun h => hxy h.2, ?_⟩
        exact iff_of_false (hcode hxy) fun h => hxy (List.cons.inj h).1

/-- The branch of a text: that of the first keyword which is the text. -/
def branch (text : List Char) : List (List Char × Command) → Command
  | []                      => .unknown
  | (word, command) :: rest => if text = word then command else branch text rest

lemma compareLoop_eq {text : List Char} (h : nul ∉ text) (rest : List Char)
    {table : List (List Char × Command)} (htable : ∀ entry ∈ table, nul ∉ entry.1) :
    compareLoop (text ++ nul :: rest) table = some (branch text table) := by
  induction table with
  | nil => rfl
  | cons entry table ih =>
    obtain ⟨word, command⟩ := entry
    have hword : nul ∉ word := htable (word, command) List.mem_cons_self
    obtain ⟨d, hd, hiff⟩ := strcmp_eq_zero_iff h hword rest []
    have ih := ih fun entry hentry => htable entry (List.mem_cons_of_mem _ hentry)
    simp only [compareLoop, branch, hd, Option.bind_eq_bind, Option.bind_some, hiff]
    split_ifs
    · rfl
    · exact ih

/-- On memory and on texts, the dispatcher is the same. -/
lemma handleLine_eq (w : World) {text : List Char} (h : nul ∉ text) (rest : List Char) :
    handleLine w (text ++ nul :: rest) =
      some (text.map Char.toLower ++ nul :: rest,
        firmware.run { w with diagnostics := (prvHandleCommand text).entry }
          (List.replicate 4 .diagnostics)) := by
  have hcompare := @compareLoop_eq _ (nul_notMem_lowered h) rest keywords (by decide)
  rw [handleLine, lowerLoop_eq h, Option.bind_eq_bind, Option.bind_some, hcompare,
    ← map_lowerLetter]
  rfl

/-! ### What a line does -/

/-- A fault mode is set in one step. -/
lemma run_fault {w : World} (h : w.diagnostics = .idle) (mode : FaultMode) :
    firmware.run { w with diagnostics := (Command.fault mode).entry }
        (List.replicate 4 .diagnostics) =
      { w with stats := { w.stats with faultMode := mode } } := by
  rcases w with ⟨stats, sequence, made, kick, queue, out, dog, sensor, processor, logger, diag⟩
  obtain rfl : diag = .idle := h
  rfl

/-- A command that only prints leaves the state alone. -/
lemma run_print {w : World} (h : w.diagnostics = .idle) {command : Command}
    (hcommand : command.entry = .idle) :
    firmware.run { w with diagnostics := command.entry } (List.replicate 4 .diagnostics) = w := by
  rcases w with ⟨stats, sequence, made, kick, queue, out, dog, sensor, processor, logger, diag⟩
  obtain rfl : diag = .idle := h
  rw [hcommand]
  rfl

lemma prvHandleCommand_fault {text : List Char} {mode : FaultMode}
    (h : text.map Char.toLower = faultLine mode) : prvHandleCommand text = .fault mode := by
  rw [prvHandleCommand, map_lowerLetter, h]
  cases mode <;> decide

lemma prvHandleCommand_other {text : List Char} (h : text.map Char.toLower ∉ firmwareWords) :
    (prvHandleCommand text).entry = .idle := by
  simp only [firmwareWords, List.mem_cons, List.not_mem_nil, or_false, not_or] at h
  obtain ⟨hreset, hnone, hoverflow, hsensor, hstall⟩ := h
  simp only [prvHandleCommand, map_lowerLetter, if_neg hreset, if_neg hnone, if_neg hoverflow,
    if_neg hsensor, if_neg hstall, apply_ite Command.entry]
  simp only [Command.entry, ite_self]

/-- The effect of a call of `prvHandleCommand` on any state and any line: the scans stay inside the
line, the effect is that of every line with the same lowered letters, a fault line sets its mode and
nothing else, and a line that is neither a fault line nor `reset` changes nothing. -/
theorem handleLine_effect {w : World} (hidle : w.diagnostics = .idle) {text : List Char}
    (htext : nul ∉ text) (rest : List Char) :
    ∃ w', handleLine w (text ++ nul :: rest) =
        some (text.map Char.toLower ++ nul :: rest, w') ∧
      (∀ text' rest', nul ∉ text' → text'.map Char.toLower = text.map Char.toLower →
        ∃ line, handleLine w (text' ++ nul :: rest') = some (line, w')) ∧
      (∀ mode, text.map Char.toLower = faultLine mode →
        w' = { w with stats := { w.stats with faultMode := mode } }) ∧
      (text.map Char.toLower ∉ firmwareWords → w' = w) := by
  refine ⟨_, handleLine_eq w htext rest, ?_, ?_, ?_⟩
  · intro text' rest' htext' hsame
    have hcommand : prvHandleCommand text' = prvHandleCommand text := by
      rw [prvHandleCommand, prvHandleCommand, map_lowerLetter, map_lowerLetter, hsame]
    rw [handleLine_eq w htext' rest', hcommand]
    exact ⟨_, rfl⟩
  · intro mode hmode
    rw [prvHandleCommand_fault hmode]
    exact run_fault hidle mode
  · intro hother
    exact run_print hidle (prvHandleCommand_other hother)

/-- A fault line in mixed case, with memory behind it. -/
theorem handleLine_effect_fault :
    ∃ w', handleLine .start ("Fault STALL".toList ++ nul :: ['x']) =
        some ("Fault STALL".toList.map Char.toLower ++ nul :: ['x'], w') ∧
      (∀ text' rest', nul ∉ text' →
        text'.map Char.toLower = "Fault STALL".toList.map Char.toLower →
          ∃ line, handleLine .start (text' ++ nul :: rest') = some (line, w')) ∧
      (∀ mode, "Fault STALL".toList.map Char.toLower = faultLine mode →
        w' = { World.start with stats := { World.start.stats with faultMode := mode } }) ∧
      ("Fault STALL".toList.map Char.toLower ∉ firmwareWords → w' = .start) :=
  handleLine_effect rfl (by decide) ['x']

end EcuTelemetry.Commands
