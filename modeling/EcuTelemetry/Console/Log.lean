import EcuTelemetry.Console.Append
import EcuTelemetry.Core.Machine
import Mathlib.Logic.Function.Basic

/-!
# The console and the log file

Once the log file is open, every message goes out twice, with `semihost_write0` to the console and
with `semihost_write` to the file. `prvWriteBuffer`, to which `console_writef` and `console_writeln`
hand their buffers, holds the console mutex across both calls, `prvLogWrite` does not. `log_in_turn`
says when the file gets the messages in the order of the console.
-/

namespace EcuTelemetry.Console

open EcuTelemetry.Core

/-! ### Messages -/

/-- What `semihost_write0` writes: the bytes before the NUL. -/
def semihostWrite0 (buffer : List Char) : List Char := buffer.takeWhile (· ≠ nul)

/-- The loop that counts `len`. -/
def countLen : List Char → ℕ
  | []          => 0
  | c :: buffer => if c = nul then 0 else countLen buffer + 1

/-- What `semihost_write` writes: `len` bytes. -/
def semihostWrite (buffer : List Char) (len : ℕ) : List Char := buffer.take len

/-- Both calls write the whole message. -/
@[simp] lemma semihostWrite_countLen (buffer : List Char) :
    semihostWrite buffer (countLen buffer) = semihostWrite0 buffer := by
  induction buffer with
  | nil => rfl
  | cons c buffer ih =>
    by_cases hc : c = nul
    · simp [semihostWrite, semihostWrite0, countLen, hc]
    · simpa [semihostWrite, semihostWrite0, countLen, hc] using ih

/-- A message with the task that writes it. -/
structure Message (τ : Type*) where
  task : τ
  text : List Char
  deriving DecidableEq

/-- A write to one of the two sinks. -/
inductive Write (τ : Type*) where
  | console (m : Message τ)
  | log (m : Message τ)
  deriving DecidableEq

variable {τ : Type*}

/-- The messages on the console. -/
def consoleOf (ws : List (Write τ)) : List (Message τ) :=
  ws.flatMap fun
    | .console m => [m]
    | .log _     => []

/-- The messages in the log file. -/
def logOf (ws : List (Write τ)) : List (Message τ) :=
  ws.flatMap fun
    | .console _ => []
    | .log m     => [m]

section Sinks

variable (m : Message τ) (ws ws' : List (Write τ))

@[simp] lemma consoleOf_nil : consoleOf ([] : List (Write τ)) = [] := rfl

@[simp] lemma consoleOf_console : consoleOf (.console m :: ws) = m :: consoleOf ws := rfl

@[simp] lemma consoleOf_log : consoleOf (.log m :: ws) = consoleOf ws := rfl

@[simp] lemma consoleOf_append : consoleOf (ws ++ ws') = consoleOf ws ++ consoleOf ws' :=
  List.flatMap_append

@[simp] lemma logOf_nil : logOf ([] : List (Write τ)) = [] := rfl

@[simp] lemma logOf_console : logOf (.console m :: ws) = logOf ws := rfl

@[simp] lemma logOf_log : logOf (.log m :: ws) = m :: logOf ws := rfl

@[simp] lemma logOf_append : logOf (ws ++ ws') = logOf ws ++ logOf ws' := List.flatMap_append

end Sinks

/-! ### Tasks -/

/-- Where a task is in `prvWriteBuffer` (with the mutex) or `prvLogWrite` (without). -/
inductive Pc where
  | idle
  | take (buffer : List Char)
  | write0 (locked : Bool) (buffer : List Char)
  | write (locked : Bool) (buffer : List Char)
  | give
  deriving DecidableEq

/-- The text of a task that has made its `semihost_write0` and is about to make its
`semihost_write`. -/
def Pc.pending : Pc → Option (List Char)
  | .write _ buffer => some (semihostWrite0 buffer)
  | _               => none

/-- The holder of the console mutex and where each task is. The messages that are on the console and
not in the log yet are kept, in the order of the console, to state what happens. -/
structure World (τ : Type*) where
  mutex : Option τ
  pc : τ → Pc
  unlogged : List (Message τ)

/-- The log file has been opened; no task is in a call. -/
def World.start : World τ := ⟨none, fun _ => .idle, []⟩

/-- A task calls one of the two functions, or makes its next step in one. -/
inductive Action (τ : Type*) where
  | writeBuffer (t : τ) (buffer : List Char)
  | logWrite (t : τ) (text : List Char)
  | run (t : τ)
  deriving DecidableEq

/-! ### Order -/

/-- When a task makes its `semihost_write`, no other task has made its `semihost_write0` earlier and
not yet its `semihost_write`. -/
def InTurn (w : World τ) : Action τ → Prop
  | .run t => (w.pc t).pending.isSome → w.unlogged.head?.map Message.task = some t
  | _      => True

instance [DecidableEq τ] (w : World τ) (a : Action τ) : Decidable (InTurn w a) :=
  match a with
  | .run _ => inferInstanceAs (Decidable (_ → _))
  | .writeBuffer _ _ | .logWrite _ _ => isTrue trivial

/-- The log lacks the last messages of the console only, one for each task between its two calls. -/
structure Serial (w : World τ) (ws : List (Write τ)) : Prop where
  sinks : consoleOf ws = logOf ws ++ w.unlogged
  mem : ∀ m, m ∈ w.unlogged ↔ (w.pc m.task).pending = some m.text
  nodup : (w.unlogged.map Message.task).Nodup

lemma serial_start : Serial (.start : World τ) [] :=
  ⟨rfl, by simp [World.start, Pc.pending], List.nodup_nil⟩

/-- A task outside the two calls has no message that the log lacks. -/
lemma Serial.not_mem {w : World τ} {ws : List (Write τ)} (h : Serial w ws) {t : τ}
    (ht : (w.pc t).pending = none) : t ∉ w.unlogged.map Message.task := by
  intro hmem
  obtain ⟨m, hm, rfl⟩ := List.mem_map.mp hmem
  simp [(h.mem m).mp hm] at ht

/-- The task whose turn it is writes the first message that the log lacks. -/
lemma Serial.head_eq {w : World τ} {ws : List (Write τ)} (h : Serial w ws) {t : τ} {locked : Bool}
    {buffer : List Char} (hpc : w.pc t = .write locked buffer) (hturn : InTurn w (.run t)) :
    ∃ rest, w.unlogged = ⟨t, semihostWrite0 buffer⟩ :: rest := by
  have hpend : (w.pc t).pending = some (semihostWrite0 buffer) := by rw [hpc]; rfl
  have hhead := hturn (by simp [hpend])
  cases hw : w.unlogged with
  | nil => simp [hw] at hhead
  | cons m rest =>
    rcases m with ⟨u, text⟩
    obtain rfl : u = t := by simpa [hw] using hhead
    have hmem := (h.mem ⟨u, text⟩).mp (by simp [hw])
    obtain rfl : semihostWrite0 buffer = text := Option.some.inj (hpend.symm.trans hmem)
    exact ⟨rest, rfl⟩

/-! ### Steps -/

variable [DecidableEq τ]

/-- The next step of a task in `prvWriteBuffer` or `prvLogWrite`. -/
def World.runStep (w : World τ) (t : τ) : World τ × List (Write τ) :=
  match w.pc t with
  | .idle => (w, [])
  | .take buffer =>
    match w.mutex with
    | none   =>
      ({ w with mutex := some t, pc := Function.update w.pc t (.write0 true buffer) }, [])
    | some _ => (w, [])
  | .write0 locked buffer =>
    let m : Message τ := ⟨t, semihostWrite0 buffer⟩
    ({ w with
        pc := Function.update w.pc t (.write locked buffer)
        unlogged := w.unlogged ++ [m] },
      [.console m])
  | .write locked buffer =>
    ({ w with
        pc := Function.update w.pc t (if locked then .give else .idle)
        unlogged := w.unlogged.eraseP fun m => m.task = t },
      [.log ⟨t, semihostWrite buffer (countLen buffer)⟩])
  | .give => ({ w with mutex := none, pc := Function.update w.pc t .idle }, [])

/-- One step. A task that is in a call makes no other. -/
def World.step (w : World τ) : Action τ → World τ × List (Write τ)
  | .writeBuffer t buffer =>
    match w.pc t with
    | .idle => ({ w with pc := Function.update w.pc t (.take buffer) }, [])
    | _     => (w, [])
  | .logWrite t text =>
    match w.pc t with
    | .idle => ({ w with pc := Function.update w.pc t (.write0 false text) }, [])
    | _     => (w, [])
  | .run t => w.runStep t

/-- The tasks on the console and the log file. -/
def writers (τ : Type*) [DecidableEq τ] : Machine (World τ) (Action τ) (Write τ) := ⟨World.step⟩

/-! ### What one step can do -/

/-- Everything one step can do, with what it writes. -/
inductive Does (w : World τ) : Action τ → World τ → List (Write τ) → Prop where
  | still (a : Action τ) : Does w a w []
  | move {t : τ} {a : Action τ} (mutex : Option τ) (pc : Pc) (hbefore : (w.pc t).pending = none)
      (hafter : pc.pending = none) :
      Does w a { w with mutex := mutex, pc := Function.update w.pc t pc } []
  | console {t : τ} {locked : Bool} {buffer : List Char} (h : w.pc t = .write0 locked buffer) :
      Does w (.run t)
        { w with
          pc := Function.update w.pc t (.write locked buffer)
          unlogged := w.unlogged ++ [⟨t, semihostWrite0 buffer⟩] }
        [.console ⟨t, semihostWrite0 buffer⟩]
  | log {t : τ} {locked : Bool} {buffer : List Char} (h : w.pc t = .write locked buffer) :
      Does w (.run t)
        { w with
          pc := Function.update w.pc t (if locked then .give else .idle)
          unlogged := w.unlogged.eraseP fun m => m.task = t }
        [.log ⟨t, semihostWrite0 buffer⟩]

/-- `Does` describes the step function. -/
lemma step_does (w : World τ) (a : Action τ) :
    Does w a ((writers τ).next w a) ((writers τ).emit w a) := by
  simp only [writers, Machine.next, Machine.emit]
  cases a with
  | writeBuffer t buffer =>
    cases h : w.pc t with
    | idle =>
      simp only [World.step, h]
      exact .move w.mutex _ (by rw [h]; rfl) rfl
    | _ => simp only [World.step, h]; exact .still _
  | logWrite t text =>
    cases h : w.pc t with
    | idle =>
      simp only [World.step, h]
      exact .move w.mutex _ (by rw [h]; rfl) rfl
    | _ => simp only [World.step, h]; exact .still _
  | run t =>
    cases h : w.pc t with
    | idle => simp only [World.step, World.runStep, h]; exact .still _
    | take buffer =>
      cases hm : w.mutex <;> simp only [World.step, World.runStep, h, hm]
      · exact .move (some t) _ (by rw [h]; rfl) rfl
      · exact .still _
    | write0 locked buffer => simp only [World.step, World.runStep, h]; exact .console h
    | write locked buffer =>
      simp only [World.step, World.runStep, h, semihostWrite_countLen]
      exact .log h
    | give =>
      simp only [World.step, World.runStep, h]
      exact .move none _ (by rw [h]; rfl) rfl

/-! ### In turn -/

lemma Serial.move {w : World τ} {ws : List (Write τ)} (h : Serial w ws) {t : τ}
    (mutex : Option τ) {pc : Pc} (hbefore : (w.pc t).pending = none) (hafter : pc.pending = none) :
    Serial { w with mutex := mutex, pc := Function.update w.pc t pc } ws := by
  refine ⟨h.sinks, fun m => ?_, h.nodup⟩
  by_cases hm : m.task = t
  · subst hm
    simp [h.mem, hbefore, hafter]
  · simp [h.mem, hm]

/-- A message on the console is the last that the log lacks. -/
lemma Serial.console {w : World τ} {ws : List (Write τ)} (h : Serial w ws) {t : τ} {locked : Bool}
    {buffer : List Char} (hpc : w.pc t = .write0 locked buffer) :
    Serial
      { w with
        pc := Function.update w.pc t (.write locked buffer)
        unlogged := w.unlogged ++ [⟨t, semihostWrite0 buffer⟩] }
      (ws ++ [.console ⟨t, semihostWrite0 buffer⟩]) := by
  have hnot := h.not_mem (t := t) (by rw [hpc]; rfl)
  refine ⟨by simp [h.sinks], fun m => ?_, ?_⟩
  · rcases m with ⟨u, text⟩
    by_cases hu : u = t
    · subst hu
      have hmem : ⟨u, text⟩ ∉ w.unlogged := fun hm => hnot (List.mem_map_of_mem hm)
      simp [hmem, Pc.pending, eq_comm]
    · simp [h.mem, hu]
  · rw [List.map_append, List.nodup_append]
    refine ⟨h.nodup, List.nodup_singleton _, ?_⟩
    rintro u hu v hv rfl
    obtain rfl : u = t := by simpa using hv
    exact hnot hu

/-- It is then on the log as well. -/
lemma Serial.log {w : World τ} {ws : List (Write τ)} (h : Serial w ws) {t : τ} {locked : Bool}
    {buffer : List Char} (hpc : w.pc t = .write locked buffer) (hturn : InTurn w (.run t)) :
    Serial
      { w with
        pc := Function.update w.pc t (if locked then .give else .idle)
        unlogged := w.unlogged.eraseP fun m => m.task = t }
      (ws ++ [.log ⟨t, semihostWrite0 buffer⟩]) := by
  obtain ⟨rest, hrest⟩ := h.head_eq hpc hturn
  have hsinks := h.sinks
  have hnodup := h.nodup
  have hmem := h.mem
  rw [hrest] at hsinks hnodup hmem ⊢
  rw [List.map_cons, List.nodup_cons] at hnodup
  have hpend : (if locked then Pc.give else Pc.idle).pending = none := by cases locked <;> rfl
  rw [List.eraseP_cons_of_pos (by simp)]
  refine ⟨by simp [hsinks], fun m => ?_, hnodup.2⟩
  rcases m with ⟨u, text⟩
  by_cases hu : u = t
  · subst hu
    have hnot : ⟨u, text⟩ ∉ rest := fun hm =>
      hnodup.1 (List.mem_map.mpr ⟨⟨u, text⟩, hm, rfl⟩)
    simp [hnot, hpend]
  · simpa [hu] using hmem ⟨u, text⟩

/-- A step in turn keeps the order. -/
lemma Serial.does {w w' : World τ} {ws es : List (Write τ)} {a : Action τ} (h : Serial w ws)
    (hturn : InTurn w a) (hd : Does w a w' es) : Serial w' (ws ++ es) := by
  cases hd with
  | still => simpa using h
  | move mutex pc hbefore hafter => simpa using h.move mutex hbefore hafter
  | console hpc => exact h.console hpc
  | log hpc => exact h.log hpc hturn

/-- A task that writes out of turn puts its message in the place of another. -/
lemma Serial.out_of_turn {w : World τ} {ws : List (Write τ)} (h : Serial w ws) {t : τ}
    (hnot : ¬ InTurn w (.run t)) :
    ¬ logOf (ws ++ (writers τ).emit w (.run t)) <+:
      consoleOf (ws ++ (writers τ).emit w (.run t)) := by
  simp only [InTurn, Classical.not_imp, Option.isSome_iff_exists] at hnot
  obtain ⟨⟨text, hpend⟩, hhead⟩ := hnot
  obtain ⟨locked, buffer, hpc⟩ : ∃ locked buffer, w.pc t = .write locked buffer := by
    cases hpc : w.pc t with
    | write locked buffer => exact ⟨locked, buffer, rfl⟩
    | _ => simp [hpc, Pc.pending] at hpend
  have hemit : (writers τ).emit w (.run t) = [.log ⟨t, semihostWrite0 buffer⟩] := by
    simp [writers, Machine.emit, World.step, World.runStep, hpc]
  rw [hemit, logOf_append, consoleOf_append, h.sinks, logOf_log, logOf_nil, consoleOf_log,
    consoleOf_nil, List.append_nil, List.prefix_append_right_inj]
  intro hpre
  cases hw : w.unlogged with
  | nil => simp [hw] at hpre
  | cons m rest =>
    rw [hw, List.cons_prefix_cons] at hpre
    simp [hw, ← hpre.1] at hhead

/-- In a run of steps in turn the log follows the console: it lacks only the last messages, of tasks
between their two calls, and gets every message whole. The first `semihost_write` out of turn ends
that. -/
theorem log_in_turn {acts : List (Action τ)} (h : (writers τ).Meets InTurn .start acts) :
    logOf ((writers τ).trace .start acts) <+: consoleOf ((writers τ).trace .start acts) ∧
      ((∀ t, (((writers τ).run .start acts).pc t).pending = none) →
        logOf ((writers τ).trace .start acts) = consoleOf ((writers τ).trace .start acts)) ∧
      ∀ t, ¬ InTurn ((writers τ).run .start acts) (.run t) →
        ¬ logOf ((writers τ).trace .start (acts ++ [.run t])) <+:
          consoleOf ((writers τ).trace .start (acts ++ [.run t])) := by
  have hserial := (writers τ).invariant
    (fun w ws a hturn (h : Serial w ws) => h.does hturn (step_does w a)) serial_start h
  refine ⟨⟨_, hserial.sinks.symm⟩, fun hidle => ?_, fun t hnot => ?_⟩
  · have hnil : ((writers τ).run .start acts).unlogged = [] := by
      apply List.eq_nil_iff_forall_not_mem.mpr
      intro m hm
      exact absurd ((hidle m.task).symm.trans ((hserial.mem m).mp hm)) (by simp)
    rw [hserial.sinks, hnil, List.append_nil]
  · rw [Machine.trace_append, Machine.trace_cons, Machine.trace_nil, List.append_nil]
    exact hserial.out_of_turn hnot

/-- The logger task and the diagnostics task. -/
inductive Writer where
  | logger
  | diagnostics
  deriving DecidableEq

/-- The diagnostics task has written its prompt to the console when the logger task writes a frame
to both sinks; then the prompt goes to the log. -/
def promptOvertaken : List (Action Writer) :=
  [.logWrite .diagnostics "==> \x00".toList, .run .diagnostics,
    .writeBuffer .logger "seq=1\x00".toList, .run .logger, .run .logger, .run .logger,
    .run .logger, .run .diagnostics]

/-- One message after the other. -/
def oneByOne : List (Action Writer) :=
  [.logWrite .diagnostics "==> \x00".toList, .run .diagnostics, .run .diagnostics,
    .writeBuffer .logger "seq=1\x00".toList, .run .logger, .run .logger, .run .logger]

/-- One by one the messages come in the order of the console. -/
theorem log_in_turn_one_by_one :
    logOf ((writers Writer).trace .start oneByOne) <+:
        consoleOf ((writers Writer).trace .start oneByOne) ∧
      logOf ((writers Writer).trace .start oneByOne) =
        [⟨.diagnostics, "==> ".toList⟩, ⟨.logger, "seq=1".toList⟩] :=
  ⟨(log_in_turn (by decide)).1, by decide⟩

/-- The log has the frame before the prompt, the console after it. -/
theorem prompt_overtaken :
    consoleOf ((writers Writer).trace .start promptOvertaken) =
        [⟨.diagnostics, "==> ".toList⟩, ⟨.logger, "seq=1".toList⟩] ∧
      logOf ((writers Writer).trace .start promptOvertaken) =
        [⟨.logger, "seq=1".toList⟩, ⟨.diagnostics, "==> ".toList⟩] ∧
      logOf ((writers Writer).trace .start promptOvertaken) ≠
        consoleOf ((writers Writer).trace .start promptOvertaken) ∧
      ∀ t, (((writers Writer).run .start promptOvertaken).pc t).pending = none := by
  refine ⟨by decide, by decide, by decide, fun t => ?_⟩
  cases t <;> decide

/-! ### With the mutex -/

/-- The task holds the console mutex. -/
def Pc.holds : Pc → Bool
  | .write0 true _ | .write true _ | .give => true
  | _ => false

/-- The task is in `prvLogWrite`. -/
def Pc.unlocked : Pc → Bool
  | .write0 false _ | .write false _ => true
  | _ => false

/-- The call takes the console mutex. -/
def Action.Locks : Action τ → Prop
  | .logWrite _ _ => False
  | _             => True

/-- No task is in `prvLogWrite`, and a task in `prvWriteBuffer` writes only as the holder of the
mutex. -/
structure Exclusive (w : World τ) : Prop where
  locked : ∀ t, (w.pc t).unlocked = false
  holder : ∀ t, (w.pc t).holds = true → w.mutex = some t

omit [DecidableEq τ] in
lemma exclusive_start : Exclusive (.start : World τ) :=
  ⟨fun _ => rfl, by simp [World.start, Pc.holds]⟩

/-- A task moves on, and the mutex stays with its holder. -/
lemma Exclusive.move {w : World τ} (h : Exclusive w) {t : τ} {pc : Pc} {mutex : Option τ}
    (unlogged : List (Message τ)) (hlocked : pc.unlocked = false)
    (hself : pc.holds = true → mutex = some t)
    (hother : ∀ u, u ≠ t → w.mutex = some u → mutex = some u) :
    Exclusive ⟨mutex, Function.update w.pc t pc, unlogged⟩ := by
  constructor
  · intro u
    by_cases hu : u = t
    · subst hu
      simpa using hlocked
    · simpa [hu] using h.locked u
  · intro u hu
    by_cases hut : u = t
    · subst hut
      exact hself (by simpa using hu)
    · exact hother u hut (h.holder u (by simpa [hut] using hu))

lemma Exclusive.next {w : World τ} {a : Action τ} (ha : a.Locks) (h : Exclusive w) :
    Exclusive ((writers τ).next w a) := by
  simp only [writers, Machine.next]
  cases a with
  | writeBuffer t buffer =>
    cases hpc : w.pc t with
    | idle =>
      simp only [World.step, hpc]
      exact h.move _ rfl (by simp [Pc.holds]) fun _ _ hu => hu
    | _ => simpa only [World.step, hpc] using h
  | logWrite t text => exact ha.elim
  | run t =>
    have hlocked := h.locked t
    have hholder := h.holder t
    cases hpc : w.pc t with
    | idle => simpa only [World.step, World.runStep, hpc] using h
    | take buffer =>
      cases hm : w.mutex with
      | none =>
        simp only [World.step, World.runStep, hpc, hm]
        exact h.move _ rfl (fun _ => rfl) fun u _ hu => by simp [hm] at hu
      | some u => simpa only [World.step, World.runStep, hpc, hm] using h
    | write0 locked buffer =>
      obtain rfl : locked = true := by cases locked <;> simp [hpc, Pc.unlocked] at hlocked ⊢
      simp only [World.step, World.runStep, hpc]
      exact h.move _ rfl (fun _ => hholder (by simp [hpc, Pc.holds])) fun _ _ hu => hu
    | write locked buffer =>
      obtain rfl : locked = true := by cases locked <;> simp [hpc, Pc.unlocked] at hlocked ⊢
      simp only [World.step, World.runStep, hpc]
      exact h.move _ rfl (fun _ => hholder (by simp [hpc, Pc.holds])) fun _ _ hu => hu
    | give =>
      simp only [World.step, World.runStep, hpc]
      have hm : w.mutex = some t := hholder (by simp [hpc, Pc.holds])
      exact h.move _ rfl (by simp [Pc.holds]) fun u hne hu =>
        absurd (Option.some.inj (hu.symm.trans hm)) hne

omit [DecidableEq τ] in
/-- The holder of the mutex is the only task between its two calls. -/
lemma Exclusive.inTurn {w : World τ} {ws : List (Write τ)} (h : Exclusive w) (hs : Serial w ws)
    (a : Action τ) : InTurn w a := by
  cases a with
  | run t =>
    intro hpend
    obtain ⟨text, ht⟩ := Option.isSome_iff_exists.mp hpend
    have hmem := (hs.mem ⟨t, text⟩).mpr ht
    have hholds {u : τ} {text : List Char} (hu : (w.pc u).pending = some text) :
        w.mutex = some u := by
      apply h.holder
      have hlocked := h.locked u
      cases hpc : w.pc u with
      | write locked buffer => cases locked <;> simp [hpc, Pc.unlocked, Pc.holds] at hlocked ⊢
      | _ => simp [hpc, Pc.pending] at hu
    cases hw : w.unlogged with
    | nil => simp [hw] at hmem
    | cons m rest =>
      have hm := hholds ((hs.mem m).mp (by simp [hw]))
      exact hm.symm.trans (hholds ht)
  | _ => trivial

/-- As long as only `prvWriteBuffer` is called, every step is in turn. -/
theorem inTurn_of_locks {acts : List (Action τ)} (h : ∀ a ∈ acts, a.Locks) :
    (writers τ).Meets InTurn .start acts := by
  suffices hgen : ∀ (w : World τ) (ws : List (Write τ)), Exclusive w → Serial w ws →
      (writers τ).Meets InTurn w acts from hgen _ _ exclusive_start serial_start
  induction acts with
  | nil => exact fun _ _ _ _ => trivial
  | cons a acts ih =>
    intro w ws hex hs
    have hturn := hex.inTurn hs a
    refine ⟨hturn, ih (fun b hb => h b (List.mem_cons_of_mem a hb)) _ (ws ++ (writers τ).emit w a)
      ?_ ?_⟩
    · exact hex.next (h a List.mem_cons_self)
    · exact hs.does hturn (step_does w a)

end EcuTelemetry.Console
