import EcuTelemetry.Lm3s.Board
import EcuTelemetry.Lm3s.Supervision

/-!
# What the board executes

Seen without the UART, the board is the machine of `Lm3s.Tasks`, so that what holds of every run of
that machine holds here. `do_cmd` is given the lines that have come in, in order, while the other
tasks run and print in between, and its commands set the fault in force.
-/

namespace EcuTelemetry.Lm3s

open EcuTelemetry.Core Watchdog

/-! ### Reading the log -/

/-- The events of the tasks. -/
def worldOf (log : List BoardEvent) : List Event :=
  log.flatMap fun
    | .world e => [e]
    | _        => []

/-- The events of UART0. -/
def uartOf (log : List BoardEvent) : List (Serial.Event Task Char) :=
  log.flatMap fun
    | .uart e => [e]
    | _       => []

/-- The bytes `diagnostics_task` has read. -/
def receivedOf (log : List BoardEvent) : List UInt8 :=
  log.flatMap fun
    | .read c => [c]
    | _       => []

/-- The lines `do_cmd` was called with. -/
def executedOf (log : List BoardEvent) : List (List UInt8) :=
  log.flatMap fun
    | .executed cmd => [cmd]
    | _             => []

section Log

variable (log log' : List BoardEvent)

@[simp] lemma worldOf_append : worldOf (log ++ log') = worldOf log ++ worldOf log' :=
  List.flatMap_append

@[simp] lemma uartOf_append : uartOf (log ++ log') = uartOf log ++ uartOf log' :=
  List.flatMap_append

@[simp] lemma receivedOf_append : receivedOf (log ++ log') = receivedOf log ++ receivedOf log' :=
  List.flatMap_append

@[simp] lemma executedOf_append : executedOf (log ++ log') = executedOf log ++ executedOf log' :=
  List.flatMap_append

@[simp] lemma worldOf_cons (e : BoardEvent) : worldOf (e :: log) =
    (match e with | .world e => [e] | _ => []) ++ worldOf log := rfl

@[simp] lemma uartOf_cons (e : BoardEvent) : uartOf (e :: log) =
    (match e with | .uart e => [e] | _ => []) ++ uartOf log := rfl

@[simp] lemma receivedOf_cons (e : BoardEvent) : receivedOf (e :: log) =
    (match e with | .read c => [c] | _ => []) ++ receivedOf log := rfl

@[simp] lemma executedOf_cons (e : BoardEvent) : executedOf (e :: log) =
    (match e with | .executed cmd => [cmd] | _ => []) ++ executedOf log := rfl

@[simp] lemma worldOf_nil : worldOf [] = [] := rfl

@[simp] lemma uartOf_nil : uartOf [] = [] := rfl

@[simp] lemma receivedOf_nil : receivedOf [] = [] := rfl

@[simp] lemma executedOf_nil : executedOf [] = [] := rfl

variable (events : List Event) (shown : List (Serial.Event Task Char))

@[simp] lemma worldOf_map_world : worldOf (events.map .world) = events := by
  simp [worldOf, List.flatMap_map]

@[simp] lemma uartOf_map_world : uartOf (events.map .world) = [] := by
  simp [uartOf, List.flatMap_map]

@[simp] lemma receivedOf_map_world : receivedOf (events.map .world) = [] := by
  simp [receivedOf, List.flatMap_map]

@[simp] lemma executedOf_map_world : executedOf (events.map .world) = [] := by
  simp [executedOf, List.flatMap_map]

@[simp] lemma worldOf_map_uart : worldOf (shown.map .uart) = [] := by
  simp [worldOf, List.flatMap_map]

@[simp] lemma uartOf_map_uart : uartOf (shown.map .uart) = shown := by
  simp [uartOf, List.flatMap_map]

@[simp] lemma receivedOf_map_uart : receivedOf (shown.map .uart) = [] := by
  simp [receivedOf, List.flatMap_map]

@[simp] lemma executedOf_map_uart : executedOf (shown.map .uart) = [] := by
  simp [executedOf, List.flatMap_map]

end Log

/-! ### The board without its UART -/

variable {b b' : Board} {log evs : List BoardEvent}

@[simp] lemma count_world (b : Board) : b.count.world = b.world := by
  unfold Board.count
  cases b.world.dog.stage <;> rfl

@[simp] lemma count_diagnostics (b : Board) : b.count.diagnostics = b.diagnostics := by
  unfold Board.count
  cases b.world.dog.stage <;> rfl

@[simp] lemma count_buffer (b : Board) : b.count.buffer = b.buffer := by
  unfold Board.count
  cases b.world.dog.stage <;> rfl

/-- A step of the board is a step of the tasks, or none. -/
lemma BoardMove.world_step (h : BoardMove b b' evs) : ∃ as, as.length ≤ 1 ∧
    b'.world = lm3s.run b.world as ∧ worldOf evs = lm3s.trace b.world as := by
  cases h with
  | still => exact ⟨[], Nat.zero_le 1, rfl, rfl⟩
  | run a => exact ⟨[a], le_rfl, rfl, by simp⟩
  | write => exact ⟨[], Nat.zero_le 1, rfl, by simp⟩
  | printed => exact ⟨[.telemetry], le_rfl, rfl, by simp⟩
  | reported => exact ⟨[.health], le_rfl, rfl, by simp⟩
  | @fault cmd f => exact ⟨[setFault f], le_rfl, rfl, by simp⟩
  | answered | read | reset | answer => exact ⟨[], Nat.zero_le 1, rfl, rfl⟩

/-- A run of the board is a run of the tasks. -/
theorem board_refines (rng : UInt32) (as : List BoardAction) :
    ∃ as', (board.run (.start rng) as).world = lm3s.run (.start rng) as' ∧
      worldOf (board.trace (.start rng) as) = lm3s.trace (.start rng) as' := by
  refine board.invariant_always
    (P := fun b log => ∃ as', b.world = lm3s.run (.start rng) as' ∧
      worldOf log = lm3s.trace (.start rng) as')
    (fun b log a h => ?_) ⟨[], rfl, rfl⟩ as
  obtain ⟨as', hworld, hlog⟩ := h
  obtain ⟨more, -, hnext, hemit⟩ := (board_move b a).world_step
  refine ⟨as' ++ more, ?_, ?_⟩
  · rw [Machine.run_append, hnext, hworld]
  · rw [worldOf_append, Machine.trace_append, hlog, hemit, hworld]

/-! ### Commands -/

/-- The command that `diagnostics_task` has read and not yet executed. -/
def DiagnosticsPc.waiting : DiagnosticsPc → List (List UInt8)
  | .echo cmd | .doCmd cmd => [cmd]
  | _                      => []

/-- The fault in force after the commands `cmds`. -/
def faultAfter (cmds : List (List UInt8)) : FaultType :=
  cmds.foldl (fun fault cmd => (diagCommand cmd).sets.getD fault) .none

/-- The commands executed are the lines received, and have set the fault in force. -/
structure Obeyed (b : Board) (log : List BoardEvent) : Prop where
  framed : ∃ events, Framed b.buffer (receivedOf log) events ∧
    commands events = executedOf log ++ b.diagnostics.waiting
  activeFault : b.world.activeFault = faultAfter (executedOf log)
  last : ∀ cmd ∈ (executedOf log).dropLast, diagCommand cmd ≠ .reset
  reset : ∀ cmd ∈ executedOf log, diagCommand cmd = .reset → b.diagnostics = .restarted

lemma obeyed_start (rng : UInt32) : Obeyed (.start rng) [] :=
  ⟨⟨[], framed_init, rfl⟩, rfl, List.forall_mem_nil _, List.forall_mem_nil _⟩

/-- A byte completes at most one line. -/
lemma commands_pollByte {buffer buffer' : CommandBuffer} {c : UInt8} {events : List UartEvent}
    (h : pollByte buffer c = .ok (buffer', events)) :
    commands events = (pollPc events).waiting := by
  have hle : (commands events).length ≤ 1 := by
    rw [pollByte] at h
    split_ifs at h
    · cases hs : buffer.store 0 with
      | error e => simp [hs, bind, Except.bind] at h
      | ok b =>
        cases ht : CommandBuffer.string { b with cmdLen := 0 } with
        | error e => simp [hs, ht, bind, Except.bind] at h
        | ok cmd =>
          simp only [hs, ht, bind, Except.bind, pure, Except.pure, Except.ok.injEq,
            Prod.mk.injEq] at h
          rw [← h.2]
          exact le_rfl
    · rw [← (Prod.mk.inj (Except.ok.inj h)).2]
      exact Nat.zero_le 1
    · cases hs : buffer.store c with
      | error e => simp [hs, bind, Except.bind] at h
      | ok b =>
        simp only [hs, bind, Except.bind, pure, Except.pure, Except.ok.injEq, Prod.mk.injEq] at h
        rw [← h.2]
        exact Nat.zero_le 1
    · rw [← (Prod.mk.inj (Except.ok.inj h)).2]
      exact Nat.zero_le 1
  unfold pollPc
  cases hc : commands events with
  | nil => rfl
  | cons cmd cmds =>
    rw [hc, List.length_cons] at hle
    rw [List.eq_nil_of_length_eq_zero (by omega : cmds.length = 0)]
    rfl

/-- Only `do_cmd` sets the fault. -/
lemma activeFault_next (w : World) {a : Action}
    (ha : (∀ fault, a ≠ .faultInject fault) ∧ a ≠ .faultClear) :
    (lm3s.next w a).activeFault = w.activeFault := by
  cases a with
  | sensor tick =>
    simp only [lm3s, Machine.next, World.step, World.sensorStep, World.setBeat]
    split
    · split <;> rfl
    all_goals rfl
  | processing =>
    simp only [lm3s, Machine.next, World.step, World.processingStep, World.setBeat]
    split
    any_goals rfl
    all_goals split <;> rfl
  | telemetry =>
    simp only [lm3s, Machine.next, World.step, World.telemetryStep, World.setBeat]
    split
    · split <;> rfl
    all_goals rfl
  | health =>
    simp only [lm3s, Machine.next, World.step, World.healthStep]
    split <;> rfl
  | timer | timeout => rfl
  | faultInject fault => exact absurd rfl (ha.1 fault)
  | faultClear => exact absurd rfl ha.2

lemma activeFault_setFault (w : World) (fault : FaultType) :
    (lm3s.next w (setFault fault)).activeFault = fault := by
  cases fault <;> rfl

/-- A command that waits still waits when its echo is printed. -/
lemma waiting_printed {text : List Char} (h : b.Says .diagnostics text) :
    b.diagnostics.printed.waiting = b.diagnostics.waiting ∧ b.diagnostics ≠ .restarted := by
  rcases h with ⟨hp, -⟩ | ⟨cmd, hp, -⟩ | hp <;> rw [hp] <;> exact ⟨rfl, by simp⟩

/-- A step that reads and executes nothing. -/
lemma Obeyed.same (h : Obeyed b log) (hbuffer : b'.buffer = b.buffer)
    (hwaiting : b'.diagnostics.waiting = b.diagnostics.waiting)
    (hstarted : b.diagnostics = .restarted → b'.diagnostics = .restarted)
    (hfault : b'.world.activeFault = b.world.activeFault) (hread : receivedOf evs = [])
    (hexec : executedOf evs = []) : Obeyed b' (log ++ evs) where
  framed := by
    rw [hbuffer, hwaiting, receivedOf_append, executedOf_append, hread, hexec, List.append_nil,
      List.append_nil]
    exact h.framed
  activeFault := by
    rw [hfault, executedOf_append, hexec, List.append_nil]
    exact h.activeFault
  last := by
    rw [executedOf_append, hexec, List.append_nil]
    exact h.last
  reset cmd hcmd hreset := by
    rw [executedOf_append, hexec, List.append_nil] at hcmd
    exact hstarted (h.reset cmd hcmd hreset)

/-- `do_cmd` executes the command that waits. -/
lemma Obeyed.execute (h : Obeyed b log) {cmd : List UInt8} (hp : b.diagnostics = .doCmd cmd)
    (hbuffer : b'.buffer = b.buffer) (hwaiting : b'.diagnostics.waiting = [])
    (hfault : b'.world.activeFault = ((diagCommand cmd).sets).getD b.world.activeFault)
    (hread : receivedOf evs = []) (hexec : executedOf evs = [cmd])
    (hreset : diagCommand cmd = .reset → b'.diagnostics = .restarted) :
    Obeyed b' (log ++ evs) where
  framed := by
    obtain ⟨events, hframed, hcommands⟩ := h.framed
    rw [hp] at hcommands
    refine ⟨events, ?_, ?_⟩
    · rw [hbuffer, receivedOf_append, hread, List.append_nil]
      exact hframed
    · rw [hcommands, hwaiting, executedOf_append, hexec, List.append_nil]
      rfl
  activeFault := by
    rw [hfault, h.activeFault, executedOf_append, hexec, faultAfter, faultAfter,
      List.foldl_append]
    rfl
  last c hc hr := by
    rw [executedOf_append, hexec, List.dropLast_concat] at hc
    have hrestarted := h.reset c hc hr
    rw [hp] at hrestarted
    cases hrestarted
  reset c hc hr := by
    rw [executedOf_append, hexec, List.mem_append, List.mem_singleton] at hc
    rcases hc with hc | rfl
    · have hrestarted := h.reset c hc hr
      rw [hp] at hrestarted
      cases hrestarted
    · exact hreset hr

/-- Every step keeps what is executed to what is received. -/
theorem Obeyed.next (h : Obeyed b log) (hmove : BoardMove b b' evs) : Obeyed b' (log ++ evs) := by
  cases hmove with
  | still => exact h.same rfl rfl id rfl rfl rfl
  | run a ht hh hf =>
    exact h.same rfl rfl id (activeFault_next b.world hf) (by simp) (by simp)
  | write => exact h.same rfl rfl id rfl (by simp) (by simp)
  | printed =>
    exact h.same rfl rfl id (activeFault_next b.world (by simp)) (by simp) (by simp)
  | reported =>
    exact h.same (count_buffer b) (by simp) (by simp) (activeFault_next b.world (by simp))
      (by simp) (by simp)
  | answered hsaid =>
    obtain ⟨hwaiting, hrunning⟩ := waiting_printed hsaid
    exact h.same rfl hwaiting (fun hr => absurd hr hrunning) rfl rfl rfl
  | @read c buffer events hp hb =>
    obtain ⟨before, hframed, hcommands⟩ := h.framed
    obtain ⟨buffer', events', hb', hframed'⟩ := framed_pollByte c hframed
    rw [hb] at hb'
    obtain ⟨rfl, rfl⟩ := Prod.mk.inj (Except.ok.inj hb')
    refine ⟨⟨before ++ events, by simpa using hframed', ?_⟩, by simpa using h.activeFault,
      by simpa using h.last, ?_⟩
    · rw [commands_append, hcommands, commands_pollByte hb, hp]
      simp [DiagnosticsPc.waiting]
    · intro cmd hcmd hreset
      have hrestarted := h.reset cmd (by simpa using hcmd) hreset
      rw [hp] at hrestarted
      cases hrestarted
  | @reset cmd hp hcmd =>
    exact h.execute hp rfl rfl (by rw [hcmd]; rfl) rfl rfl fun _ => rfl
  | @fault cmd f r hp hcmd =>
    refine h.execute hp rfl rfl ?_ (by simp) (by simp) (by simp [hcmd])
    rw [hcmd]
    exact activeFault_setFault b.world f
  | answer r hp hcmd hreset =>
    exact h.execute hp rfl rfl (by rw [hcmd]; rfl) rfl rfl fun heq => absurd heq hreset

/-- The commands received: the lines that are complete. -/
def receivedCommands (log : List BoardEvent) : List (List UInt8) :=
  (completedLines (receivedOf log)).map commandOf

lemma Obeyed.executed (h : Obeyed b log) :
    executedOf log ++ b.diagnostics.waiting = receivedCommands log := by
  obtain ⟨events, ⟨done, line, hsplit, -, hframed⟩, hcommands⟩ := h.framed
  rw [← hcommands, hframed, receivedCommands, completedLines, hsplit, List.dropLast_concat]

/-- What `diagnostics_task` is told and does. -/
structure Commanded (b : Board) (log : List BoardEvent) : Prop where
  executed : executedOf log ++ b.diagnostics.waiting = receivedCommands log
  activeFault : b.world.activeFault = faultAfter (executedOf log)
  last : ∀ cmd ∈ (executedOf log).dropLast, diagCommand cmd ≠ .reset
  reset : ∀ cmd ∈ executedOf log, diagCommand cmd = .reset → b.diagnostics = .restarted
  room : ∀ c, ∃ r, pollByte b.buffer c = .ok r

lemma obeyed_run (rng : UInt32) (as : List BoardAction) :
    Obeyed (board.run (.start rng) as) (board.trace (.start rng) as) :=
  board.invariant_always (P := Obeyed) (fun b _ a h => h.next (board_move b a))
    (obeyed_start rng) as

/-- In every run `do_cmd` is called with the lines received, each cut to 63 bytes, in order, and
with no other: at most the last is yet to come. The fault in force is that of the last command that
set one, a `reset` is the last command of all, and the next byte always fits the buffer. -/
theorem commands_obeyed (rng : UInt32) (as : List BoardAction) :
    Commanded (board.run (.start rng) as) (board.trace (.start rng) as) := by
  have h := obeyed_run rng as
  refine ⟨h.executed, h.activeFault, h.last, h.reset, fun c => ?_⟩
  obtain ⟨events, hframed, -⟩ := h.framed
  obtain ⟨buffer, more, hok, -⟩ := framed_pollByte c hframed
  exact ⟨_, hok⟩

end EcuTelemetry.Lm3s
