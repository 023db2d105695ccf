import EcuTelemetry.Host.Accounting
import EcuTelemetry.Host.Input

/-!
# What the host's command loop rejects

`print_help` lists the commands. `obeys_help_iff` says on which lines `main` keeps to that list: it
rejects what is not on it without touching the simulator, except that whatever begins with `fault `
is executed, and that an empty line is skipped in silence.
-/

namespace EcuTelemetry.Host

open EcuTelemetry.Core Pipeline

/-! ### Output -/

/-- `fault_mode_name`. -/
def faultModeName : FaultMode → String
  | .queueOverflow => "queue-overflow"
  | .sensorFailure => "sensor-failure"
  | .processStall  => "process-stall"
  | .none          => "none"

/-- The lines of `print_help`. -/
def printHelp : List String :=
  ["Commands:",
    "  status           show counters and latest values",
    "  tasks            show task heartbeat health",
    "  heap             show simulated memory footprint",
    "  stats            show queue depths and frame counts",
    "  fault none       clear injected faults",
    "  fault overflow   stress the sensor queue",
    "  fault sensor     inject bad sensor readings",
    "  fault process    slow the processing path",
    "  reset            clear counters and queues",
    "  help             show this help",
    "  quit             exit cleanly"]

/-- What `main` prints for a command: a line of text, or one of the tables with the numbers of a
snapshot. -/
inductive Output where
  | line (text : String)
  | status (snap : EcuSnapshot)
  | tasks (snap : EcuSnapshot)
  | heap (snap : EcuSnapshot)
  | stats (snap : EcuSnapshot)

/-- The report of a command that `main` does not know. -/
def unknownCommand : Output := .line "Unknown command. Type 'help' for options."

/-- What `main` prints in the loop body. -/
def mainOutput (sim : EcuSim) : Command → List Output
  | .empty      => []
  | .quit       => []
  | .help       => printHelp.map .line
  | .status     => [.status (ecuSnapshot sim)]
  | .tasks      => [.tasks (ecuSnapshot sim)]
  | .heap       => [.heap (ecuSnapshot sim)]
  | .stats      => [.stats (ecuSnapshot sim)]
  | .reset      => [.line "State reset."]
  | .fault mode => [.line ("Fault mode set to " ++ faultModeName mode ++ ".")]
  | .unknown    => [unknownCommand]

/-- A fault mode that is set is not reported as unknown. -/
lemma mainOutput_fault_ne (sim : EcuSim) (mode : FaultMode) :
    mainOutput sim (.fault mode) ≠ [unknownCommand] := by
  intro h
  injection h with h
  injection h with h
  cases mode <;> exact absurd h (by decide)

/-! ### The commands of `print_help` -/

/-- The first column of a line of `print_help`. -/
def helpColumn (line : String) : List Char :=
  ((line.toList.drop 2).take 17).rdropWhile fun c => c = ' '

/-- The commands that `print_help` lists. -/
def helpCommands : List (List Char) := printHelp.tail.map helpColumn

lemma helpCommands_eq : helpCommands =
    ["status".toList, "tasks".toList, "heap".toList, "stats".toList, "fault none".toList,
      "fault overflow".toList, "fault sensor".toList, "fault process".toList, "reset".toList,
      "help".toList, "quit".toList] := by
  decide +kernel

/-- The fault modes by the names that `print_help` gives them. -/
def faultNames : List (List Char × FaultMode) :=
  [("none".toList, .none), ("overflow".toList, .queueOverflow), ("sensor".toList, .sensorFailure),
    ("process".toList, .processStall)]

/-- Every name is understood. -/
lemma parseFault_faultNames : ∀ p ∈ faultNames, parseFault p.1 = p.2 := by decide

/-- How `main` understands a text that is no command. -/
lemma dispatch_of_not_mem {text : List Char} (h : text ∉ helpCommands)
    (hexit : text ≠ "exit".toList) :
    dispatch text =
      if text = [] then .empty
      else if "fault ".toList <+: text then .fault (parseFault (text.drop 6)) else .unknown := by
  simp only [helpCommands_eq, List.mem_cons, List.not_mem_nil, or_false, not_or] at h
  obtain ⟨hstatus, htasks, hheap, hstats, -, -, -, -, hreset, hhelp, hquit⟩ := h
  have hpre : "fault ".toList <+: text ↔ text.take 6 = "fault ".toList := by
    rw [List.prefix_iff_eq_take, eq_comm]
    rfl
  rw [dispatch, if_neg (not_or.mpr ⟨hquit, hexit⟩), if_neg hhelp, if_neg hstatus, if_neg htasks,
    if_neg hheap, if_neg hstats, if_neg hreset]
  simp only [hpre]

/-! ### What `main` rejects -/

/-- The fault mode, the counters, the sequence number and the queues are as before. -/
structure Unchanged (sim sim' : EcuSim) : Prop where
  fault : sim'.faultMode = sim.faultMode
  counters : ∀ c, sim'.snapshot.counter c = sim.snapshot.counter c
  warnings : sim'.snapshot.watchdogWarnings = sim.snapshot.watchdogWarnings
  sequence : sim'.sensorSequence = sim.sensorSequence
  sensorQueue : sim'.sensorQueue = sim.sensorQueue
  telemetryQueue : sim'.telemetryQueue = sim.telemetryQueue

lemma Unchanged.refl (sim : EcuSim) : Unchanged sim sim := ⟨rfl, fun _ => rfl, rfl, rfl, rfl, rfl⟩

/-- On this line `main` keeps to what `print_help` says. -/
structure ObeysHelp (sim : EcuSim) (line : List Char) : Prop where
  /-- What is not listed, nor `exit`, changes nothing and is reported. -/
  rejects : lineText line ∉ helpCommands → lineText line ≠ "exit".toList →
    Unchanged sim (execute sim (mainCommand line)) ∧
      mainOutput sim (mainCommand line) = [unknownCommand]
  /-- A listed fault mode is set, and nothing else is changed. -/
  sets : ∀ p ∈ faultNames, lineText line = "fault ".toList ++ p.1 →
    execute sim (mainCommand line) =
      { sim with faultMode := p.2, snapshot := { sim.snapshot with faultMode := p.2 } }

/-- A line that is reported is not empty and does not begin with `fault `. -/
lemma not_fault_of_reported {sim : EcuSim} {line : List Char}
    (hlisted : lineText line ∉ helpCommands) (hexit : lineText line ≠ "exit".toList)
    (hout : mainOutput sim (mainCommand line) = [unknownCommand]) :
    lineText line ≠ [] ∧ ¬ "fault ".toList <+: lineText line := by
  have hcmd : mainCommand line = dispatch (lineText line) := rfl
  rw [hcmd, dispatch_of_not_mem hlisted hexit] at hout
  have hne : lineText line ≠ [] := by
    intro hempty
    rw [if_pos hempty] at hout
    simp [mainOutput] at hout
  refine ⟨hne, fun hfault => ?_⟩
  rw [if_neg hne, if_pos hfault] at hout
  exact mainOutput_fault_ne _ _ hout

/-- `main` keeps to what `print_help` says on the lines listed, and on all others but empty ones and
those that begin with `fault `. -/
theorem obeys_help_iff (sim : EcuSim) (line : List Char) :
    ObeysHelp sim line ↔
      lineText line ∈ helpCommands ∨ lineText line = "exit".toList ∨
        (lineText line ≠ [] ∧ ¬ "fault ".toList <+: lineText line) := by
  have hcmd : mainCommand line = dispatch (lineText line) := rfl
  constructor
  · intro h
    by_cases hlisted : lineText line ∈ helpCommands
    · exact .inl hlisted
    · by_cases hexit : lineText line = "exit".toList
      · exact .inr (.inl hexit)
      · exact .inr (.inr (not_fault_of_reported hlisted hexit (h.rejects hlisted hexit).2))
  · intro h
    refine ⟨fun hlisted hexit => ?_, fun p hp htext => ?_⟩
    · obtain ⟨hne, hfault⟩ := (h.resolve_left hlisted).resolve_left hexit
      rw [hcmd, dispatch_of_not_mem hlisted hexit, if_neg hne, if_neg hfault]
      exact ⟨Unchanged.refl sim, rfl⟩
    · rw [hcmd, htext, dispatch_fault, parseFault_faultNames p hp]
      rfl

/-- The simulator with the sensor queue under stress. -/
def overflowing : EcuSim := (host.run .start [.setFault .queueOverflow]).sim

/-- A misspelt fault mode clears the active one and is reported as a mode that is set. -/
theorem misspelt_clears :
    overflowing.faultMode = .queueOverflow ∧
      (execute overflowing (mainCommand "fault xyz\n".toList)).faultMode = .none ∧
      mainOutput overflowing (mainCommand "fault xyz\n".toList) =
        [.line "Fault mode set to none."] ∧
      ¬ ObeysHelp overflowing "fault xyz\n".toList := by
  have hcmd : mainCommand "fault xyz\n".toList = .fault .none := by decide +kernel
  refine ⟨rfl, by rw [hcmd]; rfl, ?_, fun h => ?_⟩
  · rw [hcmd, mainOutput, faultModeName]
    exact congrArg (fun text => [Output.line text]) (by decide)
  · have hunlisted : lineText "fault xyz\n".toList ∉ helpCommands := by
      rw [helpCommands_eq]
      decide +kernel
    have hchanged := (h.rejects hunlisted (by decide +kernel)).1.fault
    rw [hcmd] at hchanged
    exact absurd hchanged (by decide)

end EcuTelemetry.Host
