import EcuTelemetry.Host.Basic
import Mathlib.Data.List.DropRight

/-!
# The host's command loop

`main` of `host_main.c`: a line as `fgets` returns it loses its line end and its capitals, and the
rest is compared with one keyword after the other. A C `char` is a `Char` below 256, and `tolower`
in the C locale is `Char.toLower`.
-/

namespace EcuTelemetry.Host

/-- What a command line asks for. -/
inductive Command where
  | empty
  | quit
  | help
  | status
  | tasks
  | heap
  | stats
  | reset
  | fault (mode : FaultMode)
  | unknown
  deriving DecidableEq, Repr

/-- `trim_newline`. -/
def trimNewline (s : List Char) : List Char := s.rdropWhile fun c => c = '\n' ∨ c = '\r'

/-- `lowercase`. -/
def lowercase (s : List Char) : List Char := s.map Char.toLower

/-- `parse_fault`. -/
def parseFault (value : List Char) : FaultMode :=
  if value = "overflow".toList then .queueOverflow
  else if value = "sensor".toList then .sensorFailure
  else if value = "process".toList then .processStall
  else .none

/-- The chain of comparisons in `main`. -/
def dispatch (line : List Char) : Command :=
  if line = [] then .empty
  else if line = "quit".toList ∨ line = "exit".toList then .quit
  else if line = "help".toList then .help
  else if line = "status".toList then .status
  else if line = "tasks".toList then .tasks
  else if line = "heap".toList then .heap
  else if line = "stats".toList then .stats
  else if line = "reset".toList then .reset
  else if line.take 6 = "fault ".toList then .fault (parseFault (line.drop 6))
  else .unknown

/-- Whatever follows `fault ` is taken as the name of a mode. -/
lemma dispatch_fault (name : List Char) :
    dispatch ("fault ".toList ++ name) = .fault (parseFault name) := by
  simp [dispatch]

/-- The loop body of `main`, up to the call it makes, on a line as `fgets` returns it. -/
def mainCommand (line : List Char) : Command := dispatch (lowercase (trimNewline line))

/-- `ecu_reset`, with no thread in between. -/
def ecuReset (sim : EcuSim) : EcuSim :=
  prvClearBeats { ecuResetState sim with sensorQueue := [], telemetryQueue := [] }

/-- The call a command makes; the other commands only print. -/
def execute (sim : EcuSim) : Command → EcuSim
  | .reset      => ecuReset sim
  | .fault mode => ecuSetFault sim mode
  | _           => sim

/-- The loop of `main` on the lines that `fgets` returns, up to the first `quit` or `exit`. -/
def mainLoop (sim : EcuSim) : List (List Char) → EcuSim
  | [] => sim
  | line :: lines =>
    match mainCommand line with
    | .quit   => sim
    | command => mainLoop (execute sim command) lines

end EcuTelemetry.Host
