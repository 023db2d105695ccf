import EcuTelemetry.Firmware.Basic

/-!
# The firmware's command dispatcher

`prvHandleCommand` lowers the letters of the line in place and compares it with one keyword after
the other. A C `char` is a `Char` below 256; nothing here looks at which ones.
-/

namespace EcuTelemetry.Firmware

/-- What a command line asks for. -/
inductive Command where
  | help
  | status
  | tasks
  | heap
  | stats
  | reset
  | fault (mode : FaultMode)
  | unknown
  deriving DecidableEq, Repr

/-- The loop body at the head of `prvHandleCommand`. -/
def lowerLetter (c : Char) : Char :=
  if 'A' ≤ c ∧ c ≤ 'Z' then Char.ofNat (c.toNat - 'A'.toNat + 'a'.toNat) else c

/-- `prvHandleCommand`, up to the call it makes. -/
def prvHandleCommand (line : List Char) : Command :=
  let line := line.map lowerLetter
  if line = "help".toList then .help
  else if line = "status".toList then .status
  else if line = "tasks".toList then .tasks
  else if line = "heap".toList then .heap
  else if line = "stats".toList then .stats
  else if line = "reset".toList then .reset
  else if line = "fault none".toList then .fault .none
  else if line = "fault overflow".toList then .fault .overflow
  else if line = "fault sensor".toList then .fault .sensor
  else if line = "fault stall".toList then .fault .stall
  else .unknown

end EcuTelemetry.Firmware
