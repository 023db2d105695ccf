import EcuTelemetry.Core.Machine
import EcuTelemetry.Queue.Refinement
import EcuTelemetry.Queue.Concurrent
import EcuTelemetry.Pipeline.Accounting
import EcuTelemetry.Watchdog.Fresh
import EcuTelemetry.Firmware.Basic
import EcuTelemetry.Firmware.Command
import EcuTelemetry.Firmware.Tasks
import EcuTelemetry.Firmware.Refinement
import EcuTelemetry.Firmware.Frames
import EcuTelemetry.Firmware.Accounting
import EcuTelemetry.Pipeline.Flush
import EcuTelemetry.Firmware.Reset
import EcuTelemetry.Host.Basic
import EcuTelemetry.Host.Threads
import EcuTelemetry.Host.Accounting
import EcuTelemetry.Host.Reset
import EcuTelemetry.Commands.Agreement
import EcuTelemetry.Console.Append
import EcuTelemetry.Console.Format
import EcuTelemetry.Core.Decimal
import EcuTelemetry.Core.Pattern
import EcuTelemetry.Firmware.FrameText
import EcuTelemetry.Firmware.FrameLog
import EcuTelemetry.Console.Terminator
import EcuTelemetry.Core.Checked
import EcuTelemetry.Lm3s.Basic
import EcuTelemetry.Lm3s.Arithmetic
import EcuTelemetry.Lm3s.Tasks
import EcuTelemetry.Lm3s.DataReady
import EcuTelemetry.Lm3s.Ranges
import EcuTelemetry.Lm3s.Verdict
import EcuTelemetry.Printf.Basic
import EcuTelemetry.Printf.Render
import EcuTelemetry.Printf.Truncation
import EcuTelemetry.Pipeline.Latest
import EcuTelemetry.Host.Latest
import EcuTelemetry.Host.Help
import EcuTelemetry.Console.Log
import EcuTelemetry.Core.Locks
import EcuTelemetry.Host.Code
import EcuTelemetry.Host.Locks
import EcuTelemetry.Console.Scan
import EcuTelemetry.Printf.Scan
import EcuTelemetry.Core.Field
import EcuTelemetry.Formats.Signed
import EcuTelemetry.Firmware.Arithmetic
import EcuTelemetry.Lm3s.Rpm
import EcuTelemetry.Host.Clock
import EcuTelemetry.Queue.Timeout
import EcuTelemetry.Host.Overdue
import EcuTelemetry.Printf.Length
import EcuTelemetry.Formats.Lines
import EcuTelemetry.Core.Stores
import EcuTelemetry.Lm3s.Syscalls
import EcuTelemetry.Core.Radix
import EcuTelemetry.Formats.Unsigned
import EcuTelemetry.Printf.Float
import EcuTelemetry.Core.Chunks
import EcuTelemetry.Lm3s.Uart
import EcuTelemetry.Commands.Dispatch
import EcuTelemetry.Console.Readline
import EcuTelemetry.Lm3s.Delivery
import EcuTelemetry.Watchdog.Stall
import EcuTelemetry.Lm3s.Supervision
import EcuTelemetry.Firmware.Supervision
import EcuTelemetry.Core.Serial
import EcuTelemetry.Printf.Printable
import EcuTelemetry.Lm3s.Messages
import EcuTelemetry.Lm3s.Board
import EcuTelemetry.Lm3s.Execution
import EcuTelemetry.Lm3s.Transcript
import EcuTelemetry.Core.Condition
import EcuTelemetry.Queue.Wakeup
import EcuTelemetry.Core.Outline
import EcuTelemetry.Host.Contract
import EcuTelemetry.Host.Outlines
import EcuTelemetry.Console.Texts
import EcuTelemetry.Core.LogFile
import EcuTelemetry.Firmware.Output
import EcuTelemetry.Firmware.Messages
import EcuTelemetry.Firmware.LogFile
import EcuTelemetry.Formats.Portable
