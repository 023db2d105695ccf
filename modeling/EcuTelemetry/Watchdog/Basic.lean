import EcuTelemetry.Core.EventGroup
import EcuTelemetry.Core.Machine
import Mathlib.Data.Fintype.Basic

/-!
# The watchdog task

Both firmware builds supervise three tasks with one event group: each task sets its heartbeat bit,
and the watchdog waits, window after window, for all bits at once with clear-on-exit and a timeout.
`prvWatchdogTask` and `health_monitor_task` differ in how they test the bits returned; everything
else is one loop. The wait, the verdict with its counter, and the message are separate steps, since
other tasks run in between.
-/

namespace EcuTelemetry.Watchdog

open EcuTelemetry.Core

variable {ι : Type*}

/-- The heartbeat bits of `main.c`; the other build has a telemetry task in place of the logger. -/
inductive Heartbeat where
  | sensor
  | processor
  | logger
  deriving DecidableEq

instance : Fintype Heartbeat := ⟨{.sensor, .processor, .logger}, fun i => by cases i <;> decide⟩

/-- Where the watchdog stands in its loop: about to call `xEventGroupWaitBits`, inside the call, or
with a warning counted and its message to be written. -/
inductive Stage (ι : Type*) where
  | call
  | inside
  | warned (bits : Finset ι)
  deriving DecidableEq

/-- The event group and the watchdog task. -/
structure Dog (ι : Type*) where
  group : EventGroup ι
  stage : Stage ι
  deriving DecidableEq

/-- A task sets its bit, someone clears the bits, the watchdog takes its next step, or the block
time of its wait ends. -/
inductive Act (ι : Type*) where
  | beat (i : ι)
  | clear
  | watchdog
  | timeout
  deriving DecidableEq

/-- Heartbeats, and the reports the watchdog writes. -/
inductive Report (ι : Type*) where
  | beat (i : ι)
  | healthy
  | warning (bits : Finset ι)
  deriving DecidableEq

/-- The test of `prvWatchdogTask` on the bits returned. -/
def prvWatchdogHealthy [DecidableEq ι] [Fintype ι] (bits : Finset ι) : Bool := bits = Finset.univ

/-- The test of `health_monitor_task` on the bits returned. -/
def healthMonitorHealthy [DecidableEq ι] [Fintype ι] (bits : Finset ι) : Bool :=
  bits ∩ Finset.univ = Finset.univ

/-- The tasks that supervise. -/
inductive Supervisor where
  | prvWatchdogTask
  | healthMonitorTask
  deriving DecidableEq

/-- The test each makes. -/
def Supervisor.healthy [DecidableEq ι] [Fintype ι] : Supervisor → Finset ι → Bool
  | .prvWatchdogTask   => prvWatchdogHealthy
  | .healthMonitorTask => healthMonitorHealthy

/-- The two tests are spelled differently but agree. -/
lemma Supervisor.healthy_iff [DecidableEq ι] [Fintype ι] (sup : Supervisor) (bits : Finset ι) :
    sup.healthy bits = true ↔ bits = Finset.univ := by
  cases sup with
  | prvWatchdogTask => simp [healthy, prvWatchdogHealthy]
  | healthMonitorTask => simp [healthy, healthMonitorHealthy]

/-- One step of the supervised system; `healthy` is the test on the bits returned. -/
def Dog.step [DecidableEq ι] [Fintype ι] (healthy : Finset ι → Bool) (d : Dog ι) :
    Act ι → Dog ι × List (Report ι)
  | .beat i => ({ d with group := d.group.setBits {i} }, [.beat i])
  | .clear  => ({ d with group := d.group.clearBits Finset.univ }, [])
  | .timeout => ({ d with group := d.group.timeout }, [])
  | .watchdog =>
    match d.stage with
    | .call => ({ group := d.group.waitBits Finset.univ, stage := .inside }, [])
    | .inside =>
      match d.group.waiter with
      | .released bits =>
        if healthy bits then ({ group := d.group.collect, stage := .call }, [.healthy])
        else ({ group := d.group.collect, stage := .warned bits }, [])
      | _ => (d, [])
    | .warned bits => ({ d with stage := .call }, [.warning bits])

/-- The supervised system. -/
def watchdog [DecidableEq ι] [Fintype ι] (healthy : Finset ι → Bool) :
    Machine (Dog ι) (Act ι) (Report ι) := ⟨Dog.step healthy⟩

/-- The system as it starts: no bit is set. -/
def Dog.start (ι : Type*) : Dog ι := ⟨⟨∅, .none⟩, .call⟩

/-! ### Freshness of reports -/

/-- The events after the last report. -/
def sinceReport (log : List (Report ι)) : List (Report ι) :=
  log.foldl (fun since e => match e with | .beat _ => since ++ [e] | _ => []) []

@[simp] lemma sinceReport_beat (log : List (Report ι)) (i : ι) :
    sinceReport (log ++ [.beat i]) = sinceReport log ++ [.beat i] := by
  simp [sinceReport]

@[simp] lemma sinceReport_healthy (log : List (Report ι)) :
    sinceReport (log ++ [.healthy]) = [] := by
  simp [sinceReport]

@[simp] lemma sinceReport_warning (log : List (Report ι)) (bits : Finset ι) :
    sinceReport (log ++ [.warning bits]) = [] := by
  simp [sinceReport]

/-- Every task has set its bit since the last report. -/
def AllBeat (log : List (Report ι)) : Prop := ∀ i, .beat i ∈ sinceReport log

/-- Whenever the watchdog reports healthy, every task has set its bit since the report before. -/
def Fresh (log : List (Report ι)) : Prop :=
  ∀ before after, log = before ++ .healthy :: after → AllBeat before

end EcuTelemetry.Watchdog
