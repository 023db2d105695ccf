import EcuTelemetry.Core.BoundedFifo
import EcuTelemetry.Lm3s.Basic
import EcuTelemetry.Watchdog.Basic

/-!
# The tasks of the LM3S build

`sensor_task`, `processing_task`, `telemetry_task` and `health_monitor_task` as one machine, with
the timer that kicks the first and the fault that `fault_inject` and `fault_clear` set. A step is
one FreeRTOS call or one access to a shared variable; what a task computes in between on its own
data goes with the step after it. Queues are bounded FIFOs of depth 10 and semaphores are binary.
The tick period is a millisecond, and tick counts come with the action that reads them.
-/

namespace EcuTelemetry.Lm3s

open EcuTelemetry.Core EcuTelemetry.Core.Checked Watchdog

/-- The bits of `xSystemEventGroup`. -/
inductive SystemEvent where
  | sensorReady
  | faultDetected
  | watchdogReset
  deriving DecidableEq

/-- The bits of `xHeartbeatEvents`. -/
inductive Beat where
  | sensor
  | processor
  | telemetry
  deriving DecidableEq

instance : Fintype Beat := ⟨{.sensor, .processor, .telemetry}, fun i => by cases i <;> decide⟩

/-- The program points of `sensor_task`. -/
inductive SensorPc where
  | take
  | test
  | delay
  | tick
  | fill (nowMs : UInt32)
  | send (data : SensorData)
  | setReady
  | give
  | beat
  deriving DecidableEq

/-- The program points of `processing_task`; a trap in its arithmetic halts it. -/
inductive ProcessingPc where
  | take
  | receive
  | idleBeat
  | compute (sensor : SensorData)
  | judge (sensor : SensorData) (c : Calculated)
  | setFault (telem : TelemetryData)
  | send (telem : TelemetryData)
  | beat
  | halted
  deriving DecidableEq

/-- The program points of `telemetry_task`. -/
inductive TelemetryPc where
  | receive
  | print (telem : TelemetryData)
  | beat
  deriving DecidableEq

/-- `health_monitor_task` is in its supervising loop, or has written a warning and not yet set
`EVT_WATCHDOG_RESET`. -/
inductive HealthPc where
  | loop
  | setReset
  deriving DecidableEq

/-- The shared objects, the static data of the tasks and the program points. -/
structure World where
  activeFault : FaultType
  rng : UInt32
  speedKmhX10 : ℤ
  sensorKick : Bool
  dataReady : Bool
  sensorQueue : List SensorData
  telemetryQueue : List TelemetryData
  systemEvents : Finset SystemEvent
  dog : Dog Beat
  sensor : SensorPc
  processing : ProcessingPc
  telemetry : TelemetryPc
  health : HealthPc
  deriving DecidableEq

/-- The state in which `main` starts the scheduler, when the generator of `sensor_task` starts from
`rng`. -/
def World.start (rng : UInt32) : World :=
  { activeFault := .none
    rng := rng
    speedKmhX10 := 0
    sensorKick := false
    dataReady := false
    sensorQueue := []
    telemetryQueue := []
    systemEvents := ∅
    dog := .start Beat
    sensor := .take
    processing := .take
    telemetry := .receive
    health := .loop }

/-- The first state of the generator in `sensor_task`. -/
def rngStart : UInt32 := 0xDEADBEEF

/-- A step of one task, the timer, the end of the watchdog's block time, or a call of `fault_inject`
or `fault_clear`. -/
inductive Action where
  | timer
  | sensor (tick : UInt32)
  | processing
  | telemetry
  | health
  | timeout
  | faultInject (fault : FaultType)
  | faultClear
  deriving DecidableEq, Repr

/-- What an observer sees: samples and frames as they are offered to a queue, taken and printed,
what `processing_task` computes, and heartbeats and reports. -/
inductive Event where
  | sampled (data : SensorData) (sent : Bool)
  | taken (sensor : SensorData)
  | processed (sensor : SensorData) (c : Calculated)
  | framed (telem : TelemetryData) (sent : Bool)
  | printed (telem : TelemetryData)
  | dog (r : Report Beat)
  deriving DecidableEq

/-- The depth of both queues. -/
def queueLen : ℕ := 10

/-- `xEventGroupSetBits` on `xHeartbeatEvents`. -/
def World.setBeat (w : World) (i : Beat) : World × List Event :=
  match w.dog.step healthMonitorHealthy (.beat i) with
  | (dog, reports) => ({ w with dog }, reports.map .dog)

/-- `sensor_task`. -/
def World.sensorStep (w : World) (tick : UInt32) : World × List Event :=
  match w.sensor with
  | .take       =>
    if w.sensorKick then ({ w with sensorKick := false, sensor := .test }, []) else (w, [])
  | .test       => ({ w with sensor := if w.activeFault = .taskDelay then .delay else .tick }, [])
  | .delay      => ({ w with sensor := .tick }, [])
  | .tick       => ({ w with sensor := .fill tick }, [])
  | .fill nowMs =>
    match fillSample w.activeFault nowMs w.rng with
    | (data, rng) => ({ w with rng, sensor := .send data }, [])
  | .send data  =>
    match BoundedFifo.push queueLen w.sensorQueue data with
    | (sensorQueue, sent) => ({ w with sensorQueue, sensor := .setReady }, [.sampled data sent])
  | .setReady   =>
    ({ w with systemEvents := insert .sensorReady w.systemEvents, sensor := .give }, [])
  | .give       => ({ w with dataReady := true, sensor := .beat }, [])
  | .beat       => { w with sensor := .take }.setBeat .sensor

/-- `processing_task`. -/
def World.processingStep (w : World) : World × List Event :=
  match w.processing with
  | .take =>
    if w.dataReady then ({ w with dataReady := false, processing := .receive }, []) else (w, [])
  | .receive =>
    match w.sensorQueue with
    | []                    => ({ w with processing := .idleBeat }, [])
    | sensor :: sensorQueue =>
      ({ w with sensorQueue, processing := .compute sensor }, [.taken sensor])
  | .idleBeat => { w with processing := .take }.setBeat .processor
  | .compute sensor =>
    match calculate w.speedKmhX10 sensor with
    | .ok c    =>
      ({ w with speedKmhX10 := c.speedKmhX10, processing := .judge sensor c },
        [.processed sensor c])
    | .error _ => ({ w with processing := .halted }, [])
  | .judge sensor c =>
    if faulty sensor w.activeFault then
      ({ w with processing := .setFault (frame sensor c true) }, [])
    else ({ w with processing := .send (frame sensor c false) }, [])
  | .setFault telem =>
    ({ w with
        systemEvents := insert .faultDetected w.systemEvents
        processing := .send telem },
      [])
  | .send telem =>
    match BoundedFifo.push queueLen w.telemetryQueue telem with
    | (telemetryQueue, sent) =>
      ({ w with telemetryQueue, processing := .beat }, [.framed telem sent])
  | .beat => { w with processing := .take }.setBeat .processor
  | .halted => (w, [])

/-- `telemetry_task`. -/
def World.telemetryStep (w : World) : World × List Event :=
  match w.telemetry with
  | .receive =>
    match w.telemetryQueue with
    | []                      => (w, [])
    | telem :: telemetryQueue => ({ w with telemetryQueue, telemetry := .print telem }, [])
  | .print telem => ({ w with telemetry := .beat }, [.printed telem])
  | .beat => { w with telemetry := .receive }.setBeat .telemetry

/-- `health_monitor_task`. -/
def World.healthStep (w : World) : World × List Event :=
  match w.health with
  | .loop =>
    match w.dog.step healthMonitorHealthy .watchdog with
    | (dog, reports) =>
      ({ w with
          dog
          health :=
            match w.dog.stage with
            | .warned _ => .setReset
            | _         => .loop },
        reports.map .dog)
  | .setReset =>
    ({ w with systemEvents := insert .watchdogReset w.systemEvents, health := .loop }, [])

/-- One step of the firmware. -/
def World.step (w : World) : Action → World × List Event
  | .timer             => ({ w with sensorKick := true }, [])
  | .sensor tick       => w.sensorStep tick
  | .processing        => w.processingStep
  | .telemetry         => w.telemetryStep
  | .health            => w.healthStep
  | .timeout           =>
    match w.dog.step healthMonitorHealthy .timeout with
    | (dog, reports) => ({ w with dog }, reports.map .dog)
  | .faultInject fault => ({ w with activeFault := fault }, [])
  | .faultClear        => ({ w with activeFault := .none }, [])

/-- The firmware. -/
def lm3s : Machine World Action Event := ⟨World.step⟩

end EcuTelemetry.Lm3s
