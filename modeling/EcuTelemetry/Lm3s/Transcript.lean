import EcuTelemetry.Lm3s.Execution

/-!
# The transcript of UART0

Whatever the order of the steps, down to single characters, UART0 shows whole lines. Those of
`telemetry_task` are the frames it prints, in order; those of `health_monitor_task` are its reports,
numbered without a gap; and those of `diagnostics_task` answer the commands that have come in.
-/

namespace EcuTelemetry.Lm3s

open EcuTelemetry.Core Watchdog

variable {b b' : Board} {log evs : List BoardEvent}

/-! ### What the others leave alone -/

/-- The other tasks leave the watchdog where it is, and what its wait has returned. -/
lemma next_dog (w : World) {a : Action} (ha : a ≠ .health) :
    (lm3s.next w a).dog.stage = w.dog.stage ∧
      ∀ bits, w.dog.group.waiter = .released bits →
        (lm3s.next w a).dog.group.waiter = .released bits := by
  have hdog : (lm3s.next w a).dog = lm3sWatchdog.run w.dog (w.dogActs a) :=
    (step_supervised w a).dog
  have hact (act : Act Beat) (hact : act ≠ .watchdog) :
      (lm3sWatchdog.next w.dog act).stage = w.dog.stage ∧
        ∀ bits, w.dog.group.waiter = .released bits →
          (lm3sWatchdog.next w.dog act).group.waiter = .released bits := by
    cases act with
    | watchdog => exact absurd rfl hact
    | beat i =>
      refine ⟨rfl, fun bits hw => ?_⟩
      simp [watchdog, Machine.next, Dog.step, EventGroup.setBits, hw]
    | clear => exact ⟨rfl, fun bits hw => hw⟩
    | timeout =>
      refine ⟨rfl, fun bits hw => ?_⟩
      simp [watchdog, Machine.next, Dog.step, EventGroup.timeout, hw]
  rw [hdog]
  have hnil : lm3sWatchdog.run w.dog [] = w.dog := rfl
  have hone (act : Act Beat) : lm3sWatchdog.run w.dog [act] = lm3sWatchdog.next w.dog act := rfl
  cases a with
  | health => exact absurd rfl ha
  | sensor tick =>
    simp only [World.dogActs]
    split
    · exact hact _ (by simp)
    · exact ⟨rfl, fun _ => id⟩
  | processing =>
    simp only [World.dogActs]
    split
    · exact hact _ (by simp)
    · exact hact _ (by simp)
    · exact ⟨rfl, fun _ => id⟩
  | telemetry =>
    simp only [World.dogActs]
    split
    · exact hact _ (by simp)
    · exact ⟨rfl, fun _ => id⟩
  | timeout => exact hact _ (by simp)
  | timer | faultInject fault | faultClear => exact ⟨rfl, fun _ => id⟩

/-- The message of `health_monitor_task` stays what it is while it is printed. -/
lemma healthMessage_next {a : Action} (ha : a ≠ .health) {freeHeap : UInt32} {text : List Char}
    (h : b.healthMessage freeHeap = some text) :
    Board.healthMessage { b with world := lm3s.next b.world a } freeHeap = some text := by
  obtain ⟨hstage, hwaiter⟩ := next_dog b.world ha
  unfold Board.healthMessage at h ⊢
  simp only [next_health b.world ha, hstage]
  cases hh : b.world.health with
  | setReset => simp [hh] at h
  | loop =>
    cases hs : b.world.dog.stage with
    | call => simp [hh, hs] at h
    | warned bits => simpa [hh, hs] using h
    | inside =>
      cases hw : b.world.dog.group.waiter with
      | none => simp [hh, hs, hw] at h
      | blocked mask => simp [hh, hs, hw] at h
      | released bits =>
        rw [hwaiter bits hw]
        simpa [hh, hs, hw] using h

/-! ### What the tasks say -/

/-- The messages task `i` has begun, in order. -/
def messagesOf (i : Task) (log : List BoardEvent) : List (List Char) :=
  ((Serial.begun (uartOf log)).filter (·.1 = i)).map Prod.snd

@[simp] lemma messagesOf_append (i : Task) (log log' : List BoardEvent) :
    messagesOf i (log ++ log') = messagesOf i log ++ messagesOf i log' := by
  simp [messagesOf]

/-- The report of a timeout. -/
def isWarning : Report Beat → Bool
  | .warning _ => true
  | _          => false

/-- The lines of `health_monitor_task` for its reports: each has its number among its kind. -/
inductive Tells : List (Report Beat) → List (List Char) → Prop where
  | nil : Tells [] []
  | beat {reports : List (Report Beat)} {texts : List (List Char)} (i : Beat)
      (h : Tells reports texts) : Tells (reports ++ [.beat i]) texts
  | healthy {reports : List (Report Beat)} {texts : List (List Char)} (freeHeap : UInt32)
      (h : Tells reports texts) :
      Tells (reports ++ [.healthy])
        (texts ++ [okText (fun _ => UInt32.ofNat (reports.count .healthy + 1)) freeHeap])
  | warning {reports : List (Report Beat)} {texts : List (List Char)} (bits : Finset Beat)
      (h : Tells reports texts) :
      Tells (reports ++ [.warning bits])
        (texts ++ [timeoutText (UInt32.ofNat (reports.countP isWarning + 1)) bits])

/-- What `diagnostics_task` sends for a command: the echo of the line end, and the answer. -/
def DiagCommand.sent (r : Readings) : DiagCommand → List (List Char)
  | .reset => [echo]
  | c      => [echo, c.text r]

/-- What is sent for each of the commands, one after the other. -/
def Answered (cmds : List (List UInt8)) (sents : List (List (List Char))) : Prop :=
  List.Forall₂ (fun cmd sent => ∃ r, sent = (diagCommand cmd).sent r) cmds sents

/-- The messages `diagnostics_task` is done with at each of its program points, when the commands it
has executed are `cmds`. -/
def Conversed (cmds : List (List UInt8)) (texts : List (List Char)) : DiagnosticsPc → Prop
  | .greet => cmds = [] ∧ texts = []
  | .poll | .echo _ | .restarted =>
    ∃ sents, Answered cmds sents ∧ texts = greeting :: sents.flatten
  | .doCmd _ => ∃ sents, Answered cmds sents ∧ texts = greeting :: sents.flatten ++ [echo]
  | .reply text =>
    ∃ sents, Answered cmds (sents ++ [[echo, text]]) ∧ texts = greeting :: sents.flatten ++ [echo]

/-- The messages that task `i` is done with. -/
def Board.Done (b : Board) (log : List BoardEvent) (texts : List (List Char)) : Task → Prop
  | .telemetry   => texts = ((worldOf log).flatMap Event.shown).map telemText
  | .health      => Tells ((worldOf log).flatMap Event.report) texts
  | .diagnostics => Conversed (executedOf log) texts b.diagnostics

/-- The message that task `i` has the mutex for, if it has. -/
def Board.Current (b : Board) (i : Task) (current : List (List Char)) : Prop :=
  if b.uart.party = some i then ∃ text, current = [text] ∧ b.Says i text else current = []

/-- The messages of each task are those it is done with, and the one it has the mutex for. -/
def Spoken (b : Board) (log : List BoardEvent) : Prop :=
  ∀ i, ∃ done current, messagesOf i log = done ++ current ∧ b.Done log done i ∧ b.Current i current

/-- The counters of `health_monitor_task` are those of its reports. -/
structure Counted (b : Board) (log : List BoardEvent) : Prop where
  beatCount : ∀ i, b.beatCount i =
    UInt32.ofNat (((worldOf log).flatMap Event.report).count .healthy)
  watchdogWarnings : b.watchdogWarnings =
    UInt32.ofNat (((worldOf log).flatMap Event.report).countP isWarning)

/-! ### Reports -/

/-- The other tasks report nothing but heartbeats. -/
lemma report_of_ne_health (w : World) {a : Action} (ha : a ≠ .health) :
    ∀ r ∈ (lm3s.emit w a).flatMap Event.report, ∃ i, r = .beat i := by
  have hreport : (lm3s.emit w a).flatMap Event.report = lm3sWatchdog.trace w.dog (w.dogActs a) :=
    dogSimulation.emit w a
  have hone (i : Beat) : ∀ r ∈ lm3sWatchdog.trace w.dog [.beat i], ∃ i, r = .beat i := by
    intro r hr
    exact ⟨i, List.mem_singleton.mp hr⟩
  have hnil : ∀ r ∈ lm3sWatchdog.trace w.dog [], ∃ i, r = .beat i := fun r hr => by cases hr
  have htimeout : ∀ r ∈ lm3sWatchdog.trace w.dog [.timeout], ∃ i, r = .beat i :=
    fun r hr => by cases hr
  rw [hreport]
  cases a with
  | health => exact absurd rfl ha
  | sensor tick =>
    simp only [World.dogActs]
    split
    · exact hone .sensor
    · exact hnil
  | processing =>
    simp only [World.dogActs]
    split
    · exact hone .processor
    · exact hone .processor
    · exact hnil
  | telemetry =>
    simp only [World.dogActs]
    split
    · exact hone .telemetry
    · exact hnil
  | timeout => exact htimeout
  | timer | faultInject fault | faultClear => exact hnil

/-- A step of `health_monitor_task` without a message reports nothing. -/
lemma report_of_healthMessage_eq_none {freeHeap : UInt32} (h : b.healthMessage freeHeap = none) :
    (lm3s.emit b.world .health).flatMap Event.report = [] := by
  have hreport : (lm3s.emit b.world .health).flatMap Event.report =
      lm3sWatchdog.trace b.world.dog (b.world.dogActs .health) := dogSimulation.emit _ _
  rw [hreport]
  unfold Board.healthMessage at h
  simp only [World.dogActs]
  cases hh : b.world.health with
  | setReset => rfl
  | loop =>
    simp only [hh] at h
    simp only [Machine.trace_cons, Machine.trace_nil, List.append_nil, Machine.emit, watchdog,
      Dog.step]
    cases hs : b.world.dog.stage with
    | call => rfl
    | warned bits => simp [hs] at h
    | inside =>
      cases hw : b.world.dog.group.waiter with
      | none => rfl
      | blocked mask => rfl
      | released bits =>
        have hbad : healthMonitorHealthy bits = false := by simpa [hs, hw] using h
        simp [hbad]

/-- A message of `health_monitor_task` is that of its report. -/
lemma report_of_healthMessage_eq_some {freeHeap : UInt32} {text : List Char}
    (h : b.healthMessage freeHeap = some text) :
    ((lm3s.emit b.world .health).flatMap Event.report = [.healthy] ∧
        text = okText (fun i => b.beatCount i + 1) freeHeap ∧
        b.count = { b with beatCount := fun i => b.beatCount i + 1 }) ∨
      ∃ bits, (lm3s.emit b.world .health).flatMap Event.report = [.warning bits] ∧
        text = timeoutText (b.watchdogWarnings + 1) bits ∧
        b.count = { b with watchdogWarnings := b.watchdogWarnings + 1 } := by
  have hreport : (lm3s.emit b.world .health).flatMap Event.report =
      lm3sWatchdog.trace b.world.dog (b.world.dogActs .health) := dogSimulation.emit _ _
  rw [hreport]
  unfold Board.healthMessage at h
  unfold Board.count
  simp only [World.dogActs]
  cases hh : b.world.health with
  | setReset => simp [hh] at h
  | loop =>
    simp only [hh] at h
    simp only [Machine.trace_cons, Machine.trace_nil, List.append_nil, Machine.emit, watchdog,
      Dog.step]
    cases hs : b.world.dog.stage with
    | call => simp [hs] at h
    | warned bits =>
      refine .inr ⟨bits, rfl, ?_, rfl⟩
      simpa [hs, eq_comm] using h
    | inside =>
      cases hw : b.world.dog.group.waiter with
      | none => simp [hs, hw] at h
      | blocked mask => simp [hs, hw] at h
      | released bits =>
        obtain ⟨hgood, rfl⟩ : healthMonitorHealthy bits = true ∧
            okText (fun i => b.beatCount i + 1) freeHeap = text := by simpa [hs, hw] using h
        exact .inl ⟨by simp [hgood], rfl, rfl⟩

variable {texts : List (List Char)} {reports : List (Report Beat)}

/-- Heartbeats are not told. -/
lemma Tells.beats (h : Tells reports texts) {more : List (Report Beat)}
    (hmore : ∀ r ∈ more, ∃ i, r = .beat i) : Tells (reports ++ more) texts := by
  induction more generalizing reports with
  | nil => rwa [List.append_nil]
  | cons r more ih =>
    obtain ⟨i, rfl⟩ := hmore r List.mem_cons_self
    rw [List.append_cons]
    exact ih (.beat i h) fun r hr => hmore r (List.mem_cons_of_mem _ hr)

/-- A step without a message of `health_monitor_task` shows only its heartbeat, if any. -/
lemma report_beats {a : Action} (h : a = .health → ∀ freeHeap, b.healthMessage freeHeap = none) :
    ∀ r ∈ (lm3s.emit b.world a).flatMap Event.report, ∃ i, r = .beat i := by
  by_cases ha : a = .health
  · rw [ha, report_of_healthMessage_eq_none (h ha 0)]
    exact fun r hr => by cases hr
  · exact report_of_ne_health b.world ha

/-! ### Counters -/

lemma count_healthy_beats (h : ∀ r ∈ reports, ∃ i, r = .beat i) : reports.count .healthy = 0 := by
  rw [List.count_eq_zero]
  intro hmem
  obtain ⟨i, hi⟩ := h _ hmem
  cases hi

lemma countP_isWarning_beats (h : ∀ r ∈ reports, ∃ i, r = .beat i) :
    reports.countP isWarning = 0 := by
  rw [List.countP_eq_zero]
  intro r hr
  obtain ⟨i, rfl⟩ := h r hr
  exact Bool.false_ne_true

lemma counted_start (rng : UInt32) : Counted (.start rng) [] := ⟨fun _ => rfl, rfl⟩

/-- Heartbeats are not counted. -/
lemma Counted.beats (h : Counted b log) (hbeat : b'.beatCount = b.beatCount)
    (hwarn : b'.watchdogWarnings = b.watchdogWarnings)
    (hevs : ∀ r ∈ (worldOf evs).flatMap Event.report, ∃ i, r = .beat i) :
    Counted b' (log ++ evs) where
  beatCount i := by
    rw [hbeat, h.beatCount, worldOf_append, List.flatMap_append, List.count_append,
      count_healthy_beats hevs, Nat.add_zero]
  watchdogWarnings := by
    rw [hwarn, h.watchdogWarnings, worldOf_append, List.flatMap_append, List.countP_append,
      countP_isWarning_beats hevs, Nat.add_zero]

/-- Every step counts the reports. -/
lemma Counted.next (h : Counted b log) (hmove : BoardMove b b' evs) : Counted b' (log ++ evs) := by
  have hnone {events : List Event} (hevents : events = []) :
      ∀ r ∈ events.flatMap Event.report, ∃ i, r = .beat i := by
    rw [hevents]
    exact fun r hr => by cases hr
  cases hmove with
  | run a ht hh hf => exact h.beats rfl rfl (by simpa using report_beats hh)
  | printed => exact h.beats rfl rfl (by simpa using report_beats (a := .telemetry) (by simp))
  | @fault cmd f =>
    have hset : setFault f = .health → ∀ freeHeap, b.healthMessage freeHeap = none := by
      cases f <;> simp [setFault]
    exact h.beats rfl rfl (by simpa using report_beats hset)
  | reported hm =>
    rcases report_of_healthMessage_eq_some hm with ⟨hr, -, hc⟩ | ⟨bits, hr, -, hc⟩
    · rw [hc]
      refine ⟨fun i => ?_, ?_⟩
      · simp [h.beatCount, hr]
      · simp [h.watchdogWarnings, hr, isWarning]
    · rw [hc]
      refine ⟨fun i => ?_, ?_⟩
      · simp [h.beatCount, hr]
      · simp [h.watchdogWarnings, hr, isWarning]
  | write => exact h.beats rfl rfl (hnone (by simp))
  | still | answered | read | reset | answer => exact h.beats rfl rfl (hnone rfl)

/-! ### Messages -/

lemma messagesOf_eq_nil {i : Task} (h : Serial.begun (uartOf evs) = []) :
    messagesOf i evs = [] := by
  rw [messagesOf, h]
  rfl

/-- A step that adds nothing to what task `i` is done with. -/
def Silent (b b' : Board) (evs : List BoardEvent) : Task → Prop
  | .telemetry   => (worldOf evs).flatMap Event.shown = []
  | .health      => ∀ r ∈ (worldOf evs).flatMap Event.report, ∃ i, r = .beat i
  | .diagnostics => ∀ cmds texts, Conversed cmds texts b.diagnostics →
    Conversed (cmds ++ executedOf evs) texts b'.diagnostics

lemma Board.Done.silent {i : Task} (h : b.Done log texts i) (hsilent : Silent b b' evs i) :
    b'.Done (log ++ evs) texts i := by
  cases i with
  | telemetry =>
    have htexts : texts = ((worldOf log).flatMap Event.shown).map telemText := h
    have hshown : (worldOf evs).flatMap Event.shown = [] := hsilent
    simp [Board.Done, htexts, hshown]
  | health =>
    have hbeats := Tells.beats h hsilent
    simpa [Board.Done] using hbeats
  | diagnostics =>
    have hconversed := hsilent _ _ h
    simpa [Board.Done] using hconversed

/-- Nobody takes the mutex or gives it back. -/
lemma Spoken.silent (h : Spoken b log) (hparty : b'.uart.party = b.uart.party)
    (hbegun : Serial.begun (uartOf evs) = [])
    (hsaid : ∀ i text, b.Says i text → b'.Says i text) (hsilent : ∀ i, Silent b b' evs i) :
    Spoken b' (log ++ evs) := by
  intro i
  obtain ⟨done, current, hmessages, hdone, hcurrent⟩ := h i
  refine ⟨done, current, ?_, hdone.silent (hsilent i), ?_⟩
  · rw [messagesOf_append, messagesOf_eq_nil hbegun, List.append_nil, hmessages]
  · unfold Board.Current at hcurrent ⊢
    rw [hparty]
    split_ifs at hcurrent ⊢ with hp
    · obtain ⟨text, htext, hs⟩ := hcurrent
      exact ⟨text, htext, hsaid i text hs⟩
    · exact hcurrent

/-- Task `i` takes the mutex. -/
lemma Spoken.begin (h : Spoken b log) {i : Task} {text : List Char} (hfree : b.uart.holder = none)
    (hparty : b'.uart.party = some i) (hbegun : Serial.begun (uartOf evs) = [(i, text)])
    (hsaid : b'.Says i text) (hsilent : ∀ j, Silent b b' evs j) : Spoken b' (log ++ evs) := by
  intro j
  obtain ⟨done, current, hmessages, hdone, hcurrent⟩ := h j
  have hnone : current = [] := by simpa [Board.Current, Serial.party, hfree] using hcurrent
  rw [hnone, List.append_nil] at hmessages
  by_cases hj : i = j
  · subst hj
    refine ⟨done, [text], ?_, hdone.silent (hsilent i), ?_⟩
    · rw [messagesOf_append, hmessages]
      simp [messagesOf, hbegun]
    · rw [Board.Current, if_pos hparty]
      exact ⟨text, rfl, hsaid⟩
  · refine ⟨done, [], ?_, hdone.silent (hsilent j), ?_⟩
    · rw [messagesOf_append, hmessages]
      simp [messagesOf, hbegun, hj]
    · rw [Board.Current, if_neg (by simp [hparty, hj])]

/-- Task `i` gives the mutex back. -/
lemma Spoken.finish (h : Spoken b log) {i : Task} (hheld : b.uart.holder = some (i, []))
    (hfree : b'.uart.holder = none) (hbegun : Serial.begun (uartOf evs) = [])
    (hown : ∀ texts text, b.Done log texts i → b.Says i text →
      b'.Done (log ++ evs) (texts ++ [text]) i)
    (hsilent : ∀ j, j ≠ i → Silent b b' evs j) : Spoken b' (log ++ evs) := by
  intro j
  obtain ⟨done, current, hmessages, hdone, hcurrent⟩ := h j
  have hsame : messagesOf j (log ++ evs) = done ++ current := by
    rw [messagesOf_append, messagesOf_eq_nil hbegun, List.append_nil, hmessages]
  have hidle : b'.Current j [] := by rw [Board.Current, if_neg (by simp [Serial.party, hfree])]
  by_cases hj : j = i
  · subst hj
    rw [Board.Current, if_pos (by simp [Serial.party, hheld])] at hcurrent
    obtain ⟨text, rfl, hsaid⟩ := hcurrent
    exact ⟨done ++ [text], [], by rw [hsame, List.append_nil], hown done text hdone hsaid, hidle⟩
  · have hnone : current = [] := by
      rwa [Board.Current, if_neg (by simp [Serial.party, hheld, Ne.symm hj])] at hcurrent
    exact ⟨done, [], by rw [hsame, hnone], hdone.silent (hsilent j hj), hidle⟩

lemma spoken_start (rng : UInt32) : Spoken (.start rng) [] := by
  intro i
  refine ⟨[], [], rfl, ?_, ?_⟩
  · cases i with
    | telemetry => rfl
    | health => exact .nil
    | diagnostics => exact ⟨rfl, rfl⟩
  · have hfree : (Board.start rng).uart.party = none := rfl
    simp [Board.Current, hfree]

/-- Only `telemetry_task` prints frames, and only when it has one to print. -/
lemma shown_eq_nil {w : World} {a : Action}
    (h : a = .telemetry → ∀ telem, w.telemetry ≠ .print telem) :
    (lm3s.emit w a).flatMap Event.shown = [] := by
  rw [List.flatMap_eq_nil_iff]
  intro e he
  cases shows_of_mem_emit he with
  | printed ht => exact absurd ht (h rfl _)
  | _ => rfl

/-- A message stays what it is while the other tasks run. -/
lemma says_next {a : Action} (ht : a = .telemetry → ∀ telem, b.world.telemetry ≠ .print telem)
    (hh : a = .health → ∀ freeHeap, b.healthMessage freeHeap = none) {i : Task} {text : List Char}
    (h : b.Says i text) : Board.Says { b with world := lm3s.next b.world a } i text := by
  cases i with
  | telemetry =>
    obtain ⟨telem, hp, htext⟩ := h
    have ha : a ≠ .telemetry := fun heq => ht heq telem hp
    exact ⟨telem, (next_telemetry b.world ha).trans hp, htext⟩
  | health =>
    obtain ⟨freeHeap, hm⟩ := h
    have ha : a ≠ .health := fun heq => by simp [hh heq freeHeap] at hm
    exact ⟨freeHeap, healthMessage_next ha hm⟩
  | diagnostics => exact h

/-- `telemetry_task` is done with the line of its frame. -/
lemma done_printed {telem : TelemetryData} {text : List Char}
    (ht : b.world.telemetry = .print telem) (h : b.Done log texts .telemetry)
    (hsaid : b.Says .telemetry text) (hevs : worldOf evs = lm3s.emit b.world .telemetry) :
    b'.Done (log ++ evs) (texts ++ [text]) .telemetry := by
  obtain ⟨telem', hp, rfl⟩ := hsaid
  obtain rfl : telem = telem' := by simpa [ht] using hp
  have htexts : texts = ((worldOf log).flatMap Event.shown).map telemText := h
  have hshown : (worldOf evs).flatMap Event.shown = [telem] := by
    rw [hevs]
    simp [lm3s, Machine.emit, World.step, World.telemetryStep, ht, Event.shown]
  simp [Board.Done, htexts, hshown]

/-- The message of `health_monitor_task` tells its report. -/
lemma Tells.message (hcounted : Counted b log)
    (h : Tells ((worldOf log).flatMap Event.report) texts) {freeHeap : UInt32} {text : List Char}
    (hm : b.healthMessage freeHeap = some text) :
    Tells
      ((worldOf log).flatMap Event.report ++ (lm3s.emit b.world .health).flatMap Event.report)
      (texts ++ [text]) := by
  rcases report_of_healthMessage_eq_some hm with ⟨hr, rfl, -⟩ | ⟨bits, hr, rfl, -⟩
  · have hcount : (fun i => b.beatCount i + 1) = fun _ =>
        UInt32.ofNat (((worldOf log).flatMap Event.report).count .healthy + 1) := by
      funext i
      rw [hcounted.beatCount, UInt32.ofNat_add]
      rfl
    rw [hr, hcount]
    exact .healthy freeHeap h
  · have hwarn := Tells.warning bits h
    rw [UInt32.ofNat_add] at hwarn
    rw [hr, hcounted.watchdogWarnings]
    exact hwarn

/-- `health_monitor_task` is done with the line of its report. -/
lemma done_reported (hcounted : Counted b log) {text : List Char}
    (h : b.Done log texts .health) (hsaid : b.Says .health text)
    (hevs : worldOf evs = lm3s.emit b.world .health) :
    b'.Done (log ++ evs) (texts ++ [text]) .health := by
  obtain ⟨freeHeap, hm⟩ := hsaid
  have htells := Tells.message hcounted h hm
  simpa only [Board.Done, worldOf_append, List.flatMap_append, hevs] using htells

/-- `diagnostics_task` is done with its message. -/
lemma done_answered {text : List Char} (h : b.Done log texts .diagnostics)
    (hsaid : b.Says .diagnostics text) (hpc : b'.diagnostics = b.diagnostics.printed)
    (hevs : executedOf evs = []) : b'.Done (log ++ evs) (texts ++ [text]) .diagnostics := by
  have hconversed : Conversed (executedOf log) texts b.diagnostics := h
  simp only [Board.Done, executedOf_append, hevs, List.append_nil, hpc]
  rcases hsaid with ⟨hp, rfl⟩ | ⟨cmd, hp, rfl⟩ | hp
  · rw [hp] at hconversed ⊢
    obtain ⟨hcmds, rfl⟩ := hconversed
    rw [hcmds]
    exact ⟨[], .nil, rfl⟩
  · rw [hp] at hconversed ⊢
    obtain ⟨sents, hsents, rfl⟩ := hconversed
    exact ⟨sents, hsents, rfl⟩
  · rw [hp] at hconversed ⊢
    obtain ⟨sents, hsents, rfl⟩ := hconversed
    exact ⟨_, hsents, by simp⟩

/-- A command that is executed and answered. -/
lemma conversed_executed {cmd : List UInt8} {text : List Char} {r : Readings}
    (hp : b.diagnostics = .doCmd cmd) (hsent : (diagCommand cmd).sent r = [echo, text])
    (cmds : List (List UInt8)) (texts : List (List Char))
    (h : Conversed cmds texts b.diagnostics) : Conversed (cmds ++ [cmd]) texts (.reply text) := by
  rw [hp] at h
  obtain ⟨sents, hsents, rfl⟩ := h
  exact ⟨sents, List.rel_append hsents (.cons ⟨r, hsent.symm⟩ .nil), rfl⟩

/-- Every step keeps the messages of each task: those it is done with and the one it writes. -/
theorem Spoken.next (h : Spoken b log) (hcounted : Counted b log) (hmove : BoardMove b b' evs) :
    Spoken b' (log ++ evs) := by
  cases hmove with
  | still => rwa [List.append_nil]
  | run a ht hh hf =>
    refine h.silent rfl (by simp) (fun i text => says_next ht hh) fun i => ?_
    cases i with
    | telemetry => simpa [Silent] using shown_eq_nil ht
    | health => simpa [Silent] using report_beats hh
    | diagnostics => simp [Silent]
  | @write i text hsaid hnot =>
    have hsilent (b' : Board) (hd : b'.diagnostics = b.diagnostics)
        (events : List (Serial.Event Task Char)) (j : Task) :
        Silent b b' (events.map .uart) j := by
      cases j with
      | diagnostics => simp [Silent, hd]
      | _ => simp [Silent]
    rcases Serial.write_cases text hnot with ⟨hfree, hw⟩ | ⟨hparty, hw⟩
    · rw [hw]
      exact h.begin hfree rfl rfl (by cases i <;> exact hsaid) fun j => hsilent _ rfl _ j
    · rw [hw]
      exact h.silent hparty rfl (fun j text hs => by cases j <;> exact hs)
        fun j => hsilent _ rfl [] j
  | printed ht hheld =>
    refine h.finish hheld rfl (by simp [Serial.begun])
      (fun texts text hdone hsaid => done_printed ht hdone hsaid (by simp)) fun j hj => ?_
    cases j with
    | telemetry => exact absurd rfl hj
    | health => simpa [Silent] using report_beats (a := .telemetry) (by simp)
    | diagnostics => simp [Silent]
  | reported hm hheld =>
    refine h.finish hheld rfl (by simp [Serial.begun])
      (fun texts text hdone hsaid => done_reported hcounted hdone hsaid (by simp)) fun j hj => ?_
    cases j with
    | telemetry => simpa [Silent] using shown_eq_nil (w := b.world) (a := .health) (by simp)
    | health => exact absurd rfl hj
    | diagnostics => simp [Silent]
  | answered hsaid hheld =>
    refine h.finish hheld rfl rfl
      (fun texts text hdone hsaid => done_answered hdone hsaid rfl rfl) fun j hj => ?_
    cases j with
    | diagnostics => exact absurd rfl hj
    | _ => simp [Silent]
  | @read c buffer events hp =>
    refine h.silent rfl rfl (fun i text hs => ?_) fun i => ?_
    · cases i with
      | diagnostics => simp [Board.Says, hp] at hs
      | _ => exact hs
    · cases i with
      | diagnostics =>
        intro cmds texts hc
        rw [hp] at hc
        rw [pollPc]
        split <;> simpa [Conversed] using hc
      | _ => simp [Silent]
  | @reset cmd hp hcmd =>
    refine h.silent rfl rfl (fun i text hs => ?_) fun i => ?_
    · cases i with
      | diagnostics => simp [Board.Says, hp] at hs
      | _ => exact hs
    · cases i with
      | diagnostics =>
        intro cmds texts hc
        rw [hp] at hc
        obtain ⟨sents, hsents, rfl⟩ := hc
        have hsent : [echo] = (diagCommand cmd).sent ⟨0, 0, 0⟩ := by rw [hcmd]; rfl
        exact ⟨sents ++ [[echo]], List.rel_append hsents (.cons ⟨_, hsent⟩ .nil), by simp⟩
      | _ => simp [Silent]
  | @fault cmd f r hp hcmd =>
    have ha : setFault f ≠ .telemetry ∧ setFault f ≠ .health := by cases f <;> simp [setFault]
    have ht : setFault f = .telemetry → ∀ telem, b.world.telemetry ≠ .print telem :=
      fun heq => absurd heq ha.1
    have hh : setFault f = .health → ∀ freeHeap, b.healthMessage freeHeap = none :=
      fun heq => absurd heq ha.2
    refine h.silent rfl (by simp) (fun i text hs => ?_) fun i => ?_
    · cases i with
      | diagnostics => simp [Board.Says, hp] at hs
      | telemetry => exact says_next ht hh hs
      | health => exact says_next ht hh hs
    · cases i with
      | telemetry => simpa [Silent] using shown_eq_nil ht
      | health => simpa [Silent] using report_beats hh
      | diagnostics => simpa [Silent] using conversed_executed hp (by rw [hcmd]; rfl)
  | @answer cmd r hp hcmd hreset =>
    refine h.silent rfl rfl (fun i text hs => ?_) fun i => ?_
    · cases i with
      | diagnostics => simp [Board.Says, hp] at hs
      | _ => exact hs
    · cases i with
      | diagnostics =>
        have hsent : (diagCommand cmd).sent r = [echo, (diagCommand cmd).text r] := by
          unfold DiagCommand.sent
          split
          · next hc => exact absurd hc hreset
          · rfl
        exact conversed_executed hp hsent
      | _ => simp [Silent]

/-! ### Runs -/

/-- What is sent for a command begins with the echo, and is at most two messages. -/
lemma sent_eq (r : Readings) (c : DiagCommand) :
    c.sent r = [echo] ∨ c.sent r = [echo, c.text r] := by
  cases c <;> simp [DiagCommand.sent]

/-- The messages of `diagnostics_task` are its greeting and what it sends for each command, and lack
at most the last two. -/
lemma Spoken.diagnostics (h : Spoken b log) (hobeyed : Obeyed b log) :
    ∃ sents rest, Answered (receivedCommands log) sents ∧ rest.length ≤ 2 ∧
      messagesOf .diagnostics log ++ rest = greeting :: sents.flatten := by
  obtain ⟨done, current, hmessages, hdone, hcurrent⟩ := h .diagnostics
  have hconversed : Conversed (executedOf log) done b.diagnostics := hdone
  have hcases : current = [] ∨ ∃ text, current = [text] ∧ b.Says .diagnostics text := by
    unfold Board.Current at hcurrent
    split_ifs at hcurrent
    · exact .inr hcurrent
    · exact .inl hcurrent
  have hsilent (hnot : ∀ text, ¬ b.Says .diagnostics text) : current = [] := by
    rcases hcases with hc | ⟨text, -, hs⟩
    · exact hc
    · exact absurd hs (hnot text)
  have hwaits {cmd : List UInt8} {sents : List (List (List Char))}
      (hsents : Answered (executedOf log) sents) (hw : b.diagnostics.waiting = [cmd]) :
      ∃ sent, Answered (receivedCommands log) (sents ++ [echo :: sent]) ∧ sent.length ≤ 1 := by
    rw [← hobeyed.executed, hw]
    rcases sent_eq ⟨0, 0, 0⟩ (diagCommand cmd) with hs | hs
    · exact ⟨[], List.rel_append hsents (.cons ⟨_, hs.symm⟩ .nil), Nat.zero_le 1⟩
    · exact ⟨[_], List.rel_append hsents (.cons ⟨_, hs.symm⟩ .nil), le_rfl⟩
  have hexecuted (hw : b.diagnostics.waiting = []) : executedOf log = receivedCommands log := by
    rw [← hobeyed.executed, hw, List.append_nil]
  rw [hmessages]
  cases hp : b.diagnostics with
  | greet =>
    rw [hp] at hconversed
    obtain ⟨hcmds, rfl⟩ := hconversed
    rw [hcmds] at hexecuted
    have hnone : Answered (receivedCommands log) [] := by
      rw [← hexecuted (by rw [hp]; rfl)]
      exact .nil
    rcases hcases with rfl | ⟨text, rfl, hs⟩
    · exact ⟨[], [greeting], hnone, Nat.le_succ 1, rfl⟩
    · obtain rfl : text = greeting := by simpa [Board.Says, hp] using hs
      exact ⟨[], [], hnone, Nat.zero_le 2, rfl⟩
  | poll | restarted =>
    rw [hp] at hconversed
    obtain ⟨sents, hsents, rfl⟩ := hconversed
    rw [hsilent (by simp [Board.Says, hp])]
    rw [hexecuted (by rw [hp]; rfl)] at hsents
    exact ⟨sents, [], hsents, Nat.zero_le 2, by simp⟩
  | echo cmd =>
    rw [hp] at hconversed
    obtain ⟨sents, hsents, rfl⟩ := hconversed
    obtain ⟨sent, hanswered, hlen⟩ := hwaits hsents (by rw [hp]; rfl)
    rcases hcases with rfl | ⟨text, rfl, hs⟩
    · exact ⟨_, echo :: sent, hanswered, Nat.succ_le_succ hlen, by simp⟩
    · obtain rfl : text = echo := by simpa [Board.Says, hp] using hs
      exact ⟨_, sent, hanswered, hlen.trans (Nat.le_succ 1), by simp⟩
  | doCmd cmd =>
    rw [hp] at hconversed
    obtain ⟨sents, hsents, rfl⟩ := hconversed
    obtain ⟨sent, hanswered, hlen⟩ := hwaits hsents (by rw [hp]; rfl)
    rw [hsilent (by simp [Board.Says, hp])]
    exact ⟨_, sent, hanswered, hlen.trans (Nat.le_succ 1), by simp⟩
  | reply text =>
    rw [hp] at hconversed
    obtain ⟨sents, hsents, rfl⟩ := hconversed
    rw [hexecuted (by rw [hp]; rfl)] at hsents
    rcases hcases with rfl | ⟨text', rfl, hs⟩
    · exact ⟨_, [text], hsents, Nat.le_succ 1, by simp⟩
    · obtain rfl : text = text' := by simpa [Board.Says, hp] using hs
      exact ⟨_, [], hsents, Nat.zero_le 2, by simp⟩

/-- The messages of `telemetry_task` are those of the frames it prints. -/
lemma Spoken.telemetry (h : Spoken b log) : ∃ more, more <+: b.world.telemetry.frames ∧
    messagesOf .telemetry log = ((worldOf log).flatMap Event.shown ++ more).map telemText := by
  obtain ⟨done, current, hmessages, hdone, hcurrent⟩ := h .telemetry
  have hdone : done = ((worldOf log).flatMap Event.shown).map telemText := hdone
  unfold Board.Current at hcurrent
  split_ifs at hcurrent
  · obtain ⟨text, rfl, telem, hp, rfl⟩ := hcurrent
    refine ⟨[telem], ?_, ?_⟩
    · rw [hp]
      exact List.prefix_rfl
    · rw [hmessages, hdone, List.map_append]
      rfl
  · refine ⟨[], List.nil_prefix, ?_⟩
    rw [hmessages, hdone, hcurrent, List.append_nil, List.append_nil]

/-- The messages of `health_monitor_task` are those of its reports. -/
lemma Spoken.health (h : Spoken b log) (hcounted : Counted b log) : ∃ more, more.length ≤ 1 ∧
    Tells ((worldOf log).flatMap Event.report ++ more) (messagesOf .health log) := by
  obtain ⟨done, current, hmessages, hdone, hcurrent⟩ := h .health
  have hdone : Tells ((worldOf log).flatMap Event.report) done := hdone
  rw [hmessages]
  unfold Board.Current at hcurrent
  split_ifs at hcurrent
  · obtain ⟨text, rfl, freeHeap, hm⟩ := hcurrent
    refine ⟨_, ?_, hdone.message hcounted hm⟩
    rcases report_of_healthMessage_eq_some hm with ⟨hr, -⟩ | ⟨bits, hr, -⟩ <;> rw [hr] <;> rfl
  · refine ⟨[], Nat.zero_le 1, ?_⟩
    rwa [hcurrent, List.append_nil, List.append_nil]

lemma Tells.oneLine (h : Tells reports texts) : ∀ text ∈ texts, OneLine text := by
  have hconcat {texts : List (List Char)} {last : List Char} (hall : ∀ t ∈ texts, OneLine t)
      (hlast : OneLine last) : ∀ t ∈ texts ++ [last], OneLine t := by
    intro t ht
    rcases List.mem_append.mp ht with ht | ht
    · exact hall t ht
    · rwa [List.mem_singleton.mp ht]
  induction h with
  | nil => exact fun t ht => by cases ht
  | beat i h ih => exact ih
  | healthy freeHeap h ih => exact hconcat ih (okText_sent _ _).1
  | warning bits h ih => exact hconcat ih (timeoutText_sent _ _).1

lemma oneLine_of_mem_sent {r : Readings} {c : DiagCommand} {text : List Char}
    (h : text ∈ c.sent r) : OneLine text := by
  rcases sent_eq r c with hs | hs
  · rw [hs] at h
    rw [List.mem_singleton.mp h]
    exact echo_oneLine
  · rw [hs] at h
    rcases List.mem_cons.mp h with rfl | h
    · exact echo_oneLine
    · rw [List.mem_singleton.mp h]
      exact (text_sent c r).1

lemma Answered.oneLine {cmds : List (List UInt8)} {sents : List (List (List Char))}
    (h : Answered cmds sents) : ∀ text ∈ sents.flatten, OneLine text := by
  induction h with
  | nil => exact fun text ht => by cases ht
  | cons hsent h ih =>
    obtain ⟨r, rfl⟩ := hsent
    intro text ht
    rcases List.mem_append.mp ht with ht | ht
    · exact oneLine_of_mem_sent ht
    · exact ih text ht

/-- What UART0 has received. -/
structure Transcript (b : Board) (log : List BoardEvent) : Prop where
  whole : Serial.Whole b.uart (uartOf log)
  oneLine : ∀ m ∈ Serial.begun (uartOf log), OneLine m.2
  telemetry : ∃ more, more <+: b.world.telemetry.frames ∧
    messagesOf .telemetry log = ((worldOf log).flatMap Event.shown ++ more).map telemText
  delivered : Delivered b.world.flow (worldOf log)
  health : ∃ more, more.length ≤ 1 ∧
    Tells ((worldOf log).flatMap Event.report ++ more) (messagesOf .health log)
  diagnostics : ∃ sents rest, Answered (receivedCommands log) sents ∧ rest.length ≤ 2 ∧
    messagesOf .diagnostics log ++ rest = greeting :: sents.flatten

/-- The state of a run, and what it has shown. -/
structure Accounted (b : Board) (log : List BoardEvent) : Prop where
  whole : Serial.Whole b.uart (uartOf log)
  spoken : Spoken b log
  counted : Counted b log

lemma BoardMove.whole (h : Serial.Whole b.uart (uartOf log)) (hmove : BoardMove b b' evs) :
    Serial.Whole b'.uart (uartOf (log ++ evs)) := by
  have hended {i : Task} (hheld : b.uart.holder = some (i, [])) :
      Serial.Whole ⟨b.uart.out, none⟩ (uartOf log ++ [.ended i]) := by
    have hwhole := h.write i []
    rwa [Serial.write_done hheld] at hwhole
  cases hmove with
  | @write i text => simpa using h.write i text
  | printed ht hheld => simpa using hended hheld
  | reported hm hheld => simpa using hended hheld
  | answered hsaid hheld => simpa using hended hheld
  | still | run | read | reset | fault | answer => simpa using h

lemma accounted_run (rng : UInt32) (as : List BoardAction) :
    Accounted (board.run (.start rng) as) (board.trace (.start rng) as) := by
  refine board.invariant_always (P := Accounted) (fun b log a h => ?_) ?_ as
  · have hmove := board_move b a
    exact ⟨hmove.whole h.whole, h.spoken.next h.counted hmove, h.counted.next hmove⟩
  · exact ⟨Serial.whole_start, spoken_start rng, counted_start rng⟩

/-- In every run, down to single characters and whatever the order of the tasks: since the scheduler
started UART0 has received the messages one after the other, each whole but the one being written,
and each is one line. Those of `telemetry_task` are the lines of the frames it prints, which are the
frames accepted, in order; those of `health_monitor_task` are the lines of its reports, numbered
without a gap; and those of `diagnostics_task` are its greeting and the echo and the answer for each
command received. -/
theorem uart_transcript (rng : UInt32) (as : List BoardAction) :
    Transcript (board.run (.start rng) as) (board.trace (.start rng) as) := by
  have h := accounted_run rng as
  have htelemetry := h.spoken.telemetry
  have hhealth := h.spoken.health h.counted
  have hdiagnostics := h.spoken.diagnostics (obeyed_run rng as)
  refine ⟨h.whole, fun m hm => ?_, htelemetry, ?_, hhealth, hdiagnostics⟩
  · have hmem : m.2 ∈ messagesOf m.1 (board.trace (.start rng) as) :=
      List.mem_map.mpr ⟨m, List.mem_filter.mpr ⟨hm, by simp⟩, rfl⟩
    cases hi : m.1 with
    | telemetry =>
      obtain ⟨more, -, heq⟩ := htelemetry
      rw [hi, heq] at hmem
      obtain ⟨telem, -, htext⟩ := List.mem_map.mp hmem
      rw [← htext]
      exact (telemText_sent telem).1
    | health =>
      obtain ⟨more, -, htells⟩ := hhealth
      rw [hi] at hmem
      exact htells.oneLine _ hmem
    | diagnostics =>
      obtain ⟨sents, rest, hsents, -, heq⟩ := hdiagnostics
      rw [hi] at hmem
      have hall := List.mem_append_left rest hmem
      rw [heq] at hall
      rcases List.mem_cons.mp hall with hg | hs
      · rw [hg]
        exact greeting_oneLine
      · exact hsents.oneLine _ hs
  · obtain ⟨as', hworld, hlog⟩ := board_refines rng as
    rw [hworld, hlog]
    exact delivered_run rng as'

end EcuTelemetry.Lm3s
