import EcuTelemetry.Firmware.Messages

/-!
# The log of a run

`parse_logs.py` makes two tables of the console output of a run: one of the frames and one of the
healthy reports of the watchdog. The output is what all tasks write, in any order. Neither table
takes a row from what another task writes, and none is lost, although the fragments that the
diagnostics task writes leave lines open.
-/

namespace EcuTelemetry.Firmware

open EcuTelemetry.Core Console Pattern LogFile

variable (classes : CharClasses)

/-! ### `parse_logs.py` -/

/-- `wd_pat`. -/
def wdPat : List (Pattern.Piece Char) :=
  text "[watchdog] healthy: sensor=".toList ++ .plus classes.digit ::
    (text " processor=".toList ++ .plus classes.digit ::
    (text " logger=".toList ++ [.plus classes.digit]))

/-- The rows of `firmware_telemetry.csv`. -/
def telemetryRows (log : List Char) : List (List (List Char)) :=
  (rowsOf (search (fwTelemPat classes)) log).map Prod.snd

/-- The rows of `firmware_watchdog.csv`. -/
def watchdogRows (log : List Char) : List (ℕ × List (List Char)) :=
  rowsOf (search (wdPat classes)) log

/-! ### What the tasks write -/

/-- What `main` or the diagnostics task may print. -/
inductive FromDiagnostics : Output → Prop where
  | banner {o : Output} (h : o ∈ banner) : FromDiagnostics o
  | script {o : Output} (r : ℕ → Readings) (h : o ∈ prvDiagnosticsTask r) : FromDiagnostics o
  | answer {o : Output} (command : Command) (r : Readings) (h : o ∈ command.output r) :
      FromDiagnostics o

lemma FromDiagnostics.plain {o : Output} (h : FromDiagnostics o) : o.Plain := by
  cases h with
  | banner h => exact plain_banner o h
  | script r h => exact plain_prvDiagnosticsTask r o h
  | answer command r h => exact plain_output command r o h

/-- What a task writes to the console at once. -/
inductive Written where
  | telemetry (frame : TelemetryFrame)
  | stall (sequence : UInt32)
  | healthy (sensor processor logger : UInt32)
  | warning (bits : UInt32)
  | diagnostics (o : Output) (h : FromDiagnostics o)

namespace Written

/-- The text is what is written, whatever is on the stack. -/
def Writes : Written → List Char → Prop
  | telemetry frame, s                 => ∀ stack, prvPrintFrame stack frame = .ok s
  | stall sequence, s                  => (stallCall sequence).Writes s
  | healthy sensor processor logger, s => (healthyCall sensor processor logger).Writes s
  | warning bits, s                    => (warningCall bits).Writes s
  | diagnostics o _, s                 => o.Writes s

/-- The frame printed. -/
def frame? : Written → Option TelemetryFrame
  | telemetry frame => some frame
  | _               => none

/-- The row of `firmware_watchdog.csv`, but for the number of the line. -/
def healthyRow? : Written → Option (List (List Char))
  | healthy sensor processor logger =>
    some [Nat.toDigits 10 sensor.toNat, Nat.toDigits 10 processor.toNat,
      Nat.toDigits 10 logger.toNat]
  | _ => none

end Written

/-- The rows of `firmware_watchdog.csv` when `n - 1` lines have ended before. -/
def healthyRows : ℕ → List (Written × List Char) → List (ℕ × List (List Char))
  | _, []           => []
  | n, (w, s) :: es => (w.healthyRow?.map (n, ·)).toList ++ healthyRows (n + s.count '\n') es

/-- The frames printed. -/
def framesOf (es : List (Written × List Char)) : List TelemetryFrame :=
  es.filterMap fun e => e.1.frame?

lemma framesOf_cons (w : Written) (s : List Char) (es : List (Written × List Char)) :
    framesOf ((w, s) :: es) = w.frame?.toList ++ framesOf es := by
  rw [framesOf, List.filterMap_cons]
  cases w.frame? with
  | none => rfl
  | some frame => rfl

/-! ### Texts are unique -/

/-- Some stack. -/
def anyStack : Vector Char 256 := Vector.replicate 256 nul

lemma writes_unique {call : Call} {s t : List Char} (hs : call.Writes s) (ht : call.Writes t) :
    s = t := Except.ok.inj ((hs anyStack).symm.trans (ht anyStack))

lemma output_unique {o : Output} {s t : List Char} (hs : o.Writes s) (ht : o.Writes t) : s = t := by
  cases o with
  | writef call => exact writes_unique hs ht
  | writeln text => exact Except.ok.inj ((hs anyStack).symm.trans (ht anyStack))
  | logWrite text => exact hs.trans ht.symm

/-! ### What the patterns find -/

/-- A healthy report is the pattern with the numbers filled in. -/
lemma spells_healthy (sensor processor logger : UInt32) :
    Spells (wdPat classes)
      [Nat.toDigits 10 sensor.toNat, Nat.toDigits 10 processor.toNat, Nat.toDigits 10 logger.toNat]
      ('[' :: labelled healthyLabels [sensor, processor, logger]) := by
  have hdigits : ∀ n, ∀ c ∈ Nat.toDigits 10 n, classes.digit c :=
    fun n c hc => digit_of_mem_toDigits classes hc
  apply Spells.text_append "[watchdog] healthy: sensor=".toList
  apply Spells.plus Nat.toDigits_ne_nil (hdigits _)
  apply Spells.text_append
  apply Spells.plus Nat.toDigits_ne_nil (hdigits _)
  apply Spells.text_append
  exact Spells.plus Nat.toDigits_ne_nil (hdigits _) .nil

lemma delimited_wdPat : Delimited (wdPat classes) ['\n'] := by
  have hspace : classes.digit ' ' = false := classes.digit_ascii ' ' (by decide)
  have hend : Stops classes.digit ['\n'] := by
    intro c hc
    obtain rfl : '\n' = c := Option.some.inj hc
    exact classes.digit_ascii '\n' (by decide)
  apply delimited_text
  apply delimited_plus_text rfl hspace
  apply delimited_plus_text rfl hspace
  exact hend

lemma seeks_fwTelemPat : Seeks '[' (search (fwTelemPat classes)) :=
  seeks_search (t := "[telemetry] seq=".toList) (by decide)

lemma seeks_wdPat : Seeks '[' (search (wdPat classes)) :=
  seeks_search (t := "[watchdog] healthy: sensor=".toList) (by decide)

/-- What the two patterns make of an entry, which is what is written. -/
structure Logged (w : Written) (s : List Char) (e : Entry '[') : Prop where
  text : e.text = s
  return_notMem : '\r' ∉ s
  telemetry : e.found (search (fwTelemPat classes)) = w.frame?.map frameCaptures
  watchdog : e.found (search (wdPat classes)) = w.healthyRow?

/-- A message that neither pattern begins. -/
lemma logged_other {w : Written} {s body : List Char} (h : IsMessage s body)
    (hframe : w.frame? = none) (hhealthy : w.healthyRow? = none)
    (htelemetry : ¬ "[telemetry] seq=".toList <+: s)
    (hwatchdog : ¬ "[watchdog] healthy: sensor=".toList <+: s) :
    Logged classes w s h.entry where
  text := h.text.symm
  return_notMem := h.return_notMem
  telemetry := by
    rw [hframe]
    exact h.not_found (by decide) htelemetry _
  watchdog := by
    rw [hhealthy]
    exact h.not_found (by decide) hwatchdog _

/-- A text that the first label departs from. -/
lemma not_prefix_append {t label : List Char} (h : ¬ t <+: label ∧ ¬ label <+: t)
    (rest : List Char) : ¬ t <+: label ++ rest := by
  intro hpre
  rcases List.prefix_or_prefix_of_prefix hpre (List.prefix_append label rest) with hp | hp
  · exact h.1 hp
  · exact h.2 hp

lemma not_prefix_message {t : List Char} {label : Label}
    (h : ¬ t <+: '[' :: label.text ∧ ¬ '[' :: label.text <+: t) (labels : List Label)
    (value : UInt32) (values : List UInt32) :
    ¬ t <+: message (label :: labels) (value :: values) := by
  rw [message, labelled, ← List.cons_append, List.append_assoc]
  exact not_prefix_append h _

lemma logged_frame {frame : TelemetryFrame} (htemp : 0 ≤ frame.temperatureCX10.toInt) :
    Logged classes (.telemetry frame) (frameText frame) (isMessage_frameText frame).entry where
  text := (isMessage_frameText frame).text.symm
  return_notMem := (isMessage_frameText frame).return_notMem
  telemetry := by
    have hmatch :=
      matchAt_of_spells (spells_frameLine classes htemp) (delimited_fwTelemPat classes)
    rw [(isMessage_frameText frame).found_entry, frameText_eq, search_of_matchAt hmatch]
    rfl
  watchdog := by
    refine (isMessage_frameText frame).not_found (by decide) ?_ _
    unfold frameText
    simp only [List.append_assoc]
    exact not_prefix_append (by decide +kernel) _

lemma logged_healthy (sensor processor logger : UInt32) :
    Logged classes (.healthy sensor processor logger)
      (message healthyLabels [sensor, processor, logger])
      (prints_healthy.isMessage [sensor, processor, logger]).entry where
  text := rfl
  return_notMem := (prints_healthy.isMessage _).return_notMem
  telemetry := (prints_healthy.isMessage _).not_found (by decide)
    (not_prefix_message (by decide +kernel) _ _ _) _
  watchdog := by
    have hmatch :=
      matchAt_of_spells (spells_healthy classes sensor processor logger) (delimited_wdPat classes)
    rw [(prints_healthy.isMessage _).found_entry, message, search_of_matchAt hmatch]
    rfl

/-- Whatever a task writes is an entry of the log. -/
lemma written_logged {w : Written} {s : List Char} (h : w.Writes s)
    (htemp : ∀ frame, w.frame? = some frame → 0 ≤ frame.temperatureCX10.toInt) :
    ∃ e, Logged classes w s e := by
  cases w with
  | telemetry frame =>
    obtain rfl := Except.ok.inj ((prvPrintFrame_text anyStack frame).symm.trans (h anyStack))
    exact ⟨_, logged_frame classes (htemp frame rfl)⟩
  | stall sequence =>
    obtain rfl := writes_unique (prints_stall.writes [sequence] rfl) h
    exact ⟨_, logged_other classes (prints_stall.isMessage [sequence]) rfl rfl
      (not_prefix_message (by decide +kernel) _ _ _)
      (not_prefix_message (by decide +kernel) _ _ _)⟩
  | healthy sensor processor logger =>
    obtain rfl := writes_unique
      (prints_healthy.writes [sensor, processor, logger] rfl) h
    exact ⟨_, logged_healthy classes sensor processor logger⟩
  | warning bits =>
    obtain rfl := writes_unique (prints_warning.writes [bits] rfl) h
    exact ⟨_, logged_other classes (prints_warning.isMessage [bits]) rfl rfl
      (not_prefix_message (by decide +kernel) _ _ _)
      (not_prefix_message (by decide +kernel) _ _ _)⟩
  | diagnostics o hfrom =>
    obtain ⟨t, hchars, ht⟩ := hfrom.plain
    obtain rfl := output_unique ht h
    exact ⟨.fragment t fun hc => (hchars _ hc).1 rfl,
      { text := rfl
        return_notMem := fun hc => (hchars _ hc).2.1 rfl
        telemetry := rfl
        watchdog := rfl }⟩

/-! ### Whole logs -/

/-- The log in entries. -/
lemma logged_all {es : List (Written × List Char)} (hes : ∀ e ∈ es, e.1.Writes e.2)
    (htemp : ∀ frame ∈ framesOf es, 0 ≤ frame.temperatureCX10.toInt) :
    ∃ entries : List (Entry '['), entries.flatMap Entry.text = es.flatMap Prod.snd ∧
      '\r' ∉ es.flatMap Prod.snd ∧
      entries.filterMap (Entry.found (search (fwTelemPat classes))) =
        (framesOf es).map frameCaptures ∧
      ∀ n, entryRows (search (wdPat classes)) n entries = healthyRows n es := by
  induction es with
  | nil => exact ⟨[], rfl, List.not_mem_nil, rfl, fun n => rfl⟩
  | cons e es ih =>
    obtain ⟨w, s⟩ := e
    obtain ⟨hw, hes⟩ := List.forall_mem_cons.mp hes
    rw [framesOf_cons, List.forall_mem_append] at htemp
    have hhead : ∀ frame, w.frame? = some frame → 0 ≤ frame.temperatureCX10.toInt :=
      fun frame hframe => htemp.1 frame (Option.mem_toList.mpr hframe)
    obtain ⟨entries, htext, hreturn, htelemetry, hwatchdog⟩ := ih hes htemp.2
    obtain ⟨entry, hentry⟩ := written_logged classes hw hhead
    refine ⟨entry :: entries, ?_, ?_, ?_, fun n => ?_⟩
    · rw [List.flatMap_cons, List.flatMap_cons, hentry.text, htext]
    · rw [List.flatMap_cons, List.mem_append, not_or]
      exact ⟨hentry.return_notMem, hreturn⟩
    · rw [List.filterMap_cons, hentry.telemetry, framesOf_cons, List.map_append, htelemetry]
      cases w.frame? with
      | none => rfl
      | some frame => rfl
    · rw [entryRows, healthyRows, hentry.watchdog, hentry.text, hwatchdog]

/-- Whatever the tasks of a run write, in any order: the table of the frames is that of the frames
printed, one row for each, and the table of the watchdog has the healthy reports, each with the
number of its line. -/
theorem log_rows (acts : List Action) {es : List (Written × List Char)}
    (hes : ∀ e ∈ es, e.1.Writes e.2)
    (hframes : framesOf es = printedFrames acts) :
    telemetryRows classes (es.flatMap Prod.snd) = (printedFrames acts).map frameCaptures ∧
      (telemetryRows classes (es.flatMap Prod.snd)).map readCaptures =
        (printedFrames acts).map (some ∘ printedReading) ∧
      watchdogRows classes (es.flatMap Prod.snd) = healthyRows 1 es := by
  have htemp : ∀ frame ∈ framesOf es, 0 ≤ frame.temperatureCX10.toInt := by
    intro frame hframe
    rw [hframes] at hframe
    obtain ⟨g, hg, rfl⟩ := List.mem_map.mp hframe
    obtain ⟨mode, tick, tick', hval⟩ := printed_made acts g hg
    rw [hval]
    exact (emittedFrame_nonneg _ mode tick tick').1
  obtain ⟨entries, htext, hreturn, htelemetry, hwatchdog⟩ := logged_all classes hes htemp
  rw [← htext] at hreturn
  have hrows : telemetryRows classes (es.flatMap Prod.snd) =
      (printedFrames acts).map frameCaptures := by
    rw [telemetryRows, ← htext, rows_eq (seeks_fwTelemPat classes) (by decide) entries hreturn,
      map_snd_entryRows, htelemetry, hframes]
  refine ⟨hrows, ?_, ?_⟩
  · rw [hrows, List.map_map]
    exact List.map_congr_left fun frame _ => readCaptures_frame frame
  · rw [watchdogRows, ← htext, rows_eq (seeks_wdPat classes) (by decide) entries hreturn,
      hwatchdog]

/-- The log of a period: a fragment of the script, which leaves its line open, the frame on the same
line, and a healthy report. -/
def onePeriodLog : List (Written × List Char) :=
  (.diagnostics (.logWrite "==> ".toList) (.script (fun _ => ⟨AppStats.zero, 0, 0, fun _ => 0, 0⟩)
    (List.mem_append_left _ (List.mem_append_right _ (List.mem_append_left _ (.head _))))),
    "==> ".toList) ::
  ((printedFrames onePeriod).map fun frame => (.telemetry frame, frameText frame)) ++
  [(.healthy 1 2 3, message healthyLabels [1, 2, 3])]

/-- The frame is found behind the fragment, and the report on the second line. -/
theorem log_rows_onePeriod :
    (printedFrames onePeriod).length = 1 ∧
      telemetryRows .ascii (onePeriodLog.flatMap Prod.snd) =
        (printedFrames onePeriod).map frameCaptures ∧
      watchdogRows .ascii (onePeriodLog.flatMap Prod.snd) = [(2, [['1'], ['2'], ['3']])] := by
  have hes : ∀ e ∈ onePeriodLog, e.1.Writes e.2 := by
    refine List.forall_mem_append.mpr ⟨List.forall_mem_cons.mpr ⟨?_, ?_⟩, ?_⟩
    · exact (by decide +kernel : "==> ".toList = Console.semihostWrite0 ("==> ".toList ++ [nul]))
    · intro e he
      obtain ⟨frame, -, rfl⟩ := List.mem_map.mp he
      exact fun stack => prvPrintFrame_text stack frame
    · exact List.forall_mem_singleton.mpr (prints_healthy.writes [1, 2, 3] rfl)
  have hframes : framesOf onePeriodLog = printedFrames onePeriod := by decide +kernel
  obtain ⟨hrows, -, hwatchdog⟩ := log_rows .ascii onePeriod hes hframes
  refine ⟨by decide, hrows, hwatchdog.trans ?_⟩
  decide +kernel

end EcuTelemetry.Firmware
