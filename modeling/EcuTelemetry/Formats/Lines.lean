import EcuTelemetry.Firmware.FrameText
import EcuTelemetry.Lm3s.Tasks
import EcuTelemetry.Printf.Length

/-!
# The lines of the tasks

`telemetry_task` and `health_monitor_task` of the LM3S build print into arrays of their own, the
logger of the firmware into the one of `console_writef`. None of these arrays is too small for any
values of the arguments.
-/

namespace EcuTelemetry.Formats

open EcuTelemetry.Core.Checked Lm3s Printf

/-! ### `telemetry_task` -/

/-- The two arguments for a reading in units of one `d`-th: the quotient, and the remainder without
its sign. -/
def fixedArgs (x : Int16) (d : Int32) : List Arg :=
  [ .word (x.toInt32 / d).toUInt32,
    .word (if x < 0 then -(x.toInt32 % d) else x.toInt32 % d).toUInt32 ]

/-- The two arguments for a value in tenths. -/
def tenthsArgs (x : UInt16) : List Arg := [.word (x / 10).toUInt32, .word (x % 10).toUInt32]

/-- The format of `telemetry_task`. -/
def telemFormat : List Char :=
  ("[TELEM] ts=%lu temp=%d.%dC ax=%d.%02d ay=%d.%02d az=%d.%02d spd=%u.%ukm/h rpm=%u " ++
    "thr=%u.%u%% fault=0x%02X valid=%d\r\n").toList

/-- The arguments of `telemetry_task` after the format. -/
def telemArgs (telem : TelemetryData) : List Arg :=
  [.word telem.timestampMs] ++
    fixedArgs telem.sensor.temperatureCX10 10 ++
    fixedArgs telem.sensor.accelXX100 100 ++
    fixedArgs telem.sensor.accelYX100 100 ++
    fixedArgs telem.sensor.accelZX100 100 ++
    tenthsArgs telem.speedKmhX10 ++
    [.word telem.rpm.toUInt32] ++
    tenthsArgs telem.throttlePctX10 ++
    [ .word telem.faultCode.toUInt32,
      .word (if telem.valid then (1 : Int32) else 0).toUInt32 ]

/-- The call in `telemetry_task`, on what `buf` holds. -/
def telemetryTask (telem : TelemetryData) (buf : ℕ → Char) :
    Except Undefined ((ℕ → Char) × Int32) :=
  miniVsnprintf buf 200 telemFormat (telemArgs telem)

/-- The format of `telemetry_task`, conversion by conversion. -/
def telemPieces : List Piece :=
  [ .plain "[TELEM] ts=".toList, .conv false false [] true 'u',
    .plain " temp=".toList, .conv false false [] false 'd',
    .plain ".".toList, .conv false false [] false 'd',
    .plain "C ax=".toList, .conv false false [] false 'd',
    .plain ".".toList, .conv false true ['2'] false 'd',
    .plain " ay=".toList, .conv false false [] false 'd',
    .plain ".".toList, .conv false true ['2'] false 'd',
    .plain " az=".toList, .conv false false [] false 'd',
    .plain ".".toList, .conv false true ['2'] false 'd',
    .plain " spd=".toList, .conv false false [] false 'u',
    .plain ".".toList, .conv false false [] false 'u',
    .plain "km/h rpm=".toList, .conv false false [] false 'u',
    .plain " thr=".toList, .conv false false [] false 'u',
    .plain ".".toList, .conv false false [] false 'u',
    .conv false false [] false '%', .plain " fault=0x".toList, .conv false true ['2'] false 'X',
    .plain " valid=".toList, .conv false false [] false 'd', .plain "\r\n".toList ]

lemma telemPieces_format : telemPieces.flatMap Piece.format = telemFormat := by decide +kernel

lemma telemPieces_wellFormed : ∀ p ∈ telemPieces, p.WellFormed := by decide +kernel

/-! ### `health_monitor_task` -/

/-- The format of `health_monitor_task` when all tasks have reported. -/
def okFormat : List Char := "[HLTH] OK sensor=%lu proc=%lu telem=%lu heap=%u\r\n".toList

/-- The arguments of `health_monitor_task` when all tasks have reported, with the value of
`xPortGetFreeHeapSize`. -/
def okArgs (beatCount : Beat → UInt32) (freeHeap : UInt32) : List Arg :=
  [ .word (beatCount .sensor), .word (beatCount .processor), .word (beatCount .telemetry),
    .word freeHeap ]

/-- The call in `health_monitor_task` when all tasks have reported. -/
def healthMonitorOk (beatCount : Beat → UInt32) (freeHeap : UInt32) (buf : ℕ → Char) :
    Except Undefined ((ℕ → Char) × Int32) :=
  miniVsnprintf buf 128 okFormat (okArgs beatCount freeHeap)

/-- The format of `health_monitor_task` on a timeout. -/
def timeoutFormat : List Char := "[WDOG] TIMEOUT warnings=%lu missing:%s%s%s\r\n".toList

/-- The name of a task, unless its bit is set. -/
def missingText (bits : Finset Beat) (beat : Beat) (name : String) : List Char :=
  if beat ∈ bits then [] else name.toList

/-- The arguments of `health_monitor_task` on a timeout. -/
def timeoutArgs (warnings : UInt32) (bits : Finset Beat) : List Arg :=
  [ .word warnings,
    .text (some (missingText bits .sensor " Sensor")),
    .text (some (missingText bits .processor " Processor")),
    .text (some (missingText bits .telemetry " Telemetry")) ]

/-- The call in `health_monitor_task` on a timeout. -/
def healthMonitorTimeout (warnings : UInt32) (bits : Finset Beat) (buf : ℕ → Char) :
    Except Undefined ((ℕ → Char) × Int32) :=
  miniVsnprintf buf 192 timeoutFormat (timeoutArgs warnings bits)

/-- `okFormat`, conversion by conversion. -/
def okPieces : List Piece :=
  [ .plain "[HLTH] OK sensor=".toList, .conv false false [] true 'u',
    .plain " proc=".toList, .conv false false [] true 'u',
    .plain " telem=".toList, .conv false false [] true 'u',
    .plain " heap=".toList, .conv false false [] false 'u', .plain "\r\n".toList ]

lemma okPieces_format : okPieces.flatMap Piece.format = okFormat := by decide +kernel

lemma okPieces_wellFormed : ∀ p ∈ okPieces, p.WellFormed := by decide +kernel

/-- `timeoutFormat`, conversion by conversion. -/
def timeoutPieces : List Piece :=
  [ .plain "[WDOG] TIMEOUT warnings=".toList, .conv false false [] true 'u',
    .plain " missing:".toList, .conv false false [] false 's', .conv false false [] false 's',
    .conv false false [] false 's', .plain "\r\n".toList ]

lemma timeoutPieces_format : timeoutPieces.flatMap Piece.format = timeoutFormat := by
  decide +kernel

lemma timeoutPieces_wellFormed : ∀ p ∈ timeoutPieces, p.WellFormed := by decide +kernel

/-! ### No line is too long -/

variable {ps : List Piece} {args : List Arg} {n : ℕ}

/-- The remainder without its sign, as a number. -/
lemma toInt_remainder (x : Int16) {d : Int32} {m : ℕ} (hd : d.toInt = m) :
    (if x < 0 then -(x.toInt32 % d) else x.toInt32 % d).toInt = (x.toInt.natAbs % m : ℕ) := by
  have hlo := x.le_toInt
  have hrem : (x.toInt32 % d).toInt = x.toInt.tmod m := by
    rw [Int32.toInt_mod, Int16.toInt_toInt32, hd]
  have hle : x.toInt.natAbs % m ≤ x.toInt.natAbs := Nat.mod_le _ _
  by_cases h : x < 0
  · have h0 := (int16_lt_zero_iff x).mp h
    have habs : x.toInt = -(x.toInt.natAbs : ℤ) := by omega
    have hneg : x.toInt.tmod m = -(x.toInt.natAbs % m : ℕ) := by
      rw [habs, Int.neg_tmod, Int.natAbs_neg, Int.natAbs_natCast, Int.ofNat_tmod]
    rw [if_pos h, Int32.toInt_neg, hrem, hneg, Int.neg_neg]
    exact Int.bmod_eq_of_le (by omega) (by omega)
  · have h0 := mt (int16_lt_zero_iff x).mpr h
    have habs : x.toInt = (x.toInt.natAbs : ℤ) := by omega
    rw [if_neg h, hrem, Int.ofNat_tmod, ← habs]

/-- A reading takes at most seven characters: a sign, five digits, and the point in front of the
last `w`. -/
lemma bounded_fixed (x : Int16) {d : Int32} {k w : ℕ} (hk : 0 < k) (hw : 0 < w) (hkw : k + w = 5)
    (hd : d.toInt = (10 ^ w : ℕ)) {zero : Bool} {digits : List Char} (hwidth : widthOf digits ≤ w)
    (h : Bounded ps args n) :
    Bounded (.conv false false [] false 'd' :: .plain ".".toList ::
        .conv false zero digits false 'd' :: ps) (fixedArgs x d ++ args)
      (k + 1 + (".".toList.length + (w + n))) := by
  have hlo := x.le_toInt
  have hhi := x.toInt_lt
  have hpow : 10 ^ w * 10 ^ k = 100000 := by
    rw [← pow_add, Nat.add_comm, hkw]
    rfl
  have hne : d ≠ -1 := by
    rintro rfl
    have hneg : (-1 : Int32).toInt = -1 := by decide
    have hpos : (0 : ℤ) ≤ (10 ^ w : ℕ) := Int.natCast_nonneg _
    rw [← hd, hneg] at hpos
    exact absurd hpos (by decide)
  have hrem := toInt_remainder x hd
  refine .signed k hk ?_ (Nat.zero_le _) (.plain _ (.natural w hw ?_ ?_ hwidth h))
  · rw [Firmware.toInt_quotient x d hne, hd, Int.natAbs_tdiv]
    exact Nat.div_lt_of_lt_mul (by rw [Int.natAbs_natCast, hpow]; omega)
  · rw [hrem]
    exact Int.natCast_nonneg _
  · rw [hrem]
    exact_mod_cast Nat.mod_lt _ (Nat.pow_pos (by decide))

lemma bounded_hundredths (x : Int16) (h : Bounded ps args n) :
    Bounded (.conv false false [] false 'd' :: .plain ".".toList ::
        .conv false true ['2'] false 'd' :: ps) (fixedArgs x 100 ++ args)
      (4 + (".".toList.length + (2 + n))) :=
  bounded_fixed x (k := 3) (w := 2) (by decide) (by decide) rfl rfl (by decide) h

lemma bounded_tenths (x : UInt16) (h : Bounded ps args n) :
    Bounded (.conv false false [] false 'u' :: .plain ".".toList ::
        .conv false false [] false 'u' :: ps) (tenthsArgs x ++ args)
      (4 + (".".toList.length + (1 + n))) := by
  have hlt := x.toNat_lt
  refine .unsigned 4 (by decide) ?_ (by decide)
    (.plain _ (.unsigned 1 (by decide) ?_ (by decide) h))
  · rw [UInt16.toNat_toUInt32, UInt16.toNat_div]
    exact Nat.div_lt_of_lt_mul (hlt.trans (by decide))
  · rw [UInt16.toNat_toUInt32, UInt16.toNat_mod]
    exact Nat.mod_lt _ (by decide)

lemma bounded_telem (telem : TelemetryData) :
    ∃ n, Bounded telemPieces (telemArgs telem) n ∧ n < 200 := by
  have hrpm : telem.rpm.toUInt32.toNat < 10 ^ 5 := telem.rpm.toNat_lt.trans (by decide)
  have hfault : telem.faultCode.toUInt32.toNat < 16 ^ 2 := telem.faultCode.toNat_lt
  have hvalid : 0 ≤ (if telem.valid then (1 : Int32) else 0).toInt ∧
      (if telem.valid then (1 : Int32) else 0).toInt < 10 ^ 1 := by
    cases telem.valid <;> decide
  simp only [telemArgs, List.append_assoc, List.cons_append, List.nil_append]
  exact ⟨_, .plain _ <| .word _ <|
    .plain _ <| bounded_fixed _ (k := 4) (w := 1) (by decide) (by decide) rfl rfl (by decide) <|
    .plain _ <| bounded_hundredths _ <| .plain _ <| bounded_hundredths _ <|
    .plain _ <| bounded_hundredths _ <|
    .plain _ <| bounded_tenths _ <|
    .plain _ <| .unsigned 5 (by decide) hrpm (by decide) <|
    .plain _ <| bounded_tenths _ <|
    .percent <| .plain _ <| .hex 2 (by decide) hfault (by decide) <|
    .plain _ <| .natural 1 (by decide) hvalid.1 hvalid.2 (by decide) <| .plain _ .nil, by decide⟩

lemma telemetryTask_whole (telem : TelemetryData) :
    ∃ s, render telemPieces (telemArgs telem) = .ok s ∧ Whole (telemetryTask telem) 200 s := by
  obtain ⟨n, h, hn⟩ := bounded_telem telem
  have hwhole := h.whole telemPieces_wellFormed (hn.trans (by decide)) 200 hn
  rwa [telemPieces_format] at hwhole

lemma healthMonitorOk_whole (beatCount : Beat → UInt32) (freeHeap : UInt32) :
    ∃ s, render okPieces (okArgs beatCount freeHeap) = .ok s ∧
      Whole (healthMonitorOk beatCount freeHeap) 128 s := by
  have h : Bounded okPieces (okArgs beatCount freeHeap) _ :=
    .plain _ <| .word _ <| .plain _ <| .word _ <| .plain _ <| .word _ <| .plain _ <| .word _ <|
    .plain _ .nil
  have hwhole := h.whole okPieces_wellFormed (by decide) 128 (by decide)
  rwa [okPieces_format] at hwhole

lemma length_missingText (bits : Finset Beat) (beat : Beat) (name : String) :
    (missingText bits beat name).length ≤ name.toList.length := by
  unfold missingText
  split_ifs
  · exact Nat.zero_le _
  · exact Nat.le_refl _

lemma healthMonitorTimeout_whole (warnings : UInt32) (bits : Finset Beat) :
    ∃ s, render timeoutPieces (timeoutArgs warnings bits) = .ok s ∧
      Whole (healthMonitorTimeout warnings bits) 192 s := by
  have hmissing := length_missingText bits
  have h : Bounded timeoutPieces (timeoutArgs warnings bits) _ :=
    .plain _ <| .word _ <| .plain _ <| .text _ (hmissing _ _) (Nat.zero_le _) <|
    .text _ (hmissing _ _) (Nat.zero_le _) <|
    .text _ (hmissing _ _) (Nat.zero_le _) <| .plain _ .nil
  have hwhole := h.whole timeoutPieces_wellFormed (by decide) 192 (by decide)
  rwa [timeoutPieces_format] at hwhole

/-- No line is truncated, whatever the values it prints: that of `prvPrintFrame` has at most 255
characters and goes out complete with its newline, and those of `telemetry_task` and
`health_monitor_task` stand in their buffers whole. -/
theorem lines_whole :
    (∀ (stack : Vector Char 256) (frame : Firmware.TelemetryFrame),
      Console.render Firmware.framePieces (Firmware.frameArgs frame) =
          .ok (Firmware.frameText frame) ∧
        Firmware.prvPrintFrame stack frame = .ok (Firmware.frameText frame) ∧
        (Firmware.frameText frame).length ≤ 255 ∧ ['\n'] <:+ Firmware.frameText frame) ∧
    (∀ telem : TelemetryData, ∃ s, render telemPieces (telemArgs telem) = .ok s ∧
      Whole (telemetryTask telem) 200 s) ∧
    (∀ (beatCount : Beat → UInt32) (freeHeap : UInt32), ∃ s,
      render okPieces (okArgs beatCount freeHeap) = .ok s ∧
        Whole (healthMonitorOk beatCount freeHeap) 128 s) ∧
    ∀ (warnings : UInt32) (bits : Finset Beat), ∃ s,
      render timeoutPieces (timeoutArgs warnings bits) = .ok s ∧
        Whole (healthMonitorTimeout warnings bits) 192 s := by
  refine ⟨?_, telemetryTask_whole, healthMonitorOk_whole, healthMonitorTimeout_whole⟩
  intro stack frame
  exact ⟨Firmware.render_frame frame, Firmware.prvPrintFrame_text stack frame,
    Firmware.length_frameText frame, List.suffix_append _ _⟩

end EcuTelemetry.Formats
