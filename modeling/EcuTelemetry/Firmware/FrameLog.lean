import EcuTelemetry.Core.Pattern
import EcuTelemetry.Firmware.Arithmetic
import EcuTelemetry.Firmware.FrameText
import EcuTelemetry.Firmware.Frames
import Mathlib.Tactic.Linarith

/-!
# Reading the log back

`parse_logs.py` finds the lines of frames with `fw_telem_pat`. For the frames the processor emits
the pattern matches the line that `prvPrintFrame` writes and its captures are the fields, with one
loss: an acceleration between -0.99 and -0.01 is printed without its sign, because the quotient that
carries the sign is zero.
-/

namespace EcuTelemetry.Firmware

open EcuTelemetry.Core Console Pattern

/-! ### `fw_telem_pat` -/

/-- `\d` and `\w` of `re`: fixed on ASCII, and some choice of further characters beyond. -/
structure CharClasses where
  digit : Char → Bool
  word : Char → Bool
  digit_ascii : ∀ c : Char, c.toNat < 128 → digit c = c.isDigit
  word_ascii : ∀ c : Char, c.toNat < 128 → word c = (c.isAlphanum || c == '_')

/-- The classes without a character beyond ASCII. -/
def CharClasses.ascii : CharClasses where
  digit := Char.isDigit
  word c := c.isAlphanum || c == '_'
  digit_ascii _ _ := rfl
  word_ascii _ _ := rfl

variable (classes : CharClasses)

/-- `[\d.]`. -/
def CharClasses.decimal (c : Char) : Bool := classes.digit c || c == '.'

/-- `[-\d.]`. -/
def CharClasses.signed (c : Char) : Bool := c == '-' || classes.digit c || c == '.'

/-- `fw_telem_pat`. -/
def fwTelemPat : List (Pattern.Piece Char) :=
  text "[telemetry] seq=".toList ++ .plus classes.digit ::
    (text " temp=".toList ++ .plus classes.decimal ::
    (text "C ax=".toList ++ .plus classes.signed ::
    (text " ay=".toList ++ .plus classes.signed ::
    (text " az=".toList ++ .plus classes.signed ::
    (text " spd=".toList ++ .plus classes.decimal ::
    (text "km/h rpm=".toList ++ .plus classes.digit ::
    (text " thr=".toList ++ .plus classes.decimal ::
    (text "% valid=".toList ++ .plus classes.word ::
    (text " tick=".toList ++ [.plus classes.digit])))))))))

/-- A line of the log by its captures, the decimals as the rationals they denote. -/
structure Reading where
  sequence : ℕ
  temperature : ℚ
  accelX : ℚ
  accelY : ℚ
  accelZ : ℚ
  speed : ℚ
  rpm : ℕ
  throttle : ℚ
  valid : Bool
  tick : ℕ
  deriving DecidableEq, Repr

/-- The capture of `valid`. -/
def readValid (s : List Char) : Option Bool :=
  if s = "yes".toList then some true else if s = "no".toList then some false else none

/-- The captures of `fw_telem_pat`, read. -/
def readCaptures : List (List Char) → Option Reading
  | [seq, temp, ax, ay, az, spd, rpm, thr, valid, tick] => do
    return {
      sequence := ← Decimal.readNat seq
      temperature := ← Decimal.read temp
      accelX := ← Decimal.read ax
      accelY := ← Decimal.read ay
      accelZ := ← Decimal.read az
      speed := ← Decimal.read spd
      rpm := ← Decimal.readNat rpm
      throttle := ← Decimal.read thr
      valid := ← readValid valid
      tick := ← Decimal.readNat tick }
  | _ => none

/-- What the search for `fw_telem_pat` makes of a line. -/
def readLine (line : List Char) : Option Reading := do
  readCaptures (← Pattern.search (fwTelemPat classes) line)

/-- A reading gives back every field of a frame: times ten or a hundred for the decimals. -/
structure Reading.Gives (r : Reading) (frame : TelemetryFrame) : Prop where
  sequence : r.sequence = frame.sequence.toNat
  temperature : r.temperature * 10 = frame.temperatureCX10.toInt
  accelX : r.accelX * 100 = frame.accelXX100.toInt
  accelY : r.accelY * 100 = frame.accelYX100.toInt
  accelZ : r.accelZ * 100 = frame.accelZX100.toInt
  speed : r.speed * 10 = frame.speedKmhX10.toNat
  rpm : r.rpm = frame.rpm.toNat
  throttle : r.throttle * 10 = frame.throttlePctX10.toNat
  valid : r.valid = frame.valid
  tick : r.tick = frame.tick.toNat

/-- The printed line of a frame is matched and reads back as the frame. -/
def RoundTrips (stack : Vector Char 256) (frame : TelemetryFrame) : Prop :=
  ∃ line r, prvPrintFrame stack frame = .ok line ∧ readLine classes line = some r ∧ r.Gives frame

/-! ### Readings with decimals -/

/-- The readings, over `10 ^ w`, whose quotient is zero and whose sign is not. -/
def SignLost (w : ℕ) (x : Int16) : Prop := -10 ^ w < x.toInt ∧ x.toInt < 0

instance (w : ℕ) (x : Int16) : Decidable (SignLost w x) := inferInstanceAs (Decidable (_ ∧ _))

/-- The number a printed reading denotes. -/
def printedValue (w : ℕ) (x : Int16) : ℚ :=
  if SignLost w x then -x.toInt / 10 ^ w else x.toInt / 10 ^ w

lemma readUnsigned_fixedText (n : ℕ) {w : ℕ} (hw : 0 < w) :
    Decimal.readUnsigned (fixedText w (n / 10 ^ w) (n % 10 ^ w)) = some ((n : ℚ) / 10 ^ w) := by
  have hpos : 0 < 10 ^ w := Nat.pow_pos (by decide)
  have hsum := Decimal.whole_add_frac n hpos
  rw [Nat.cast_pow, Nat.cast_ofNat] at hsum
  rw [fixedText, Decimal.readUnsigned_fixed _ hw (Nat.mod_lt n hpos), hsum]

lemma read_fixedText (n : ℕ) {w : ℕ} (hw : 0 < w) :
    Decimal.read (fixedText w (n / 10 ^ w) (n % 10 ^ w)) = some ((n : ℚ) / 10 ^ w) := by
  rw [← readUnsigned_fixedText n hw, fixedText]
  exact Decimal.read_of_digits Nat.toDigits_ne_nil fun c hc => Decimal.isDigit_of_mem_toDigits hc

/-- A printed reading denotes the reading, but for a lost sign. -/
lemma read_readingText {w : ℕ} (hw : 0 < w) (x : Int16) :
    Decimal.read (readingText w x) = some (printedValue w x) := by
  have hpow : (0 : ℤ) < 10 ^ w := by positivity
  by_cases hsign : x.toInt ≤ -10 ^ w
  · have hkept : ¬ SignLost w x := fun h => absurd h.1 (by omega)
    rw [readingText, if_pos hsign, List.singleton_append, Decimal.read_neg,
      readUnsigned_fixedText _ hw, printedValue, if_neg hkept, Nat.cast_natAbs,
      abs_of_nonpos (by omega), Option.map_some, Int.cast_neg, neg_div, neg_neg]
  · rw [readingText, if_neg hsign, List.nil_append, read_fixedText _ hw, printedValue,
      Nat.cast_natAbs]
    by_cases hlost : SignLost w x
    · rw [if_pos hlost, abs_of_neg hlost.2, Int.cast_neg]
    · have hnonneg : ¬ x.toInt < 0 := fun h => hlost ⟨by omega, h⟩
      rw [if_neg hlost, abs_of_nonneg (Int.not_lt.mp hnonneg)]

lemma read_tenthsText (x : UInt16) : Decimal.read (tenthsText x) = some ((x.toNat : ℚ) / 10) := by
  have h := read_fixedText x.toNat (show 0 < 1 by decide)
  rwa [pow_one, pow_one] at h

/-! ### The captures -/

/-- What the line of a frame reads back as. -/
def printedReading (frame : TelemetryFrame) : Reading where
  sequence := frame.sequence.toNat
  temperature := printedValue 1 frame.temperatureCX10
  accelX := printedValue 2 frame.accelXX100
  accelY := printedValue 2 frame.accelYX100
  accelZ := printedValue 2 frame.accelZX100
  speed := frame.speedKmhX10.toNat / 10
  rpm := frame.rpm.toNat
  throttle := frame.throttlePctX10.toNat / 10
  valid := frame.valid
  tick := frame.tick.toNat

/-- The fields of a line, as text. -/
def frameCaptures (frame : TelemetryFrame) : List (List Char) :=
  [ Nat.toDigits 10 frame.sequence.toNat, readingText 1 frame.temperatureCX10,
    readingText 2 frame.accelXX100, readingText 2 frame.accelYX100, readingText 2 frame.accelZX100,
    tenthsText frame.speedKmhX10, Nat.toDigits 10 frame.rpm.toNat, tenthsText frame.throttlePctX10,
    validText frame.valid, Nat.toDigits 10 frame.tick.toNat ]

lemma readValid_validText (valid : Bool) : readValid (validText valid) = some valid := by
  cases valid <;> rfl

lemma readCaptures_frame (frame : TelemetryFrame) :
    readCaptures (frameCaptures frame) = some (printedReading frame) := by
  simp only [readCaptures, frameCaptures, Decimal.readNat_toDigits, read_tenthsText,
    read_readingText (show 0 < 1 by decide), read_readingText (show 0 < 2 by decide),
    readValid_validText, Option.pure_def, Option.bind_eq_bind, Option.bind_some]
  rfl

lemma digit_of_isDigit {c : Char} (h : c.isDigit) : classes.digit c = true := by
  rw [classes.digit_ascii, h]
  simp only [Char.isDigit, Bool.and_eq_true, decide_eq_true_eq, UInt32.le_iff_toNat_le] at h
  exact Nat.lt_of_le_of_lt h.2 (by decide)

lemma digit_of_mem_toDigits {c : Char} {n : ℕ} (h : c ∈ Nat.toDigits 10 n) :
    classes.digit c = true :=
  digit_of_isDigit classes (Decimal.isDigit_of_mem_toDigits h)

lemma decimal_of_mem_fixedText {w whole frac : ℕ} {c : Char} (h : c ∈ fixedText w whole frac) :
    classes.decimal c = true := by
  have hdigit : c.isDigit → classes.decimal c = true := fun h => by
    rw [CharClasses.decimal, digit_of_isDigit classes h, Bool.true_or]
  rcases List.mem_append.mp h with h | h
  · exact hdigit (Decimal.isDigit_of_mem_toDigits h)
  · rcases List.mem_cons.mp h with rfl | h
    · rw [CharClasses.decimal, beq_self_eq_true, Bool.or_true]
    · exact hdigit (Decimal.isDigit_of_mem_leftpad h)

lemma signed_of_mem_readingText {w : ℕ} {x : Int16} {c : Char} (h : c ∈ readingText w x) :
    classes.signed c = true := by
  rcases List.mem_append.mp h with h | h
  · split at h
    · obtain rfl := List.mem_singleton.mp h
      rfl
    · exact absurd h List.not_mem_nil
  · have hdecimal := decimal_of_mem_fixedText classes h
    rw [CharClasses.signed, Bool.or_assoc]
    exact (congrArg _ hdecimal).trans (Bool.or_true _)

/-- A reading that is not negative has no sign to match. -/
lemma decimal_of_mem_readingText {w : ℕ} {x : Int16} {c : Char} (hx : 0 ≤ x.toInt)
    (h : c ∈ readingText w x) : classes.decimal c = true := by
  have hpow : (0 : ℤ) < 10 ^ w := by positivity
  rw [readingText, if_neg (by omega), List.nil_append] at h
  exact decimal_of_mem_fixedText classes h

lemma word_of_mem_validText {valid : Bool} {c : Char} (h : c ∈ validText valid) :
    classes.word c = true := by
  have hletters : (validText valid).all
      (fun a => a.toNat < 128 ∧ (a.isAlphanum || a == '_') = true) := by
    cases valid <;> decide
  obtain ⟨hascii, hword⟩ := of_decide_eq_true (List.all_eq_true.mp hletters c h)
  rw [classes.word_ascii c hascii, hword]

lemma fixedText_ne_nil (w whole frac : ℕ) : fixedText w whole frac ≠ [] := by
  simp [fixedText]

lemma readingText_ne_nil (w : ℕ) (x : Int16) : readingText w x ≠ [] := by
  simp [readingText, fixedText_ne_nil]

/-! ### The match -/

/-- The line without its newline. -/
def frameLine (frame : TelemetryFrame) : List Char :=
  "[telemetry] seq=".toList ++ (Nat.toDigits 10 frame.sequence.toNat ++
    (" temp=".toList ++ (readingText 1 frame.temperatureCX10 ++
    ("C ax=".toList ++ (readingText 2 frame.accelXX100 ++
    (" ay=".toList ++ (readingText 2 frame.accelYX100 ++
    (" az=".toList ++ (readingText 2 frame.accelZX100 ++
    (" spd=".toList ++ (tenthsText frame.speedKmhX10 ++
    ("km/h rpm=".toList ++ (Nat.toDigits 10 frame.rpm.toNat ++
    (" thr=".toList ++ (tenthsText frame.throttlePctX10 ++
    ("% valid=".toList ++ (validText frame.valid ++
    (" tick=".toList ++ (Nat.toDigits 10 frame.tick.toNat ++ [])))))))))))))))))))

lemma frameText_eq (frame : TelemetryFrame) : frameText frame = frameLine frame ++ "\n".toList := by
  have hpercent : ∀ s : List Char, "%".toList ++ (" valid=".toList ++ s) = "% valid=".toList ++ s :=
    fun s => rfl
  unfold frameText frameLine
  simp only [List.append_assoc, List.nil_append, hpercent]

/-- The line is the pattern with the captures filled in. -/
lemma spells_frameLine {frame : TelemetryFrame} (htemp : 0 ≤ frame.temperatureCX10.toInt) :
    Spells (fwTelemPat classes) (frameCaptures frame) (frameLine frame) := by
  have hdigits : ∀ n, ∀ c ∈ Nat.toDigits 10 n, classes.digit c :=
    fun n c hc => digit_of_mem_toDigits classes hc
  have htenths : ∀ x, ∀ c ∈ tenthsText x, classes.decimal c :=
    fun x c hc => decimal_of_mem_fixedText classes hc
  have hsigned : ∀ x, ∀ c ∈ readingText 2 x, classes.signed c :=
    fun x c hc => signed_of_mem_readingText classes hc
  have hvalid : validText frame.valid ≠ [] := by cases frame.valid <;> simp [validText]
  apply Spells.text_append
  apply Spells.plus Nat.toDigits_ne_nil (hdigits _)
  apply Spells.text_append
  apply Spells.plus (readingText_ne_nil _ _) fun c hc => decimal_of_mem_readingText classes htemp hc
  apply Spells.text_append
  apply Spells.plus (readingText_ne_nil _ _) (hsigned _)
  apply Spells.text_append
  apply Spells.plus (readingText_ne_nil _ _) (hsigned _)
  apply Spells.text_append
  apply Spells.plus (readingText_ne_nil _ _) (hsigned _)
  apply Spells.text_append
  apply Spells.plus (fixedText_ne_nil _ _ _) (htenths _)
  apply Spells.text_append
  apply Spells.plus Nat.toDigits_ne_nil (hdigits _)
  apply Spells.text_append
  apply Spells.plus (fixedText_ne_nil _ _ _) (htenths _)
  apply Spells.text_append
  apply Spells.plus hvalid fun c hc => word_of_mem_validText classes hc
  apply Spells.text_append
  exact Spells.plus Nat.toDigits_ne_nil (hdigits _) .nil

/-- Every repetition of the pattern is cut off by the character that follows it. -/
lemma delimited_fwTelemPat : Delimited (fwTelemPat classes) "\n".toList := by
  have hdigit : ∀ c : Char, c.toNat < 128 → c.isDigit = false → classes.digit c = false :=
    fun c h hc => (classes.digit_ascii c h).trans hc
  have hspace : classes.digit ' ' = false := hdigit ' ' (by decide) (by decide)
  have hsigned : classes.signed ' ' = false := by simp [CharClasses.signed, hspace]
  have hdecimal : ∀ c : Char, c.toNat < 128 → c.isDigit = false → c ≠ '.' →
      classes.decimal c = false := by
    intro c h hc hpoint
    simp [CharClasses.decimal, hdigit c h hc, hpoint]
  have hword : classes.word ' ' = false := classes.word_ascii ' ' (by decide)
  have hend : Stops classes.digit "\n".toList := by
    rintro c hc
    obtain rfl : '\n' = c := Option.some.inj hc
    exact hdigit '\n' (by decide) (by decide)
  apply delimited_text
  apply delimited_plus_text rfl hspace
  apply delimited_plus_text rfl (hdecimal 'C' (by decide) (by decide) (by decide))
  apply delimited_plus_text rfl hsigned
  apply delimited_plus_text rfl hsigned
  apply delimited_plus_text rfl hsigned
  apply delimited_plus_text rfl (hdecimal 'k' (by decide) (by decide) (by decide))
  apply delimited_plus_text rfl hspace
  apply delimited_plus_text rfl (hdecimal '%' (by decide) (by decide) (by decide))
  apply delimited_plus_text rfl hword
  exact hend

/-- The line of a frame without a negative temperature is matched and read. -/
lemma readLine_frameText {frame : TelemetryFrame} (htemp : 0 ≤ frame.temperatureCX10.toInt) :
    readLine classes (frameText frame) = some (printedReading frame) := by
  have hmatch := matchAt_of_spells (spells_frameLine classes htemp) (delimited_fwTelemPat classes)
  rw [readLine, frameText_eq, search_of_matchAt hmatch]
  exact readCaptures_frame frame

/-! ### The round trip -/

lemma printedValue_eq_iff {w : ℕ} (x : Int16) :
    printedValue w x * 10 ^ w = x.toInt ↔ ¬ SignLost w x := by
  have hpow : (10 : ℚ) ^ w ≠ 0 := by positivity
  unfold printedValue
  by_cases hlost : SignLost w x
  · rw [if_pos hlost, div_mul_cancel₀ _ hpow]
    refine ⟨fun h => ?_, fun h => absurd hlost h⟩
    have hneg : -x.toInt = x.toInt := mod_cast h
    have := hlost.2
    omega
  · rw [if_neg hlost, div_mul_cancel₀ _ hpow]
    exact ⟨fun _ => hlost, fun _ => rfl⟩

/-- Among the readings that keep their sign, `x` is printed like no other. -/
def OwnText (w : ℕ) (x : Int16) : Prop :=
  ∀ y, ¬ SignLost w y → readingText w y = readingText w x → y = x

lemma ownText_of_kept {w : ℕ} (hw : 0 < w) {x : Int16} (hx : ¬ SignLost w x) : OwnText w x := by
  intro y hy htext
  have hread := congrArg Decimal.read htext
  rw [read_readingText hw, read_readingText hw] at hread
  have hvalue := congrArg (· * (10 : ℚ) ^ w) (Option.some.inj hread)
  simp only [(printedValue_eq_iff y).mpr hy, (printedValue_eq_iff x).mpr hx] at hvalue
  exact Int16.toInt_inj.mp (mod_cast hvalue)

lemma tenthsText_injective {x y : UInt16} (h : tenthsText x = tenthsText y) : x = y := by
  have hread := congrArg Decimal.read h
  rw [read_tenthsText, read_tenthsText] at hread
  have hvalue := (div_left_inj' (by norm_num)).mp (Option.some.inj hread)
  exact UInt16.toNat_inj.mp (mod_cast hvalue)

/-- Every reading with decimals of a frame has a text of its own. -/
structure OwnTexts (frame : TelemetryFrame) : Prop where
  temperature : OwnText 1 frame.temperatureCX10
  accelX : OwnText 2 frame.accelXX100
  accelY : OwnText 2 frame.accelYX100
  accelZ : OwnText 2 frame.accelZX100
  speed : ∀ y, tenthsText y = tenthsText frame.speedKmhX10 → y = frame.speedKmhX10
  throttle : ∀ y, tenthsText y = tenthsText frame.throttlePctX10 → y = frame.throttlePctX10

/-- Without a negative temperature, the lost signs are all that can go wrong. -/
lemma roundTrips_iff (stack : Vector Char 256) {frame : TelemetryFrame}
    (htemp : 0 ≤ frame.temperatureCX10.toInt) :
    RoundTrips classes stack frame ↔
      ¬ SignLost 2 frame.accelXX100 ∧ ¬ SignLost 2 frame.accelYX100 ∧
        ¬ SignLost 2 frame.accelZX100 := by
  have hread := readLine_frameText classes htemp
  have hhundred : (10 : ℚ) ^ 2 = 100 := by norm_num
  have hiff : ∀ x, printedValue 2 x * 100 = x.toInt ↔ ¬ SignLost 2 x := by
    intro x
    rw [← hhundred]
    exact printedValue_eq_iff x
  constructor
  · rintro ⟨line, r, hline, hr, hgives⟩
    rw [prvPrintFrame_text] at hline
    obtain rfl := Except.ok.inj hline
    obtain rfl := Option.some.inj (hread.symm.trans hr)
    exact ⟨(hiff _).mp hgives.accelX, (hiff _).mp hgives.accelY, (hiff _).mp hgives.accelZ⟩
  · rintro ⟨hx, hy, hz⟩
    have hkept : ¬ SignLost 1 frame.temperatureCX10 := fun h => absurd h.2 (Int.not_lt.mpr htemp)
    refine ⟨frameText frame, printedReading frame, prvPrintFrame_text stack frame, hread, ?_⟩
    refine
      { sequence := rfl
        temperature := ?_
        accelX := (hiff _).mpr hx
        accelY := (hiff _).mpr hy
        accelZ := (hiff _).mpr hz
        speed := div_mul_cancel₀ _ (by norm_num)
        rpm := rfl
        throttle := div_mul_cancel₀ _ (by norm_num)
        valid := rfl
        tick := rfl }
    have htenths := (printedValue_eq_iff (w := 1) frame.temperatureCX10).mpr hkept
    rwa [pow_one] at htenths

/-! ### The frames the processor emits -/

/-- The frame of a sample made at tick `sampled` in fault mode `mode`, processed at `processed`. -/
def emittedFrame (seq : UInt32) (mode : FaultMode) (sampled processed : UInt32) : TelemetryFrame :=
  prvProcessSample (prvMakeSample seq mode sampled) processed

lemma emittedFrame_nonneg (seq : UInt32) (mode : FaultMode) (sampled processed : UInt32) :
    0 ≤ (emittedFrame seq mode sampled processed).temperatureCX10.toInt ∧
      0 ≤ (emittedFrame seq mode sampled processed).accelZX100.toInt := by
  show 0 ≤ (prvMakeSample seq mode sampled).temperatureCX10.toInt ∧
    0 ≤ (prvMakeSample seq mode sampled).accelZX100.toInt
  by_cases hmode : mode = .sensor
  · rw [prvMakeSample, if_pos hmode]
    exact ⟨show 0 ≤ (1550 : Int16).toInt by decide, show 0 ≤ (420 : Int16).toInt by decide⟩
  · rw [prvMakeSample, if_neg hmode]
    have hnominal := nominalSample_nominal seq sampled
    have htemp := hnominal.temperature
    have haccelZ := hnominal.accelZ
    exact ⟨by omega, by omega⟩

/-- In every run of the firmware, the lines of the frames printed are matched and read. -/
theorem printed_lines_read (stack : Vector Char 256) (acts : List Action) :
    ∀ frame ∈ printedFrames acts, ∃ line,
      prvPrintFrame stack frame = .ok line ∧
        readLine classes line = some (printedReading frame) := by
  intro frame hframe
  obtain ⟨g, hg, rfl⟩ := List.mem_map.mp hframe
  obtain ⟨mode, tick, tick', hval⟩ := printed_made acts g hg
  refine ⟨frameText g.val, prvPrintFrame_text stack g.val, readLine_frameText classes ?_⟩
  rw [hval]
  exact (emittedFrame_nonneg _ mode tick tick').1

lemma emittedFrame_sequence (seq : UInt32) (mode : FaultMode) (sampled processed : UInt32) :
    (emittedFrame seq mode sampled processed).sequence = seq :=
  prvMakeSample_sequence seq mode sampled

lemma emittedFrame_valid (seq : UInt32) (mode : FaultMode) (sampled processed : UInt32) :
    (emittedFrame seq mode sampled processed).valid = decide (mode ≠ .sensor) := by
  cases mode <;> rfl

/-- Number, validity and tick settle everything else in a frame. -/
lemma emittedFrame_ext {seq : UInt32} {mode mode' : FaultMode} {sampled sampled' processed : UInt32}
    (h : decide (mode ≠ .sensor) = decide (mode' ≠ .sensor)) :
    emittedFrame seq mode sampled processed = emittedFrame seq mode' sampled' processed := by
  have hiff := decide_eq_decide.mp h
  by_cases hmode : mode = .sensor
  · have hmode' : mode' = .sensor := not_not.mp fun hne => hiff.mpr hne hmode
    rw [hmode, hmode']
    rfl
  · rw [emittedFrame, emittedFrame, prvMakeSample, prvMakeSample, if_neg hmode,
      if_neg (hiff.mp hmode)]
    rfl

/-- Two frames with one line are one frame. -/
lemma emittedFrame_text_injective {seq seq' : UInt32} {mode mode' : FaultMode}
    {sampled sampled' processed processed' : UInt32}
    (h : frameText (emittedFrame seq mode sampled processed) =
      frameText (emittedFrame seq' mode' sampled' processed')) :
    emittedFrame seq mode sampled processed = emittedFrame seq' mode' sampled' processed' := by
  have hread := congrArg (readLine .ascii) h
  rw [readLine_frameText _ (emittedFrame_nonneg _ _ _ _).1,
    readLine_frameText _ (emittedFrame_nonneg _ _ _ _).1] at hread
  have hreading := Option.some.inj hread
  have hseq := UInt32.toNat_inj.mp (congrArg Reading.sequence hreading)
  rw [emittedFrame_sequence, emittedFrame_sequence] at hseq
  obtain rfl := hseq
  obtain rfl : processed = processed' := UInt32.toNat_inj.mp (congrArg Reading.tick hreading)
  have hvalid := congrArg Reading.valid hreading
  refine emittedFrame_ext ?_
  rw [← emittedFrame_valid seq mode sampled processed,
    ← emittedFrame_valid seq mode' sampled' processed]
  exact hvalid

/-- A frame is printed, matched and read back exactly when neither horizontal acceleration lies
between -0.99 and -0.01. Then its readings are printed like no others that keep their signs. The
lines of different frames differ in any case. -/
theorem frame_text_round_trip (stack : Vector Char 256) (seq : UInt32) (mode : FaultMode)
    (sampled processed : UInt32) :
    (RoundTrips classes stack (emittedFrame seq mode sampled processed) ∧
      OwnTexts (emittedFrame seq mode sampled processed) ∧
      ∀ seq' mode' sampled' processed',
        prvPrintFrame stack (emittedFrame seq mode sampled processed) =
            prvPrintFrame stack (emittedFrame seq' mode' sampled' processed') ↔
          emittedFrame seq mode sampled processed =
            emittedFrame seq' mode' sampled' processed') ↔
      ¬ SignLost 2 (emittedFrame seq mode sampled processed).accelXX100 ∧
        ¬ SignLost 2 (emittedFrame seq mode sampled processed).accelYX100 := by
  obtain ⟨htemp, haz⟩ := emittedFrame_nonneg seq mode sampled processed
  have hz : ¬ SignLost 2 (emittedFrame seq mode sampled processed).accelZX100 :=
    fun h => absurd h.2 (Int.not_lt.mpr haz)
  rw [roundTrips_iff classes stack htemp]
  constructor
  · rintro ⟨⟨hx, hy, -⟩, -⟩
    exact ⟨hx, hy⟩
  · rintro ⟨hx, hy⟩
    have ht : ¬ SignLost 1 (emittedFrame seq mode sampled processed).temperatureCX10 :=
      fun h => absurd h.2 (Int.not_lt.mpr htemp)
    refine ⟨⟨hx, hy, hz⟩, ?_, ?_⟩
    · exact
        { temperature := ownText_of_kept (by decide) ht
          accelX := ownText_of_kept (by decide) hx
          accelY := ownText_of_kept (by decide) hy
          accelZ := ownText_of_kept (by decide) hz
          speed := fun _ => tenthsText_injective
          throttle := fun _ => tenthsText_injective }
    intro seq' mode' sampled' processed'
    refine ⟨fun h => ?_, fun h => by rw [h]⟩
    rw [prvPrintFrame_text, prvPrintFrame_text] at h
    exact emittedFrame_text_injective (Except.ok.inj h)

/-- The first frame of a run: an x acceleration of -0.07 is printed as 0.07. -/
theorem firstFrame_sign_lost :
    prvPrintFrame (Vector.replicate 256 nul) (emittedFrame 1 .none 100 101) =
        .ok ("[telemetry] seq=1 temp=63.6C ax=0.07 ay=0.04 az=1.19 spd=8.6km/h rpm=1147 " ++
          "thr=14.1% valid=yes tick=101\n").toList ∧
      (emittedFrame 1 .none 100 101).accelXX100 = -7 ∧
      ¬ RoundTrips .ascii (Vector.replicate 256 nul) (emittedFrame 1 .none 100 101) := by
  refine ⟨?_, by decide, ?_⟩
  · rw [prvPrintFrame_text]
    exact congrArg Except.ok (by decide +kernel)
  · rw [roundTrips_iff .ascii _ (emittedFrame_nonneg 1 .none 100 101).1]
    rintro ⟨hx, -, -⟩
    exact hx (by decide)

end EcuTelemetry.Firmware
