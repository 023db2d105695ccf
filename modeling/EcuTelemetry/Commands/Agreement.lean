import EcuTelemetry.Firmware.Tasks
import EcuTelemetry.Host.Command
import EcuTelemetry.Host.Threads

/-!
# The two command lines

The host's command loop and the firmware's dispatcher are fed the same lines. `Agreeing` says line
by line when the fault modes stay in correspondence: the two know different words for a stalled
processor, take different views of an unknown fault, of `reset` and of a carriage return at the end.
-/

namespace EcuTelemetry.Commands

open EcuTelemetry.Core

/-! ### Command lines -/

/-- A line of text as a user types it, which both platforms can hold. -/
structure CommandLine where
  text : List Char
  length_le : text.length ≤ 31
  noNul : '\x00' ∉ text
  noNewline : '\n' ∉ text

/-- The host reads the line with its newline. -/
def CommandLine.host (line : CommandLine) : Host.Command := Host.mainCommand (line.text ++ ['\n'])

/-- The firmware gets the line as it is. -/
def CommandLine.firmware (line : CommandLine) : Firmware.Command :=
  Firmware.prvHandleCommand line.text

/-- The host after some lines. -/
def hostAfter (sim : Host.EcuSim) (lines : List CommandLine) : Host.EcuSim :=
  Host.mainLoop sim (lines.map fun line => line.text ++ ['\n'])

/-- The call a command makes on the statistics of the firmware; the other commands only print. -/
def firmwareExecute (stats : Firmware.AppStats) : Firmware.Command → Firmware.AppStats
  | .reset      => .zero
  | .fault mode => Firmware.prvSetFault stats mode
  | _           => stats

/-- The statistics of the firmware after some lines. -/
def firmwareAfter (stats : Firmware.AppStats) (lines : List CommandLine) : Firmware.AppStats :=
  lines.foldl (fun stats line => firmwareExecute stats line.firmware) stats

/-- The host's name for a fault mode of the firmware. -/
def hostMode : Firmware.FaultMode → Host.FaultMode
  | .none     => .none
  | .overflow => .queueOverflow
  | .sensor   => .sensorFailure
  | .stall    => .processStall

/-! ### The calls are those of the machines -/

/-- A command line given to an otherwise idle firmware. -/
lemma firmware_run_command {w : Firmware.World} (h : w.diagnostics = .idle) (line : List Char) :
    (Firmware.firmware.run w
      (.command line :: List.replicate 4 .diagnostics)).stats =
        firmwareExecute w.stats (Firmware.prvHandleCommand line) := by
  rcases w with ⟨stats, sequence, made, kick, queue, out, dog, sensor, processor, logger, diag⟩
  obtain rfl : diag = .idle := h
  simp only [Firmware.firmware, Machine.run_cons, Machine.next, Firmware.World.step]
  cases Firmware.prvHandleCommand line <;> rfl

/-- `ecu_reset` in an otherwise idle host. -/
lemma host_run_reset {w : Host.World} (h : w.main = .idle) :
    (Host.host.run w [.reset, .main, .main, .main]).sim = Host.ecuReset w.sim := by
  rcases w with ⟨sim, made, sensor, processor, logger, watchdog, main⟩
  obtain rfl : main = .idle := h
  rfl

/-! ### Letters -/

/-- What holds at the 26 codes holds of every capital letter. -/
lemma forall_upper {P : Char → Prop} (h : ∀ n, n ≤ 90 → 65 ≤ n → P (Char.ofNat n)) {c : Char}
    (hc : 'A' ≤ c ∧ c ≤ 'Z') : P c := by
  have hle : c.toNat ≤ 90 := hc.2
  have hge : 65 ≤ c.toNat := hc.1
  have hcode := h c.toNat hle hge
  rwa [Char.ofNat_toNat] at hcode

/-- The two platforms lower letters alike. -/
lemma lowerLetter_eq_toLower (c : Char) : Firmware.lowerLetter c = c.toLower := by
  by_cases h : 'A' ≤ c ∧ c ≤ 'Z'
  · exact @forall_upper (fun c => Firmware.lowerLetter c = c.toLower) (by decide) c h
  · have hval : ¬ (c.val ≥ 'A'.val ∧ c.val ≤ 'Z'.val) := h
    have hlower : c.toLower = c := dif_neg hval
    rw [Firmware.lowerLetter, if_neg h, hlower]

lemma map_lowerLetter (text : List Char) :
    text.map Firmware.lowerLetter = text.map Char.toLower :=
  List.map_congr_left fun c _ => lowerLetter_eq_toLower c

/-! ### What a line does to the fault mode -/

/-- The fault mode of the host after a command. -/
def hostEffect (mode : Host.FaultMode) : Host.Command → Host.FaultMode
  | .fault mode' => mode'
  | _            => mode

/-- The fault mode of the firmware after a command. -/
def firmwareEffect (mode : Firmware.FaultMode) : Firmware.Command → Firmware.FaultMode
  | .reset       => .none
  | .fault mode' => mode'
  | _            => mode

lemma execute_effect (sim : Host.EcuSim) (command : Host.Command) :
    (Host.execute sim command).faultMode = hostEffect sim.faultMode command := by
  cases command <;> rfl

lemma firmwareExecute_effect (stats : Firmware.AppStats) (command : Firmware.Command) :
    (firmwareExecute stats command).faultMode = firmwareEffect stats.faultMode command := by
  cases command <;> rfl

/-- On the host, lines that begin with `fault ` set a mode, and no others. -/
lemma hostEffect_dispatch (mode : Host.FaultMode) (text : List Char) :
    hostEffect mode (Host.dispatch text) =
      if text.take 6 = "fault ".toList then Host.parseFault (text.drop 6) else mode := by
  by_cases hf : text.take 6 = "fault ".toList
  · have htext : text = "fault ".toList ++ text.drop 6 := by rw [← hf, List.take_append_drop]
    rw [if_pos hf, htext, Host.dispatch_fault]
    rfl
  · simp only [if_neg hf, Host.dispatch, apply_ite (hostEffect mode)]
    simp only [hostEffect, ite_self]

/-- The lines that the firmware acts on, once their letters are lowered. -/
def firmwareWords : List (List Char) :=
  ["reset".toList, "fault none".toList, "fault overflow".toList, "fault sensor".toList,
    "fault stall".toList]

/-- The firmware ignores all other lines. -/
lemma firmwareEffect_other (mode : Firmware.FaultMode) {text : List Char}
    (h : text.map Firmware.lowerLetter ∉ firmwareWords) :
    firmwareEffect mode (Firmware.prvHandleCommand text) = mode := by
  simp only [firmwareWords, List.mem_cons, List.not_mem_nil, or_false, not_or] at h
  obtain ⟨hreset, hnone, hoverflow, hsensor, hstall⟩ := h
  simp only [Firmware.prvHandleCommand, if_neg hreset, if_neg hnone, if_neg hoverflow,
    if_neg hsensor, if_neg hstall, apply_ite (firmwareEffect mode)]
  simp only [firmwareEffect, ite_self]

/-! ### Lines on which the platforms agree -/

/-- The line as the host compares it. -/
def CommandLine.lowered (line : CommandLine) : List Char :=
  Host.lowercase (Host.trimNewline (line.text ++ ['\n']))

/-- In common fault mode `mode`, the line leaves the two platforms in a common fault mode. -/
def Agreeing (mode : Firmware.FaultMode) (line : CommandLine) : Prop :=
  if line.text.getLast? = some '\r' then
    -- the host drops the carriage return, the firmware takes it as part of an unknown word
    (line.lowered = "fault overflow".toList → mode = .overflow) ∧
    (line.lowered = "fault sensor".toList → mode = .sensor) ∧
    (line.lowered = "fault process".toList → mode = .stall) ∧
    (line.lowered.take 6 = "fault ".toList →
      line.lowered.drop 6 ∉ ["overflow".toList, "sensor".toList, "process".toList] → mode = .none)
  else
    line.lowered ≠ "fault stall".toList ∧
    (line.lowered = "reset".toList → mode = .none) ∧
    (line.lowered = "fault process".toList → mode = .stall) ∧
    (line.lowered.take 6 = "fault ".toList →
      line.lowered.drop 6 ∉ ["none".toList, "overflow".toList, "sensor".toList, "process".toList,
        "stall".toList] → mode = .none)

instance (mode : Firmware.FaultMode) (line : CommandLine) : Decidable (Agreeing mode line) :=
  inferInstanceAs (Decidable (ite _ _ _))

/-- Without a carriage return the platforms compare the same text. -/
lemma lowered_eq {line : CommandLine} (h : line.text.getLast? ≠ some '\r') :
    line.lowered = line.text.map Firmware.lowerLetter := by
  have htrim : Host.trimNewline (line.text ++ ['\n']) = line.text := by
    rw [Host.trimNewline, List.rdropWhile_concat_pos _ _ _ (by decide)]
    apply List.rdropWhile_eq_self_iff.mpr
    intro hne hlast
    rcases of_decide_eq_true hlast with hl | hl
    · exact line.noNewline (hl ▸ List.getLast_mem hne)
    · exact h (by rw [List.getLast?_eq_getLast_of_ne_nil hne, hl])
  rw [CommandLine.lowered, htrim, Host.lowercase, map_lowerLetter]

/-- With a carriage return the firmware knows no line. -/
lemma return_notMem {line : CommandLine} (h : line.text.getLast? = some '\r') :
    line.text.map Firmware.lowerLetter ∉ firmwareWords := by
  intro hmem
  have hlast : (line.text.map Firmware.lowerLetter).getLast? = some '\r' := by
    rw [List.getLast?_map, h]
    decide
  have hall : ∀ word ∈ firmwareWords, word.getLast? ≠ some '\r' := by decide
  exact hall _ hmem hlast

/-- A text that begins with `fault ` is told by the rest. -/
lemma fault_eq_iff {text : List Char} (hf : text.take 6 = "fault ".toList) (word : List Char) :
    text = "fault ".toList ++ word ↔ text.drop 6 = word := by
  constructor
  · rintro rfl
    rfl
  · intro h
    rw [← hf, ← h, List.take_append_drop]

/-- A text that does not begin with `fault ` is no fault command. -/
lemma ne_fault {text : List Char} (hf : text.take 6 ≠ "fault ".toList) (word : List Char) :
    text ≠ "fault ".toList ++ word := by
  rintro rfl
  exact hf rfl

/-- What an unknown fault does on the host, seen from the firmware's modes. -/
lemma parseFault_eq_hostMode_iff (mode : Firmware.FaultMode) (word : List Char) :
    Host.parseFault word = hostMode mode ↔
      (word = "overflow".toList → mode = .overflow) ∧ (word = "sensor".toList → mode = .sensor) ∧
      (word = "process".toList → mode = .stall) ∧
      (word ∉ ["overflow".toList, "sensor".toList, "process".toList] → mode = .none) := by
  by_cases ho : word = "overflow".toList
  · subst ho
    cases mode <;> decide
  by_cases hs : word = "sensor".toList
  · subst hs
    cases mode <;> decide
  by_cases hp : word = "process".toList
  · subst hp
    cases mode <;> decide
  · simp only [Host.parseFault, List.mem_cons, ho, hs, hp, List.not_mem_nil, or_false,
      not_false_eq_true, forall_true_left, false_implies, true_and, if_false]
    cases mode <;> decide

/-- A line keeps two platforms in a common fault mode in a common one exactly if it is
`Agreeing`. -/
theorem effects_agree_iff (mode : Firmware.FaultMode) (line : CommandLine) :
    hostEffect (hostMode mode) line.host = hostMode (firmwareEffect mode line.firmware) ↔
      Agreeing mode line := by
  have hhost : line.host = Host.dispatch line.lowered := rfl
  rw [hhost, hostEffect_dispatch, Agreeing, CommandLine.firmware]
  by_cases hcr : line.text.getLast? = some '\r'
  · rw [if_pos hcr, firmwareEffect_other mode (return_notMem hcr)]
    generalize line.lowered = text
    by_cases hf : text.take 6 = "fault ".toList
    · rw [if_pos hf, parseFault_eq_hostMode_iff, ← fault_eq_iff hf, ← fault_eq_iff hf,
        ← fault_eq_iff hf]
      simp only [hf, forall_true_left]
      exact Iff.rfl
    · rw [if_neg hf]
      refine ⟨fun _ => ⟨?_, ?_, ?_, fun h => absurd h hf⟩, fun _ => rfl⟩
      · exact fun h => absurd h (ne_fault hf "overflow".toList)
      · exact fun h => absurd h (ne_fault hf "sensor".toList)
      · exact fun h => absurd h (ne_fault hf "process".toList)
  · rw [if_neg hcr]
    have hlow := lowered_eq hcr
    by_cases hword : line.text.map Firmware.lowerLetter ∈ firmwareWords
    · -- the words both know, and `reset` and `fault stall`, one by one
      simp only [Firmware.prvHandleCommand, hlow]
      generalize line.text.map Firmware.lowerLetter = text at hword
      simp only [firmwareWords, List.mem_cons, List.not_mem_nil, or_false] at hword
      rcases hword with rfl | rfl | rfl | rfl | rfl <;> cases mode <;> decide
    · rw [firmwareEffect_other mode hword]
      rw [← hlow] at hword
      generalize line.lowered = text at hword
      simp only [firmwareWords, List.mem_cons, List.not_mem_nil, or_false, not_or] at hword
      obtain ⟨hreset, hnone, hoverflow, hsensor, hstall⟩ := hword
      by_cases hf : text.take 6 = "fault ".toList
      · rw [if_pos hf, parseFault_eq_hostMode_iff, ← fault_eq_iff hf "process".toList]
        have hdrop : ∀ word, text ≠ "fault ".toList ++ word → text.drop 6 ≠ word :=
          fun word hne h => hne ((fault_eq_iff hf word).mpr h)
        have hnone' := hdrop "none".toList hnone
        have hoverflow' := hdrop "overflow".toList hoverflow
        have hsensor' := hdrop "sensor".toList hsensor
        have hstall' := hdrop "stall".toList hstall
        simp only [List.mem_cons, List.not_mem_nil, or_false, not_or, hnone', hoverflow', hsensor',
          hstall', hreset, hstall, hf, not_false_eq_true, true_and, false_implies,
          forall_true_left, ne_eq]
        exact Iff.rfl
      · rw [if_neg hf]
        refine ⟨fun _ => ⟨hstall, fun h => absurd h hreset, ?_, fun h => absurd h hf⟩, fun _ => rfl⟩
        exact fun h => absurd h (ne_fault hf "process".toList)

/-! ### Agreement over whole sessions -/

/-- The fault modes of the two platforms correspond. -/
def Corresponds (sim : Host.EcuSim) (stats : Firmware.AppStats) : Prop :=
  sim.faultMode = hostMode stats.faultMode

instance (sim : Host.EcuSim) (stats : Firmware.AppStats) : Decidable (Corresponds sim stats) :=
  inferInstanceAs (Decidable (_ = _))

/-- Every line is `Agreeing` in the mode the firmware has when it arrives. -/
def AgreeingSession (stats : Firmware.AppStats) : List CommandLine → Prop
  | [] => True
  | line :: lines =>
    Agreeing stats.faultMode line ∧ AgreeingSession (firmwareExecute stats line.firmware) lines

instance decidableAgreeingSession : ∀ (stats : Firmware.AppStats) (lines : List CommandLine),
    Decidable (AgreeingSession stats lines)
  | _, [] => isTrue trivial
  | stats, line :: lines =>
    have := decidableAgreeingSession (firmwareExecute stats line.firmware) lines
    inferInstanceAs (Decidable (_ ∧ _))

lemma hostAfter_cons (sim : Host.EcuSim) {line : CommandLine} (h : line.host ≠ .quit)
    (lines : List CommandLine) :
    hostAfter sim (line :: lines) = hostAfter (Host.execute sim line.host) lines := by
  simp only [CommandLine.host] at h
  simp only [hostAfter, List.map_cons, Host.mainLoop, CommandLine.host]

/-- One line given to corresponding platforms. -/
lemma corresponds_execute_iff {sim : Host.EcuSim} {stats : Firmware.AppStats}
    (h : Corresponds sim stats) (line : CommandLine) :
    Corresponds (Host.execute sim line.host) (firmwareExecute stats line.firmware) ↔
      Agreeing stats.faultMode line := by
  rw [Corresponds, execute_effect, firmwareExecute_effect,
    show sim.faultMode = hostMode stats.faultMode from h]
  exact effects_agree_iff _ line

/-- Sessions from corresponding states. -/
lemma session_agrees_iff {sim : Host.EcuSim} {stats : Firmware.AppStats}
    (h : Corresponds sim stats) {lines : List CommandLine}
    (hq : ∀ line ∈ lines, line.host ≠ .quit) :
    (∀ before, before <+: lines → Corresponds (hostAfter sim before) (firmwareAfter stats before)) ↔
      AgreeingSession stats lines := by
  induction lines generalizing sim stats with
  | nil =>
    refine ⟨fun _ => trivial, fun _ before hbefore => ?_⟩
    rw [List.prefix_nil.mp hbefore]
    exact h
  | cons line lines ih =>
    have hline := hq line List.mem_cons_self
    have hlines : ∀ l ∈ lines, l.host ≠ .quit := fun l hl => hq l (List.mem_cons_of_mem line hl)
    constructor
    · intro hall
      have hone := hall [line] (by simp)
      rw [hostAfter_cons sim hline] at hone
      refine ⟨(corresponds_execute_iff h line).mp hone, (ih hone hlines).mp fun before hpre => ?_⟩
      have hcons := hall (line :: before) (List.cons_prefix_cons.mpr ⟨rfl, hpre⟩)
      rwa [hostAfter_cons sim hline] at hcons
    · rintro ⟨hagree, hsession⟩ before hbefore
      have hone := (corresponds_execute_iff h line).mpr hagree
      rcases List.prefix_cons_iff.mp hbefore with rfl | ⟨before, rfl, hpre⟩
      · exact h
      · rw [hostAfter_cons sim hline]
        exact (ih hone hlines).mpr hsession before hpre

/-- For every session without `quit` and `exit`, from the initial states: the fault modes correspond
after every prefix exactly if every line is `Agreeing` in the mode the firmware has when it
arrives. -/
theorem fault_modes_agree_iff (lines : List CommandLine)
    (hq : ∀ line ∈ lines, line.host ≠ .quit) :
    (∀ before, before <+: lines →
        Corresponds (hostAfter Host.ecuCreate before) (firmwareAfter .zero before)) ↔
      AgreeingSession .zero lines :=
  session_agrees_iff (show Corresponds Host.ecuCreate .zero from rfl) hq

/-- A fault, a command that only prints, and the end of the fault. -/
def shortSession : List CommandLine :=
  [⟨"Fault Overflow".toList, by decide, by decide, by decide⟩,
    ⟨"stats".toList, by decide, by decide, by decide⟩,
    ⟨"fault none".toList, by decide, by decide, by decide⟩,
    ⟨"reset".toList, by decide, by decide, by decide⟩]

/-- A session on which the platforms agree. -/
theorem fault_modes_agree_iff_short :
    AgreeingSession .zero shortSession ∧
      Corresponds (hostAfter Host.ecuCreate shortSession) (firmwareAfter .zero shortSession) := by
  have hsession : AgreeingSession .zero shortSession := by decide
  have hagree := (fault_modes_agree_iff shortSession (by decide)).mpr hsession
  exact ⟨hsession, hagree shortSession (List.prefix_refl shortSession)⟩

/-- The firmware's word for a stalled processor. -/
def faultStall : CommandLine := ⟨"fault stall".toList, by decide, by decide, by decide⟩

/-- It separates the two platforms at once. -/
theorem faultStall_disagrees :
    faultStall.host ≠ .quit ∧
      ¬ Corresponds (hostAfter Host.ecuCreate [faultStall]) (firmwareAfter .zero [faultStall]) := by
  decide

end EcuTelemetry.Commands
