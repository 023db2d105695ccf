import EcuTelemetry.Core.LogFile
import EcuTelemetry.Firmware.FrameLog
import EcuTelemetry.Firmware.Output

/-!
# The messages of the tasks

The messages of the processor, the logger and the watchdog are lines of their own: a bracket, the
name of the task, and numbers behind labels. They are written whole, whatever the numbers, and have
no second bracket.
-/

namespace EcuTelemetry.Firmware

open EcuTelemetry.Core Console Pattern LogFile

/-! ### Lines with one bracket -/

/-- The characters within a message. -/
def InMessage (s : List Char) : Prop := ∀ c ∈ s, unbracketed.Has c ∧ c ≠ '\n'

instance (s : List Char) : Decidable (InMessage s) := List.decidableBAll _ s

lemma InMessage.append {s t : List Char} (hs : InMessage s) (ht : InMessage t) :
    InMessage (s ++ t) := List.forall_mem_append.mpr ⟨hs, ht⟩

lemma inMessage_toDigits {base : ℕ} (hlo : 1 < base) (hhi : base ≤ 16) (n : ℕ) :
    InMessage (Nat.toDigits base n) := by
  intro c hc
  refine ⟨has_of_mem_toDigits hlo hhi hc, ?_⟩
  obtain ⟨d, hd, rfl⟩ := Radix.exists_digitChar hlo hc
  have hall : ∀ d < 16, Nat.digitChar d ≠ '\n' := by decide
  exact hall d (Nat.lt_of_lt_of_le hd hhi)

/-- A text of one line that begins with a bracket and has no other. -/
structure IsMessage (s body : List Char) : Prop where
  text : s = '[' :: body ++ ['\n']
  inMessage : InMessage body

namespace IsMessage

variable {s body : List Char}

lemma notMem (h : IsMessage s body) {c : Char} (hc : ¬ unbracketed.Has c) (hbracket : c ≠ '[')
    (hend : c ≠ '\n') : c ∉ s := by
  rw [h.text, List.mem_append, List.mem_cons, not_or, not_or]
  exact ⟨⟨hbracket, fun hmem => hc (h.inMessage _ hmem).1⟩, fun hmem =>
    hend (List.mem_singleton.mp hmem)⟩

lemma nul_notMem (h : IsMessage s body) : nul ∉ s := h.notMem (by decide) (by decide) (by decide)

lemma return_notMem (h : IsMessage s body) : '\r' ∉ s :=
  h.notMem (by decide) (by decide) (by decide)

lemma bracket_notMem (h : IsMessage s body) : '[' ∉ body := fun hc => (h.inMessage _ hc).1.1 rfl

lemma end_notMem (h : IsMessage s body) : '\n' ∉ body := fun hc => (h.inMessage _ hc).2 rfl

/-- As an entry of the log. -/
def entry (h : IsMessage s body) : Entry '[' := .line body h.bracket_notMem h.end_notMem

lemma found_entry (h : IsMessage s body) {β : Type*} (find : List Char → Option β) :
    h.entry.found find = find s := congrArg find h.text.symm

/-- A pattern that begins with the text of another message finds nothing in it. -/
lemma not_found (h : IsMessage s body) {t : List Char} (ht : t.head? = some '[')
    (hpre : ¬ t <+: s) (ps : List (Pattern.Piece Char)) :
    h.entry.found (search (Pattern.text t ++ ps)) = none := by
  rw [h.found_entry, h.text]
  rw [h.text] at hpre
  have hbody : '[' ∉ body ++ ['\n'] := by
    rw [List.mem_append, not_or]
    exact ⟨h.bracket_notMem, by decide⟩
  exact search_other ht hpre hbody ps

end IsMessage

/-! ### Frames -/

lemma inMessage_fixedText (w whole frac : ℕ) : InMessage (fixedText w whole frac) := by
  have hpad : InMessage ((Nat.toDigits 10 frac).leftpad w '0') := by
    rw [List.leftpad]
    refine InMessage.append (fun c hc => ?_) (inMessage_toDigits (by decide) (by decide) _)
    rw [List.eq_of_mem_replicate hc]
    decide
  refine (inMessage_toDigits (by decide) (by decide) _).append ?_
  exact List.forall_mem_cons.mpr ⟨by decide, hpad⟩

lemma inMessage_readingText (w : ℕ) (x : Int16) : InMessage (readingText w x) := by
  refine InMessage.append ?_ (inMessage_fixedText _ _ _)
  split
  · decide
  · exact List.forall_mem_nil _

lemma isMessage_frameText (frame : TelemetryFrame) :
    IsMessage (frameText frame) (frameLine frame).tail := by
  have hdigits (n : ℕ) := @inMessage_toDigits 10 (by decide) (by decide) n
  have hvalid : InMessage (validText frame.valid) := by cases frame.valid <;> decide
  refine ⟨by rw [frameText_eq]; rfl, ?_⟩
  show InMessage ("telemetry] seq=".toList ++ _)
  refine .append (by decide) (.append (hdigits _) (.append (by decide)
    (.append (inMessage_readingText _ _) (.append (by decide)
    (.append (inMessage_readingText _ _) (.append (by decide)
    (.append (inMessage_readingText _ _) (.append (by decide)
    (.append (inMessage_readingText _ _) (.append (by decide)
    (.append (inMessage_fixedText _ _ _) (.append (by decide)
    (.append (hdigits _) (.append (by decide) (.append (inMessage_fixedText _ _ _)
    (.append (by decide) (.append hvalid (.append (by decide)
    (.append (hdigits _) (List.forall_mem_nil _))))))))))))))))))))

/-! ### Labels and numbers -/

/-- A label, and whether the number behind it is in hexadecimals. -/
structure Label where
  text : List Char
  hex : Bool
  deriving DecidableEq

/-- The number behind a label. -/
def Label.digits (label : Label) (value : UInt32) : List Char :=
  Nat.toDigits (if label.hex then 16 else 10) value.toNat

/-- The conversions that a label and its number are printed by. -/
def Label.pieces (label : Label) : List Console.Piece :=
  [.plain label.text, .conv [] true (if label.hex then 'x' else 'u')]

/-- Labels with their numbers. -/
def labelled : List Label → List UInt32 → List Char
  | label :: labels, value :: values =>
    label.text ++ (label.digits value ++ labelled labels values)
  | _, _ => []

/-- The conversions of a message. -/
def messagePieces (labels : List Label) : List Console.Piece :=
  .plain ['['] :: (labels.flatMap Label.pieces ++ [.plain ['\n']])

/-- The format prints the labels, in the room of the buffer. -/
structure Prints (format : List Char) (labels : List Label) : Prop where
  spells : (messagePieces labels).flatMap Console.Piece.format = format
  inMessage : ∀ label ∈ labels, InMessage label.text
  percent_notMem : ∀ label ∈ labels, '%' ∉ label.text
  room : (labels.map (·.text.length + 10)).sum ≤ 253

lemma Label.render_pieces (label : Label) (ps : List Console.Piece) (value : UInt32)
    (args : List Arg) :
    render (label.pieces ++ ps) (.word value :: args) =
      (render ps args).map (fun s => label.text ++ (label.digits value ++ s)) := by
  have hmap (r : Except Undefined (List Char)) (f g : List Char → List Char) :
      (r.map g).map f = r.map (f ∘ g) := by cases r <;> rfl
  have hhex : Nat.toDigits 16 value.toNat = unsignedText value 16 0 false :=
    (leftpad_of_le (Nat.zero_le _) _).symm
  obtain ⟨text, hex⟩ := label
  cases hex with
  | false => exact (congrArg _ (render_unsigned true ps value args)).trans (hmap _ _ _)
  | true =>
    show render (.plain text :: .conv [] true 'x' :: ps) (.word value :: args) =
      (render ps args).map (fun s => text ++ (Nat.toDigits 16 value.toNat ++ s))
    rw [hhex]
    exact hmap (render ps args) (text ++ ·) (unsignedText value 16 0 false ++ ·)

/-- The labels and the end of the line. -/
lemma render_labels {labels : List Label} {values : List UInt32}
    (hlen : labels.length = values.length) :
    render (labels.flatMap Label.pieces ++ [.plain ['\n']]) (values.map .word) =
      .ok (labelled labels values ++ ['\n']) := by
  induction labels generalizing values with
  | nil =>
    obtain rfl := List.length_eq_zero_iff.mp hlen.symm
    rfl
  | cons label labels ih =>
    obtain ⟨value, values, rfl⟩ := List.exists_of_length_succ values hlen.symm
    rw [List.flatMap_cons, List.append_assoc, List.map_cons, Label.render_pieces,
      ih (Nat.succ.inj hlen), labelled]
    simp [Except.map]

lemma length_labelled (labels : List Label) (values : List UInt32) :
    (labelled labels values).length ≤ (labels.map (·.text.length + 10)).sum := by
  induction labels generalizing values with
  | nil => exact Nat.le_refl 0
  | cons label labels ih =>
    cases values with
    | nil => exact Nat.zero_le _
    | cons value values =>
      have hdigits : (label.digits value).length ≤ 10 := by
        refine (Nat.length_toDigits_le_iff ?_ (by decide)).mpr (value.toNat_lt.trans ?_)
        · split <;> decide
        · split <;> decide
      have hrest := ih values
      rw [labelled, List.length_append, List.length_append, List.map_cons, List.sum_cons]
      omega

lemma inMessage_labelled {labels : List Label} (h : ∀ label ∈ labels, InMessage label.text)
    (values : List UInt32) : InMessage (labelled labels values) := by
  induction labels generalizing values with
  | nil => exact List.forall_mem_nil _
  | cons label labels ih =>
    obtain ⟨hlabel, hlabels⟩ := List.forall_mem_cons.mp h
    cases values with
    | nil => exact List.forall_mem_nil _
    | cons value values =>
      refine hlabel.append (InMessage.append ?_ (ih hlabels values))
      refine inMessage_toDigits ?_ ?_ _
      · split <;> decide
      · split <;> decide

/-- The text of a message. -/
def message (labels : List Label) (values : List UInt32) : List Char :=
  '[' :: labelled labels values ++ ['\n']

namespace Prints

variable {format : List Char} {labels : List Label}

lemma isMessage (h : Prints format labels) (values : List UInt32) :
    IsMessage (message labels values) (labelled labels values) :=
  ⟨rfl, inMessage_labelled h.inMessage values⟩

/-- A message is written whole. -/
lemma writes (h : Prints format labels) (values : List UInt32)
    (hlen : labels.length = values.length) :
    Call.Writes ⟨format, values.map .word⟩ (message labels values) := by
  have hwell : ∀ p ∈ messagePieces labels, p.WellFormed := by
    rw [messagePieces, List.forall_mem_cons, List.forall_mem_append]
    refine ⟨by decide, fun p hp => ?_, List.forall_mem_singleton.mpr (by decide)⟩
    obtain ⟨⟨text, hex⟩, hlabel, hp⟩ := List.mem_flatMap.mp hp
    rcases List.mem_cons.mp hp with rfl | hp
    · exact h.percent_notMem _ hlabel
    · obtain rfl := List.mem_singleton.mp hp
      cases hex
      · exact ⟨rfl, show 'u' ∈ "%scudx".toList by decide⟩
      · exact ⟨rfl, show 'x' ∈ "%scudx".toList by decide⟩
  have hrender : render (messagePieces labels) (values.map .word) =
      .ok (message labels values) := by
    rw [messagePieces, render_plain, render_labels hlen]
    rfl
  have hbody := (length_labelled labels values).trans h.room
  have hwhole : (message labels values).length ≤ 255 := by
    rw [message, List.length_append, List.length_cons, List.length_singleton]
    omega
  intro stack
  show consoleWritef stack format (values.map .word) = .ok _
  rw [← h.spells, consoleWritef_pieces hwell hrender (List.cons_ne_nil _ _)
    (h.isMessage values).nul_notMem, List.take_of_length_le hwhole]

end Prints

/-- `stallFormat` behind its bracket. -/
def stallLabels : List Label := [⟨"processor] forced stall at sample ".toList, false⟩]

/-- `healthyFormat` behind its bracket. -/
def healthyLabels : List Label :=
  [ ⟨"watchdog] healthy: sensor=".toList, false⟩, ⟨" processor=".toList, false⟩,
    ⟨" logger=".toList, false⟩ ]

/-- `warningFormat` behind its bracket. -/
def warningLabels : List Label := [⟨"watchdog] warning bits=0x".toList, true⟩]

lemma prints_stall : Prints stallFormat stallLabels :=
  ⟨by decide +kernel, by decide +kernel, by decide +kernel, by decide +kernel⟩

lemma prints_healthy : Prints healthyFormat healthyLabels :=
  ⟨by decide +kernel, by decide +kernel, by decide +kernel, by decide +kernel⟩

lemma prints_warning : Prints warningFormat warningLabels :=
  ⟨by decide +kernel, by decide +kernel, by decide +kernel, by decide +kernel⟩

end EcuTelemetry.Firmware
