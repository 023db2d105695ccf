import EcuTelemetry.Host.Command
import Mathlib.Data.List.DropRight

/-!
# The lines that `main` reads

`main` reads its input with `fgets` into a buffer of 256 bytes, so a line of more than 255
characters reaches the loop in pieces. `main_reads_lines` says that the texts executed are those of
the lines of the stream exactly when no text is longer than that. The stream holds no NUL.
-/

namespace EcuTelemetry.Host

/-! ### Reading -/

/-- `fgets` with room for `n` characters: what it stores, and what it leaves of the stream. It
stores nothing at the end of the stream only. -/
def fgets : ℕ → List Char → List Char × List Char
  | 0, stream          => ([], stream)
  | _ + 1, []          => ([], [])
  | n + 1, c :: stream =>
    if c = '\n' then ([c], stream) else (c :: (fgets n stream).1, (fgets n stream).2)

/-- `fgets` loses nothing. -/
lemma fgets_append (n : ℕ) (stream : List Char) :
    (fgets n stream).1 ++ (fgets n stream).2 = stream := by
  induction n generalizing stream with
  | zero => rfl
  | succ n ih =>
    cases stream with
    | nil => rfl
    | cons c stream =>
      by_cases hc : c = '\n'
      · simp [fgets, hc]
      · simp [fgets, hc, ih]

/-- `fgets` stores no more than there is room for. -/
lemma fgets_length_le (n : ℕ) (stream : List Char) : (fgets n stream).1.length ≤ n := by
  induction n generalizing stream with
  | zero => simp [fgets]
  | succ n ih =>
    cases stream with
    | nil => simp [fgets]
    | cons c stream =>
      by_cases hc : c = '\n'
      · simp [fgets, hc]
      · simpa [fgets, hc] using ih stream

/-- `fgets` stops behind a newline, where the room ends or where the stream does. -/
lemma fgets_cases (n : ℕ) (stream : List Char) :
    (∃ l, '\n' ∉ l ∧ (fgets n stream).1 = l ++ ['\n']) ∨
      '\n' ∉ (fgets n stream).1 ∧
        ((fgets n stream).1.length = n ∨ (fgets n stream).2 = []) := by
  induction n generalizing stream with
  | zero => exact .inr ⟨by simp [fgets], .inl rfl⟩
  | succ n ih =>
    cases stream with
    | nil => exact .inr ⟨by simp [fgets], .inr rfl⟩
    | cons c stream =>
      by_cases hc : c = '\n'
      · exact .inl ⟨[], by simp, by simp [fgets, hc]⟩
      · have hne : ¬ '\n' = c := fun h => hc h.symm
        rcases ih stream with ⟨l, hl, h⟩ | ⟨hl, h⟩
        · exact .inl ⟨c :: l, by simp [hne, hl], by simp [fgets, hc, h]⟩
        · exact .inr ⟨by simp [fgets, hc, hne, hl], by simpa [fgets, hc] using h⟩

/-- The length of the buffer `line` of `main`. -/
def lineSize : ℕ := 256

/-- A call of `fgets` in `main`. -/
def fgetsLine (stream : List Char) : List Char × List Char := fgets (lineSize - 1) stream

lemma fgetsLine_length_lt (c : Char) (stream : List Char) :
    (fgetsLine (c :: stream)).2.length < (c :: stream).length := by
  have h := congrArg List.length (fgets_append (lineSize - 1) (c :: stream))
  have hpos : 0 < (fgetsLine (c :: stream)).1.length := by
    by_cases hc : c = '\n' <;> simp [fgetsLine, lineSize, fgets, hc]
  rw [List.length_append] at h
  exact h ▸ Nat.lt_add_of_pos_left hpos

/-- What the calls of `fgets` in `main` return, up to the end of the stream. -/
def fgetsLines : List Char → List (List Char)
  | []          => []
  | c :: stream => (fgetsLine (c :: stream)).1 :: fgetsLines (fgetsLine (c :: stream)).2
termination_by stream => stream.length
decreasing_by exact fgetsLine_length_lt c stream

/-- No piece is longer than the buffer. -/
lemma length_le_of_mem_fgetsLines {stream line : List Char} (h : line ∈ fgetsLines stream) :
    line.length ≤ lineSize - 1 := by
  induction stream using fgetsLines.induct with
  | case1 => simp [fgetsLines] at h
  | case2 c stream ih =>
    rw [fgetsLines, List.mem_cons] at h
    rcases h with rfl | h
    · exact fgets_length_le _ _
    · exact ih h

/-! ### Executing -/

/-- The text of a line: without its line end, in small letters. -/
def lineText (line : List Char) : List Char := lowercase (trimNewline line)

/-- The text ends the loop of `main`. -/
def Quits (text : List Char) : Prop := text = "quit".toList ∨ text = "exit".toList

instance (text : List Char) : Decidable (Quits text) :=
  inferInstanceAs (Decidable (_ ∨ _))

/-- The texts that `main` executes when `fgets` returns these lines. -/
def mainTexts : List (List Char) → List (List Char)
  | [] => []
  | line :: lines =>
    if lineText line = [] then mainTexts lines
    else if Quits (lineText line) then [lineText line]
    else lineText line :: mainTexts lines

/-- The call that a text makes. -/
def executeText (sim : EcuSim) (text : List Char) : EcuSim := execute sim (dispatch text)

/-- `quit` and `exit` end the loop. -/
lemma dispatch_eq_quit_iff (text : List Char) : dispatch text = .quit ↔ Quits text := by
  rw [dispatch]
  split_ifs with hempty hquit
  · subst hempty
    decide
  · exact iff_of_true rfl hquit
  all_goals exact iff_of_false (by simp) hquit

lemma mainLoop_cons (sim : EcuSim) (line : List Char) (lines : List (List Char)) :
    mainLoop sim (line :: lines) =
      if Quits (lineText line) then sim else mainLoop (executeText sim (lineText line)) lines := by
  have hd := dispatch_eq_quit_iff (lineText line)
  have hc : mainCommand line = dispatch (lineText line) := rfl
  rw [mainLoop, hc, executeText]
  split_ifs with hquit
  · rw [hd.mpr hquit]
  · cases hcmd : dispatch (lineText line) with
    | quit => exact absurd (hd.mp hcmd) hquit
    | _ => rfl

/-- The loop of `main` makes the calls of the texts it executes, in order. -/
lemma mainLoop_eq (sim : EcuSim) (lines : List (List Char)) :
    mainLoop sim lines = (mainTexts lines).foldl executeText sim := by
  induction lines generalizing sim with
  | nil => rfl
  | cons line lines ih =>
    rw [mainLoop_cons, mainTexts]
    split_ifs with hquit hempty hempty
    · simp [hempty, Quits] at hquit
    · rw [List.foldl_cons, List.foldl_nil, executeText, (dispatch_eq_quit_iff _).mpr hquit]
      rfl
    · rw [hempty]
      exact ih sim
    · exact ih _

/-! ### Lines of the stream -/

/-- The texts up to the first one that ends the loop. -/
def upToQuit : List (List Char) → List (List Char)
  | []            => []
  | text :: texts => if Quits text then [text] else text :: upToQuit texts

/-- The texts of the lines of a stream that are not empty, up to the first `quit` or `exit`. -/
def streamTexts (stream : List Char) : List (List Char) :=
  upToQuit (((stream.splitOn '\n').map lineText).filter (· ≠ []))

/-- The loop of `main` skips empty texts and stops at the first that ends it. -/
lemma mainTexts_eq (lines : List (List Char)) :
    mainTexts lines = upToQuit ((lines.map lineText).filter (· ≠ [])) := by
  induction lines with
  | nil => rfl
  | cons line lines ih =>
    by_cases hempty : lineText line = []
    · simp [mainTexts, hempty, ih]
    · by_cases hquit : Quits (lineText line) <;> simp [mainTexts, upToQuit, hempty, hquit, ih]

lemma mainTexts_splitOn (stream : List Char) :
    mainTexts (stream.splitOn '\n') = streamTexts stream := mainTexts_eq _

/-- A text executed is that of a line. -/
lemma exists_of_mem_mainTexts {lines : List (List Char)} {text : List Char}
    (h : text ∈ mainTexts lines) : ∃ line ∈ lines, text = lineText line := by
  induction lines with
  | nil => simp [mainTexts] at h
  | cons line lines ih =>
    rw [mainTexts] at h
    split_ifs at h
    · obtain ⟨l, hl, rfl⟩ := ih h
      exact ⟨l, List.mem_cons_of_mem _ hl, rfl⟩
    · exact ⟨line, List.mem_cons_self, List.mem_singleton.mp h⟩
    · rcases List.mem_cons.mp h with rfl | h
      · exact ⟨line, List.mem_cons_self, rfl⟩
      · obtain ⟨l, hl, rfl⟩ := ih h
        exact ⟨l, List.mem_cons_of_mem _ hl, rfl⟩

/-- The text of the first line is executed, if there is any. -/
lemma lineText_length_le {line : List Char} {lines : List (List Char)} {n : ℕ}
    (h : ∀ text ∈ mainTexts (line :: lines), text.length ≤ n) : (lineText line).length ≤ n := by
  rw [mainTexts] at h
  split_ifs at h with hempty
  · simp [hempty]
  · exact h _ (List.mem_singleton_self _)
  · exact h _ List.mem_cons_self

/-- Lines with the same text may be exchanged. -/
lemma mainTexts_congr {a b : List Char} {as bs : List (List Char)} (hab : lineText a = lineText b)
    (h : ¬ Quits (lineText b) → mainTexts as = mainTexts bs) :
    mainTexts (a :: as) = mainTexts (b :: bs) := by
  have hnil : ¬ Quits [] := by decide
  rw [mainTexts, mainTexts, hab]
  split_ifs with hempty hquit
  · exact h (hempty ▸ hnil)
  · rfl
  · rw [h hquit]

/-- What is executed after the first line is executed. -/
lemma mem_mainTexts_cons {line : List Char} {lines : List (List Char)} {text : List Char}
    (hquit : ¬ Quits (lineText line)) (h : text ∈ mainTexts lines) :
    text ∈ mainTexts (line :: lines) := by
  rw [mainTexts, if_neg hquit]
  split_ifs
  · exact h
  · exact List.mem_cons_of_mem _ h

/-! ### Pieces of lines -/

/-- Line ends that follow do not change the text. -/
lemma lineText_append {a b : List Char} (h : ∀ c ∈ b, c = '\n' ∨ c = '\r') :
    lineText (a ++ b) = lineText a := by
  have hb : ∀ c ∈ b.reverse, decide (c = '\n' ∨ c = '\r') = true := fun c hc =>
    decide_eq_true (h c (List.mem_reverse.mp hc))
  rw [lineText, lineText, trimNewline, trimNewline, List.rdropWhile, List.reverse_append,
    List.dropWhile_append_of_pos hb, List.rdropWhile]

lemma lineText_eq_nil {line : List Char} (h : ∀ c ∈ line, c = '\n' ∨ c = '\r') :
    lineText line = [] :=
  lineText_append (a := []) h

lemma lineText_length_le_length (line : List Char) : (lineText line).length ≤ line.length := by
  rw [lineText, lowercase, List.length_map]
  exact (List.rdropWhile_prefix _ _).length_le

/-- Behind a piece at least as long as the text there are only line ends. -/
lemma lineEnds_of_length_le {a b : List Char} (h : (lineText (a ++ b)).length ≤ a.length) :
    ∀ c ∈ b, c = '\n' ∨ c = '\r' := by
  rw [lineText, lowercase, List.length_map, trimNewline] at h
  set p : Char → Bool := fun c => c = '\n' ∨ c = '\r' with hp
  have hsplit : (a ++ b).rdropWhile p ++ (a ++ b).rtakeWhile p = a ++ b :=
    List.rdropWhile_append_rtakeWhile
  obtain ⟨m, hm⟩ : ∃ m, b = ((a ++ b).rtakeWhile p).drop m := by
    refine ⟨a.length - ((a ++ b).rdropWhile p).length, ?_⟩
    have hdrop := congrArg (List.drop a.length) hsplit
    rw [List.drop_left, List.drop_append, List.drop_of_length_le h, List.nil_append] at hdrop
    exact hdrop.symm
  intro c hc
  rw [hm] at hc
  have hpc := List.mem_rtakeWhile_imp (List.mem_of_mem_drop hc)
  simpa [hp] using hpc

/-- The lines of a stream that starts with a piece of its first line. -/
lemma splitOn_append {a : List Char} (h : '\n' ∉ a) (rest : List Char) :
    ∃ b more, rest.splitOn '\n' = b :: more ∧ (a ++ rest).splitOn '\n' = (a ++ b) :: more := by
  obtain ⟨b, more, hb⟩ := List.exists_cons_of_ne_nil (List.splitOn_ne_nil '\n' rest)
  refine ⟨b, more, hb, ?_⟩
  induction a with
  | nil => exact hb
  | cons c a ih =>
    rw [List.mem_cons, not_or] at h
    rw [List.cons_append, List.splitOn_cons_eq_if_modifyHead, ih h.2]
    simp [Ne.symm h.1]

/-- While no text is longer than the buffer, the pieces that `fgets` returns have the texts of the
lines of the stream. -/
lemma mainTexts_fgetsLines {stream : List Char}
    (h : ∀ text ∈ mainTexts (stream.splitOn '\n'), text.length ≤ lineSize - 1) :
    mainTexts (fgetsLines stream) = mainTexts (stream.splitOn '\n') := by
  induction stream using fgetsLines.induct with
  | case1 => rw [fgetsLines, List.splitOn_nil, mainTexts, mainTexts, if_pos (by rfl), mainTexts]
  | case2 c stream ih =>
    rw [fgetsLines]
    have happ : (fgetsLine (c :: stream)).1 ++ (fgetsLine (c :: stream)).2 = c :: stream :=
      fgets_append _ _
    have hcases := fgets_cases (lineSize - 1) (c :: stream)
    change (∃ l, _ ∧ (fgetsLine (c :: stream)).1 = _) ∨ _ ∉ (fgetsLine (c :: stream)).1 ∧
      ((fgetsLine (c :: stream)).1.length = _ ∨ (fgetsLine (c :: stream)).2 = []) at hcases
    generalize fgetsLine (c :: stream) = r at *
    obtain ⟨line, rest⟩ := r
    simp only at happ hcases ih ⊢
    rw [← happ] at h ⊢
    rcases hcases with ⟨l, hl, rfl⟩ | ⟨hl, hend⟩
    · -- the whole line is read
      rw [List.append_assoc, List.singleton_append,
        List.splitOn_append_cons_self_of_not_mem hl] at h ⊢
      refine mainTexts_congr (lineText_append (by simp)) fun hquit => ih fun text ht => ?_
      exact h text (mem_mainTexts_cons hquit ht)
    · -- a piece is read, and the rest of the line can only be line ends
      obtain ⟨b, more, hrest, hstream⟩ := splitOn_append hl rest
      rw [hrest] at ih
      rw [hstream] at h ⊢
      have hb : ∀ c ∈ b, c = '\n' ∨ c = '\r' := by
        rcases hend with hlen | rfl
        · exact lineEnds_of_length_le (hlen ▸ lineText_length_le h)
        · obtain ⟨rfl, rfl⟩ : [] = b ∧ [] = more := by simpa using hrest
          simp
      have hskip : mainTexts (b :: more) = mainTexts more := by
        rw [mainTexts, if_pos (lineText_eq_nil hb)]
      rw [hskip] at ih
      refine mainTexts_congr (lineText_append hb).symm fun hquit => ih fun text ht => ?_
      exact h text (mem_mainTexts_cons hquit ht)

/-- `main` executes the texts of the lines of the stream, one by one and in order up to the first
`quit` or `exit`, exactly when each of these texts fits into its buffer. -/
theorem main_reads_lines (stream : List Char) :
    (∀ sim, mainLoop sim (fgetsLines stream) =
        (mainTexts (fgetsLines stream)).foldl executeText sim) ∧
      (mainTexts (fgetsLines stream) = streamTexts stream ↔
        ∀ text ∈ streamTexts stream, text.length ≤ lineSize - 1) := by
  refine ⟨fun sim => mainLoop_eq sim _, fun h text htext => ?_, fun h => ?_⟩
  · -- what is executed has been in the buffer
    obtain ⟨line, hline, rfl⟩ := exists_of_mem_mainTexts (h ▸ htext)
    exact Nat.le_trans (lineText_length_le_length line) (length_le_of_mem_fgetsLines hline)
  · rw [← mainTexts_splitOn] at h ⊢
    exact mainTexts_fgetsLines h

/-- One line, of 260 characters. -/
def overlong : List Char := List.replicate 255 'x' ++ "reset\n".toList

/-- The end of the line is executed as a command of its own. -/
theorem overlong_resets :
    '\x00' ∉ overlong ∧ streamTexts overlong = [List.replicate 255 'x' ++ "reset".toList] ∧
      mainTexts (fgetsLines overlong) = [List.replicate 255 'x', "reset".toList] ∧
      mainTexts (fgetsLines overlong) ≠ streamTexts overlong := by
  decide +kernel

end EcuTelemetry.Host
