import EcuTelemetry.Console.Format
import EcuTelemetry.Core.Directive
import EcuTelemetry.Core.Reader

/-!
# How far `console_writef` reads its format

The loop of `console_writef` as a reader of the memory at `fmt`, with every place where it reads
`*fmt`. A format that ends inside a conversion leads the reader over the terminator: the `switch`
takes the NUL for a conversion character and the loop goes on behind it.
-/

namespace EcuTelemetry.Console

open EcuTelemetry.Core Reader Directive

/-- The places where the loop reads `*fmt`, with the locals that are alive there. -/
inductive ScanPc where
  | test
  | flag
  | width (zeroPad : Bool) (width : UInt32)
  | modifier (zeroPad : Bool) (width : UInt32)
  | letter (zeroPad : Bool) (width : UInt32)
  | done
  deriving DecidableEq, Repr

/-- What the loop does: it begins an iteration, appends a plain character, or comes to the `switch`
with a conversion character. -/
inductive Scanned where
  | iteration
  | append (c : Char)
  | convert (zeroPad : Bool) (width : UInt32) (letter : Char)
  deriving DecidableEq, Repr

/-- The loop of `console_writef` on its format. -/
def scanner : Reader ScanPc Char Scanned where
  react
    | .test => some fun c =>
      if c = nul then ⟨.done, false, []⟩
      else if c ≠ '%' then ⟨.test, true, [.iteration, .append c]⟩
      else ⟨.flag, true, [.iteration]⟩
    | .flag => some fun c =>
      if c = '0' then ⟨.width true 0, true, []⟩ else ⟨.width false 0, false, []⟩
    | .width zeroPad width => some fun c =>
      if '0' ≤ c ∧ c ≤ '9' then
        ⟨.width zeroPad (width * 10 + UInt32.ofNat (c.toNat - '0'.toNat)), true, []⟩
      else ⟨.modifier zeroPad width, false, []⟩
    | .modifier zeroPad width => some fun c => ⟨.letter zeroPad width, c = 'l', []⟩
    | .letter zeroPad width   => some fun c => ⟨.test, true, [.convert zeroPad width c]⟩
    | .done                   => none

/-! ### The scan of a conversion -/

lemma reaches_scanWidth (zeroPad : Bool) (width : UInt32) (fmt : List Char) :
    scanner.Reaches (.width zeroPad width) (fmt ++ [nul])
      (.modifier zeroPad (scanWidth width fmt).1) ((scanWidth width fmt).2 ++ [nul]) [] := by
  induction fmt generalizing width with
  | nil =>
    have hnul : ¬ ('0' ≤ nul ∧ nul ≤ '9') := by decide
    apply Reaches.stay_one
    exact congrArg some (if_neg hnul)
  | cons c fmt ih =>
    rw [scanWidth]
    by_cases hc : '0' ≤ c ∧ c ≤ '9'
    · rw [if_pos hc]
      have hone : scanner.Reaches (.width zeroPad width) (c :: (fmt ++ [nul]))
          (.width zeroPad (width * 10 + UInt32.ofNat (c.toNat - '0'.toNat))) (fmt ++ [nul]) [] := by
        apply Reaches.move_one
        exact congrArg some (if_pos hc)
      exact hone.trans (ih _)
    · rw [if_neg hc]
      apply Reaches.stay_one
      exact congrArg some (if_neg hc)

lemma reaches_scanLong (zeroPad : Bool) (width : UInt32) (fmt : List Char) :
    scanner.Reaches (.modifier zeroPad width) (fmt ++ [nul]) (.letter zeroPad width)
      (scanLong fmt ++ [nul]) [] := by
  unfold scanLong
  split
  · exact .move_one rfl _
  · rename_i hne
    cases fmt with
    | nil => exact .stay_one rfl []
    | cons c fmt =>
      have hc : c ≠ 'l' := by
        rintro rfl
        exact hne fmt rfl
      apply Reaches.stay_one
      show some (Reaction.mk (ScanPc.letter zeroPad width) (decide (c = 'l')) []) = _
      rw [decide_eq_false hc]

/-- From behind a `%` the reader goes where the scan ends. -/
lemma reaches_scanFlags (fmt : List Char) :
    scanner.Reaches .flag (fmt ++ [nul]) (.letter (scanFlags fmt).1 (scanFlags fmt).2.1)
      ((scanFlags fmt).2.2 ++ [nul]) [] := by
  have hzero : scanner.Reaches .flag (fmt ++ [nul]) (.width (scanZero fmt).1 0)
      ((scanZero fmt).2 ++ [nul]) [] := by
    unfold scanZero
    split
    · exact .move_one rfl _
    · rename_i hne
      cases fmt with
      | nil => exact .stay_one rfl []
      | cons c fmt =>
        have hc : c ≠ '0' := by
          rintro rfl
          exact hne fmt rfl
        apply Reaches.stay_one
        exact congrArg some (if_neg hc)
  exact (hzero.trans (reaches_scanWidth _ 0 _)).trans (reaches_scanLong _ _ _)

/-! ### From the format to what is done -/

/-- A plain character. -/
lemma reaches_plain {c : Char} (hnul : c ≠ nul) (hc : c ≠ '%') (s : List Char) :
    scanner.Reaches .test (c :: s) .test s [.iteration, .append c] := by
  apply Reaches.move_one
  show some (if c = nul then _ else if c ≠ '%' then _ else _) = _
  rw [if_neg hnul, if_pos hc]

/-- A conversion, up to the scan's end and over its letter, which may be the terminator. -/
lemma reaches_convert {fmt s : List Char} {letter : Char}
    (h : (scanFlags fmt).2.2 ++ [nul] = letter :: s) :
    scanner.Reaches .test ('%' :: (fmt ++ [nul])) .test s
      [.iteration, .convert (scanFlags fmt).1 (scanFlags fmt).2.1 letter] := by
  have hmark : scanner.Reaches .test ('%' :: (fmt ++ [nul])) .flag (fmt ++ [nul]) [.iteration] :=
    .move_one rfl _
  have hscan := reaches_scanFlags fmt
  rw [h] at hscan
  exact (hmark.trans hscan).trans (.move_one rfl s)

/-- The terminator, at the test of the loop. -/
lemma reaches_end (s : List Char) : scanner.Reaches .test (nul :: s) .done (nul :: s) [] :=
  .stay_one rfl s

/-- What the loop does, done to the buffer. -/
def perform : List Scanned → List Arg → Buffer 256 → Except Undefined (List Arg × Buffer 256)
  | [], args, b                                    => .ok (args, b)
  | .iteration :: es, args, b                      => perform es args b
  | .append c :: es, args, b                       => perform es args (prvAppendChar b c)
  | .convert zeroPad width letter :: es, args, b => do
    let (args, b) ← convert zeroPad width letter args b
    perform es args b

/-- The reader's way through a format is the loop of `console_writef`: it stops at the terminator
where the loop ends, and passes it where the loop reads past the format. -/
theorem writefLoop_eq_perform (fmt : List Char) (hnul : nul ∉ fmt) :
    ∃ es, (scanner.Reaches .test (fmt ++ [nul]) .done [nul] es ∧
        ∀ args b, writefLoop fmt args b = (perform es args b).map Prod.snd) ∨
      (scanner.Reaches .test (fmt ++ [nul]) .test [] es ∧
        ∀ args b, writefLoop fmt args b = (perform es args b >>= fun _ => .error .pastFormat)) := by
  induction hn : fmt.length using Nat.strongRecOn generalizing fmt with
  | ind n ih =>
    subst hn
    cases fmt with
    | nil => exact ⟨[], .inl ⟨reaches_end [], fun args b => by rw [writefLoop]; rfl⟩⟩
    | cons c fmt =>
      rw [List.mem_cons, not_or] at hnul
      by_cases hc : c = '%'
      · subst hc
        cases hrest : (scanFlags fmt).2.2 with
        | nil =>
          refine ⟨_, .inr ⟨reaches_convert (by rw [hrest]; rfl), fun args b => ?_⟩⟩
          rw [writefLoop_cut hrest]
          rfl
        | cons letter rest =>
          have hconvert := reaches_convert (s := rest ++ [nul]) (by rw [hrest]; rfl)
          have hsuffix : letter :: rest <:+ fmt := hrest ▸ scanFlags_suffix fmt
          have hlt : rest.length < ('%' :: fmt).length := Nat.lt_succ_of_le
            (Nat.le_of_succ_le hsuffix.length_le)
          have hnul' : nul ∉ rest := fun h => hnul.2 (hsuffix.subset (List.mem_cons_of_mem _ h))
          obtain ⟨es, ⟨hreach, hloop⟩ | ⟨hreach, hloop⟩⟩ := ih _ hlt rest hnul' rfl
          · refine ⟨_, .inl ⟨hconvert.trans hreach, fun args b => ?_⟩⟩
            show _ = ((convert (scanFlags fmt).1 (scanFlags fmt).2.1 letter args b >>=
              fun r => perform es r.1 r.2).map Prod.snd)
            simp only [writefLoop_convert hrest, hloop]
            cases convert (scanFlags fmt).1 (scanFlags fmt).2.1 letter args b <;> rfl
          · refine ⟨_, .inr ⟨hconvert.trans hreach, fun args b => ?_⟩⟩
            show _ = ((convert (scanFlags fmt).1 (scanFlags fmt).2.1 letter args b >>=
              fun r => perform es r.1 r.2) >>= fun _ => .error .pastFormat)
            simp only [writefLoop_convert hrest, hloop]
            cases convert (scanFlags fmt).1 (scanFlags fmt).2.1 letter args b <;> rfl
      · have hplain := reaches_plain (Ne.symm hnul.1) hc (fmt ++ [nul])
        obtain ⟨es, ⟨hreach, hloop⟩ | ⟨hreach, hloop⟩⟩ := ih _ (Nat.lt_succ_self _) fmt hnul.2 rfl
        · refine ⟨_, .inl ⟨hplain.trans hreach, fun args b => ?_⟩⟩
          rw [writefLoop, if_pos hc, hloop]
          rfl
        · refine ⟨_, .inr ⟨hplain.trans hreach, fun args b => ?_⟩⟩
          rw [writefLoop, if_pos hc, hloop]
          rfl

/-! ### Where the reader stops -/

/-- What is left behind the digits and the modifier of a conversion. -/
def skipFlags : List Char → List Char := skipAfter 'l' id ∘ List.dropWhile Char.isDigit

/-- Digits and then, possibly, the modifier: what may stand between `%` and the conversion
character. -/
def IsSpec (spec : List Char) : Prop := skipFlags spec = []

instance : DecidablePred IsSpec := fun spec => inferInstanceAs (Decidable (skipFlags spec = []))

lemma greedy_skipFlags : Greedy skipFlags :=
  .comp (.after 'l' greedy_id) (greedy_dropWhile Char.isDigit)

lemma scanWidth_rest (width : UInt32) (fmt : List Char) :
    (scanWidth width fmt).2 = fmt.dropWhile Char.isDigit := by
  induction fmt generalizing width with
  | nil => rfl
  | cons c fmt ih =>
    rw [scanWidth, List.dropWhile_cons]
    by_cases hc : '0' ≤ c ∧ c ≤ '9'
    · rw [if_pos hc, if_pos ((Decimal.isDigit_iff c).mp hc), ih]
    · rw [if_neg hc, if_neg fun hd => hc ((Decimal.isDigit_iff c).mpr hd)]

lemma scanLong_rest (fmt : List Char) : scanLong fmt = skipAfter 'l' id fmt := by
  unfold scanLong
  split
  · rfl
  · rename_i hne
    cases fmt with
    | nil => rfl
    | cons c fmt =>
      have hc : c ≠ 'l' := by
        rintro rfl
        exact hne fmt rfl
      rw [skipAfter, if_neg hc]

/-- The scan of the source takes a specification: the flag is a digit too. -/
lemma scanFlags_rest (fmt : List Char) : (scanFlags fmt).2.2 = skipFlags fmt := by
  have hzero : (scanZero fmt).2.dropWhile Char.isDigit = fmt.dropWhile Char.isDigit := by
    unfold scanZero
    split
    · rfl
    · rfl
  show scanLong (scanWidth 0 (scanZero fmt).2).2 = _
  rw [scanLong_rest, scanWidth_rest, hzero]
  rfl

/-- A conversion leads the reader back to the test of the loop. -/
lemma reaches_directive {spec : List Char} {letter : Char} (hspec : IsSpec spec)
    (hletter : ¬ IsSpec (spec ++ [letter])) (s : List Char) :
    ∃ es, scanner.Reaches .test ('%' :: (spec ++ letter :: (s ++ [nul]))) .test (s ++ [nul])
      es := by
  have hscan : (scanFlags (spec ++ letter :: s)).2.2 = letter :: s := by
    rw [scanFlags_rest, greedy_skipFlags.skip_append hspec hletter]
  have hconvert := reaches_convert (s := s ++ [nul]) (by rw [hscan]; rfl)
  rw [List.append_assoc] at hconvert
  exact ⟨_, hconvert⟩

/-- Behind a complete format the reader is back at the test of the loop. -/
lemma reaches_complete {fmt : List Char} (h : Complete '%' IsSpec fmt) (hnul : nul ∉ fmt)
    (rest : List Char) :
    ∃ es, scanner.Reaches .test (fmt ++ rest ++ [nul]) .test (rest ++ [nul]) es := by
  apply h.reaches _ _ hnul
  · exact fun a s hnul ha => ⟨_, reaches_plain hnul ha s⟩
  · exact fun spec letter s hspec hletter _ _ => reaches_directive hspec hletter s

/-- A complete format leads the reader to its terminator. -/
lemma reaches_done {fmt : List Char} (h : Complete '%' IsSpec fmt) (hnul : nul ∉ fmt) :
    ∃ es, scanner.Reaches .test (fmt ++ [nul]) .done [nul] es := by
  obtain ⟨es, hes⟩ := reaches_complete h hnul []
  rw [List.append_nil] at hes
  exact ⟨_, hes.trans (reaches_end [])⟩

/-- A format that ends inside a conversion leads the reader over its terminator. -/
lemma reaches_past {fmt spec : List Char} (h : EndsIn '%' IsSpec spec fmt) (hnul : nul ∉ fmt) :
    ∃ es, scanner.Reaches .test (fmt ++ [nul]) .test [] es := by
  obtain ⟨hspec, before, hbefore, rfl⟩ := h
  obtain ⟨es, hes⟩ := reaches_complete hbefore (fun h => hnul (List.mem_append_left _ h))
    ('%' :: spec)
  have hscan : (scanFlags spec).2.2 = [] := (scanFlags_rest spec).trans hspec
  exact ⟨_, hes.trans (reaches_convert (by rw [hscan]; rfl))⟩

/-! ### The loop stays within its format -/

/-- On this memory the loop, started at place 0 with a format of `n` characters there, reads nothing
behind the terminator, and ends after no more than `n` iterations. -/
structure Within (mem : ℕ → Char) (n : ℕ) : Prop where
  reads : ∀ acts i, .read i ∈ (scanner.on mem).trace (.test, 0) acts → i ≤ n
  iterations : ∀ acts,
    (shownOf ((scanner.on mem).trace (.test, 0) acts)).countP (· = .iteration) ≤ n
  ends : ∃ acts, ((scanner.on mem).run (.test, 0) acts).1 = .done

/-- An iteration passes a character when it begins. -/
lemma scanner_iteration (q : ScanPc) (f : Char → Reaction ScanPc Scanned) (c : Char)
    (hq : scanner.react q = some f) :
    (f c).shows.countP (· = .iteration) ≤ if (f c).moves then 1 else 0 := by
  cases q with
  | done => cases hq
  | test =>
    obtain rfl := Option.some.inj hq
    dsimp only
    split_ifs <;> simp_all
  | flag =>
    obtain rfl := Option.some.inj hq
    dsimp only
    split_ifs <;> simp
  | width zeroPad width =>
    obtain rfl := Option.some.inj hq
    dsimp only
    split_ifs <;> simp
  | modifier zeroPad width =>
    obtain rfl := Option.some.inj hq
    simp
  | letter zeroPad width =>
    obtain rfl := Option.some.inj hq
    simp

lemma within_of_complete {fmt : List Char} (h : Complete '%' IsSpec fmt) (hnul : nul ∉ fmt)
    {mem : ℕ → Char} (hmem : Holds mem 0 (fmt ++ [nul])) : Within mem fmt.length := by
  obtain ⟨es, hes⟩ := reaches_done h hnul
  refine ⟨hes.within rfl hmem, fun acts => ?_, hes.ends hmem⟩
  have hcount := hes.count_le scanner_iteration
  rw [List.length_append] at hcount
  have hshown := (hes.stops rfl hmem acts).1
  exact hshown.sublist.countP_le.trans (Nat.le_of_add_le_add_right hcount)

lemma not_within_of_endsIn {fmt spec : List Char} (h : EndsIn '%' IsSpec spec fmt)
    (hnul : nul ∉ fmt) {mem : ℕ → Char} (hmem : Holds mem 0 (fmt ++ [nul])) :
    ¬ Within mem fmt.length := by
  intro hwithin
  obtain ⟨es, hes⟩ := reaches_past h hnul
  obtain ⟨acts, hread⟩ := hes.overruns rfl hmem
  exact Nat.not_succ_le_self _ (hwithin.reads acts _ hread)

/-- The loop stays within its format exactly if the format does not end inside a conversion. -/
theorem writef_within_iff {fmt : List Char} (hnul : nul ∉ fmt) {mem : ℕ → Char}
    (hmem : Holds mem 0 (fmt ++ [nul])) :
    Within mem fmt.length ↔ ¬ ∃ spec, EndsIn '%' IsSpec spec fmt := by
  constructor
  · rintro hwithin ⟨spec, hspec⟩
    exact not_within_of_endsIn hspec hnul hmem hwithin
  · intro hspec
    have hnil : IsSpec [] := greedy_skipFlags.nil
    have hcomplete := (complete_or_endsIn hnil fmt).resolve_right hspec
    exact within_of_complete hcomplete hnul hmem

/-- A format with one complete conversion. -/
theorem writef_within_iff_number :
    Within (memory nul "n=%u\x00%".toList) 4 ∧
      ¬ ∃ spec, EndsIn '%' IsSpec spec "n=%u".toList := by
  have hdirective : Complete '%' IsSpec "%u".toList :=
    @Complete.directive _ _ _ [] 'u' [] (by decide) (by decide) .nil
  have hcomplete : Complete '%' IsSpec "n=%u".toList :=
    .plain (by decide) (.plain (by decide) hdirective)
  have hmem : Holds (memory nul "n=%u\x00%".toList) 0 ("n=%u".toList ++ [nul]) :=
    holds_memory nul _ "%".toList
  have hwithin := within_of_complete hcomplete (by decide) hmem
  exact ⟨hwithin, (writef_within_iff (by decide) hmem).mp hwithin⟩

/-- A format that ends behind a flag. -/
theorem flag_not_within : ¬ Within (memory nul "%0\x00%s".toList) 2 := by
  have hspec : EndsIn '%' IsSpec "0".toList "%0".toList := ⟨by decide, [], .nil, rfl⟩
  have hmem : Holds (memory nul "%0\x00%s".toList) 0 ("%0".toList ++ [nul]) :=
    holds_memory nul _ "%s".toList
  exact not_within_of_endsIn hspec (by decide) hmem

end EcuTelemetry.Console
