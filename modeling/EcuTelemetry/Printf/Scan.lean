import EcuTelemetry.Core.Directive
import EcuTelemetry.Core.Reader
import EcuTelemetry.Printf.Render

/-!
# How far `mini_vsnprintf` reads its format

The loop of `mini_vsnprintf` as a reader of the memory at `fmt`, with every place where it reads
`*fmt`. Behind a `%` it looks for the terminator, but not behind a flag, a width, a precision or a
length modifier: there the `switch` takes the NUL for a conversion character, without an argument,
and the loop goes on behind it.
-/

namespace EcuTelemetry.Printf

open EcuTelemetry.Core Reader Directive

/-- The places where the loop reads `*fmt`, with the locals that are alive there. A number that has
left the range of an `int` stays undefined. -/
inductive ScanPc where
  | test
  | bare
  | minus
  | zero (leftAlign : Bool)
  | width (leftAlign zero : Bool) (n : Except Undefined ℤ)
  | point (leftAlign zero : Bool) (width : Except Undefined ℤ)
  | prec (leftAlign zero : Bool) (width n : Except Undefined ℤ)
  | modifier (leftAlign zero : Bool) (width prec : Except Undefined ℤ)
  | second (leftAlign zero : Bool) (width prec : Except Undefined ℤ)
  | letter (leftAlign zero : Bool) (width prec : Except Undefined ℤ) (isLong : Bool)
  | done

/-- What the loop does: it begins an iteration, writes a plain character, or comes to the `switch`
with a specification and a conversion character. -/
inductive Scanned where
  | iteration
  | putc (c : Char)
  | convert (spec : Except Undefined Spec) (letter : Char)

/-- A step of the loops over digits. -/
def nextNumber (n : Except Undefined ℤ) (c : Char) : Except Undefined ℤ := do
  let tens ← int ((← n) * 10)
  int (tens + (c.toNat - '0'.toNat))

/-- The specification that the locals make up at the `switch`. -/
def specOf (leftAlign zero : Bool) (width prec : Except Undefined ℤ) (isLong : Bool) :
    Except Undefined Spec := do
  return ⟨leftAlign, if zero then '0' else ' ', ← width, ← prec, isLong⟩

/-- The loop of `mini_vsnprintf` on its format. -/
def scanner : Reader ScanPc Char Scanned where
  react
    | .test => some fun c =>
      if c = nul then ⟨.done, false, []⟩
      else if c ≠ '%' then ⟨.test, true, [.iteration, .putc c]⟩
      else ⟨.bare, true, [.iteration]⟩
    | .bare => some fun c => ⟨if c = nul then .done else .minus, false, []⟩
    | .minus => some fun c => ⟨.zero (c = '-'), c = '-', []⟩
    | .zero leftAlign => some fun c => ⟨.width leftAlign (c = '0') (.ok 0), c = '0', []⟩
    | .width leftAlign zero n => some fun c =>
      if '0' ≤ c ∧ c ≤ '9' then ⟨.width leftAlign zero (nextNumber n c), true, []⟩
      else ⟨.point leftAlign zero n, false, []⟩
    | .point leftAlign zero width => some fun c =>
      if c = '.' then ⟨.prec leftAlign zero width (.ok 0), true, []⟩
      else ⟨.modifier leftAlign zero width (.ok (-1)), false, []⟩
    | .prec leftAlign zero width n => some fun c =>
      if '0' ≤ c ∧ c ≤ '9' then ⟨.prec leftAlign zero width (nextNumber n c), true, []⟩
      else ⟨.modifier leftAlign zero width n, false, []⟩
    | .modifier leftAlign zero width prec => some fun c =>
      if c = 'l' then ⟨.second leftAlign zero width prec, true, []⟩
      else ⟨.letter leftAlign zero width prec false, false, []⟩
    | .second leftAlign zero width prec => some fun c =>
      ⟨.letter leftAlign zero width prec true, c = 'l', []⟩
    | .letter leftAlign zero width prec isLong => some fun c =>
      ⟨.test, true, [.convert (specOf leftAlign zero width prec isLong) c]⟩
    | .done => none

/-! ### The scan of a specification -/

/-- What is left behind the flags, the width, the precision and the modifier of a conversion. -/
def skipSpec : List Char → List Char :=
  skipAfter 'l' (skipAfter 'l' id) ∘ skipAfter '.' (List.dropWhile Char.isDigit) ∘
    List.dropWhile Char.isDigit ∘ skipAfter '0' id ∘ skipAfter '-' id

lemma greedy_skipSpec : Greedy skipSpec := by
  have hdigits := greedy_dropWhile Char.isDigit
  have hflags := (greedy_id.after '0').comp (greedy_id.after '-')
  exact ((greedy_id.after 'l').after 'l').comp ((hdigits.after '.').comp (hdigits.comp hflags))

lemma foldl_nextNumber_error (e : Undefined) (digits : List Char) :
    digits.foldl nextNumber (.error e) = .error e := by
  induction digits with
  | nil => rfl
  | cons c digits ih => exact ih

/-- The loop over digits as a fold, which goes on when the number is undefined. -/
lemma scanNumber_eq (n : ℤ) (fmt : List Char) :
    scanNumber n fmt = ((fmt.takeWhile Char.isDigit).foldl nextNumber (.ok n)).map
      fun m => (m, fmt.dropWhile Char.isDigit) := by
  induction fmt generalizing n with
  | nil => rfl
  | cons c fmt ih =>
    rw [scanNumber, List.takeWhile_cons, List.dropWhile_cons]
    by_cases hc : '0' ≤ c ∧ c ≤ '9'
    · have hd := (Decimal.isDigit_iff c).mp hc
      rw [if_pos hc, if_pos hd, if_pos hd, List.foldl_cons]
      have hnext : nextNumber (.ok n) c =
          int (n * 10) >>= fun tens => int (tens + (c.toNat - '0'.toNat)) := rfl
      rw [hnext]
      cases int (n * 10) with
      | error e => exact congrArg (Except.map _) (foldl_nextNumber_error e _).symm
      | ok tens =>
        show (int (tens + (c.toNat - '0'.toNat)) >>= fun n => scanNumber n fmt) =
          ((fmt.takeWhile Char.isDigit).foldl nextNumber (int (tens + (c.toNat - '0'.toNat)))).map _
        cases int (tens + (c.toNat - '0'.toNat)) with
        | error e => exact congrArg (Except.map _) (foldl_nextNumber_error e _).symm
        | ok m => exact ih m
    · have hd : ¬ c.isDigit := fun hd => hc ((Decimal.isDigit_iff c).mpr hd)
      rw [if_neg hc, if_neg hd, if_neg hd]
      rfl

/-- A loop over digits: it takes them and goes to its exit. -/
lemma reaches_number (loop exit : Except Undefined ℤ → ScanPc)
    (hreact : ∀ n, scanner.react (loop n) = some fun c =>
      if '0' ≤ c ∧ c ≤ '9' then ⟨loop (nextNumber n c), true, []⟩ else ⟨exit n, false, []⟩)
    (n : Except Undefined ℤ) (fmt : List Char) :
    scanner.Reaches (loop n) (fmt ++ [nul])
      (exit ((fmt.takeWhile Char.isDigit).foldl nextNumber n))
      (fmt.dropWhile Char.isDigit ++ [nul]) [] := by
  induction fmt generalizing n with
  | nil =>
    apply Reaches.stay_one
    rw [hreact]
    exact congrArg some (if_neg (by decide))
  | cons c fmt ih =>
    rw [List.takeWhile_cons, List.dropWhile_cons]
    by_cases hc : '0' ≤ c ∧ c ≤ '9'
    · have hd := (Decimal.isDigit_iff c).mp hc
      have hone : scanner.Reaches (loop n) (c :: (fmt ++ [nul])) (loop (nextNumber n c))
          (fmt ++ [nul]) [] := by
        apply Reaches.move_one
        rw [hreact]
        exact congrArg some (if_pos hc)
      rw [if_pos hd, if_pos hd, List.foldl_cons]
      exact hone.trans (ih _)
    · have hd : ¬ c.isDigit := fun hd => hc ((Decimal.isDigit_iff c).mpr hd)
      rw [if_neg hd, if_neg hd]
      apply Reaches.stay_one
      rw [hreact]
      exact congrArg some (if_neg hc)

/-- A flag. -/
lemma reaches_flag {q : ScanPc} (exit : Bool → ScanPc) {flag : Char} (hflag : flag ≠ nul)
    (hreact : scanner.react q = some fun c => ⟨exit (c = flag), c = flag, []⟩) (fmt : List Char) :
    ∃ on, scanner.Reaches q (fmt ++ [nul]) (exit on) (skipAfter flag id fmt ++ [nul]) [] ∧
      scanFlag flag fmt = (on, skipAfter flag id fmt) := by
  have hone : ∀ c, (scanner.react q).map (· c) = some ⟨exit (c = flag), c = flag, []⟩ := by
    rw [hreact]
    exact fun c => rfl
  cases fmt with
  | nil =>
    refine ⟨false, .stay_one ?_ [], rfl⟩
    rw [hone, decide_eq_false (Ne.symm hflag)]
  | cons c fmt =>
    rw [scanFlag, skipAfter]
    by_cases hc : c = flag
    · rw [if_pos hc, if_pos hc]
      refine ⟨true, .move_one ?_ (fmt ++ [nul]), rfl⟩
      rw [hone, decide_eq_true hc]
    · rw [if_neg hc, if_neg hc]
      refine ⟨false, .stay_one ?_ (fmt ++ [nul]), rfl⟩
      rw [hone, decide_eq_false hc]

/-- The precision. -/
lemma reaches_scanPrec (leftAlign zero : Bool) (width : Except Undefined ℤ) (fmt : List Char) :
    ∃ prec, scanner.Reaches (.point leftAlign zero width) (fmt ++ [nul])
        (.modifier leftAlign zero width prec)
        (skipAfter '.' (List.dropWhile Char.isDigit) fmt ++ [nul]) [] ∧
      scanPrec fmt =
        prec.map fun m => (m, skipAfter '.' (List.dropWhile Char.isDigit) fmt) := by
  cases fmt with
  | nil => exact ⟨.ok (-1), .stay_one rfl [], rfl⟩
  | cons c fmt =>
    by_cases hc : c = '.'
    · subst hc
      have hpoint : scanner.Reaches (.point leftAlign zero width) ('.' :: (fmt ++ [nul]))
          (.prec leftAlign zero width (.ok 0)) (fmt ++ [nul]) [] := .move_one rfl _
      have hnumber := reaches_number (.prec leftAlign zero width) (.modifier leftAlign zero width)
        (fun n => rfl) (.ok 0) fmt
      exact ⟨_, hpoint.trans hnumber, scanNumber_eq 0 fmt⟩
    · refine ⟨.ok (-1), ?_, ?_⟩
      · rw [skipAfter, if_neg hc]
        apply Reaches.stay_one
        exact congrArg some (if_neg hc)
      · have hhead : (c :: fmt).head? ≠ some '.' := fun h => hc (Option.some.inj h)
        rw [scanPrec_of_ne hhead, skipAfter, if_neg hc]
        rfl

/-- The length modifier. -/
lemma reaches_scanLong (leftAlign zero : Bool) (width prec : Except Undefined ℤ)
    (fmt : List Char) :
    ∃ isLong, scanner.Reaches (.modifier leftAlign zero width prec) (fmt ++ [nul])
        (.letter leftAlign zero width prec isLong)
        (skipAfter 'l' (skipAfter 'l' id) fmt ++ [nul]) [] ∧
      scanLong fmt = (isLong, skipAfter 'l' (skipAfter 'l' id) fmt) := by
  cases fmt with
  | nil => exact ⟨false, .stay_one rfl [], rfl⟩
  | cons c fmt =>
    by_cases hc : c = 'l'
    · subst hc
      have hfirst : scanner.Reaches (.modifier leftAlign zero width prec) ('l' :: (fmt ++ [nul]))
          (.second leftAlign zero width prec) (fmt ++ [nul]) [] := .move_one rfl _
      obtain ⟨-, hsecond, -⟩ := reaches_flag (q := .second leftAlign zero width prec)
        (fun _ => .letter leftAlign zero width prec true) (by decide : 'l' ≠ nul) rfl fmt
      refine ⟨true, hfirst.trans hsecond, ?_⟩
      cases fmt with
      | nil => rfl
      | cons d fmt =>
        by_cases hd : d = 'l'
        · subst hd
          rfl
        · show scanLong ('l' :: d :: fmt) = (true, skipAfter 'l' id (d :: fmt))
          rw [skipAfter, if_neg hd]
          exact scanLong_modifier hd true fmt
    · refine ⟨false, ?_, ?_⟩
      · rw [skipAfter, if_neg hc]
        apply Reaches.stay_one
        exact congrArg some (if_neg hc)
      · rw [skipAfter, if_neg hc]
        exact scanLong_modifier hc false fmt

/-- From behind a `%` the reader goes where the scan ends, with the specification of the scan. -/
lemma reaches_scanSpec (fmt : List Char) :
    ∃ leftAlign zero width prec isLong,
      scanner.Reaches .minus (fmt ++ [nul]) (.letter leftAlign zero width prec isLong)
        (skipSpec fmt ++ [nul]) [] ∧
      scanSpec fmt =
        (specOf leftAlign zero width prec isLong).map fun spec => (spec, skipSpec fmt) := by
  obtain ⟨leftAlign, hminus, hminus'⟩ :=
    reaches_flag (q := .minus) .zero (by decide : '-' ≠ nul) rfl fmt
  obtain ⟨zero, hzero, hzero'⟩ := reaches_flag (q := .zero leftAlign)
    (fun zero => .width leftAlign zero (.ok 0)) (by decide : '0' ≠ nul) rfl (skipAfter '-' id fmt)
  have hwidth := reaches_number (.width leftAlign zero) (.point leftAlign zero) (fun n => rfl)
    (.ok 0) (skipAfter '0' id (skipAfter '-' id fmt))
  have hwidth' := scanNumber_eq 0 (skipAfter '0' id (skipAfter '-' id fmt))
  generalize (List.takeWhile Char.isDigit
    (skipAfter '0' id (skipAfter '-' id fmt))).foldl nextNumber (.ok 0) = width at hwidth hwidth'
  obtain ⟨prec, hprec, hprec'⟩ := reaches_scanPrec leftAlign zero width
    ((skipAfter '0' id (skipAfter '-' id fmt)).dropWhile Char.isDigit)
  obtain ⟨isLong, hlong, hlong'⟩ := reaches_scanLong leftAlign zero width prec
    (skipAfter '.' (List.dropWhile Char.isDigit)
      ((skipAfter '0' id (skipAfter '-' id fmt)).dropWhile Char.isDigit))
  refine ⟨leftAlign, zero, width, prec, isLong,
    (((hminus.trans hzero).trans hwidth).trans hprec).trans hlong, ?_⟩
  simp only [scanSpec, hminus', hzero', hwidth']
  cases width with
  | error e => rfl
  | ok width =>
    show (scanPrec _ >>= _) = _
    rw [hprec']
    cases prec with
    | error e => rfl
    | ok prec =>
      show Except.ok (Spec.mk _ _ _ _ (scanLong _).1, (scanLong _).2) = _
      rw [hlong']
      rfl

/-! ### From the format to what is done -/

/-- A plain character. -/
lemma reaches_plain {c : Char} (hnul : c ≠ nul) (hc : c ≠ '%') (s : List Char) :
    scanner.Reaches .test (c :: s) .test s [.iteration, .putc c] := by
  apply Reaches.move_one
  show some (if c = nul then _ else if c ≠ '%' then _ else _) = _
  rw [if_neg hnul, if_pos hc]

/-- A `%` with something behind it. -/
lemma reaches_percent {c : Char} (hnul : c ≠ nul) (s : List Char) :
    scanner.Reaches .test ('%' :: c :: s) .minus (c :: s) [.iteration] := by
  have hmark : scanner.Reaches .test ('%' :: c :: s) .bare (c :: s) [.iteration] := .move_one rfl _
  have hbare : scanner.Reaches .bare (c :: s) .minus (c :: s) [] := by
    apply Reaches.stay_one
    show some (Reaction.mk (if c = nul then _ else _) false []) = _
    rw [if_neg hnul]
  exact hmark.trans hbare

/-- The terminator, at the test of the loop. -/
lemma reaches_end (s : List Char) : scanner.Reaches .test (nul :: s) .done (nul :: s) [] :=
  .stay_one rfl s

/-- The terminator behind a `%`. -/
lemma reaches_bare : scanner.Reaches .test ['%', nul] .done [nul] [.iteration] := by
  have hmark : scanner.Reaches .test ['%', nul] .bare [nul] [.iteration] := .move_one rfl _
  exact hmark.trans (.stay_one rfl [])

/-- A conversion, over its letter, which may be the terminator. -/
lemma reaches_convert {fmt s : List Char} (hne : fmt ≠ []) (hnul : nul ∉ fmt) {letter : Char}
    (h : skipSpec fmt ++ [nul] = letter :: s) :
    ∃ spec, scanner.Reaches .test ('%' :: (fmt ++ [nul])) .test s
        [.iteration, .convert spec letter] ∧
      scanSpec fmt = spec.map fun spec => (spec, skipSpec fmt) := by
  obtain ⟨leftAlign, zero, width, prec, isLong, hscan, hscan'⟩ := reaches_scanSpec fmt
  obtain ⟨c, t, rfl⟩ := List.exists_cons_of_ne_nil hne
  rw [List.mem_cons, not_or] at hnul
  have hpercent := reaches_percent (Ne.symm hnul.1) (t ++ [nul])
  rw [h] at hscan
  exact ⟨_, (hpercent.trans hscan).trans (.move_one rfl s), hscan'⟩

/-- What the loop does, done to the output. -/
def perform (size : UInt32) : List Scanned → List Arg → Out → Except Undefined (List Arg × Out)
  | [], args, o                         => .ok (args, o)
  | .iteration :: es, args, o           => perform size es args o
  | .putc c :: es, args, o              => perform size es args (bufPutc size o c)
  | .convert spec letter :: es, args, o => do
    let (args, o) ← convert size (← spec) letter args o
    perform size es args o

/-- The reader's way through a format is the loop of `mini_vsnprintf`: it stops at the terminator
where the loop ends, and passes it where the loop reads past the format. -/
theorem vsnprintfLoop_eq_perform (size : UInt32) (fmt : List Char) (hnul : nul ∉ fmt) :
    ∃ es, (scanner.Reaches .test (fmt ++ [nul]) .done [nul] es ∧
        ∀ args o, vsnprintfLoop size fmt args o = (perform size es args o).map Prod.snd) ∨
      (scanner.Reaches .test (fmt ++ [nul]) .test [] es ∧
        ∀ args o, vsnprintfLoop size fmt args o =
          (perform size es args o >>= fun _ => .error .pastFormat)) := by
  induction hn : fmt.length using Nat.strongRecOn generalizing fmt with
  | ind n ih =>
    subst hn
    cases fmt with
    | nil => exact ⟨[], .inl ⟨reaches_end [], fun args o => by rw [vsnprintfLoop]; rfl⟩⟩
    | cons c fmt =>
      rw [List.mem_cons, not_or] at hnul
      by_cases hc : c = '%'
      · subst hc
        by_cases hne : fmt = []
        · subst hne
          refine ⟨_, .inl ⟨reaches_bare, fun args o => ?_⟩⟩
          rw [vsnprintfLoop, if_neg (not_not.mpr rfl), if_pos rfl]
          rfl
        · cases hrest : skipSpec fmt with
          | nil =>
            obtain ⟨spec, hconvert, hscan⟩ := reaches_convert (s := []) hne hnul.2
              (by rw [hrest]; rfl)
            refine ⟨_, .inr ⟨hconvert, fun args o => ?_⟩⟩
            rw [vsnprintfLoop_percent hne hscan, hrest]
            cases spec <;> rfl
          | cons letter rest =>
            obtain ⟨spec, hconvert, hscan⟩ := reaches_convert (s := rest ++ [nul]) hne hnul.2
              (by rw [hrest]; rfl)
            have hsuffix : letter :: rest <:+ fmt := hrest ▸ greedy_skipSpec.suffix fmt
            have hlt : rest.length < ('%' :: fmt).length := Nat.lt_succ_of_le
              (Nat.le_of_succ_le hsuffix.length_le)
            have hnul' : nul ∉ rest := fun h => hnul.2 (hsuffix.subset (List.mem_cons_of_mem _ h))
            obtain ⟨es, ⟨hreach, hloop⟩ | ⟨hreach, hloop⟩⟩ := ih _ hlt rest hnul' rfl
            · refine ⟨_, .inl ⟨hconvert.trans hreach, fun args o => ?_⟩⟩
              rw [vsnprintfLoop_percent hne hscan, hrest]
              simp only [hloop]
              cases spec with
              | error e => rfl
              | ok spec =>
                show (convert size spec letter args o >>= _) =
                  ((convert size spec letter args o >>= fun r => perform size es r.1 r.2).map _)
                cases convert size spec letter args o <;> rfl
            · refine ⟨_, .inr ⟨hconvert.trans hreach, fun args o => ?_⟩⟩
              rw [vsnprintfLoop_percent hne hscan, hrest]
              simp only [hloop]
              cases spec with
              | error e => rfl
              | ok spec =>
                show (convert size spec letter args o >>= _) =
                  ((convert size spec letter args o >>= fun r => perform size es r.1 r.2) >>= _)
                cases convert size spec letter args o <;> rfl
      · have hplain := reaches_plain (Ne.symm hnul.1) hc (fmt ++ [nul])
        obtain ⟨es, ⟨hreach, hloop⟩ | ⟨hreach, hloop⟩⟩ := ih _ (Nat.lt_succ_self _) fmt hnul.2 rfl
        · refine ⟨_, .inl ⟨hplain.trans hreach, fun args o => ?_⟩⟩
          rw [vsnprintfLoop, if_pos hc, hloop]
          rfl
        · refine ⟨_, .inr ⟨hplain.trans hreach, fun args o => ?_⟩⟩
          rw [vsnprintfLoop, if_pos hc, hloop]
          rfl

/-! ### Where the reader stops -/

/-- Flags, digits, a precision and a modifier, in this order: what may stand between `%` and the
conversion character. -/
def IsSpec (spec : List Char) : Prop := skipSpec spec = []

instance : DecidablePred IsSpec := fun spec => inferInstanceAs (Decidable (skipSpec spec = []))

/-- A conversion leads the reader back to the test of the loop. -/
lemma reaches_directive {spec : List Char} {letter : Char} (hspec : IsSpec spec)
    (hletter : ¬ IsSpec (spec ++ [letter])) (hnul : nul ∉ spec) (hne : letter ≠ nul)
    (s : List Char) :
    ∃ es, scanner.Reaches .test ('%' :: (spec ++ letter :: (s ++ [nul]))) .test (s ++ [nul])
      es := by
  obtain ⟨leftAlign, zero, width, prec, isLong, hscan, -⟩ := reaches_scanSpec (spec ++ letter :: s)
  rw [greedy_skipSpec.skip_append hspec hletter, List.append_assoc] at hscan
  have hconvert := hscan.trans (.move_one rfl (s ++ [nul]))
  rw [List.cons_append] at hconvert
  -- the character behind the `%` is the first of the specification, or the letter
  obtain ⟨c, t, hct, hc⟩ : ∃ c t, spec ++ letter :: (s ++ [nul]) = c :: t ∧ c ≠ nul := by
    cases spec with
    | nil => exact ⟨letter, _, rfl, hne⟩
    | cons c spec => exact ⟨c, _, rfl, fun hc => hnul (hc ▸ List.mem_cons_self)⟩
  rw [hct] at hconvert ⊢
  exact ⟨_, (reaches_percent hc t).trans hconvert⟩

/-- Behind a complete format the reader is back at the test of the loop. -/
lemma reaches_complete {fmt : List Char} (h : Complete '%' IsSpec fmt) (hnul : nul ∉ fmt)
    (rest : List Char) :
    ∃ es, scanner.Reaches .test (fmt ++ rest ++ [nul]) .test (rest ++ [nul]) es := by
  apply h.reaches _ _ hnul
  · exact fun a s hnul ha => ⟨_, reaches_plain hnul ha s⟩
  · exact fun spec letter s hspec hletter hnul hne =>
      reaches_directive hspec hletter hnul hne s

/-- A complete format leads the reader to its terminator, and so does one that ends with a bare
`%`. -/
lemma reaches_done {fmt : List Char} (hnul : nul ∉ fmt)
    (h : Complete '%' IsSpec fmt ∨ EndsIn '%' IsSpec [] fmt) :
    ∃ es, scanner.Reaches .test (fmt ++ [nul]) .done [nul] es := by
  rcases h with hcomplete | ⟨-, before, hbefore, rfl⟩
  · obtain ⟨es, hes⟩ := reaches_complete hcomplete hnul []
    rw [List.append_nil] at hes
    exact ⟨_, hes.trans (reaches_end [])⟩
  · obtain ⟨es, hes⟩ := reaches_complete hbefore (fun h => hnul (List.mem_append_left _ h)) ['%']
    exact ⟨_, hes.trans reaches_bare⟩

/-- A format that ends inside a conversion, behind a flag or what follows it, leads the reader over
its terminator. -/
lemma reaches_past {fmt spec : List Char} (hne : spec ≠ []) (h : EndsIn '%' IsSpec spec fmt)
    (hnul : nul ∉ fmt) : ∃ es, scanner.Reaches .test (fmt ++ [nul]) .test [] es := by
  obtain ⟨hspec, before, hbefore, rfl⟩ := h
  rw [List.mem_append, List.mem_cons, not_or, not_or] at hnul
  obtain ⟨es, hes⟩ := reaches_complete hbefore hnul.1 ('%' :: spec)
  have hskip : skipSpec spec = [] := hspec
  obtain ⟨_, hconvert, -⟩ := reaches_convert (s := []) hne hnul.2.2 (by rw [hskip]; rfl)
  exact ⟨_, hes.trans hconvert⟩

/-! ### The loop stays within its format -/

/-- What is done is the same for all arguments, and leaves them. -/
def Spares (es : List Scanned) : Prop :=
  ∀ size o, ∃ out : Except Undefined Out, ∀ args,
    perform size es args o = out.map fun o => (args, o)

/-- On this memory the loop, started at place 0 with a format of `n` characters there, reads nothing
behind the terminator, takes no argument there, and ends. -/
structure Within (mem : ℕ → Char) (n : ℕ) : Prop where
  reads : ∀ acts i, .read i ∈ (scanner.on mem).trace (.test, 0) acts → i ≤ n
  spares : ∀ acts q, (scanner.on mem).run (.test, 0) acts = (q, n) →
    Spares (shownOf ((scanner.on mem).emit (q, n) ()))
  ends : ∃ acts, ((scanner.on mem).run (.test, 0) acts).1 = .done

/-- At the terminator no argument is taken. -/
lemma spares_nul {q : ScanPc} {f : Char → Reaction ScanPc Scanned} (hq : scanner.react q = some f) :
    Spares (f nul).shows := by
  have hnone : Spares [] := fun size o => ⟨.ok o, fun args => rfl⟩
  cases q with
  | letter leftAlign zero width prec isLong =>
    obtain rfl := Option.some.inj hq
    intro size o
    cases specOf leftAlign zero width prec isLong with
    | error e =>
      refine ⟨.error e, fun args => ?_⟩
      simp only [perform]
      rfl
    | ok spec =>
      refine ⟨.ok (bufPutc size (bufPutc size o '%') nul), fun args => ?_⟩
      simp only [perform]
      rfl
  | done => cases hq
  | _ =>
    obtain rfl := Option.some.inj hq
    exact hnone

lemma within_of_reaches {fmt : List Char} {es : List Scanned}
    (h : scanner.Reaches .test (fmt ++ [nul]) .done [nul] es) {mem : ℕ → Char}
    (hmem : Holds mem 0 (fmt ++ [nul])) : Within mem fmt.length := by
  refine ⟨h.within rfl hmem, fun acts q _ => ?_, h.ends hmem⟩
  have hend : mem fmt.length = nul := by
    have hget := hmem fmt.length (by simp)
    simpa using hget
  cases hq : scanner.react q with
  | none =>
    have hstep : (scanner.on mem).step (q, fmt.length) () = ((q, fmt.length), []) := by
      simp only [on, hq]
    rw [Machine.emit, hstep]
    exact fun size o => ⟨.ok o, fun args => rfl⟩
  | some f =>
    rw [emit_of_react hq, hend, shownOf_read, shownOf_map_shown]
    exact spares_nul hq

lemma not_within_of_endsIn {fmt spec : List Char} (hne : spec ≠ []) (h : EndsIn '%' IsSpec spec fmt)
    (hnul : nul ∉ fmt) {mem : ℕ → Char} (hmem : Holds mem 0 (fmt ++ [nul])) :
    ¬ Within mem fmt.length := by
  intro hwithin
  obtain ⟨es, hes⟩ := reaches_past hne h hnul
  obtain ⟨acts, hread⟩ := hes.overruns rfl hmem
  exact Nat.not_succ_le_self _ (hwithin.reads acts _ hread)

/-- The loop stays within its format exactly if the format does not end inside a conversion, behind
a flag, a width, a precision or a modifier. -/
theorem vsnprintf_within_iff {fmt : List Char} (hnul : nul ∉ fmt) {mem : ℕ → Char}
    (hmem : Holds mem 0 (fmt ++ [nul])) :
    Within mem fmt.length ↔ ¬ ∃ spec, spec ≠ [] ∧ EndsIn '%' IsSpec spec fmt := by
  constructor
  · rintro hwithin ⟨spec, hne, hspec⟩
    exact not_within_of_endsIn hne hspec hnul hmem hwithin
  · intro hspec
    have hdone : Complete '%' IsSpec fmt ∨ EndsIn '%' IsSpec [] fmt := by
      have hnil : IsSpec [] := greedy_skipSpec.nil
      rcases complete_or_endsIn hnil fmt with hcomplete | ⟨spec, hends⟩
      · exact .inl hcomplete
      · by_cases hne : spec = []
        · exact .inr (hne ▸ hends)
        · exact absurd ⟨spec, hne, hends⟩ hspec
    obtain ⟨es, hes⟩ := reaches_done hnul hdone
    exact within_of_reaches hes hmem

/-- A format with a complete conversion, which ends with a bare `%`. -/
theorem vsnprintf_within_iff_bare :
    Within (memory nul "%-5d%\x00%s".toList) 5 ∧
      ¬ ∃ spec, spec ≠ [] ∧ EndsIn '%' IsSpec spec "%-5d%".toList := by
  have hnil : IsSpec [] := greedy_skipSpec.nil
  have hcomplete : Complete '%' IsSpec "%-5d".toList :=
    @Complete.directive _ _ _ ['-', '5'] 'd' [] (by decide) (by decide) .nil
  have hmem : Holds (memory nul "%-5d%\x00%s".toList) 0 ("%-5d%".toList ++ [nul]) :=
    holds_memory nul _ "%s".toList
  obtain ⟨es, hes⟩ := @reaches_done "%-5d%".toList (by decide)
    (.inr ⟨hnil, "%-5d".toList, hcomplete, rfl⟩)
  have hwithin := within_of_reaches hes hmem
  exact ⟨hwithin, (vsnprintf_within_iff (by decide) hmem).mp hwithin⟩

/-- A format that ends behind a width. -/
theorem width_not_within : ¬ Within (memory nul "%5\x00%s".toList) 2 := by
  have hspec : EndsIn '%' IsSpec "5".toList "%5".toList := ⟨by decide, [], .nil, rfl⟩
  have hmem : Holds (memory nul "%5\x00%s".toList) 0 ("%5".toList ++ [nul]) :=
    holds_memory nul _ "%s".toList
  exact not_within_of_endsIn (by decide) hspec (by decide) hmem

end EcuTelemetry.Printf
