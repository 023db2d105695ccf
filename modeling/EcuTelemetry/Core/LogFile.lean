import EcuTelemetry.Core.Pattern

/-!
# Logs read line by line

A script that goes through a text file line by line and takes a row out of each line in which a
pattern is found. The log is written in entries: fragments without a certain character, the mark,
which begin and end anywhere in a line, and entries that begin with the mark and end their line.
When the pattern begins with the mark, `rows_eq` gives the rows entry by entry, whatever fragments
stand in front of an entry on its line.
-/

namespace EcuTelemetry.Core.LogFile

/-! ### Lines -/

/-- A file opened as text: `\r\n` and `\r` are read as `\n`. -/
def universal : List Char → List Char
  | []               => []
  | '\r' :: '\n' :: s => '\n' :: universal s
  | c :: s           => (if c = '\r' then '\n' else c) :: universal s

lemma universal_eq {s : List Char} (h : '\r' ∉ s) : universal s = s := by
  fun_induction universal s with
  | case1 => rfl
  | case2 s ih => exact absurd List.mem_cons_self h
  | case3 c s _ ih =>
    obtain ⟨hc, hs⟩ := List.ne_and_not_mem_of_not_mem_cons h
    rw [if_neg (Ne.symm hc), ih hs]

/-- The lines of a file, with their ends. -/
def linesOf : List Char → List (List Char)
  | []     => []
  | c :: s =>
    if c = '\n' then ['\n'] :: linesOf s
    else
      match linesOf s with
      | []            => [[c]]
      | line :: lines => (c :: line) :: lines

/-- A line that ends. -/
lemma linesOf_line {body : List Char} (h : '\n' ∉ body) (rest : List Char) :
    linesOf (body ++ '\n' :: rest) = (body ++ ['\n']) :: linesOf rest := by
  induction body with
  | nil => rfl
  | cons c body ih =>
    obtain ⟨hc, hbody⟩ := List.ne_and_not_mem_of_not_mem_cons h
    rw [List.cons_append, linesOf, if_neg (Ne.symm hc), ih hbody]
    rfl

/-- The last line, if it does not end. -/
lemma linesOf_last {body : List Char} (h : '\n' ∉ body) (hne : body ≠ []) :
    linesOf body = [body] := by
  induction body with
  | nil => exact absurd rfl hne
  | cons c body ih =>
    obtain ⟨hc, hbody⟩ := List.ne_and_not_mem_of_not_mem_cons h
    rw [linesOf, if_neg (Ne.symm hc)]
    cases body with
    | nil => rfl
    | cons d body => rw [ih hbody (List.cons_ne_nil _ _)]

/-! ### Rows -/

variable {β : Type*}

/-- The rows that are found in the lines, with the numbers of their lines, the first of which is
`n`. -/
def rowsFrom (find : List Char → Option β) : ℕ → List (List Char) → List (ℕ × β)
  | _, []             => []
  | n, line :: lines => ((find line).map (n, ·)).toList ++ rowsFrom find (n + 1) lines

/-- The rows that a script takes out of a file. -/
def rowsOf (find : List Char → Option β) (log : List Char) : List (ℕ × β) :=
  rowsFrom find 1 (linesOf (universal log))

/-- A search for something that begins with the mark. -/
structure Seeks (mark : Char) (find : List Char → Option β) : Prop where
  none_of : ∀ s, mark ∉ s → find s = none
  skip : ∀ pre s, mark ∉ pre → find (pre ++ s) = find s

/-- A pattern that begins with a text. -/
lemma seeks_search {mark : Char} {t : List Char} (ht : t.head? = some mark)
    {ps : List (Pattern.Piece Char)} : Seeks mark (Pattern.search (Pattern.text t ++ ps)) := by
  obtain ⟨u, rfl⟩ := List.head?_eq_some_iff.mp ht
  have hskip (pre s : List Char) (h : mark ∉ pre) :
      Pattern.search (Pattern.text (mark :: u) ++ ps) (pre ++ s) =
        Pattern.search (Pattern.text (mark :: u) ++ ps) s := by
    induction pre with
    | nil => rfl
    | cons c pre ih =>
      obtain ⟨hc, hpre⟩ := List.ne_and_not_mem_of_not_mem_cons h
      have hno : Pattern.matchAt (Pattern.text (mark :: u) ++ ps) (c :: (pre ++ s)) = none :=
        if_neg (Ne.symm hc)
      rw [List.cons_append, Pattern.search, hno]
      exact ih hpre
  refine ⟨fun s h => ?_, hskip⟩
  have hend := hskip s [] h
  rw [List.append_nil] at hend
  rw [hend]
  rfl

/-- A text that the pattern spells out is not there. -/
lemma matchAt_text {t s : List Char} (h : ¬ t <+: s) (ps : List (Pattern.Piece Char)) :
    Pattern.matchAt (Pattern.text t ++ ps) s = none := by
  induction t generalizing s with
  | nil => exact absurd (List.nil_prefix) h
  | cons a t ih =>
    cases s with
    | nil => rfl
    | cons b s =>
      show (if b = a then Pattern.matchAt (Pattern.text t ++ ps) s else none) = none
      split_ifs with hb
      · exact ih fun hpre => h (hb ▸ List.cons_prefix_cons.mpr ⟨rfl, hpre⟩)
      · rfl

/-- A line with one mark, on which the text of the pattern does not stand. -/
lemma search_other {mark : Char} {t body : List Char} (ht : t.head? = some mark)
    (h : ¬ t <+: mark :: body) (hbody : mark ∉ body) (ps : List (Pattern.Piece Char)) :
    Pattern.search (Pattern.text t ++ ps) (mark :: body) = none := by
  rw [Pattern.search, matchAt_text h]
  exact (seeks_search ht).none_of body hbody

/-- What is written to the log at once. -/
inductive Entry (mark : Char) where
  | fragment (s : List Char) (h : mark ∉ s)
  | line (body : List Char) (hmark : mark ∉ body) (hend : '\n' ∉ body)

namespace Entry

variable {mark : Char}

/-- Its text. -/
def text : Entry mark → List Char
  | fragment s _  => s
  | line body _ _ => mark :: body ++ ['\n']

/-- What is found in it. -/
def found (find : List Char → Option β) : Entry mark → Option β
  | fragment _ _  => none
  | line body _ _ => find (mark :: body ++ ['\n'])

end Entry

variable {mark : Char} {find : List Char → Option β}

/-- The rows entry by entry, when `n - 1` lines have ended before. -/
def entryRows (find : List Char → Option β) : ℕ → List (Entry mark) → List (ℕ × β)
  | _, []      => []
  | n, e :: es => ((e.found find).map (n, ·)).toList ++ entryRows find (n + e.text.count '\n') es

/-- Behind the line that a fragment leaves open, the rows go on. -/
lemma rowsFrom_fragment (hfind : Seeks mark find) (hmark : mark ≠ '\n') {s : List Char}
    (hs : mark ∉ s) {pre : List Char} (hpre : mark ∉ pre) (hopen : '\n' ∉ pre) :
    ∃ last, mark ∉ last ∧ '\n' ∉ last ∧ ∀ n rest,
      rowsFrom find n (linesOf (pre ++ (s ++ rest))) =
        rowsFrom find (n + s.count '\n') (linesOf (last ++ rest)) := by
  induction s generalizing pre with
  | nil => exact ⟨pre, hpre, hopen, fun n rest => rfl⟩
  | cons c s ih =>
    obtain ⟨hc, hs⟩ := List.ne_and_not_mem_of_not_mem_cons hs
    by_cases hend : c = '\n'
    · obtain ⟨last, hlast, hlopen, hrows⟩ := ih hs (List.not_mem_nil (a := mark)) List.not_mem_nil
      refine ⟨last, hlast, hlopen, fun n rest => ?_⟩
      have hnone : find (pre ++ ['\n']) = none := by
        refine hfind.none_of _ ?_
        rw [List.mem_append, not_or]
        exact ⟨hpre, fun h => hmark (List.mem_singleton.mp h)⟩
      have hgo := hrows (n + 1) rest
      rw [List.nil_append] at hgo
      rw [hend, List.cons_append, linesOf_line hopen, rowsFrom, hnone, List.count_cons_self,
        ← Nat.add_assoc, Nat.add_right_comm, ← hgo]
      rfl
    · have hpre' : mark ∉ pre ++ [c] := by
        rw [List.mem_append, not_or]
        exact ⟨hpre, fun h => hc (List.mem_singleton.mp h)⟩
      have hopen' : '\n' ∉ pre ++ [c] := by
        rw [List.mem_append, not_or]
        exact ⟨hopen, fun h => hend (List.mem_singleton.mp h).symm⟩
      obtain ⟨last, hlast, hlopen, hrows⟩ := ih hs hpre' hopen'
      refine ⟨last, hlast, hlopen, fun n rest => ?_⟩
      have hgo := hrows n rest
      rw [List.append_assoc] at hgo
      rw [List.count_cons_of_ne hend]
      exact hgo

/-- The rows of the rest of a log, behind an open line. -/
lemma rowsFrom_eq (hfind : Seeks mark find) (hmark : mark ≠ '\n') (es : List (Entry mark)) (n : ℕ)
    {pre : List Char} (hpre : mark ∉ pre) (hopen : '\n' ∉ pre) :
    rowsFrom find n (linesOf (pre ++ es.flatMap Entry.text)) = entryRows find n es := by
  induction es generalizing n pre with
  | nil =>
    rw [List.flatMap_nil, List.append_nil]
    by_cases hne : pre = []
    · rw [hne]
      rfl
    · rw [linesOf_last hopen hne, rowsFrom, hfind.none_of pre hpre]
      rfl
  | cons e es ih =>
    rw [List.flatMap_cons]
    cases e with
    | fragment s hs =>
      obtain ⟨last, hlast, hlopen, hrows⟩ := rowsFrom_fragment hfind hmark hs hpre hopen
      show rowsFrom find n (linesOf (pre ++ (s ++ es.flatMap Entry.text))) = _
      rw [hrows, ih _ hlast hlopen]
      rfl
    | line body hbody hend =>
      have hline : '\n' ∉ pre ++ mark :: body := by
        rw [List.mem_append, not_or, List.mem_cons, not_or]
        exact ⟨hopen, Ne.symm hmark, hend⟩
      have hsplit : pre ++ ((Entry.line body hbody hend).text ++ es.flatMap Entry.text) =
          (pre ++ mark :: body) ++ '\n' :: es.flatMap Entry.text := by
        simp [Entry.text]
      have hcount : (Entry.line body hbody hend).text.count '\n' = 1 := by
        rw [Entry.text, List.count_append, List.count_cons_of_ne hmark,
          List.count_eq_zero_of_not_mem hend]
        rfl
      have hnext := ih (n + 1) (List.not_mem_nil (a := mark)) List.not_mem_nil
      rw [List.nil_append] at hnext
      rw [hsplit, linesOf_line hline, rowsFrom, hnext, List.append_assoc, hfind.skip pre _ hpre,
        entryRows, hcount]
      rfl

/-- The rows of a log, entry by entry. -/
theorem rows_eq (hfind : Seeks mark find) (hmark : mark ≠ '\n') (es : List (Entry mark))
    (hreturn : '\r' ∉ es.flatMap Entry.text) :
    rowsOf find (es.flatMap Entry.text) = entryRows find 1 es := by
  have h := rowsFrom_eq hfind hmark es 1 (List.not_mem_nil (a := mark)) List.not_mem_nil
  rw [List.nil_append] at h
  rw [rowsOf, universal_eq hreturn, h]

/-- Without the numbers. -/
lemma map_snd_entryRows (n : ℕ) (es : List (Entry mark)) :
    (entryRows find n es).map Prod.snd = es.filterMap (Entry.found find) := by
  induction es generalizing n with
  | nil => rfl
  | cons e es ih =>
    rw [entryRows, List.map_append, ih]
    cases h : e.found find with
    | none => rw [List.filterMap_cons_none h]; rfl
    | some b => rw [List.filterMap_cons_some h]; rfl

end EcuTelemetry.Core.LogFile
