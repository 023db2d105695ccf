import EcuTelemetry.Core.Reader
import Mathlib.Data.List.TakeWhile
import Mathlib.Tactic.Common

/-!
# Formats with directives

A format is plain text with directives in it: a mark, a specification and a letter. A specification
goes on as long as it can, so that the letter is the first character that does not belong to it.
Every format is made of plain characters and complete directives, or ends inside a directive. A
reader that comes back to one state behind each of them comes back to it behind a complete format.
-/

namespace EcuTelemetry.Core.Directive

variable {α : Type*} (mark : α) (Spec : List α → Prop)

/-- Plain characters and complete directives. -/
inductive Complete : List α → Prop where
  | nil : Complete []
  | plain {a : α} {fmt : List α} : a ≠ mark → Complete fmt → Complete (a :: fmt)
  | directive {spec : List α} {letter : α} {fmt : List α} :
      Spec spec → ¬ Spec (spec ++ [letter]) → Complete fmt →
        Complete (mark :: (spec ++ letter :: fmt))

/-- The format ends inside a directive, behind the specification `spec`. -/
def EndsIn (spec fmt : List α) : Prop :=
  Spec spec ∧ ∃ before, Complete mark Spec before ∧ fmt = before ++ mark :: spec

variable {mark Spec}

/-- The specification in front of `rest` that begins with `spec`, taken as long as it goes. -/
lemma exists_longest {spec : List α} (hspec : Spec spec) (rest : List α) :
    Spec (spec ++ rest) ∨ ∃ spec' letter rest', Spec spec' ∧ ¬ Spec (spec' ++ [letter]) ∧
      spec ++ rest = spec' ++ letter :: rest' := by
  induction rest generalizing spec with
  | nil =>
    left
    rwa [List.append_nil]
  | cons a rest ih =>
    by_cases ha : Spec (spec ++ [a])
    · simpa using ih ha
    · exact .inr ⟨spec, a, rest, hspec, ha, rfl⟩

/-- A format is complete or ends inside a directive. -/
theorem complete_or_endsIn [DecidableEq α] (hnil : Spec []) (fmt : List α) :
    Complete mark Spec fmt ∨ ∃ spec, EndsIn mark Spec spec fmt := by
  induction hn : fmt.length using Nat.strongRecOn generalizing fmt with
  | ind n ih =>
    subst hn
    cases fmt with
    | nil => exact .inl .nil
    | cons a fmt =>
      by_cases ha : a = mark
      · subst ha
        rcases exists_longest hnil fmt with hspec | ⟨spec, letter, rest, hspec, hletter, hfmt⟩
        · exact .inr ⟨fmt, hspec, [], .nil, rfl⟩
        · rw [List.nil_append] at hfmt
          subst hfmt
          have hlt : rest.length < (a :: (spec ++ letter :: rest)).length := by
            simp only [List.length_cons, List.length_append]
            omega
          rcases ih _ hlt rest rfl with hrest | ⟨spec', hspec', before, hbefore, rfl⟩
          · exact .inl (.directive hspec hletter hrest)
          · refine .inr ⟨spec', hspec', a :: (spec ++ letter :: before), ?_, by simp⟩
            exact .directive hspec hletter hbefore
      · rcases ih _ (Nat.lt_succ_self _) fmt rfl with hrest | ⟨spec, hspec, before, hbefore, rfl⟩
        · exact .inl (.plain ha hrest)
        · exact .inr ⟨spec, hspec, a :: before, .plain ha hbefore, rfl⟩

/-! ### Readers of formats -/

/-- Behind a complete format, with more in front of the terminator, a reader is back in the state
from which it reads plain characters and directives. -/
theorem Complete.reaches {Q ε : Type*} {r : Reader Q α ε} {q : Q} {nul : α}
    (hplain : ∀ a s, a ≠ nul → a ≠ mark → ∃ es, r.Reaches q (a :: s) q s es)
    (hdirective : ∀ spec letter s, Spec spec → ¬ Spec (spec ++ [letter]) → nul ∉ spec →
      letter ≠ nul →
      ∃ es, r.Reaches q (mark :: (spec ++ letter :: (s ++ [nul]))) q (s ++ [nul]) es)
    {fmt : List α} (h : Complete mark Spec fmt) (hnul : nul ∉ fmt) (rest : List α) :
    ∃ es, r.Reaches q (fmt ++ rest ++ [nul]) q (rest ++ [nul]) es := by
  induction h with
  | nil => exact ⟨[], .refl _ _⟩
  | @plain a fmt ha _ ih =>
    rw [List.mem_cons, not_or] at hnul
    obtain ⟨es, hes⟩ := hplain a (fmt ++ rest ++ [nul]) (Ne.symm hnul.1) ha
    obtain ⟨es', hes'⟩ := ih hnul.2
    exact ⟨_, hes.trans hes'⟩
  | @directive spec letter fmt hspec hletter _ ih =>
    simp only [List.mem_cons, List.mem_append, not_or] at hnul
    obtain ⟨es, hes⟩ :=
      hdirective spec letter (fmt ++ rest) hspec hletter hnul.2.1 (Ne.symm hnul.2.2.1)
    obtain ⟨es', hes'⟩ := ih hnul.2.2.2
    have hassoc : mark :: (spec ++ letter :: fmt) ++ rest ++ [nul] =
        mark :: (spec ++ letter :: (fmt ++ rest ++ [nul])) := by simp
    rw [hassoc]
    exact ⟨_, hes.trans hes'⟩

/-! ### Specifications that a scan skips -/

/-- What `skip` leaves behind an `a`, for a text that begins with `a`. -/
def skipAfter [DecidableEq α] (a : α) (skip : List α → List α) : List α → List α
  | []     => []
  | b :: s => if b = a then skip s else b :: s

/-- `skip` takes characters from the front of a text, and decides about each of them before it sees
the next. -/
structure Greedy (skip : List α → List α) : Prop where
  suffix : ∀ s, skip s <:+ s
  stopped : ∀ s t, skip s ≠ [] → skip (s ++ t) = skip s ++ t
  decided : ∀ s a, skip s = [] → skip (s ++ [a]) = [] ∨ ∀ t, skip (s ++ a :: t) = a :: t

lemma Greedy.nil {skip : List α → List α} (h : Greedy skip) : skip [] = [] :=
  List.suffix_nil.mp (h.suffix [])

lemma greedy_id : Greedy (id : List α → List α) where
  suffix _ := List.suffix_rfl
  stopped _ _ _ := rfl
  decided s a h := by
    obtain rfl : s = [] := h
    exact .inr fun t => rfl

lemma greedy_dropWhile (p : α → Bool) : Greedy (List.dropWhile p) where
  suffix _ := List.dropWhile_suffix p
  stopped s t h := by
    induction s with
    | nil => exact absurd rfl h
    | cons a s ih =>
      rw [List.cons_append, List.dropWhile_cons, List.dropWhile_cons]
      rw [List.dropWhile_cons] at h
      by_cases ha : p a
      · rw [if_pos ha] at h ⊢
        rw [if_pos ha]
        exact ih h
      · rw [if_neg ha, if_neg ha]
        rfl
  decided s a h := by
    have hall : ∀ b ∈ s, p b := List.dropWhile_eq_nil_iff.mp h
    have happend : ∀ t, (s ++ a :: t).dropWhile p = (a :: t).dropWhile p :=
      fun t => List.dropWhile_append_of_pos hall
    simp only [happend, List.dropWhile_cons]
    by_cases ha : p a
    · left
      rw [if_pos ha]
      rfl
    · right
      intro t
      rw [if_neg ha]

lemma Greedy.after [DecidableEq α] (a : α) {skip : List α → List α} (h : Greedy skip) :
    Greedy (skipAfter a skip) where
  suffix s := by
    cases s with
    | nil => exact List.suffix_rfl
    | cons b s =>
      rw [skipAfter]
      split_ifs
      · exact (h.suffix s).trans (List.suffix_cons b s)
      · exact List.suffix_rfl
  stopped s t hne := by
    cases s with
    | nil => exact absurd rfl hne
    | cons b s =>
      simp only [List.cons_append, skipAfter] at hne ⊢
      by_cases hb : b = a
      · rw [if_pos hb] at hne ⊢
        rw [if_pos hb]
        exact h.stopped s t hne
      · rw [if_neg hb, if_neg hb]
        rfl
  decided s b hs := by
    cases s with
    | nil =>
      simp only [List.nil_append, skipAfter]
      by_cases hb : b = a
      · left
        rw [if_pos hb]
        exact h.nil
      · right
        intro t
        rw [if_neg hb]
    | cons c s =>
      simp only [List.cons_append, skipAfter] at hs ⊢
      by_cases hc : c = a
      · rw [if_pos hc] at hs ⊢
        simp only [if_pos hc]
        exact h.decided s b hs
      · rw [if_neg hc] at hs
        exact absurd hs (List.cons_ne_nil _ _)

/-- One scan behind another. -/
lemma Greedy.comp {skip skip' : List α → List α} (h' : Greedy skip') (h : Greedy skip) :
    Greedy (skip' ∘ skip) where
  suffix s := (h'.suffix _).trans (h.suffix s)
  stopped s t hne := by
    have hs : skip s ≠ [] := by
      intro hnil
      rw [Function.comp_apply, hnil, h'.nil] at hne
      exact hne rfl
    rw [Function.comp_apply, h.stopped s t hs]
    exact h'.stopped _ t hne
  decided s a hs := by
    simp only [Function.comp_apply] at hs ⊢
    by_cases hnil : skip s = []
    · rcases h.decided s a hnil with hnext | hstop
      · left
        rw [hnext, h'.nil]
      · simp only [hstop]
        exact h'.decided [] a h'.nil
    · simp only [h.stopped s _ hnil]
      exact h'.decided _ a hs

/-- The scan takes a specification and stops in front of the first character that does not belong
to it. -/
lemma Greedy.skip_append {skip : List α → List α} (h : Greedy skip) {spec : List α} {letter : α}
    (hspec : skip spec = []) (hletter : ¬ skip (spec ++ [letter]) = []) (rest : List α) :
    skip (spec ++ letter :: rest) = letter :: rest :=
  (h.decided spec letter hspec).resolve_left hletter rest

end EcuTelemetry.Core.Directive
