import Mathlib.Data.List.Basic
import Mathlib.Data.List.Induction
import Mathlib.Tactic.Common

/-!
# Machines fed in chunks

A machine that may fail takes a stream item by item and shows events. A program that polls for input
feeds it the stream in chunks, whatever has arrived at each poll. How the stream is cut makes no
difference (`feed_flatten`), and what every item preserves holds after the stream
(`feed_invariant`).
-/

namespace EcuTelemetry.Core

variable {σ α ε φ : Type*} (step : σ → α → Except φ (σ × List ε))

/-- The machine fed with a stream: the state after it and the events shown, oldest first. -/
def feed (s : σ) : List α → Except φ (σ × List ε)
  | []      => .ok (s, [])
  | a :: as => do
    let (s, log) ← step s a
    let (s, log') ← feed s as
    return (s, log ++ log')

/-- A stream in two parts. -/
lemma feed_append (s : σ) (as bs : List α) :
    feed step s (as ++ bs) = (do
      let (s, log) ← feed step s as
      let (s, log') ← feed step s bs
      return (s, log ++ log')) := by
  induction as generalizing s with
  | nil =>
    simp only [List.nil_append, feed, bind, Except.bind]
    rcases feed step s bs with e | ⟨t, log⟩ <;> rfl
  | cons a as ih =>
    simp only [List.cons_append, feed, bind, Except.bind]
    rcases step s a with e | ⟨t, log⟩
    · rfl
    · simp only [ih t, bind, Except.bind]
      rcases feed step t as with e | ⟨u, log'⟩
      · rfl
      · simp only [pure, Except.pure]
        rcases feed step u bs with e | ⟨v, log''⟩
        · rfl
        · simp only [List.append_assoc]

/-- Feeding a stream in chunks is feeding it at once. -/
theorem feed_flatten (s : σ) (chunks : List (List α)) :
    feed (feed step) s chunks = feed step s chunks.flatten := by
  induction chunks generalizing s with
  | nil => rfl
  | cons as chunks ih =>
    rw [List.flatten_cons, feed_append, feed]
    simp only [ih]

variable {step}

/-- The invariant rule for a predicate on the state, the stream so far and the events so far. When
every item preserves it without a failure, it holds after every stream. -/
theorem feed_invariant {P : σ → List α → List ε → Prop}
    (hstep : ∀ s as log a, P s as log →
      ∃ s' log', step s a = .ok (s', log') ∧ P s' (as ++ [a]) (log ++ log'))
    {s : σ} (h : P s [] []) (as : List α) :
    ∃ s' log, feed step s as = .ok (s', log) ∧ P s' as log := by
  induction as using List.reverseRecOn with
  | nil => exact ⟨s, [], rfl, h⟩
  | append_singleton as a ih =>
    obtain ⟨t, log, hfeed, ht⟩ := ih
    obtain ⟨u, log', hlast, hu⟩ := hstep t as log a ht
    refine ⟨u, log ++ log', ?_, hu⟩
    rw [feed_append, hfeed]
    simp only [bind, Except.bind, feed, hlast]
    exact congrArg (fun l => Except.ok (u, log ++ l)) (List.append_nil log')

end EcuTelemetry.Core
