import Mathlib.Data.List.Basic
import Mathlib.Tactic.Common

/-!
# Search patterns

A pattern is a sequence of literal characters and captured repetitions `([..]+)` over a class of
characters. Matching is greedy with backtracking, and `search` answers the captures of the leftmost
match. A pattern whose repetitions are all cut off by a character outside their class reads back the
captures a text was spelled from.
-/

namespace EcuTelemetry.Core.Pattern

variable {α : Type*} [DecidableEq α]

/-- A literal, or a captured repetition of at least one character of a class. -/
inductive Piece (α : Type*) where
  | lit (a : α)
  | plus (p : α → Bool)

/-- The pieces of a literal text. -/
def text (s : List α) : List (Piece α) := s.map .lit

/-- Captures `n` characters, or as few less as `rest` needs to match what follows. -/
def backtrack (rest : List α → Option (List (List α))) (s : List α) : ℕ → Option (List (List α))
  | 0     => none
  | n + 1 =>
    match rest (s.drop (n + 1)) with
    | some caps => some (s.take (n + 1) :: caps)
    | none      => backtrack rest s n

/-- The captures of a match at the start of `s`. -/
def matchAt : List (Piece α) → List α → Option (List (List α))
  | [], _                 => some []
  | .lit _ :: _, []       => none
  | .lit a :: ps, b :: s  => if b = a then matchAt ps s else none
  | .plus p :: ps, s      => backtrack (matchAt ps) s (s.takeWhile p).length

/-- The captures of the leftmost match in `s`. -/
def search (ps : List (Piece α)) : List α → Option (List (List α))
  | []     => matchAt ps []
  | b :: s =>
    match matchAt ps (b :: s) with
    | some caps => some caps
    | none      => search ps s

lemma search_of_matchAt {ps : List (Piece α)} {s : List α} {caps : List (List α)}
    (h : matchAt ps s = some caps) : search ps s = some caps := by
  cases s with
  | nil      => exact h
  | cons b s => simp [search, h]

/-! ### Texts spelled from captures -/

omit [DecidableEq α] in
/-- `s` is the pattern with its repetitions replaced by the captures. -/
inductive Spells : List (Piece α) → List (List α) → List α → Prop where
  | nil : Spells [] [] []
  | lit {a : α} {ps : List (Piece α)} {caps : List (List α)} {s : List α} :
      Spells ps caps s → Spells (.lit a :: ps) caps (a :: s)
  | plus {p : α → Bool} {d : List α} {ps : List (Piece α)} {caps : List (List α)} {s : List α} :
      d ≠ [] → (∀ a ∈ d, p a) → Spells ps caps s → Spells (.plus p :: ps) (d :: caps) (d ++ s)

omit [DecidableEq α] in
lemma Spells.text_append {ps : List (Piece α)} {caps : List (List α)} {s : List α} (t : List α)
    (h : Spells ps caps s) : Spells (text t ++ ps) caps (t ++ s) := by
  induction t with
  | nil         => exact h
  | cons a t ih => exact .lit ih

/-- `s` does not go on with a character of the class. -/
def Stops (p : α → Bool) (s : List α) : Prop := ∀ a ∈ s.head?, p a = false

/-- Every repetition is cut off: by the literal after it or, at the end, by the rest of the line. -/
def Delimited : List (Piece α) → List α → Prop
  | [], _                        => True
  | .lit _ :: ps, rest           => Delimited ps rest
  | [.plus p], rest              => Stops p rest
  | .plus p :: .lit a :: ps, rest => p a = false ∧ Delimited ps rest
  | .plus _ :: .plus _ :: _, _   => False

omit [DecidableEq α] in
lemma delimited_text {ps : List (Piece α)} {rest : List α} (t : List α) (h : Delimited ps rest) :
    Delimited (text t ++ ps) rest := by
  induction t with
  | nil         => exact h
  | cons a t ih => exact ih

omit [DecidableEq α] in
lemma delimited_plus_text {p : α → Bool} {ps : List (Piece α)} {rest t : List α} {a : α}
    (ht : t.head? = some a) (ha : p a = false) (h : Delimited ps rest) :
    Delimited (.plus p :: (text t ++ ps)) rest := by
  obtain ⟨u, rfl⟩ := List.head?_eq_some_iff.mp ht
  exact ⟨ha, delimited_text u h⟩

omit [DecidableEq α] in
lemma takeWhile_append_of_stops {p : α → Bool} {d s : List α} (hd : ∀ a ∈ d, p a)
    (hs : Stops p s) : (d ++ s).takeWhile p = d := by
  have htail : s.takeWhile p = [] := by
    cases s with
    | nil      => rfl
    | cons b s => simp [hs b rfl]
  rw [List.takeWhile_append_of_pos hd, htail, List.append_nil]

omit [DecidableEq α] in
lemma Delimited.stops {p : α → Bool} {ps : List (Piece α)} {rest : List α}
    (h : Delimited (.plus p :: ps) rest) {caps : List (List α)} {s : List α}
    (hs : Spells ps caps s) : Stops p (s ++ rest) ∧ Delimited ps rest := by
  cases hs with
  | nil              => exact ⟨h, trivial⟩
  | lit hs           =>
    refine ⟨?_, h.2⟩
    rintro a ha
    obtain rfl : _ = a := Option.some.inj ha
    exact h.1
  | plus _ _ _       => exact h.elim

/-- A match that takes the whole run of the class at once does not backtrack. -/
lemma matchAt_plus {p : α → Bool} {ps : List (Piece α)} {d s : List α} {caps : List (List α)}
    (hne : d ≠ []) (hd : ∀ a ∈ d, p a) (hstop : Stops p s) (hrest : matchAt ps s = some caps) :
    matchAt (.plus p :: ps) (d ++ s) = some (d :: caps) := by
  obtain ⟨n, hn⟩ : ∃ n, d.length = n + 1 :=
    Nat.exists_eq_succ_of_ne_zero (fun h => hne (List.length_eq_zero_iff.mp h))
  have hdrop : (d ++ s).drop (n + 1) = s := by rw [← hn, List.drop_left]
  have htake : (d ++ s).take (n + 1) = d := by rw [← hn, List.take_left]
  rw [matchAt, takeWhile_append_of_stops hd hstop, hn, backtrack, hdrop, hrest, htake]

/-- A delimited pattern reads the captures back. -/
theorem matchAt_of_spells {ps : List (Piece α)} {caps : List (List α)} {s rest : List α}
    (hs : Spells ps caps s) (hp : Delimited ps rest) : matchAt ps (s ++ rest) = some caps := by
  induction hs with
  | nil                => rfl
  | lit _ ih           =>
    rw [List.cons_append, matchAt, if_pos rfl]
    exact ih hp
  | plus hne hd hs ih  =>
    obtain ⟨hstop, hp⟩ := hp.stops hs
    rw [List.append_assoc]
    exact matchAt_plus hne hd hstop (ih hp)

end EcuTelemetry.Core.Pattern
