import EcuTelemetry.Core.Machine

/-!
# Readers

A reader goes through a text with a pointer. In each state it reads the character the pointer is at,
shows something, moves the pointer on or leaves it, and goes to another state; or it has stopped. On
a memory a reader is a machine that shows every place it reads.

`Reaches` is a run on a text alone, for which the text suffices. It carries over to every memory
that holds the text, whatever stands behind.
-/

namespace EcuTelemetry.Core

/-- What a reader does when it has read a character. -/
structure Reaction (Q ε : Type*) where
  next : Q
  moves : Bool
  shows : List ε

/-- A reader with states `Q`, which reads characters from `α` and shows events from `ε`. It has
stopped in the states where it reads nothing. -/
structure Reader (Q α ε : Type*) where
  react : Q → Option (α → Reaction Q ε)

/-- A place read, or an event shown. -/
inductive Seen (ε : Type*) where
  | read (i : ℕ)
  | shown (e : ε)
  deriving DecidableEq, Repr

namespace Reader

variable {Q α ε : Type*} (r : Reader Q α ε)

/-- The reader on a memory, from its state and its pointer. -/
def on (mem : ℕ → α) : Machine (Q × ℕ) Unit (Seen ε) where
  step c _ :=
    match r.react c.1 with
    | none   => (c, [])
    | some f =>
      let x := f (mem c.2)
      ((x.next, if x.moves then c.2 + 1 else c.2), .read c.2 :: x.shows.map .shown)

/-- The events shown in a log. -/
def shownOf (log : List (Seen ε)) : List ε :=
  log.flatMap fun
    | .read _  => []
    | .shown e => [e]

@[simp] lemma shownOf_append (log log' : List (Seen ε)) :
    shownOf (log ++ log') = shownOf log ++ shownOf log' := List.flatMap_append

@[simp] lemma shownOf_read (i : ℕ) (log : List (Seen ε)) :
    shownOf (.read i :: log) = shownOf log := rfl

@[simp] lemma shownOf_map_shown (es : List ε) : shownOf (es.map .shown) = es := by
  simp [shownOf, List.flatMap_map]

/-! ### Runs on a text -/

/-- From state `q`, with `s` before the pointer, the reader comes to state `q'` with `s'` before it
and shows `es`. It reads nothing behind `s`. -/
inductive Reaches : Q → List α → Q → List α → List ε → Prop where
  | refl (q : Q) (s : List α) : Reaches q s q s []
  | stay {q q' : Q} {f : α → Reaction Q ε} {a : α} {s s' : List α} {es : List ε} :
      r.react q = some f → (f a).moves = false → Reaches (f a).next (a :: s) q' s' es →
        Reaches q (a :: s) q' s' ((f a).shows ++ es)
  | move {q q' : Q} {f : α → Reaction Q ε} {a : α} {s s' : List α} {es : List ε} :
      r.react q = some f → (f a).moves = true → Reaches (f a).next s q' s' es →
        Reaches q (a :: s) q' s' ((f a).shows ++ es)

variable {r}

lemma Reaches.trans {q q' q'' : Q} {s s' s'' : List α} {es es' : List ε}
    (h : r.Reaches q s q' s' es) (h' : r.Reaches q' s' q'' s'' es') :
    r.Reaches q s q'' s'' (es ++ es') := by
  induction h with
  | refl q s => exact h'
  | stay hq hf _ ih =>
    rw [List.append_assoc]
    exact .stay hq hf (ih h')
  | move hq hf _ ih =>
    rw [List.append_assoc]
    exact .move hq hf (ih h')

/-- One character is left where it is. -/
lemma Reaches.stay_one {q q' : Q} {a : α} {es : List ε}
    (h : (r.react q).map (· a) = some ⟨q', false, es⟩) (s : List α) :
    r.Reaches q (a :: s) q' (a :: s) es := by
  obtain ⟨f, hq, hf⟩ := Option.map_eq_some_iff.mp h
  have hone := Reaches.stay hq (by rw [hf]) (.refl (r := r) (f a).next (a :: s))
  rwa [hf, List.append_nil] at hone

/-- One character is passed. -/
lemma Reaches.move_one {q q' : Q} {a : α} {es : List ε}
    (h : (r.react q).map (· a) = some ⟨q', true, es⟩) (s : List α) :
    r.Reaches q (a :: s) q' s es := by
  obtain ⟨f, hq, hf⟩ := Option.map_eq_some_iff.mp h
  have hone := Reaches.move hq (by rw [hf]) (.refl (r := r) (f a).next s)
  rwa [hf, List.append_nil] at hone

lemma Reaches.length_le {q q' : Q} {s s' : List α} {es : List ε} (h : r.Reaches q s q' s' es) :
    s'.length ≤ s.length := by
  induction h with
  | refl q s         => exact Nat.le_refl _
  | stay _ _ _ ih    => exact ih
  | move _ _ _ ih    => exact Nat.le_succ_of_le ih

/-- Events of a kind that is shown only when the pointer moves are no more than the characters
passed. -/
lemma Reaches.count_le {q q' : Q} {s s' : List α} {es : List ε} (h : r.Reaches q s q' s' es)
    {kind : ε → Bool} (hkind : ∀ q f a, r.react q = some f →
      (f a).shows.countP kind ≤ if (f a).moves then 1 else 0) :
    es.countP kind + s'.length ≤ s.length := by
  induction h with
  | refl q s => simp
  | @stay q q' f a s s' es hq hf _ ih =>
    have hone := hkind q f a hq
    rw [hf, if_neg (by decide), Nat.le_zero] at hone
    rw [List.countP_append, hone, Nat.zero_add]
    exact ih
  | @move q q' f a s s' es hq hf _ ih =>
    have hone := hkind q f a hq
    rw [hf, if_pos rfl] at hone
    rw [List.countP_append, List.length_cons]
    omega

/-! ### Runs on a memory -/

/-- The memory holds `s` from place `p` on. -/
def Holds (mem : ℕ → α) (p : ℕ) (s : List α) : Prop := ∀ i (h : i < s.length), mem (p + i) = s[i]

lemma Holds.head {mem : ℕ → α} {p : ℕ} {a : α} {s : List α} (h : Holds mem p (a :: s)) :
    mem p = a := h 0 (Nat.succ_pos _)

lemma Holds.tail {mem : ℕ → α} {p : ℕ} {a : α} {s : List α} (h : Holds mem p (a :: s)) :
    Holds mem (p + 1) s := by
  intro i hi
  have hget := h (i + 1) (Nat.succ_lt_succ hi)
  rwa [← Nat.add_assoc, Nat.add_right_comm, List.getElem_cons_succ] at hget

/-- The memory that begins with a text. -/
def memory (a : α) (s : List α) (i : ℕ) : α := s[i]?.getD a

lemma holds_memory (a : α) (s t : List α) : Holds (memory a (s ++ t)) 0 s := by
  intro i hi
  rw [Nat.zero_add, memory, List.getElem?_append_left hi, List.getElem?_eq_getElem hi]
  rfl

lemma next_of_react {mem : ℕ → α} {q : Q} {f : α → Reaction Q ε} (hq : r.react q = some f)
    (p : ℕ) :
    (r.on mem).next (q, p) () =
      ((f (mem p)).next, if (f (mem p)).moves then p + 1 else p) := by
  simp only [Machine.next, on, hq]

lemma emit_of_react {mem : ℕ → α} {q : Q} {f : α → Reaction Q ε} (hq : r.react q = some f)
    (p : ℕ) : (r.on mem).emit (q, p) () = .read p :: (f (mem p)).shows.map .shown := by
  simp only [Machine.emit, on, hq]

/-- A run on a text is a run on every memory that holds it, and reads only the text. -/
theorem Reaches.run {mem : ℕ → α} {q q' : Q} {s s' : List α} {es : List ε}
    (h : r.Reaches q s q' s' es) {p : ℕ} (hs : Holds mem p s) :
    ∃ n p', (r.on mem).run (q, p) (List.replicate n ()) = (q', p') ∧
      p' + s'.length = p + s.length ∧
      shownOf ((r.on mem).trace (q, p) (List.replicate n ())) = es ∧
      ∀ i, .read i ∈ (r.on mem).trace (q, p) (List.replicate n ()) → i < p + s.length := by
  induction h generalizing p with
  | refl q s => exact ⟨0, p, rfl, rfl, rfl, by simp⟩
  | @stay q q' f a s s' es hq hf _ ih =>
    obtain ⟨n, p', hrun, hlen, hshown, hread⟩ := ih hs
    have hnext : (r.on mem).next (q, p) () = ((f a).next, p) := by
      rw [next_of_react hq, hs.head, hf]
      rfl
    refine ⟨n + 1, p', ?_, hlen, ?_, fun i hi => ?_⟩
    · rw [List.replicate_succ, Machine.run_cons, hnext, hrun]
    · rw [List.replicate_succ, Machine.trace_cons, hnext, emit_of_react hq, hs.head,
        shownOf_append, shownOf_read, shownOf_map_shown, hshown]
    · rw [List.replicate_succ, Machine.trace_cons, hnext, emit_of_react hq, hs.head] at hi
      rcases List.mem_append.mp hi with hi | hi
      · obtain rfl : i = p := by simpa using hi
        exact Nat.lt_add_of_pos_right (Nat.succ_pos _)
      · exact hread i hi
  | @move q q' f a s s' es hq hf _ ih =>
    obtain ⟨n, p', hrun, hlen, hshown, hread⟩ := ih hs.tail
    have hnext : (r.on mem).next (q, p) () = ((f a).next, p + 1) := by
      rw [next_of_react hq, hs.head, hf]
      rfl
    have hsucc : p + 1 + s.length = p + (a :: s).length := by
      rw [List.length_cons, Nat.add_right_comm, Nat.add_assoc]
    refine ⟨n + 1, p', ?_, hlen.trans hsucc, ?_, fun i hi => ?_⟩
    · rw [List.replicate_succ, Machine.run_cons, hnext, hrun]
    · rw [List.replicate_succ, Machine.trace_cons, hnext, emit_of_react hq, hs.head,
        shownOf_append, shownOf_read, shownOf_map_shown, hshown]
    · rw [List.replicate_succ, Machine.trace_cons, hnext, emit_of_react hq, hs.head] at hi
      rcases List.mem_append.mp hi with hi | hi
      · obtain rfl : i = p := by simpa using hi
        exact Nat.lt_add_of_pos_right (Nat.succ_pos _)
      · exact hsucc ▸ hread i hi

/-- A reader that has stopped does nothing more. -/
lemma trace_of_stopped {mem : ℕ → α} {q : Q} (hq : r.react q = none) (p : ℕ) (acts : List Unit) :
    (r.on mem).trace (q, p) acts = [] := by
  induction acts with
  | nil => rfl
  | cons a acts ih =>
    have hstep : (r.on mem).step (q, p) a = ((q, p), []) := by simp only [on, hq]
    rw [Machine.trace_cons, Machine.emit, Machine.next, hstep, ih]
    rfl

/-- Once the reader stops on a text, every run on a memory that holds the text shows a first part of
what it shows then, and reads only the text. -/
theorem Reaches.stops {mem : ℕ → α} {q q' : Q} {s s' : List α} {es : List ε}
    (h : r.Reaches q s q' s' es) (hstop : r.react q' = none) {p : ℕ} (hs : Holds mem p s)
    (acts : List Unit) :
    shownOf ((r.on mem).trace (q, p) acts) <+: es ∧
      ∀ i, .read i ∈ (r.on mem).trace (q, p) acts → i < p + s.length := by
  obtain ⟨n, p', hrun, -, hshown, hread⟩ := h.run hs
  have hacts : acts = List.replicate acts.length () := List.eq_replicate_of_mem fun _ _ => rfl
  rcases Nat.le_total acts.length n with hle | hle
  · -- the run has not come to the end
    have hsplit : List.replicate n () = acts ++ List.replicate (n - acts.length) () := by
      conv_rhs => rw [hacts, List.length_replicate, List.replicate_append_replicate,
        Nat.add_sub_cancel' hle]
    rw [hsplit, Machine.trace_append] at hshown hread
    rw [shownOf_append] at hshown
    exact ⟨⟨_, hshown⟩, fun i hi => hread i (List.mem_append_left _ hi)⟩
  · -- the run has passed the end
    have hsplit : acts = List.replicate n () ++ List.replicate (acts.length - n) () := by
      rw [List.replicate_append_replicate, Nat.add_sub_cancel' hle]
      exact hacts
    rw [hsplit, Machine.trace_append, hrun, trace_of_stopped hstop, List.append_nil]
    exact ⟨⟨[], by rw [hshown, List.append_nil]⟩, hread⟩

/-- A reader that has passed the whole text and has not stopped reads the place behind it. -/
theorem Reaches.leaves {mem : ℕ → α} {q q' : Q} {f : α → Reaction Q ε} {s : List α} {es : List ε}
    (h : r.Reaches q s q' [] es) (hq : r.react q' = some f) {p : ℕ} (hs : Holds mem p s) :
    ∃ acts, .read (p + s.length) ∈ (r.on mem).trace (q, p) acts := by
  obtain ⟨n, p', hrun, hlen, -, -⟩ := h.run hs
  obtain rfl : p' = p + s.length := hlen
  refine ⟨List.replicate n () ++ [()], ?_⟩
  rw [Machine.trace_append, hrun, Machine.trace_cons, emit_of_react hq]
  simp

/-! ### Texts with a terminator -/

/-- A reader that stops on the terminator has read nothing behind it. -/
lemma Reaches.within {mem : ℕ → α} {q q' : Q} {a : α} {s s' : List α} {es : List ε}
    (h : r.Reaches q (s ++ [a]) q' s' es) (hstop : r.react q' = none) (hs : Holds mem 0 (s ++ [a]))
    (acts : List Unit) (i : ℕ) (hi : .read i ∈ (r.on mem).trace (q, 0) acts) : i ≤ s.length := by
  have hlt := (h.stops hstop hs acts).2 i hi
  rw [List.length_append, List.length_singleton, Nat.zero_add] at hlt
  exact Nat.le_of_lt_succ hlt

/-- A reader that has passed the terminator and has not stopped reads behind it. -/
lemma Reaches.overruns {mem : ℕ → α} {q q' : Q} {f : α → Reaction Q ε} {a : α} {s : List α}
    {es : List ε} (h : r.Reaches q (s ++ [a]) q' [] es) (hq : r.react q' = some f)
    (hs : Holds mem 0 (s ++ [a])) :
    ∃ acts, .read (s.length + 1) ∈ (r.on mem).trace (q, 0) acts := by
  have hread := h.leaves hq hs
  rwa [List.length_append, List.length_singleton, Nat.zero_add] at hread

/-- A reader that stops on a text comes to its end on every memory that holds the text. -/
lemma Reaches.ends {mem : ℕ → α} {q q' : Q} {s s' : List α} {es : List ε}
    (h : r.Reaches q s q' s' es) {p : ℕ} (hs : Holds mem p s) :
    ∃ acts, ((r.on mem).run (q, p) acts).1 = q' := by
  obtain ⟨n, p', hrun, -⟩ := h.run hs
  exact ⟨List.replicate n (), by rw [hrun]⟩

end Reader

end EcuTelemetry.Core
