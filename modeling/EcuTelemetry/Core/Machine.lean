import Mathlib.Tactic.Common

/-!
# Machines that show events

A machine moves from state to state under actions and shows a list of events at each step. A run
is a list of actions; its trace is everything shown along the way. Every interleaving of several
threads is a run of one machine whose actions name the thread that moves.

The two rules used throughout are `Machine.invariant`, which packages the induction over runs for a
predicate on the state reached and the trace shown so far, and `Simulation.run`, which carries runs
of one machine to runs of a more abstract one.
-/

namespace EcuTelemetry.Core

/-- A machine with states `σ`, actions `α` and events `ε`. -/
structure Machine (σ α ε : Type*) where
  step : σ → α → σ × List ε

namespace Machine

variable {σ α ε : Type*} (m : Machine σ α ε)

/-- The state after one action. -/
def next (s : σ) (a : α) : σ := (m.step s a).1

/-- The events one action shows. -/
def emit (s : σ) (a : α) : List ε := (m.step s a).2

/-- The state after a run. -/
def run (s : σ) : List α → σ
  | []      => s
  | a :: as => run (m.next s a) as

/-- The events a run shows, oldest first. -/
def trace (s : σ) : List α → List ε
  | []      => []
  | a :: as => m.emit s a ++ trace (m.next s a) as

@[simp] lemma run_nil (s : σ) : m.run s [] = s := rfl

@[simp] lemma run_cons (s : σ) (a : α) (as : List α) :
    m.run s (a :: as) = m.run (m.next s a) as := rfl

@[simp] lemma trace_nil (s : σ) : m.trace s [] = [] := rfl

@[simp] lemma trace_cons (s : σ) (a : α) (as : List α) :
    m.trace s (a :: as) = m.emit s a ++ m.trace (m.next s a) as := rfl

lemma run_append (s : σ) (as bs : List α) : m.run s (as ++ bs) = m.run (m.run s as) bs := by
  induction as generalizing s with
  | nil => rfl
  | cons a as ih => simp only [List.cons_append, run_cons, ih]

lemma trace_append (s : σ) (as bs : List α) :
    m.trace s (as ++ bs) = m.trace s as ++ m.trace (m.run s as) bs := by
  induction as generalizing s with
  | nil => rfl
  | cons a as ih => simp only [List.cons_append, trace_cons, run_cons, ih, List.append_assoc]

/-- What `f` finds in the steps of a run, each in the state it is taken in. -/
def collect {γ : Type*} (f : σ → α → List γ) (s : σ) : List α → List γ
  | []      => []
  | a :: as => f s a ++ collect f (m.next s a) as

lemma collect_append {γ : Type*} (f : σ → α → List γ) (s : σ) (as bs : List α) :
    m.collect f s (as ++ bs) = m.collect f s as ++ m.collect f (m.run s as) bs := by
  induction as generalizing s with
  | nil => rfl
  | cons a as ih => simp only [List.cons_append, collect, run_cons, ih, List.append_assoc]

lemma collect_concat {γ : Type*} (f : σ → α → List γ) (s : σ) (as : List α) (a : α) :
    m.collect f s (as ++ [a]) = m.collect f s as ++ f (m.run s as) a := by
  rw [collect_append, collect, collect, List.append_nil]

/-- Every action of the run meets `ok` in the state it is taken in. -/
def Meets (ok : σ → α → Prop) (s : σ) : List α → Prop
  | []      => True
  | a :: as => ok s a ∧ Meets ok (m.next s a) as

@[simp] lemma meets_nil (ok : σ → α → Prop) (s : σ) : m.Meets ok s [] := trivial

@[simp] lemma meets_cons (ok : σ → α → Prop) (s : σ) (a : α) (as : List α) :
    m.Meets ok s (a :: as) ↔ ok s a ∧ m.Meets ok (m.next s a) as := Iff.rfl

lemma meets_append (ok : σ → α → Prop) (s : σ) (as bs : List α) :
    m.Meets ok s (as ++ bs) ↔ m.Meets ok s as ∧ m.Meets ok (m.run s as) bs := by
  induction as generalizing s with
  | nil => simp
  | cons a as ih => simp only [List.cons_append, meets_cons, run_cons, ih, and_assoc]

lemma meets_mono {ok ok' : σ → α → Prop} (h : ∀ s a, ok s a → ok' s a) {s : σ} {as : List α}
    (hm : m.Meets ok s as) : m.Meets ok' s as := by
  induction as generalizing s with
  | nil => trivial
  | cons a as ih => exact ⟨h s a hm.1, ih hm.2⟩

lemma meets_and {ok ok' : σ → α → Prop} {s : σ} {as : List α} :
    m.Meets (fun s a => ok s a ∧ ok' s a) s as ↔ m.Meets ok s as ∧ m.Meets ok' s as := by
  induction as generalizing s with
  | nil => simp
  | cons a as ih => simp only [meets_cons, ih, and_and_and_comm]

/-- A condition on the actions alone is met when every action satisfies it. -/
lemma meets_of_forall {p : α → Prop} (s : σ) {as : List α} (h : ∀ a ∈ as, p a) :
    m.Meets (fun _ a => p a) s as := by
  induction as generalizing s with
  | nil => trivial
  | cons a as ih =>
    exact ⟨h a List.mem_cons_self, ih _ fun b hb => h b (List.mem_cons_of_mem a hb)⟩

/-- The steps of a run, each in the state it is taken in. -/
lemma meets_iff {ok : σ → α → Prop} {s : σ} {as : List α} :
    m.Meets ok s as ↔ ∀ before a after, as = before ++ a :: after → ok (m.run s before) a := by
  induction as generalizing s with
  | nil => simp
  | cons a as ih =>
    rw [meets_cons, ih]
    constructor
    · rintro ⟨hfirst, hrest⟩ before b after h
      cases before with
      | nil =>
        obtain ⟨rfl, -⟩ := List.cons.inj h
        exact hfirst
      | cons c before =>
        obtain ⟨rfl, hlater⟩ := List.cons.inj h
        exact hrest before b after hlater
    · intro h
      refine ⟨h [] a as rfl, fun before b after hlater => ?_⟩
      exact h (a :: before) b after (congrArg (a :: ·) hlater)

/-- Two conditions that come to the same on the steps that meet a third. -/
lemma meets_congr {p ok ok' : σ → α → Prop} (h : ∀ s a, p s a → (ok s a ↔ ok' s a)) {s : σ}
    {as : List α} (hp : m.Meets p s as) : m.Meets ok s as ↔ m.Meets ok' s as := by
  induction as generalizing s with
  | nil => exact Iff.rfl
  | cons a as ih => rw [meets_cons, meets_cons, h s a hp.1, ih hp.2]

instance decidableMeets (ok : σ → α → Prop) [∀ s a, Decidable (ok s a)] (s : σ) :
    ∀ as, Decidable (m.Meets ok s as)
  | []      => isTrue trivial
  | a :: as =>
    have := decidableMeets ok (m.next s a) as
    inferInstanceAs (Decidable (ok s a ∧ m.Meets ok (m.next s a) as))

/-- The invariant rule from any point of a run: what holds of the state and of the trace so far
and is preserved by every step that meets `ok` holds after every run that meets `ok`. -/
theorem invariant_from {ok : σ → α → Prop} {P : σ → List ε → Prop}
    (hstep : ∀ s log a, ok s a → P s log → P (m.next s a) (log ++ m.emit s a))
    {s : σ} {log : List ε} (h : P s log) {as : List α} (hok : m.Meets ok s as) :
    P (m.run s as) (log ++ m.trace s as) := by
  induction as generalizing s log with
  | nil => simpa using h
  | cons a as ih =>
    simpa only [run_cons, trace_cons, List.append_assoc] using ih (hstep s log a hok.1 h) hok.2

/-- The invariant rule for runs from a starting state. -/
theorem invariant {ok : σ → α → Prop} {P : σ → List ε → Prop}
    (hstep : ∀ s log a, ok s a → P s log → P (m.next s a) (log ++ m.emit s a))
    {s : σ} (h : P s []) {as : List α} (hok : m.Meets ok s as) :
    P (m.run s as) (m.trace s as) := by
  simpa using m.invariant_from hstep h hok

/-- The invariant rule for what every step preserves. -/
theorem invariant_always {P : σ → List ε → Prop}
    (hstep : ∀ s log a, P s log → P (m.next s a) (log ++ m.emit s a)) {s : σ} (h : P s [])
    (as : List α) : P (m.run s as) (m.trace s as) :=
  m.invariant (fun s log a _ => hstep s log a) h (m.meets_of_forall s fun _ _ => trivial)

/-- What every step preserves holds at each step of a run. -/
lemma meets_of_invariant {P : σ → Prop} (hstep : ∀ s a, P s → P (m.next s a)) {s : σ} (h : P s)
    (as : List α) : m.Meets (fun s _ => P s) s as := by
  induction as generalizing s with
  | nil => trivial
  | cons a as ih => exact ⟨h, ih (hstep s a h)⟩

end Machine

/-- A simulation of the machine `m` by the machine `n`: an abstraction of states such that each
step of `m` is a short run of `n`, which shows the part `view` of the events that `m` shows. -/
structure Simulation {σ α τ β ε δ : Type*} (m : Machine σ α ε) (n : Machine τ β δ) where
  abs : σ → τ
  acts : σ → α → List β
  view : ε → List δ
  next : ∀ s a, abs (m.next s a) = n.run (abs s) (acts s a)
  emit : ∀ s a, (m.emit s a).flatMap view = n.trace (abs s) (acts s a)

namespace Simulation

variable {σ α τ β ε δ : Type*} {m : Machine σ α ε} {n : Machine τ β δ} (f : Simulation m n)

/-- The abstract run of a concrete run. -/
def actsRun (s : σ) : List α → List β
  | []      => []
  | a :: as => f.acts s a ++ actsRun (m.next s a) as

/-- The part of a trace that the abstract machine shows. -/
def viewLog (log : List ε) : List δ := log.flatMap f.view

@[simp] lemma viewLog_append (log log' : List ε) :
    f.viewLog (log ++ log') = f.viewLog log ++ f.viewLog log' := List.flatMap_append

/-- Runs correspond: the abstraction of the state reached is the state the abstract run reaches. -/
theorem run (s : σ) (as : List α) : f.abs (m.run s as) = n.run (f.abs s) (f.actsRun s as) := by
  induction as generalizing s with
  | nil => rfl
  | cons a as ih => rw [Machine.run_cons, ih, f.next, actsRun, Machine.run_append]

/-- Runs correspond: the abstract run shows the abstract part of the trace. -/
theorem trace (s : σ) (as : List α) :
    f.viewLog (m.trace s as) = n.trace (f.abs s) (f.actsRun s as) := by
  induction as generalizing s with
  | nil => rfl
  | cons a as ih =>
    rw [Machine.trace_cons, viewLog_append, ih, viewLog, f.emit, f.next, actsRun,
      Machine.trace_append]

/-- A condition on concrete steps gives one on the abstract steps they stand for. -/
lemma meets {ok : σ → α → Prop} {ok' : τ → β → Prop}
    (h : ∀ s a, ok s a → n.Meets ok' (f.abs s) (f.acts s a)) {s : σ} {as : List α}
    (hm : m.Meets ok s as) : n.Meets ok' (f.abs s) (f.actsRun s as) := by
  induction as generalizing s with
  | nil => trivial
  | cons a as ih =>
    rw [actsRun, Machine.meets_append, ← f.next]
    exact ⟨h s a hm.1, ih hm.2⟩

/-- The invariant rule for the abstract machine, used for one concrete step. -/
theorem invariant_step {ok : τ → β → Prop} {P : τ → List δ → Prop}
    (hstep : ∀ t log b, ok t b → P t log → P (n.next t b) (log ++ n.emit t b)) {s : σ} {a : α}
    {log : List ε} (h : P (f.abs s) (f.viewLog log)) (hok : n.Meets ok (f.abs s) (f.acts s a)) :
    P (f.abs (m.next s a)) (f.viewLog (log ++ m.emit s a)) := by
  rw [viewLog_append, f.next, viewLog, viewLog, f.emit]
  exact n.invariant_from hstep h hok

/-- The invariant rule for the abstract machine, used for concrete runs. -/
theorem invariant {ok : τ → β → Prop} {P : τ → List δ → Prop}
    (hstep : ∀ t log b, ok t b → P t log → P (n.next t b) (log ++ n.emit t b)) {s : σ}
    (h : P (f.abs s) []) {as : List α} (hok : n.Meets ok (f.abs s) (f.actsRun s as)) :
    P (f.abs (m.run s as)) (f.viewLog (m.trace s as)) := by
  rw [f.run, f.trace]
  exact n.invariant hstep h hok

/-- The same for what every step of the abstract machine preserves. -/
theorem invariant_always {P : τ → List δ → Prop}
    (hstep : ∀ t log b, P t log → P (n.next t b) (log ++ n.emit t b)) {s : σ} (h : P (f.abs s) [])
    (as : List α) : P (f.abs (m.run s as)) (f.viewLog (m.trace s as)) := by
  rw [f.run, f.trace]
  exact n.invariant_always hstep h _

end Simulation

end EcuTelemetry.Core
