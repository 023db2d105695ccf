import EcuTelemetry.Host.Clock
import EcuTelemetry.Host.Code

/-!
# Overdue heartbeats

`prvDiffMs` rounds toward zero a difference of nanoseconds that may be negative, so that the age of
a heartbeat may be up to a millisecond too high or too low. `prvWarnIfOverdue` is exact up to that
millisecond and never early.
-/

namespace EcuTelemetry.Host

/-- The division of C, by the one that rounds down. -/
lemma tdiv_million (x : ℤ) :
    x.tdiv 1000000 = if 0 ≤ x then x / 1000000 else -(-x / 1000000) := by
  split_ifs with h
  · exact Int.tdiv_eq_ediv_of_nonneg h
  · rw [← Int.tdiv_eq_ediv_of_nonneg (by omega), Int.neg_tdiv, Int.neg_neg]

/-- The age is the true one rounded to a whole millisecond, up or down. -/
lemma prvDiffMs_bounds (now last : Timespec) :
    (prvDiffMs now last - 1) * 1000000 < now.nanos - last.nanos ∧
      now.nanos - last.nanos < (prvDiffMs now last + 1) * 1000000 := by
  rw [prvDiffMs, tdiv_million, Timespec.nanos, Timespec.nanos]
  split_ifs <;> omega

/-- The age does not go down when the clock does not: over the end of a second, what the rounding
takes is less than what the second brings. -/
lemma prvDiffMs_mono {now now' : Timespec} (hnow : now.Normal) (hnow' : now'.Normal)
    (last : Timespec) (hle : now.nanos ≤ now'.nanos) :
    prvDiffMs now last ≤ prvDiffMs now' last := by
  obtain ⟨hlo, hhi⟩ := hnow
  obtain ⟨hlo', hhi'⟩ := hnow'
  rw [Timespec.nanos, Timespec.nanos] at hle
  rw [prvDiffMs, prvDiffMs, tdiv_million, tdiv_million]
  rcases Int.lt_or_le now.sec now'.sec with hsec | hsec
  · split_ifs <;> omega
  · have hsame : now'.sec = now.sec := by omega
    rw [hsame] at hle ⊢
    split_ifs <;> omega

namespace Code

/-- `prvWarnIfOverdue` on an initialised task. -/
lemma effect_prvWarnIfOverdue {task : TaskId} {v : View}
    (hinit : v.1.sim.beatInitialized task = true) (deadlineMs : ℤ) (i : Input) :
    ((prvWarnIfOverdue task deadlineMs).effect i v).1.sim =
      if deadlineMs < prvDiffMs i.now (v.1.sim.lastBeat task) then countWarning v.1.sim
      else v.1.sim := by
  simp only [prvWarnIfOverdue, Core.Stmt.block, Core.Stmt.effect, hinit, Bool.not_true,
    Bool.false_eq_true, if_false]
  by_cases hage : deadlineMs < prvDiffMs i.now (v.1.sim.lastBeat task)
  · rw [if_pos hage]
    simp [onLocals, onSim, prvNowTs, prvLog, Core.Stmt.effect, Core.Stmt.block, hage]
  · rw [if_neg hage]
    simp [onLocals, prvNowTs, Core.Stmt.effect, hage]

/-- On an initialised task, `prvWarnIfOverdue` counts a warning only if the true age exceeds the
deadline, and does count one if it exceeds the deadline by a millisecond or more. Between normalised
readings, a later one gives no smaller age. -/
theorem overdue_exact {task : TaskId} {v : View} (hinit : v.1.sim.beatInitialized task = true)
    (i : Input) (deadlineMs : ℤ) :
    let last := v.1.sim.lastBeat task
    let sim := ((prvWarnIfOverdue task deadlineMs).effect i v).1.sim
    (sim = v.1.sim ∨
      sim = countWarning v.1.sim ∧ deadlineMs * 1000000 < i.now.nanos - last.nanos) ∧
    ((deadlineMs + 1) * 1000000 ≤ i.now.nanos - last.nanos → sim = countWarning v.1.sim) ∧
    ∀ now' : Timespec, i.now.Normal → now'.Normal → i.now.nanos ≤ now'.nanos →
      prvDiffMs i.now last ≤ prvDiffMs now' last := by
  intro last sim
  have hsim : sim = if deadlineMs < prvDiffMs i.now last then countWarning v.1.sim
      else v.1.sim := effect_prvWarnIfOverdue hinit deadlineMs i
  obtain ⟨hlo, hhi⟩ := prvDiffMs_bounds i.now last
  refine ⟨?_, ?_, fun now' hnow hnow' hle => prvDiffMs_mono hnow hnow' last hle⟩
  · by_cases hage : deadlineMs < prvDiffMs i.now last
    · rw [if_pos hage] at hsim
      exact .inr ⟨hsim, by omega⟩
    · rw [if_neg hage] at hsim
      exact .inl hsim
  · intro htrue
    have hage : deadlineMs < prvDiffMs i.now last := by omega
    rw [hsim, if_pos hage]

/-- A heartbeat in the last nanosecond of a second, read 901 milliseconds and a nanosecond later. -/
theorem overdue_exact_carry :
    let s := Host.prvMakeSensorSample 0 .none ⟨0, 0⟩
    let f := Host.prvProcessSample s ⟨0, 0⟩
    let sim := Host.prvBeat ecuCreate .sensor ⟨1, 999999999⟩
    let l : Locals :=
      ⟨⟨0, 0⟩, .none, .none, 0, 0, ⟨0, s⟩, ⟨0, f⟩, false, false, 0, ⟨0, 0⟩, .zero⟩
    ((prvWarnIfOverdue .sensor 900).effect ⟨⟨2, 901000000⟩, false⟩
      (⟨sim, true, true, 1⟩, l)).1.sim = countWarning sim := by
  intro s f sim l
  have hinit : sim.beatInitialized .sensor = true := rfl
  exact (overdue_exact (v := (⟨sim, true, true, 1⟩, l)) hinit ⟨⟨2, 901000000⟩, false⟩ 900).2.1
    (by decide)

end Code

end EcuTelemetry.Host
