import EcuTelemetry.Host.Basic

/-!
# Times

A `struct timespec` as the number of nanoseconds it stands for, and what the sums and differences of
the host come to in these terms.
-/

namespace EcuTelemetry.Host

/-- The nanoseconds a `timespec` stands for. -/
def Timespec.nanos (t : Timespec) : ℤ := t.sec * 1000000000 + t.nsec

/-- A normalised `timespec`. -/
def Timespec.Normal (t : Timespec) : Prop := 0 ≤ t.nsec ∧ t.nsec < 1000000000

instance : DecidablePred Timespec.Normal := fun t =>
  inferInstanceAs (Decidable (0 ≤ t.nsec ∧ t.nsec < 1000000000))

/-- `deadline_from_now_ms`, when the clock reads `now`. -/
def deadlineFromNowMs (now : Timespec) (timeoutMs : ℤ) : Timespec :=
  let sec := now.sec + timeoutMs.tdiv 1000
  let nsec := now.nsec + timeoutMs.tmod 1000 * 1000000
  if nsec ≥ 1000000000 then ⟨sec + 1, nsec - 1000000000⟩ else ⟨sec, nsec⟩

/-- One carry is enough. -/
lemma deadlineFromNowMs_spec {now : Timespec} (hnow : now.Normal) {timeoutMs : ℤ}
    (h : 0 ≤ timeoutMs) :
    (deadlineFromNowMs now timeoutMs).Normal ∧
      (deadlineFromNowMs now timeoutMs).nanos = now.nanos + timeoutMs * 1000000 := by
  obtain ⟨hlo, hhi⟩ := hnow
  have hdiv : timeoutMs.tdiv 1000 = timeoutMs / 1000 := Int.tdiv_eq_ediv_of_nonneg h
  have hmod : timeoutMs.tmod 1000 = timeoutMs % 1000 := Int.tmod_eq_emod_of_nonneg h
  unfold deadlineFromNowMs Timespec.Normal Timespec.nanos
  rw [hdiv, hmod]
  dsimp only
  split_ifs with hcarry
  · dsimp only
    omega
  · dsimp only
    omega

end EcuTelemetry.Host
