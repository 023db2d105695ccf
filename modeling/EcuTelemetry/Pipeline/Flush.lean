import EcuTelemetry.Pipeline.Accounting

/-!
# Starting afresh

A reset of the pipeline zeroes the counts, flushes the queue and flushes the second queue, in
separate moves with others in between. Relative to a cut, a sample with a stamp above it is new and
the others are old. This file says how far each move of a reset may rely on the ones before: what
the worker counts stays new as long as it takes nothing old (`Cut`), the flush must find nothing new
and leaves nothing old (`Purged`), and so on up to the point where only new samples are anywhere
(`Renewed`). Logs start where the counts do.
-/

namespace EcuTelemetry.Pipeline

open EcuTelemetry.Core

variable {α β : Type*} {cap capOut : ℕ}

/-! ### New samples -/

/-- How many of the samples are new. -/
def newer (c : ℕ) (ss : List (Stamped α)) : ℕ := ss.countP fun s => c < s.stamp

@[simp] lemma newer_nil (c : ℕ) : newer c ([] : List (Stamped α)) = 0 := rfl

@[simp] lemma newer_cons (c : ℕ) (s : Stamped α) (ss : List (Stamped α)) :
    newer c (s :: ss) = newer c ss + if c < s.stamp then 1 else 0 := by
  simp [newer, List.countP_cons]

@[simp] lemma newer_append (c : ℕ) (ss ss' : List (Stamped α)) :
    newer c (ss ++ ss') = newer c ss + newer c ss' := List.countP_append

lemma newer_eq_length {c : ℕ} {ss : List (Stamped α)} (h : ∀ s ∈ ss, c < s.stamp) :
    newer c ss = ss.length := by
  apply List.countP_eq_length.mpr
  exact fun s hs => decide_eq_true (h s hs)

lemma newer_eq_zero {c : ℕ} {ss : List (Stamped α)} (h : ∀ s ∈ ss, s.stamp ≤ c) :
    newer c ss = 0 := by
  apply List.countP_eq_zero.mpr
  exact fun s hs => by simpa using h s hs

/-! ### The worker's counts -/

/-- The worker holds nothing old, and since the counts were started it has counted or holds every
new sample that the queue accepted and no longer has. -/
structure Cut (c : ℕ) (p : Pipe α β) (log : List (Event α β)) : Prop where
  made : c ≤ p.made
  worker : ∀ k ∈ p.work.stamps, c < k
  law : newer c (acceptedOf log) =
    tally .frames log + tally .outDrops log + newer c p.queue + p.work.pending

/-- The counts start with the worker's hand empty and every queued sample old. -/
lemma cut_zero {c : ℕ} {p : Pipe α β} (hm : c ≤ p.made) (hw : p.work = .empty)
    (hq : ∀ s ∈ p.queue, s.stamp ≤ c) : Cut c p [.zeroed] := by
  refine ⟨hm, by simp [hw, Work.stamps], ?_⟩
  simp [hw, newer_eq_zero hq, tally, tallyStep, Work.pending]

/-- The worker takes only new samples, and a flush finds only old ones. -/
def Op.Clean (c : ℕ) (p : Pipe α β) : Op α β → Prop
  | .take  => ∀ s ∈ p.queue.head?, c < s.stamp
  | .flush => ∀ s ∈ p.queue, s.stamp ≤ c
  | .zero  => False
  | _      => True

/-- Clean moves keep the worker's counts right. -/
theorem Cut.move {c : ℕ} {p p' : Pipe α β} {op : Op α β} {log evs : List (Event α β)}
    (h : Cut c p log) (hop : op.Clean c p) (hm : Move cap capOut p op p' evs) :
    Cut c p' (log ++ evs) := by
  obtain ⟨hmade, hworker, hlaw⟩ := h
  cases hm with
  | still => exact ⟨hmade, hworker, by simpa using hlaw⟩
  | draw hh => exact ⟨Nat.le_succ_of_le hmade, hworker, by simpa [tallyStep] using hlaw⟩
  | make a hh => exact ⟨hmade, hworker, by simpa using hlaw⟩
  | accept hh hroom =>
    refine ⟨hmade, hworker, ?_⟩
    simp only [acceptedOf_append, acceptedOf_cons, acceptedOf_nil, newer_append, newer_cons,
      newer_nil, List.append_nil, tally_append, List.foldl_cons, List.foldl_nil, tallyStep]
    omega
  | refuse hh hfull => exact ⟨hmade, hworker, by simpa using hlaw⟩
  | @count s ok hh =>
    refine ⟨hmade, hworker, ?_⟩
    cases ok <;> simpa [tallyStep, sampleCounter] using hlaw
  | @take s queue hh hq =>
    have hnew : c < s.stamp := hop s (by simp [hq])
    refine ⟨hmade, by simpa [Work.stamps] using hnew, ?_⟩
    rw [hh, hq] at hlaw
    simp [tallyStep, hnew, Work.pending] at hlaw ⊢
    omega
  | work b hh =>
    rw [hh] at hworker hlaw
    exact ⟨hmade, hworker, by simpa [Work.pending] using hlaw⟩
  | outAccept hh hroom =>
    rw [hh] at hworker hlaw
    exact ⟨hmade, hworker, by simpa [tallyStep, Work.pending] using hlaw⟩
  | outRefuse hh hfull =>
    rw [hh] at hworker hlaw
    exact ⟨hmade, hworker, by simpa [Work.pending] using hlaw⟩
  | @countOut f ok hh =>
    refine ⟨hmade, by simp [Work.stamps], ?_⟩
    rw [hh] at hlaw
    cases ok <;> simp [tallyStep, frameCounter, Work.pending] at hlaw ⊢ <;> omega
  | takeOut hh ho => exact ⟨hmade, hworker, by simpa [tallyStep] using hlaw⟩
  | print hh => exact ⟨hmade, hworker, by simpa [tallyStep] using hlaw⟩
  | flush =>
    refine ⟨hmade, hworker, ?_⟩
    rw [newer_eq_zero hop] at hlaw
    simpa [foldl_tallyStep_flushed] using hlaw
  | flushOut => exact ⟨hmade, hworker, by simpa using hlaw⟩
  | zero => exact hop.elim

/-! ### What a flush leaves -/

/-- Nothing old is queued or may still be. -/
structure Purged (c : ℕ) (p : Pipe α β) : Prop where
  queue : ∀ s ∈ p.queue, c < s.stamp
  load : ∀ k ∈ p.hand.load, c < k

/-- A flush leaves nothing old but in the producer's hand. -/
lemma purged_flush {c : ℕ} {p : Pipe α β} (h : ∀ k ∈ p.hand.load, c < k) :
    Purged c { p with queue := [] } := ⟨by simp, h⟩

/-- A queue without old samples can only be fed new ones. -/
theorem Purged.move {c : ℕ} {p p' : Pipe α β} {op : Op α β} {evs : List (Event α β)}
    (h : Purged c p) (hc : c ≤ p.made) (hm : Move cap capOut p op p' evs) : Purged c p' := by
  obtain ⟨hqueue, hload⟩ := h
  cases hm with
  | draw hh => exact ⟨hqueue, by simpa [Hand.load] using Nat.lt_succ_of_le hc⟩
  | make a hh => exact ⟨hqueue, by simpa [hh, Hand.load] using hload⟩
  | accept hh hroom =>
    rw [hh] at hload
    refine ⟨?_, by simp [Hand.load]⟩
    intro s hs
    rcases List.mem_append.mp hs with hs | hs
    · exact hqueue s hs
    · rw [List.mem_singleton.mp hs]
      exact hload _ (List.mem_singleton_self _)
  | refuse hh hfull => exact ⟨hqueue, by simp [Hand.load]⟩
  | count hh => exact ⟨hqueue, by simp [Hand.load]⟩
  | take hh hq =>
    rw [hq] at hqueue
    exact ⟨fun s hs => hqueue s (List.mem_cons_of_mem _ hs), hload⟩
  | flush => exact ⟨by simp, hload⟩
  | _ => exact ⟨hqueue, hload⟩

/-- What is taken from a purged queue is new. -/
lemma Purged.clean {c : ℕ} {p : Pipe α β} (h : Purged c p) {op : Op α β} (hf : op ≠ .flush)
    (hz : op ≠ .zero) : op.Clean c p := by
  cases op with
  | take => exact fun s hs => h.queue s (List.mem_of_mem_head? hs)
  | flush => exact absurd rfl hf
  | zero => exact absurd rfl hz
  | _ => trivial

/-- Nothing old is in the second queue. -/
def OutPurged (c : ℕ) (p : Pipe α β) : Prop := ∀ f ∈ p.out, c < f.stamp

/-- A worker without old samples feeds the second queue new frames. -/
theorem OutPurged.move {c : ℕ} {p p' : Pipe α β} {op : Op α β} {evs : List (Event α β)}
    (h : OutPurged c p) (hw : ∀ k ∈ p.work.stamps, c < k) (hm : Move cap capOut p op p' evs) :
    OutPurged c p' := by
  cases hm with
  | outAccept hh hroom =>
    intro f hf
    rcases List.mem_append.mp hf with hf | hf
    · exact h f hf
    · rw [List.mem_singleton.mp hf]
      exact hw _ (by simp [hh, Work.stamps])
  | takeOut hh ho => exact fun f hf => h f (by simp [ho, hf])
  | flushOut => simp [OutPurged]
  | _ => exact h

/-! ### Only new samples anywhere -/

/-- The producer and the sink hold nothing old. -/
structure Renewed (c : ℕ) (p : Pipe α β) : Prop where
  hand : ∀ k ∈ p.hand.stamps, c < k
  sink : ∀ f ∈ p.sink, c < f.stamp

/-- No old sample is counted, and no old frame printed. -/
def Event.New (c : ℕ) : Event α β → Prop
  | .counted _ k => c < k
  | .printed f   => c < f.stamp
  | _            => True

/-- Where nothing old is left, nothing old comes back, is counted or is printed. -/
theorem Renewed.move {c : ℕ} {p p' : Pipe α β} {op : Op α β} {evs : List (Event α β)}
    (h : Renewed c p) (hc : c ≤ p.made) (ho : OutPurged c p) (hw : ∀ k ∈ p.work.stamps, c < k)
    (hm : Move cap capOut p op p' evs) : Renewed c p' ∧ ∀ e ∈ evs, e.New c := by
  obtain ⟨hhand, hsink⟩ := h
  cases hm with
  | draw hh =>
    exact ⟨⟨by simpa [Hand.stamps] using Nat.lt_succ_of_le hc, hsink⟩, by simp [Event.New]⟩
  | make a hh =>
    rw [hh] at hhand
    exact ⟨⟨hhand, hsink⟩, by simp⟩
  | accept hh hroom =>
    rw [hh] at hhand
    exact ⟨⟨hhand, hsink⟩, by simp [Event.New]⟩
  | refuse hh hfull =>
    rw [hh] at hhand
    exact ⟨⟨hhand, hsink⟩, by simp⟩
  | @count s ok hh =>
    have hnew : c < s.stamp := hhand _ (by simp [hh, Hand.stamps])
    exact ⟨⟨by simp [Hand.stamps], hsink⟩, by simpa [Event.New] using hnew⟩
  | @countOut f ok hh =>
    have hnew : c < f.stamp := hw _ (by simp [hh, Work.stamps])
    exact ⟨⟨hhand, hsink⟩, by simpa [Event.New] using hnew⟩
  | @takeOut f out hh hout =>
    have hnew : c < f.stamp := ho f (by simp [hout])
    exact ⟨⟨hhand, by simpa using hnew⟩, by simp [Event.New]⟩
  | @print f hh =>
    have hnew : c < f.stamp := hsink f (by simp [hh])
    exact ⟨⟨hhand, by simp⟩, by simpa [Event.New] using hnew⟩
  | flush => exact ⟨⟨hhand, hsink⟩, by simp [Event.New]⟩
  | _ => exact ⟨⟨hhand, hsink⟩, by simp [Event.New]⟩

/-! ### The producer's counts -/

/-- Since the counts were started, the producer has offered and counted as accepted new samples
only, and only old ones were flushed. -/
structure Offered (c : ℕ) (p : Pipe α β) (log : List (Event α β)) : Prop where
  load : ∀ k ∈ p.hand.load, c < k
  offered : ∀ s, p.hand = .offered s true → c < s.stamp
  accepted : ∀ s ∈ acceptedOf log, c < s.stamp
  counted : ∀ k ∈ countedOf .samples log, c < k
  flushed : ∀ s ∈ flushedOf log, s.stamp ≤ c
  law : (acceptedOf log).length = tally .samples log + p.hand.acceptedPending

/-- The counts start with no accepted sample in the producer's hand. -/
lemma offered_zero {c : ℕ} {p : Pipe α β} (hl : ∀ k ∈ p.hand.load, c < k)
    (ho : ∀ s, p.hand ≠ .offered s true) : Offered c p [.zeroed] := by
  refine ⟨hl, fun s hs => absurd hs (ho s), by simp, by simp, by simp, ?_⟩
  cases hh : p.hand with
  | offered s ok =>
    cases ok with
    | true => exact absurd hh (ho s)
    | false => rfl
  | _ => rfl

/-- Clean moves keep the producer's counts right. -/
theorem Offered.move {c : ℕ} {p p' : Pipe α β} {op : Op α β} {log evs : List (Event α β)}
    (h : Offered c p log) (hc : c ≤ p.made) (hop : op.Clean c p)
    (hm : Move cap capOut p op p' evs) : Offered c p' (log ++ evs) := by
  obtain ⟨hload, hoff, hacc, hcnt, hflu, hlaw⟩ := h
  cases hm with
  | still => exact ⟨hload, hoff, by simpa, by simpa, by simpa, by simpa⟩
  | draw hh =>
    rw [hh] at hlaw
    refine ⟨by simpa [Hand.load] using Nat.lt_succ_of_le hc, by simp, by simpa, by simpa, by simpa,
      ?_⟩
    simpa [tallyStep, Hand.acceptedPending] using hlaw
  | make a hh =>
    rw [hh] at hlaw hload
    exact ⟨by simpa [Hand.load] using hload, by simp, by simpa, by simpa, by simpa,
      by simpa [Hand.acceptedPending] using hlaw⟩
  | @accept s hh hroom =>
    rw [hh] at hlaw hload
    have hnew : c < s.stamp := hload _ (List.mem_singleton_self _)
    refine ⟨by simp [Hand.load], ?_, ?_, by simpa, by simpa, ?_⟩
    · rintro s' heq
      rw [Hand.offered.injEq] at heq
      exact heq.1 ▸ hnew
    · intro s' hs'
      simp only [acceptedOf_append, acceptedOf_cons, acceptedOf_nil, List.append_nil] at hs'
      rcases List.mem_append.mp hs' with hs' | hs'
      · exact hacc s' hs'
      · exact List.mem_singleton.mp hs' ▸ hnew
    · simpa [tallyStep, Hand.acceptedPending] using hlaw
  | refuse hh hfull =>
    rw [hh] at hlaw
    exact ⟨by simp [Hand.load], by simp, by simpa, by simpa, by simpa,
      by simpa [Hand.acceptedPending] using hlaw⟩
  | @count s ok hh =>
    rw [hh] at hlaw
    refine ⟨by simp [Hand.load], by simp, by simpa, ?_, by simpa, ?_⟩
    · cases ok with
      | false => simpa [sampleCounter] using hcnt
      | true =>
        intro k hk
        simp only [countedOf_append, countedOf_cons, countedOf_nil, sampleCounter, if_true,
          List.append_nil] at hk
        rcases List.mem_append.mp hk with hk | hk
        · exact hcnt k hk
        · exact List.mem_singleton.mp hk ▸ hoff s hh
    · cases ok <;> simpa [tallyStep, sampleCounter, Hand.acceptedPending] using hlaw
  | @countOut f ok hh =>
    refine ⟨hload, hoff, by simpa, ?_, by simpa, ?_⟩
    · cases ok <;> simpa [frameCounter] using hcnt
    · cases ok <;> simpa [tallyStep, frameCounter] using hlaw
  | flush =>
    refine ⟨hload, hoff, by simpa, by simpa, ?_, by simpa [foldl_tallyStep_flushed] using hlaw⟩
    intro s hs
    simp only [flushedOf_append, flushedOf_map_flushed] at hs
    rcases List.mem_append.mp hs with hs | hs
    · exact hflu s hs
    · exact hop s hs
  | zero => exact hop.elim
  | _ => exact ⟨hload, hoff, by simpa, by simpa, by simpa, by simpa [tallyStep] using hlaw⟩

end EcuTelemetry.Pipeline
