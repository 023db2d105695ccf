import EcuTelemetry.Pipeline.Basic

/-!
# No sample is lost or duplicated

Three invariants of the abstract pipeline. `Sorted` holds under every move: the stamps in the
pipeline, read from the sink back to the producer, are strictly increasing, and so is the list of
frames the sink has received. `Balanced` is the accounting law and holds until something is flushed
or the counts are started afresh. `Every` carries a fact about samples, and one about frames, from
the points where they are made to the points where they leave.
-/

namespace EcuTelemetry.Pipeline

open EcuTelemetry.Core

variable {α β : Type*} {cap capOut : ℕ}

/-! ### Order -/

/-- The stamp of a sample the producer has not offered yet. -/
def Hand.load : Hand α → List ℕ
  | .drawn k => [k]
  | .held s  => [s.stamp]
  | _        => []

/-- The stamp of a sample or frame the worker has not offered yet. -/
def Work.load : Work α β → List ℕ
  | .held s  => [s.stamp]
  | .ready f => [f.stamp]
  | _        => []

/-- The stamp of what the producer holds. -/
def Hand.stamps : Hand α → List ℕ
  | .empty => []
  | .drawn k => [k]
  | .held s | .offered s _ => [s.stamp]

/-- The stamp of what the worker holds. -/
def Work.stamps : Work α β → List ℕ
  | .empty => []
  | .held s => [s.stamp]
  | .ready f | .offered f _ => [f.stamp]

/-- The stamps in the pipeline that the sink has not received yet, in the order it will. -/
def Pipe.stamps (p : Pipe α β) : List ℕ :=
  p.out.map Stamped.stamp ++ p.work.load ++ p.queue.map Stamped.stamp ++ p.hand.load

/-- What the sink received, and what it may still receive, is in the order of drawing. -/
structure Sorted (p : Pipe α β) (log : List (Event α β)) : Prop where
  pairwise : ((outTakenOf log).map Stamped.stamp ++ p.stamps).Pairwise (· < ·)
  range : ∀ k ∈ (outTakenOf log).map Stamped.stamp ++ p.stamps, 0 < k ∧ k ≤ p.made

lemma sorted_start : Sorted (.start : Pipe α β) [] :=
  ⟨List.Pairwise.nil, by simp [Pipe.start, Pipe.stamps, Work.load, Hand.load]⟩

/-- Dropping stamps keeps the order. -/
lemma Sorted.of_sublist {p p' : Pipe α β} {log log' : List (Event α β)} (h : Sorted p log)
    (hm : p'.made = p.made)
    (hs : ((outTakenOf log').map Stamped.stamp ++ p'.stamps).Sublist
      ((outTakenOf log).map Stamped.stamp ++ p.stamps)) : Sorted p' log' :=
  ⟨h.pairwise.sublist hs, fun k hk => hm ▸ h.range k (hs.subset hk)⟩

/-- Every move keeps the order. -/
theorem Sorted.move {p p' : Pipe α β} {op : Op α β} {log evs : List (Event α β)}
    (h : Sorted p log) (hm : Move cap capOut p op p' evs) : Sorted p' (log ++ evs) := by
  cases hm with
  | still => simpa using h
  | draw hh =>
    -- the one move that adds a stamp, larger than all the others
    have hle := h.range
    have hpw := h.pairwise
    simp only [Pipe.stamps, hh, Hand.load, List.append_nil] at hle hpw
    refine ⟨?_, ?_⟩
    · simp only [outTakenOf_append, outTakenOf_cons, outTakenOf_nil, List.append_nil, Pipe.stamps,
        Hand.load, ← List.append_assoc] at hpw ⊢
      refine List.pairwise_append.mpr ⟨hpw, List.pairwise_singleton _ _, ?_⟩
      intro a ha b hb
      rw [List.mem_singleton.mp hb]
      exact Nat.lt_succ_of_le (hle a (by simpa only [List.append_assoc] using ha)).2
    · intro k hk
      simp only [outTakenOf_append, outTakenOf_cons, outTakenOf_nil, List.append_nil, Pipe.stamps,
        Hand.load, ← List.append_assoc] at hk
      rcases List.mem_append.mp hk with hk | hk
      · have hk' := hle k (by simpa only [List.append_assoc] using hk)
        exact ⟨hk'.1, Nat.le_succ_of_le hk'.2⟩
      · rw [List.mem_singleton.mp hk]
        exact ⟨Nat.succ_pos _, Nat.le_refl _⟩
  | make a hh => exact h.of_sublist rfl (by simp [Pipe.stamps, hh, Hand.load])
  | accept hh hroom => exact h.of_sublist rfl (by simp [Pipe.stamps, hh, Hand.load])
  | refuse hh hfull => exact h.of_sublist rfl (by simp [Pipe.stamps, hh, Hand.load])
  | count hh => exact h.of_sublist rfl (by simp [Pipe.stamps, hh, Hand.load])
  | take hh hq => exact h.of_sublist rfl (by simp [Pipe.stamps, hh, hq, Work.load])
  | work b hh => exact h.of_sublist rfl (by simp [Pipe.stamps, hh, Work.load])
  | outAccept hh hroom => exact h.of_sublist rfl (by simp [Pipe.stamps, hh, Work.load])
  | outRefuse hh hfull => exact h.of_sublist rfl (by simp [Pipe.stamps, hh, Work.load])
  | countOut hh => exact h.of_sublist rfl (by simp [Pipe.stamps, hh, Work.load])
  | takeOut hh ho => exact h.of_sublist rfl (by simp [Pipe.stamps, ho])
  | print hh => exact h.of_sublist rfl (by simp [Pipe.stamps])
  | flush =>
    refine h.of_sublist rfl ?_
    simp [Pipe.stamps]
  | flushOut => exact h.of_sublist rfl (by simp [Pipe.stamps])
  | zero => exact h.of_sublist rfl (by simp)

/-- What is queued was drawn before what the producer has not offered yet. -/
lemma Sorted.queue_lt_load {p : Pipe α β} {log : List (Event α β)} (h : Sorted p log)
    {s : Stamped α} (hs : s ∈ p.queue) {k : ℕ} (hk : k ∈ p.hand.load) : s.stamp < k := by
  have hpw := (List.pairwise_append.mp h.pairwise).2.1
  apply (List.pairwise_append.mp hpw).2.2 s.stamp _ k hk
  exact List.mem_append_right _ (List.mem_map_of_mem hs)

/-- What is queued was drawn. -/
lemma Sorted.queue_range {p : Pipe α β} {log : List (Event α β)} (h : Sorted p log)
    {s : Stamped α} (hs : s ∈ p.queue) : 0 < s.stamp ∧ s.stamp ≤ p.made := by
  apply h.range
  simp only [Pipe.stamps, List.mem_append, List.mem_map]
  exact .inr (.inl (.inr ⟨s, hs, rfl⟩))

/-- What the producer has not offered yet was drawn. -/
lemma Sorted.load_range {p : Pipe α β} {log : List (Event α β)} (h : Sorted p log)
    {k : ℕ} (hk : k ∈ p.hand.load) : 0 < k ∧ k ≤ p.made := by
  apply h.range
  exact List.mem_append_right _ (List.mem_append_right _ hk)

/-- What the sink received is what it printed, and what it holds. -/
def Printed (p : Pipe α β) (log : List (Event α β)) : Prop :=
  outTakenOf log = printedOf log ++ p.sink.toList

lemma printed_start : Printed (.start : Pipe α β) [] := rfl

/-- Every move keeps the order of printing. -/
theorem Printed.move {p p' : Pipe α β} {op : Op α β} {log evs : List (Event α β)}
    (h : Printed p log) (hm : Move cap capOut p op p' evs) : Printed p' (log ++ evs) := by
  cases hm with
  | takeOut hh ho =>
    rw [Printed, hh] at h
    simpa [Printed] using h
  | print hh =>
    rw [Printed, hh] at h
    simpa [Printed] using h
  | _ => simpa [Printed] using h

/-! ### Accounting -/

/-- One for a sample the producer has drawn and not yet counted. -/
def Hand.pending : Hand α → ℕ
  | .empty => 0
  | _      => 1

/-- One for a sample the queue accepted and the producer has not yet counted. -/
def Hand.acceptedPending : Hand α → ℕ
  | .offered _ true => 1
  | _               => 0

/-- One for a sample the worker received and has not yet counted. -/
def Work.pending : Work α β → ℕ
  | .empty => 0
  | _      => 1

/-- The accounting law. -/
structure Balanced (p : Pipe α β) (log : List (Event α β)) : Prop where
  made : p.made = tally .samples log + tally .drops log + p.hand.pending
  accepted : (acceptedOf log).length = tally .samples log + p.hand.acceptedPending
  queue : (acceptedOf log).length = (takenOf log).length + p.queue.length
  taken : (takenOf log).length = tally .frames log + tally .outDrops log + p.work.pending
  out : (outAcceptedOf log).length = (outTakenOf log).length + p.out.length

lemma balanced_start : Balanced (.start : Pipe α β) [] := ⟨rfl, rfl, rfl, rfl, rfl⟩

/-- The moves of an undisturbed run. -/
def Op.Plain : Op α β → Prop
  | .flush | .flushOut | .zero => False
  | _ => True

/-- Every move of an undisturbed run keeps the accounting law. -/
theorem Balanced.move {p p' : Pipe α β} {op : Op α β} {log evs : List (Event α β)}
    (h : Balanced p log) (hop : op.Plain) (hm : Move cap capOut p op p' evs) :
    Balanced p' (log ++ evs) := by
  obtain ⟨hmade, hacc, hqueue, htaken, hout⟩ := h
  cases hm with
  | still => exact ⟨by simpa, by simpa, by simpa, by simpa, by simpa⟩
  | draw hh =>
    rw [hh] at hmade hacc
    constructor <;> simp [tallyStep, Hand.pending, Hand.acceptedPending] at * <;> assumption
  | make a hh =>
    rw [hh] at hmade hacc
    constructor <;> simp [Hand.pending, Hand.acceptedPending] at * <;> assumption
  | accept hh hroom =>
    rw [hh] at hmade hacc
    constructor <;> simp [tallyStep, Hand.pending, Hand.acceptedPending] at * <;> omega
  | refuse hh hfull =>
    rw [hh] at hmade hacc
    constructor <;> simp [Hand.pending, Hand.acceptedPending] at * <;> assumption
  | @count s ok hh =>
    rw [hh] at hmade hacc
    cases ok <;> constructor <;>
      simp [tallyStep, sampleCounter, Hand.pending, Hand.acceptedPending] at * <;> omega
  | take hh hq =>
    rw [hh] at htaken
    rw [hq] at hqueue
    constructor <;> simp [tallyStep, Work.pending] at * <;> omega
  | work b hh =>
    rw [hh] at htaken
    constructor <;> simp [Work.pending] at * <;> assumption
  | outAccept hh hroom =>
    rw [hh] at htaken
    constructor <;> simp [tallyStep, Work.pending] at * <;> omega
  | outRefuse hh hfull =>
    rw [hh] at htaken
    constructor <;> simp [Work.pending] at * <;> assumption
  | @countOut f ok hh =>
    rw [hh] at htaken
    cases ok <;> constructor <;> simp [tallyStep, frameCounter, Work.pending] at * <;> omega
  | takeOut hh ho =>
    rw [ho] at hout
    constructor <;> simp [tallyStep] at * <;> omega
  | print hh => constructor <;> simp [tallyStep] at * <;> assumption
  | flush => exact hop.elim
  | flushOut => exact hop.elim
  | zero => exact hop.elim

/-! ### What is carried -/

/-- The samples in the producer's hand. -/
def Hand.items : Hand α → List (Stamped α)
  | .held s | .offered s _ => [s]
  | _ => []

/-- The samples in the worker's hand. -/
def Work.items : Work α β → List (Stamped α)
  | .held s => [s]
  | _       => []

/-- The frames in the worker's hand. -/
def Work.frames : Work α β → List (Stamped β)
  | .ready f | .offered f _ => [f]
  | _ => []

/-- Every sample in the pipeline satisfies `P`; every frame in it, and every frame the sink has
received, satisfies `Q`. -/
structure Every (P : Stamped α → Prop) (Q : Stamped β → Prop) (p : Pipe α β)
    (log : List (Event α β)) : Prop where
  hand : ∀ s ∈ p.hand.items, P s
  queue : ∀ s ∈ p.queue, P s
  workItem : ∀ s ∈ p.work.items, P s
  workFrame : ∀ f ∈ p.work.frames, Q f
  out : ∀ f ∈ p.out, Q f
  sink : ∀ f ∈ p.sink, Q f
  received : ∀ f ∈ outTakenOf log, Q f

lemma every_start (P : Stamped α → Prop) (Q : Stamped β → Prop) :
    Every P Q (.start : Pipe α β) [] := by
  constructor <;> simp [Pipe.start, Hand.items, Work.items, Work.frames]

/-- The move makes a sample that satisfies `P`, or a frame that satisfies `Q`, if it makes one. -/
def Op.Makes (P : Stamped α → Prop) (Q : Stamped β → Prop) (p : Pipe α β) : Op α β → Prop
  | .make a => ∀ k, p.hand = .drawn k → P ⟨k, a⟩
  | .work b => ∀ s, p.work = .held s → P s → Q ⟨s.stamp, b⟩
  | _       => True

/-- What is made right stays right until it leaves. -/
theorem Every.move {P : Stamped α → Prop} {Q : Stamped β → Prop} {p p' : Pipe α β} {op : Op α β}
    {log evs : List (Event α β)} (h : Every P Q p log) (hop : op.Makes P Q p)
    (hm : Move cap capOut p op p' evs) : Every P Q p' (log ++ evs) := by
  obtain ⟨hhand, hqueue, hitem, hframe, hout, hsink, hrec⟩ := h
  cases hm with
  | still => exact ⟨hhand, hqueue, hitem, hframe, hout, hsink, by simpa using hrec⟩
  | draw hh =>
    exact ⟨by simp [Hand.items], hqueue, hitem, hframe, hout, hsink, by simpa using hrec⟩
  | make a hh =>
    refine ⟨?_, hqueue, hitem, hframe, hout, hsink, by simpa using hrec⟩
    simpa [Hand.items] using hop _ hh
  | accept hh hroom =>
    rw [hh] at hhand
    refine ⟨hhand, ?_, hitem, hframe, hout, hsink, by simpa using hrec⟩
    intro s hs
    rcases List.mem_append.mp hs with hs | hs
    · exact hqueue s hs
    · exact hhand s hs
  | refuse hh hfull =>
    rw [hh] at hhand
    exact ⟨hhand, hqueue, hitem, hframe, hout, hsink, by simpa using hrec⟩
  | count hh =>
    exact ⟨by simp [Hand.items], hqueue, hitem, hframe, hout, hsink, by simpa using hrec⟩
  | take hh hq =>
    rw [hq] at hqueue
    refine ⟨hhand, fun s hs => hqueue s (List.mem_cons_of_mem _ hs), ?_, by simp [Work.frames],
      hout, hsink, by simpa using hrec⟩
    simpa [Work.items] using hqueue _ List.mem_cons_self
  | work b hh =>
    rw [hh] at hitem
    refine ⟨hhand, hqueue, by simp [Work.items], ?_, hout, hsink, by simpa using hrec⟩
    simpa [Work.frames] using hop _ hh (hitem _ (List.mem_singleton_self _))
  | outAccept hh hroom =>
    rw [hh] at hframe
    refine ⟨hhand, hqueue, by simp [Work.items], hframe, ?_, hsink, by simpa using hrec⟩
    intro f hf
    rcases List.mem_append.mp hf with hf | hf
    · exact hout f hf
    · exact hframe f hf
  | outRefuse hh hfull =>
    rw [hh] at hframe
    exact ⟨hhand, hqueue, by simp [Work.items], hframe, hout, hsink, by simpa using hrec⟩
  | countOut hh =>
    exact ⟨hhand, hqueue, by simp [Work.items], by simp [Work.frames], hout, hsink,
      by simpa using hrec⟩
  | takeOut hh ho =>
    rw [ho] at hout
    have hf := hout _ List.mem_cons_self
    refine ⟨hhand, hqueue, hitem, hframe, fun f hf => hout f (List.mem_cons_of_mem _ hf), ?_, ?_⟩
    · simpa using hf
    · intro f hf'
      simp only [outTakenOf_append, outTakenOf_cons, outTakenOf_nil, List.append_nil] at hf'
      rcases List.mem_append.mp hf' with hf' | hf'
      · exact hrec f hf'
      · exact List.mem_singleton.mp hf' ▸ hf
  | print hh => exact ⟨hhand, hqueue, hitem, hframe, hout, by simp, by simpa using hrec⟩
  | flush =>
    exact ⟨hhand, by simp, hitem, hframe, hout, hsink, by simpa using hrec⟩
  | flushOut => exact ⟨hhand, hqueue, hitem, hframe, by simp, hsink, by simpa using hrec⟩
  | zero => exact ⟨hhand, hqueue, hitem, hframe, hout, hsink, by simpa using hrec⟩

end EcuTelemetry.Pipeline
