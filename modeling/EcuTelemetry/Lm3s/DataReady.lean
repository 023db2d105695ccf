import EcuTelemetry.Lm3s.Ranges

/-!
# Samples and their notifications

`sensor_task` puts a sample in a queue and then gives a binary semaphore; `processing_task` takes
the semaphore once for each sample. A give that finds the semaphore full is lost, and with it the
sample it announces: `processing_task` is then one sample behind for good. `drained_of_clean` shows
that no sample is ever left behind while no give is lost.
-/

namespace EcuTelemetry.Lm3s

open EcuTelemetry.Core EcuTelemetry.Core.Checked

/-- No sample is left in the queue when `processing_task` waits on the empty semaphore and
`sensor_task` is not between its send and its give. -/
def World.Drained (w : World) : Prop :=
  w.processing = .take → w.dataReady = false → w.sensor ≠ .setReady → w.sensor ≠ .give →
    w.sensorQueue = []

instance (w : World) : Decidable w.Drained := inferInstanceAs (Decidable (_ → _))

/-- A give of `sensor_task` finds the semaphore empty. -/
def CleanGive (w : World) : Action → Prop
  | .sensor _ => w.sensor = .give → w.dataReady = false
  | _         => True

instance (w : World) : ∀ a, Decidable (CleanGive w a)
  | .sensor _ => inferInstanceAs (Decidable (_ → _))
  | .timer | .processing | .telemetry | .health | .timeout | .faultInject _ | .faultClear =>
    inferInstanceAs (Decidable True)

/-! ### Notifications under way -/

/-- `sensor_task` owes the give for a sample it sent. -/
def SensorPc.owes : SensorPc → ℕ
  | .setReady | .give => 1
  | _                 => 0

/-- `processing_task` has taken the semaphore and not yet the sample. -/
def ProcessingPc.holds : ProcessingPc → ℕ
  | .receive => 1
  | _        => 0

/-- The notifications that are on their way from `sensor_task` to the sample they announce. -/
def World.notifications (w : World) : ℕ := w.sensor.owes + w.dataReady.toNat + w.processing.holds

/-- Every sample in the queue has its notification, and every notification its sample. -/
def World.Matched (w : World) : Prop := w.sensorQueue.length = w.notifications

lemma World.Matched.drained {w : World} (h : w.Matched) : w.Drained := by
  intro hp hd hready hgive
  have howes : w.sensor.owes = 0 := by
    cases hs : w.sensor with
    | setReady => exact absurd hs hready
    | give => exact absurd hs hgive
    | _ => rfl
  rw [World.Matched, World.notifications, howes, hd, hp] at h
  exact List.eq_nil_of_length_eq_zero h

lemma SensorPc.owes_le : ∀ pc : SensorPc, pc.owes ≤ 1
  | .setReady | .give => le_rfl
  | .take | .test | .delay | .tick | .fill _ | .send _ | .beat => Nat.zero_le 1

lemma ProcessingPc.holds_le : ∀ pc : ProcessingPc, pc.holds ≤ 1
  | .receive => le_rfl
  | .take | .idleBeat | .compute _ | .judge _ _ | .setFault _ | .send _ | .beat | .halted =>
    Nat.zero_le 1

/-- With every notification in one of three places, the queue is far from full. -/
lemma World.Matched.length_le {w : World} (h : w.Matched) : w.sensorQueue.length ≤ 3 := by
  rw [h, World.notifications]
  exact Nat.add_le_add (Nat.add_le_add w.sensor.owes_le (Bool.toNat_le _)) w.processing.holds_le

/-! ### Steps -/

/-- The queue, the semaphore and the notifications of both tasks are as before. -/
structure SameHandover (w w' : World) : Prop where
  owes : w'.sensor.owes = w.sensor.owes
  dataReady : w'.dataReady = w.dataReady
  holds : w'.processing.holds = w.processing.holds
  sensorQueue : w'.sensorQueue = w.sensorQueue

lemma World.Matched.of_same {w w' : World} (h : w.Matched) (hs : SameHandover w w') :
    w'.Matched := by
  rw [World.Matched, World.notifications, hs.owes, hs.dataReady, hs.holds, hs.sensorQueue]
  exact h

/-- A clean step of `sensor_task` keeps samples and notifications matched. -/
lemma World.Matched.sensorStep {w : World} (h : w.Matched)
    (hclean : w.sensor = .give → w.dataReady = false) (tick : UInt32) :
    (w.sensorStep tick).1.Matched := by
  have hroom : w.sensorQueue.length < queueLen := h.length_le.trans_lt (by decide)
  cases hs : w.sensor with
  | take =>
    simp only [World.sensorStep, hs]
    split_ifs
    · exact h.of_same ⟨by rw [hs]; rfl, rfl, rfl, rfl⟩
    · exact h
  | test =>
    refine h.of_same ?_
    simp only [World.sensorStep, hs]
    refine ⟨?_, rfl, rfl, rfl⟩
    rw [hs]
    split_ifs <;> rfl
  | send data =>
    -- the sample is taken, and its give is owed
    rw [World.Matched, World.notifications, hs] at h
    simp only [World.sensorStep, hs, BoundedFifo.push_of_lt hroom, World.Matched,
      World.notifications, List.length_append, h]
    simp only [SensorPc.owes, List.length_singleton]
    omega
  | give =>
    rw [World.Matched, World.notifications, hs, hclean hs] at h
    simp only [World.sensorStep, hs, World.Matched, World.notifications, h]
    rfl
  | delay | tick | fill nowMs | setReady | beat =>
    refine h.of_same ?_
    simp only [World.sensorStep, hs, World.setBeat]
    exact ⟨by rw [hs]; rfl, rfl, rfl, rfl⟩

/-- A step of `processing_task` keeps samples and notifications matched. -/
lemma World.Matched.processingStep {w : World} (h : w.Matched) :
    w.processingStep.1.Matched := by
  cases hp : w.processing with
  | take =>
    rw [World.Matched, World.notifications, hp] at h
    simp only [World.processingStep, hp]
    split_ifs with hd
    · -- the notification moves from the semaphore to the task
      rw [hd] at h
      exact h
    · rw [World.Matched, World.notifications, hp]
      exact h
  | receive =>
    rw [World.Matched, World.notifications, hp] at h
    cases hq : w.sensorQueue with
    | nil =>
      rw [hq] at h
      exact absurd h (by simp [ProcessingPc.holds])
    | cons data queue =>
      rw [hq, List.length_cons, ProcessingPc.holds] at h
      simp only [World.processingStep, hp, hq, World.Matched, World.notifications]
      exact Nat.succ.inj h
  | compute sensor =>
    refine h.of_same ?_
    simp only [World.processingStep, hp]
    cases calculate w.speedKmhX10 sensor with
    | ok c => exact ⟨rfl, rfl, by rw [hp]; rfl, rfl⟩
    | error _ => exact ⟨rfl, rfl, by rw [hp]; rfl, rfl⟩
  | judge sensor c =>
    refine h.of_same ?_
    simp only [World.processingStep, hp]
    split_ifs <;> exact ⟨rfl, rfl, by rw [hp]; rfl, rfl⟩
  | idleBeat | setFault telem | send telem | beat =>
    refine h.of_same ?_
    simp only [World.processingStep, hp, World.setBeat]
    exact ⟨rfl, rfl, by rw [hp]; rfl, rfl⟩
  | halted =>
    simp only [World.processingStep, hp]
    exact h

/-- No other step touches the handover. -/
lemma sameHandover_next (w : World) {a : Action} (hs : ∀ tick, a ≠ .sensor tick)
    (hp : a ≠ .processing) : SameHandover w (lm3s.next w a) := by
  cases a with
  | sensor tick => exact absurd rfl (hs tick)
  | processing => exact absurd rfl hp
  | telemetry =>
    simp only [lm3s, Machine.next, World.step, World.telemetryStep, World.setBeat]
    split
    · split <;> exact ⟨rfl, rfl, rfl, rfl⟩
    all_goals exact ⟨rfl, rfl, rfl, rfl⟩
  | health =>
    simp only [lm3s, Machine.next, World.step, World.healthStep]
    split <;> exact ⟨rfl, rfl, rfl, rfl⟩
  | timer | timeout | faultInject fault | faultClear => exact ⟨rfl, rfl, rfl, rfl⟩

/-- A clean step keeps samples and notifications matched. -/
lemma World.Matched.next {w : World} {a : Action} (h : w.Matched) (hclean : CleanGive w a) :
    (lm3s.next w a).Matched := by
  cases a with
  | sensor tick => exact h.sensorStep hclean tick
  | processing => exact h.processingStep
  | _ => exact h.of_same (sameHandover_next w (by simp) (by simp))

lemma matched_start (rng : UInt32) : (World.start rng).Matched := rfl

/-! ### A lost give -/

/-- `sensor_task` owes no give, and one sample in the queue has no notification. -/
structure Behind (w : World) : Prop where
  owes : w.sensor.owes = 0
  length : w.sensorQueue.length = w.dataReady.toNat + w.processing.holds + 1

/-- A give that finds the semaphore full leaves a sample behind. -/
lemma World.Matched.behind {w : World} (h : w.Matched) (hgive : w.sensor = .give)
    (hready : w.dataReady = true) (tick : UInt32) : Behind (lm3s.next w (.sensor tick)) := by
  rw [World.Matched, World.notifications, hgive, hready] at h
  simp only [lm3s, Machine.next, World.step, World.sensorStep, hgive]
  refine ⟨rfl, ?_⟩
  simp only [h, SensorPc.owes]
  omega

/-- How far `processing_task` is from waiting again, its pending notification apart. -/
def ProcessingPc.rank : ProcessingPc → ℕ
  | .take | .halted   => 0
  | .idleBeat | .beat => 1
  | .send _           => 2
  | .setFault _       => 3
  | .judge _ _        => 4
  | .compute _        => 5
  | .receive          => 6

/-- How far `processing_task` is from waiting on an empty semaphore. -/
def World.rank (w : World) : ℕ := 8 * w.dataReady.toNat + w.processing.rank

/-- A step of `processing_task` keeps the sample behind, and brings the task closer to waiting. -/
lemma Behind.processingStep {w : World} {log : List Event} (h : Behind w)
    (hc : Carries SensorData.Made (fun _ => True) w log)
    (hbusy : w.processing ≠ .take ∨ w.dataReady = true) :
    Behind w.processingStep.1 ∧ w.processingStep.1.rank < w.rank := by
  obtain ⟨howes, hlength⟩ := h
  have hcarries := hc.processing
  cases hp : w.processing with
  | take =>
    have hready : w.dataReady = true := hbusy.resolve_left (absurd hp)
    rw [hp, hready] at hlength
    simp only [World.processingStep, hp, hready, if_true, World.rank]
    exact ⟨⟨howes, hlength⟩, by decide⟩
  | receive =>
    rw [hp] at hlength
    cases hq : w.sensorQueue with
    | nil =>
      rw [hq] at hlength
      exact absurd hlength (by simp)
    | cons data queue =>
      rw [hq, List.length_cons, ProcessingPc.holds] at hlength
      simp only [World.processingStep, hp, hq, World.rank]
      exact ⟨⟨howes, Nat.succ.inj hlength⟩, Nat.add_lt_add_left (by simp [ProcessingPc.rank]) _⟩
  | compute sensor =>
    rw [hp] at hlength hcarries
    obtain ⟨c, hcalc, -⟩ := calculate_made hc.speed hcarries
    simp only [World.processingStep, hp, hcalc, World.rank]
    exact ⟨⟨howes, hlength⟩, Nat.add_lt_add_left (by simp [ProcessingPc.rank]) _⟩
  | judge sensor c =>
    rw [hp] at hlength
    simp only [World.processingStep, hp, World.rank]
    split_ifs
    · exact ⟨⟨howes, hlength⟩, Nat.add_lt_add_left (by simp [ProcessingPc.rank]) _⟩
    · exact ⟨⟨howes, hlength⟩, Nat.add_lt_add_left (by simp [ProcessingPc.rank]) _⟩
  | idleBeat | setFault telem | send telem | beat =>
    rw [hp] at hlength
    simp only [World.processingStep, hp, World.setBeat, World.rank]
    exact ⟨⟨howes, hlength⟩, Nat.add_lt_add_left (by simp [ProcessingPc.rank]) _⟩
  | halted =>
    rw [hp] at hcarries
    exact hcarries.elim

/-- While `processing_task` waits, the sample behind stays in the queue. -/
lemma Behind.not_drained {w : World} (h : Behind w) (hp : w.processing = .take)
    (hd : w.dataReady = false) : ¬ w.Drained := by
  intro hdrained
  have howes {pc : SensorPc} (hpc : pc.owes = 1) : w.sensor ≠ pc := by
    intro hs
    rw [← hs, h.owes] at hpc
    exact absurd hpc (by decide)
  have hlength := h.length
  rw [hdrained hp hd (howes rfl) (howes rfl)] at hlength
  exact absurd hlength (by simp)

/-- With a sample behind, `processing_task` on its own comes to wait while the sample is queued. -/
lemma Behind.stranded {w : World} {log : List Event} (h : Behind w)
    (hc : Carries SensorData.Made (fun _ => True) w log) :
    ∃ n, ¬ (lm3s.run w (List.replicate n .processing)).Drained := by
  induction hn : w.rank using Nat.strong_induction_on generalizing w log with
  | _ n ih =>
    by_cases hwait : w.processing = .take ∧ w.dataReady = false
    · obtain ⟨hp, hd⟩ := hwait
      exact ⟨0, h.not_drained hp hd⟩
    · have hbusy : w.processing ≠ .take ∨ w.dataReady = true := by
        by_cases hp : w.processing = .take
        · exact .inr (Bool.not_eq_false _ |>.mp fun hd => hwait ⟨hp, hd⟩)
        · exact .inl hp
      obtain ⟨hbehind, hlt⟩ := h.processingStep hc hbusy
      have hcarries := hc.next (fun _ hs => hs) (fun nowMs => fillSample_made _ nowMs w.rng)
        (fun _ _ _ _ => trivial) .processing
      obtain ⟨k, hk⟩ := ih _ (hn ▸ hlt) hbehind hcarries rfl
      exact ⟨k + 1, hk⟩

/-! ### The rule -/

/-- In a run in which no give finds the semaphore full, no sample is left behind. The first give
that does strands one: from there `processing_task` alone comes to wait with a sample queued. -/
theorem drained_of_clean (rng : UInt32) {as : List Action}
    (h : lm3s.Meets CleanGive (.start rng) as) :
    (lm3s.run (.start rng) as).Drained ∧
      ∀ tick, ¬ CleanGive (lm3s.run (.start rng) as) (.sensor tick) →
        ∃ n, ¬ (lm3s.run (.start rng)
          (as ++ .sensor tick :: List.replicate n .processing)).Drained := by
  have hmatched : (lm3s.run (.start rng) as).Matched :=
    lm3s.invariant (P := fun w _ => w.Matched) (fun _ _ _ hclean hm => hm.next hclean)
      (matched_start rng) h
  refine ⟨hmatched.drained, fun tick hlost => ?_⟩
  obtain ⟨hgive, hready⟩ := Classical.not_imp.mp hlost
  have hbehind := hmatched.behind hgive (Bool.eq_true_of_not_eq_false hready) tick
  have hcarries := (made_run rng as).next (fun _ hs => hs)
    (fun nowMs => fillSample_made _ nowMs _) (fun _ _ _ _ => trivial) (.sensor tick)
  obtain ⟨n, hn⟩ := hbehind.stranded hcarries
  refine ⟨n, ?_⟩
  rw [lm3s.run_append, Machine.run_cons]
  exact hn

/-- One sample is made, announced and processed. -/
theorem drained_of_clean_one :
    (lm3s.run (.start rngStart) (.timer :: List.replicate 8 (.sensor 100) ++
      List.replicate 6 .processing)).Drained :=
  (drained_of_clean rngStart (by decide +kernel)).1

/-- Two samples are made before `processing_task` runs, then it takes one of them and waits. -/
def twoSamples : List Action :=
  .timer :: List.replicate 8 (.sensor 100) ++ .timer :: List.replicate 8 (.sensor 200) ++
    List.replicate 6 .processing

theorem twoSamples_stranded : ¬ (lm3s.run (.start rngStart) twoSamples).Drained := by
  decide +kernel

end EcuTelemetry.Lm3s
