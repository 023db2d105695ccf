import EcuTelemetry.Pipeline.Accounting

/-!
# The record counted last

The producer counts a sample after it has offered it, and the worker counts the frame of an older
sample later on. A display of the record counted last goes back when the worker counts a frame while
a younger sample that is already counted waits in the queue. `Latest.move` says that it never goes
back otherwise, `Latest.goes_back` that it always does then.
-/

namespace EcuTelemetry.Pipeline

open EcuTelemetry.Core

variable {α β : Type*} {cap capOut : ℕ}

/-- The stamp of the sample or frame counted last, when it was `n` before. -/
def latestStep (n : ℕ) : Event α β → ℕ
  | .counted .samples k => k
  | .counted .frames k  => k
  | _                   => n

/-- The stamp of the sample or frame counted last, after more events. -/
def latest (n : ℕ) (evs : List (Event α β)) : ℕ := evs.foldl latestStep n

lemma latest_append (n : ℕ) (evs evs' : List (Event α β)) :
    latest n (evs ++ evs') = latest (latest n evs) evs' := List.foldl_append

lemma latest_map_flushed (n : ℕ) (ss : List (Stamped α)) :
    latest n (ss.map .flushed : List (Event α β)) = n := by
  induction ss with
  | nil => rfl
  | cons s ss ih => exact ih

/-- The producer has counted the sample that it offered with this stamp. -/
def Pipe.Counted (p : Pipe α β) (k : ℕ) : Prop := ∀ s, p.hand = .offered s true → k ≠ s.stamp

/-- The stamps of what the worker holds and may still take, in order. -/
def Pipe.ahead (p : Pipe α β) : List ℕ := p.work.stamps ++ p.queue.map Stamped.stamp

/-- The worker counts no frame, and no flush removes a sample, behind a counted sample in the
queue. -/
def Op.Overtakes (p : Pipe α β) : Op α β → Prop
  | .countOut =>
    (∃ f, p.work = .offered f true) ∧ ∃ s ∈ p.queue, p.Counted s.stamp
  | .flush    => p.work ≠ .empty ∧ p.queue ≠ []
  | _         => False

/-- The stamp `n` was counted last. -/
structure Latest (p : Pipe α β) (n : ℕ) : Prop where
  /-- The producer holds the youngest sample. -/
  hand : ∀ k ∈ p.hand.stamps, k = p.made
  order : (p.ahead ++ p.hand.load).Pairwise (· < ·)
  made : ∀ k ∈ p.ahead, k ≤ p.made
  /-- A sample that is offered and not yet counted is the last in the queue, or the worker has it or
  is done with it. -/
  offered : ∀ s, p.hand = .offered s true →
    (∃ queue, p.queue = queue ++ [s]) ∨ p.queue = [] ∧ ∀ k ∈ p.work.stamps, k = s.stamp
  le_made : n ≤ p.made
  /-- The next frame is of a sample that is not older, or a counted sample waits behind it. -/
  next : ∀ k ∈ p.ahead.head?, n ≤ k ∨ ∃ s ∈ p.queue, p.Counted s.stamp ∧ n ≤ s.stamp
  counted : ∀ s ∈ p.queue, p.Counted s.stamp → s.stamp ≤ n

lemma latest_start : Latest (.start : Pipe α β) 0 := by
  constructor <;>
    simp [Pipe.start, Pipe.ahead, Hand.stamps, Hand.load, Work.stamps]

/-- Nothing else in the pipeline matters. -/
lemma Latest.of_same {p p' : Pipe α β} {n : ℕ} (h : Latest p n) (hmade : p'.made = p.made)
    (hhand : p'.hand = p.hand) (hqueue : p'.queue = p.queue)
    (hwork : p'.work.stamps = p.work.stamps) : Latest p' n := by
  have hahead : p'.ahead = p.ahead := by rw [Pipe.ahead, Pipe.ahead, hwork, hqueue]
  have hcounted (k : ℕ) : p'.Counted k ↔ p.Counted k := by rw [Pipe.Counted, Pipe.Counted, hhand]
  constructor
  · rw [hhand, hmade]
    exact h.hand
  · rw [hahead, hhand]
    exact h.order
  · rw [hahead, hmade]
    exact h.made
  · rw [hhand, hqueue, hwork]
    exact h.offered
  · rw [hmade]
    exact h.le_made
  · simp only [hahead, hqueue, hcounted]
    exact h.next
  · simp only [hqueue, hcounted]
    exact h.counted

/-- When the producer has offered no sample that it still has to count, all are counted. -/
lemma Pipe.counted_of {p : Pipe α β} (h : ∀ s, p.hand ≠ .offered s true) (k : ℕ) : p.Counted k :=
  fun s hs => (h s hs).elim

/-- Only the producer moves, and it offers nothing. -/
lemma Latest.of_hand {p p' : Pipe α β} {n : ℕ} (h : Latest p n) (hmade : p.made ≤ p'.made)
    (hqueue : p'.queue = p.queue) (hwork : p'.work = p.work)
    (hbefore : ∀ s, p.hand ≠ .offered s true) (hafter : ∀ s, p'.hand ≠ .offered s true)
    (hhand : ∀ k ∈ p'.hand.stamps, k = p'.made)
    (hload : (p.ahead ++ p'.hand.load).Pairwise (· < ·)) : Latest p' n := by
  have hahead : p'.ahead = p.ahead := by rw [Pipe.ahead, Pipe.ahead, hwork, hqueue]
  constructor
  · exact hhand
  · rw [hahead]
    exact hload
  · rw [hahead]
    exact fun k hk => Nat.le_trans (h.made k hk) hmade
  · exact fun s hs => (hafter s hs).elim
  · exact Nat.le_trans h.le_made hmade
  · rw [hahead, hqueue]
    intro k hk
    rcases h.next k hk with hle | ⟨s, hs, -, hle⟩
    · exact .inl hle
    · exact .inr ⟨s, hs, Pipe.counted_of hafter _, hle⟩
  · rw [hqueue]
    exact fun s hs _ => h.counted s hs (Pipe.counted_of hbefore _)

/-- What is ahead was drawn before what the producer has not offered yet. -/
lemma Latest.ahead_lt_load {p : Pipe α β} {n : ℕ} (h : Latest p n) {j k : ℕ} (hj : j ∈ p.ahead)
    (hk : k ∈ p.hand.load) : j < k :=
  (List.pairwise_append.mp h.order).2.2 j hj k hk

/-- What is ahead is in the order of drawing. -/
lemma Latest.pairwise_ahead {p : Pipe α β} {n : ℕ} (h : Latest p n) : p.ahead.Pairwise (· < ·) :=
  (List.pairwise_append.mp h.order).1

lemma Pipe.mem_ahead {p : Pipe α β} {s : Stamped α} (hs : s ∈ p.queue) : s.stamp ∈ p.ahead :=
  List.mem_append_right _ (List.mem_map_of_mem hs)

/-- The queue accepts the sample in the producer's hand. -/
lemma Latest.accept {p : Pipe α β} {n : ℕ} {s : Stamped α} (h : Latest p n)
    (hh : p.hand = .held s) :
    Latest { p with queue := p.queue ++ [s], hand := .offered s true } n := by
  have hall (k : ℕ) : p.Counted k := Pipe.counted_of (by simp [hh]) k
  have hs : s.stamp = p.made := h.hand _ (by simp [hh, Hand.stamps])
  have hlt : ∀ t ∈ p.queue, t.stamp < s.stamp := fun t ht =>
    h.ahead_lt_load (Pipe.mem_ahead ht) (by simp [hh, Hand.load])
  have hahead : Pipe.ahead { p with queue := p.queue ++ [s], hand := .offered s true } =
      p.ahead ++ [s.stamp] := by
    simp [Pipe.ahead]
  constructor
  · simpa [Hand.stamps] using hs
  · rw [hahead]
    simpa [hh, Hand.load] using h.order
  · rw [hahead]
    intro k hk
    rcases List.mem_append.mp hk with hk | hk
    · exact h.made k hk
    · exact Nat.le_of_eq ((List.mem_singleton.mp hk).trans hs)
  · intro t ht
    obtain rfl : s = t := by simpa using ht
    exact .inl ⟨p.queue, rfl⟩
  · exact h.le_made
  · rw [hahead]
    intro k hk
    rcases ha : p.ahead with - | ⟨j, ks⟩
    · -- nothing was ahead: the sample is the next and the youngest
      obtain rfl : s.stamp = k := by simpa [ha] using hk
      exact .inl (hs ▸ h.le_made)
    · obtain rfl : j = k := by simpa [ha] using hk
      rcases h.next j (by simp [ha]) with hle | ⟨t, ht, -, hle⟩
      · exact .inl hle
      · refine .inr ⟨t, List.mem_append_left _ ht, fun r hr => ?_, hle⟩
        obtain rfl : s = r := by simpa using hr
        exact Nat.ne_of_lt (hlt t ht)
  · intro t ht hc
    rcases List.mem_append.mp ht with ht | ht
    · exact h.counted t ht (hall _)
    · exact absurd (congrArg Stamped.stamp (List.mem_singleton.mp ht)) (hc s rfl)

/-- The producer counts the sample that the queue accepted. -/
lemma Latest.count {p : Pipe α β} {n : ℕ} {s : Stamped α} (h : Latest p n)
    (hh : p.hand = .offered s true) :
    n ≤ s.stamp ∧ Latest { p with hand := .empty } s.stamp := by
  have hs : s.stamp = p.made := h.hand _ (by simp [hh, Hand.stamps])
  refine ⟨hs ▸ h.le_made, ?_⟩
  constructor
  · simp [Hand.stamps]
  · simp only [Hand.load, List.append_nil]
    exact h.pairwise_ahead
  · exact h.made
  · simp
  · exact Nat.le_of_eq hs
  · intro k hk
    have hmem : k ∈ p.ahead := List.mem_of_head? hk
    rcases h.offered s hh with ⟨queue, hq⟩ | ⟨hq, hw⟩
    · -- the sample itself waits behind the next frame
      exact .inr ⟨s, by simp [hq], Pipe.counted_of (by simp) _, Nat.le_refl _⟩
    · rw [Pipe.ahead, hq, List.map_nil, List.append_nil] at hmem
      exact .inl (Nat.le_of_eq (hw k hmem).symm)
  · intro t ht _
    rw [hs]
    exact h.made _ (Pipe.mem_ahead ht)

/-- The worker takes the next sample. -/
lemma Latest.take {p : Pipe α β} {n : ℕ} {s : Stamped α} {queue : List (Stamped α)}
    (h : Latest p n) (hw : p.work = .empty) (hq : p.queue = s :: queue) :
    Latest { p with queue := queue, work := .held s } n := by
  have hahead : Pipe.ahead { p with queue := queue, work := .held s } = p.ahead := by
    simp [Pipe.ahead, Work.stamps, hw, hq]
  constructor
  · exact h.hand
  · rw [hahead]
    exact h.order
  · rw [hahead]
    exact h.made
  · intro t ht
    rcases h.offered t ht with ⟨front, hf⟩ | ⟨he, -⟩
    · rcases front with - | ⟨r, front⟩
      · -- the worker takes the sample that is not yet counted
        obtain ⟨rfl, rfl⟩ : s = t ∧ queue = [] := by simpa [hq] using hf
        exact .inr ⟨rfl, by simp [Work.stamps]⟩
      · obtain ⟨rfl, rfl⟩ : s = r ∧ queue = front ++ [t] := by simpa [hq] using hf
        exact .inl ⟨front, rfl⟩
    · simp [hq] at he
  · exact h.le_made
  · rw [hahead]
    intro k hk
    rcases h.next k hk with hle | ⟨t, ht, hc, hle⟩
    · exact .inl hle
    · rw [hq] at ht
      rcases List.mem_cons.mp ht with rfl | ht
      · obtain rfl : t.stamp = k := by simpa [Pipe.ahead, Work.stamps, hw, hq] using hk
        exact .inl hle
      · exact .inr ⟨t, ht, hc, hle⟩
  · exact fun t ht => h.counted t (hq ▸ List.mem_cons_of_mem _ ht)

/-- What is ahead when the worker is done with its frame. -/
lemma Pipe.ahead_offered {p : Pipe α β} {f : Stamped β} {ok : Bool}
    (hw : p.work = .offered f ok) :
    p.ahead = f.stamp :: Pipe.ahead { p with work := .empty } := by
  simp [Pipe.ahead, Work.stamps, hw]

/-- The worker is done with its frame: the stamp `m` counted last is then no smaller than the
frame's, and all the frames to come are of younger samples. -/
lemma Latest.done {p : Pipe α β} {n m : ℕ} {f : Stamped β} {ok : Bool} (h : Latest p n)
    (hw : p.work = .offered f ok) (hm : m ≤ p.made)
    (hnext : ∀ k ∈ p.queue.map Stamped.stamp, f.stamp < k →
      m ≤ k ∨ ∃ s ∈ p.queue, p.Counted s.stamp ∧ m ≤ s.stamp)
    (hcounted : ∀ s ∈ p.queue, p.Counted s.stamp → s.stamp ≤ m) :
    Latest { p with work := .empty } m := by
  have horder := h.order
  rw [Pipe.ahead_offered hw, List.cons_append, List.pairwise_cons] at horder
  constructor
  · exact h.hand
  · exact horder.2
  · intro k hk
    exact h.made k (Pipe.ahead_offered hw ▸ List.mem_cons_of_mem _ hk)
  · intro s hs
    rcases h.offered s hs with hq | ⟨hq, -⟩
    · exact .inl hq
    · exact .inr ⟨hq, by simp [Work.stamps]⟩
  · exact hm
  · intro k hk
    have hmem := List.mem_of_head? hk
    exact hnext k (by simpa [Pipe.ahead, Work.stamps] using hmem)
      (horder.1 k (List.mem_append_left _ hmem))
  · exact hcounted

/-- The worker counts a frame behind which no counted sample waits. -/
lemma Latest.countOut {p : Pipe α β} {n : ℕ} {f : Stamped β} (h : Latest p n)
    (hw : p.work = .offered f true) (hclean : ¬ ∃ s ∈ p.queue, p.Counted s.stamp) :
    n ≤ f.stamp ∧ Latest { p with work := .empty } f.stamp := by
  have hhead : f.stamp ∈ p.ahead.head? := by simp [Pipe.ahead_offered hw]
  refine ⟨?_, h.done hw (h.made _ (List.mem_of_head? hhead)) ?_ ?_⟩
  · rcases h.next f.stamp hhead with hle | ⟨s, hs, hc, -⟩
    · exact hle
    · exact (hclean ⟨s, hs, hc⟩).elim
  · exact fun k _ hlt => .inl (Nat.le_of_lt hlt)
  · exact fun s hs hc => (hclean ⟨s, hs, hc⟩).elim

/-- The worker counts a frame that the second queue refused. -/
lemma Latest.countOut_refused {p : Pipe α β} {n : ℕ} {f : Stamped β} (h : Latest p n)
    (hw : p.work = .offered f false) : Latest { p with work := .empty } n := by
  refine h.done hw h.le_made (fun k _ hlt => ?_) h.counted
  rcases h.next f.stamp (by simp [Pipe.ahead_offered hw]) with hle | hex
  · exact .inl (Nat.le_trans hle (Nat.le_of_lt hlt))
  · exact .inr hex

/-- A flush finds the queue empty or the worker's hand empty. -/
lemma Latest.flush {p : Pipe α β} {n : ℕ} (h : Latest p n)
    (hclean : p.work = .empty ∨ p.queue = []) : Latest { p with queue := [] } n := by
  rcases hclean with hw | hq
  · have hahead : Pipe.ahead { p with queue := [] } = [] := by simp [Pipe.ahead, Work.stamps, hw]
    constructor
    · exact h.hand
    · rw [hahead]
      exact (List.pairwise_append.mp h.order).2.1
    · simp [hahead]
    · exact fun s _ => .inr ⟨rfl, by simp [Work.stamps, hw]⟩
    · exact h.le_made
    · simp [hahead]
    · simp
  · exact h.of_same rfl rfl hq.symm rfl

/-- The stamp counted last does not go back in a move that does not overtake. -/
theorem Latest.move {p p' : Pipe α β} {n : ℕ} {op : Op α β} {evs : List (Event α β)}
    (h : Latest p n) (hop : ¬ op.Overtakes p) (hm : Move cap capOut p op p' evs) :
    n ≤ latest n evs ∧ Latest p' (latest n evs) := by
  have hrefl : n ≤ n := Nat.le_refl n
  cases hm with
  | still => exact ⟨hrefl, h⟩
  | draw hh =>
    refine ⟨hrefl, h.of_hand (Nat.le_succ _) rfl rfl (by simp [hh]) (by simp) ?_ ?_⟩
    · simp [Hand.stamps]
    · refine List.pairwise_append.mpr ⟨h.pairwise_ahead, List.pairwise_singleton _ _, ?_⟩
      intro j hj k hk
      rw [List.mem_singleton.mp hk]
      exact Nat.lt_succ_of_le (h.made j hj)
  | @make k a hh =>
    refine ⟨hrefl, h.of_hand (Nat.le_refl _) rfl rfl (by simp [hh]) (by simp) ?_ ?_⟩
    · simpa [hh, Hand.stamps] using h.hand
    · simpa [hh, Hand.load] using h.order
  | accept hh hroom => exact ⟨hrefl, h.accept hh⟩
  | @refuse s hh hfull =>
    refine ⟨hrefl, h.of_hand (Nat.le_refl _) rfl rfl (by simp [hh]) (by simp) ?_ ?_⟩
    · simpa [hh, Hand.stamps] using h.hand
    · simpa [Hand.load] using h.pairwise_ahead
  | @count s ok hh =>
    cases ok with
    | true => exact h.count hh
    | false =>
      refine ⟨hrefl, h.of_hand (Nat.le_refl _) rfl rfl (by simp [hh]) (by simp) ?_ ?_⟩
      · simp [Hand.stamps]
      · simpa [Hand.load] using h.pairwise_ahead
  | take hw hq => exact ⟨hrefl, h.take hw hq⟩
  | work b hw => exact ⟨hrefl, h.of_same rfl rfl rfl (by simp [Work.stamps, hw])⟩
  | outAccept hw hroom => exact ⟨hrefl, h.of_same rfl rfl rfl (by simp [Work.stamps, hw])⟩
  | outRefuse hw hfull => exact ⟨hrefl, h.of_same rfl rfl rfl (by simp [Work.stamps, hw])⟩
  | @countOut f ok hw =>
    cases ok with
    | true => exact h.countOut hw fun hex => hop ⟨⟨f, hw⟩, hex⟩
    | false => exact ⟨hrefl, h.countOut_refused hw⟩
  | takeOut hs ho => exact ⟨hrefl, h.of_same rfl rfl rfl rfl⟩
  | print hs => exact ⟨hrefl, h.of_same rfl rfl rfl rfl⟩
  | flush =>
    rw [latest_map_flushed]
    refine ⟨hrefl, h.flush ?_⟩
    by_cases hw : p.work = .empty
    · exact .inl hw
    · by_cases hq : p.queue = []
      · exact .inr hq
      · exact (hop ⟨hw, hq⟩).elim
  | flushOut => exact ⟨hrefl, h.of_same rfl rfl rfl rfl⟩
  | zero => exact ⟨hrefl, h⟩

/-- A frame that is counted while a counted sample waits in the queue is older than the record
counted last. -/
theorem Latest.goes_back {p : Pipe α β} {n : ℕ} {f : Stamped β} {ok : Bool} (h : Latest p n)
    (hw : p.work = .offered f ok) {s : Stamped α} (hs : s ∈ p.queue) (hc : p.Counted s.stamp) :
    f.stamp < n := by
  have horder := h.pairwise_ahead
  rw [Pipe.ahead_offered hw, List.pairwise_cons] at horder
  have hlt : f.stamp < s.stamp := by
    apply horder.1
    exact List.mem_append_right _ (List.mem_map_of_mem hs)
  exact Nat.lt_of_lt_of_le hlt (h.counted s hs hc)

end EcuTelemetry.Pipeline
