import EcuTelemetry.Host.Code
import EcuTelemetry.Host.Command

/-!
# The lock discipline of the host simulator

The threads of the simulator take the mutex of a queue inside the state mutex and nest no other
mutexes, release what they take on every path, and wait and join with nothing else in hand. So no
order of their steps ends in a deadlock.
-/

namespace EcuTelemetry.Host.Code

open EcuTelemetry.Core

/-- The second mutex is taken inside the first. -/
def nests : Mutex → Mutex → Bool
  | .state, .sensorQueue    => true
  | .state, .telemetryQueue => true
  | _, _                    => false

/-- The state mutex comes before the others. -/
def rank : Mutex → ℕ
  | .state => 0
  | _      => 1

lemma nests_iff (m m' : Mutex) :
    nests m m' = true ↔ m = .state ∧ (m' = .sensorQueue ∨ m' = .telemetryQueue) := by
  cases m <;> cases m' <;> simp [nests]

lemma rank_lt_of_nests (m m' : Mutex) (h : nests m m' = true) : rank m < rank m' := by
  obtain ⟨rfl, rfl | rfl⟩ := (nests_iff m m').mp h <;> exact Nat.zero_lt_one

/-! ### The code keeps the discipline -/

lemma check_prvSensorLoop : prvSensorLoop.check nests [] = some [] := by decide

lemma check_prvProcessorLoop : prvProcessorLoop.check nests [] = some [] := by decide

lemma check_prvLoggerLoop : prvLoggerLoop.check nests [] = some [] := by decide

lemma check_prvWatchdogLoop : prvWatchdogLoop.check nests [] = some [] := by decide

/-- Every call keeps the discipline and releases what it takes. -/
lemma check_body (call : Call) : call.body.check nests [] = some [] := by
  cases call with
  | pop q timeoutMs => cases q <;> rfl
  | count q => cases q <;> rfl
  | clear q => cases q <;> rfl
  | _ => rfl

lemma checkAll_calls (calls : List Call) :
    checkAll nests (calls.map Call.body) [] = some [] := by
  induction calls with
  | nil => rfl
  | cons call calls ih => exact (checkAll_cons nests _ _ _ _).mpr ⟨[], check_body call, ih⟩

/-- The thread is where a loop of a worker thread starts over, or between two calls of the main
thread, or it has come to its end. -/
def AtRest (t : Thread) (k : List Proc) : Prop :=
  k = [] ∨
    match t with
    | .sensor    => k = [prvSensorLoop]
    | .processor => k = [prvProcessorLoop]
    | .logger    => k = [prvLoggerLoop]
    | .watchdog  => k = [prvWatchdogLoop]
    | .main      => ∃ calls : List Call, k = calls.map Call.body

lemma AtRest.check {t : Thread} {k : List Proc} (h : AtRest t k) :
    checkAll nests k [] = some [] := by
  rcases h with rfl | h
  · rfl
  · cases t with
    | sensor => exact h ▸ (checkAll_cons nests _ _ _ _).mpr ⟨[], check_prvSensorLoop, rfl⟩
    | processor => exact h ▸ (checkAll_cons nests _ _ _ _).mpr ⟨[], check_prvProcessorLoop, rfl⟩
    | logger => exact h ▸ (checkAll_cons nests _ _ _ _).mpr ⟨[], check_prvLoggerLoop, rfl⟩
    | watchdog => exact h ▸ (checkAll_cons nests _ _ _ _).mpr ⟨[], check_prvWatchdogLoop, rfl⟩
    | main =>
      obtain ⟨calls, rfl⟩ := h
      exact checkAll_calls calls

/-- At the start every thread keeps the discipline. -/
lemma disciplined_start (calls : List Call) (locals : Thread → Locals) :
    (start calls locals).Disciplined nests := by
  intro t
  refine ⟨[], by simp [start], List.Pairwise.nil, ?_⟩
  cases t with
  | sensor => rfl
  | processor => rfl
  | logger => rfl
  | watchdog => rfl
  | main => exact checkAll_calls calls

/-! ### No deadlock -/

/-- What the lock discipline promises of a state. -/
structure DeadlockFree (c : Config Mutex Thread Input Shared Locals) : Prop where
  /-- No thread waits for itself, directly or through others. -/
  acyclic : ∀ t, ¬ Relation.TransGen c.WaitsFor t t
  /-- A thread that holds a mutex takes another only if that is the mutex of a queue inside the
  state mutex; in particular none that it holds. -/
  nested : ∀ t m m', c.request t = some m → c.owner m' = some t →
    m' = .state ∧ (m = .sensorQueue ∨ m = .telemetryQueue)
  /-- Every path through the code releases what it took. -/
  released : ∀ t, AtRest t (c.cont t) → ∀ m, c.owner m ≠ some t
  /-- The holder of a mutex, or a holder that it waits for through others, goes on when it is its
  turn. -/
  goesOn : ∀ t m, c.owner m = some t →
    ∃ u, Relation.ReflTransGen c.WaitsFor t u ∧ (∃ m', c.owner m' = some u) ∧
      ∀ i, (c.step u i).cont u ≠ c.cont u
  /-- A thread joins another without holding any mutex. -/
  join : ∀ t u k, c.cont t = .join u :: k → ∀ m, c.owner m ≠ some t

/-- For every interleaving of the four worker threads and a main thread that makes any calls in any
order, the waits-for relation is acyclic in every state reached, and the rest of `DeadlockFree`
holds. -/
theorem deadlock_free (calls : List Call) (locals : Thread → Locals)
    (acts : List (Thread × Input)) :
    DeadlockFree (simulator.run (start calls locals) acts) := by
  have h := (disciplined_start calls locals).run rank_lt_of_nests acts
  constructor
  · exact h.acyclic rank_lt_of_nests
  · exact fun t m m' hreq hown => (nests_iff m' m).mp (h.nested hreq hown)
  · exact fun t hrest => h.released hrest.check
  · intro t m hown
    obtain ⟨u, hwait, hholds, hrun⟩ := h.goes_on rank_lt_of_nests hown
    exact ⟨u, hwait, hholds, hrun.step_ne⟩
  · exact fun t u k hc => h.join_free hc

/-! ### Undisturbed functions -/

section Effect

variable (i : Input) (v : View)

/-- Undisturbed, the functions of the worker threads have the effects of the sections that the
threads take as single steps elsewhere. -/
theorem effect_sections (task : TaskId) (sensorQ : Bool) :
    ((prvBeat task).effect i v).1.sim = Host.prvBeat v.1.sim task i.now ∧
      (prvUpdateFromSample.effect i v).1.sim = Host.prvUpdateFromSample v.1.sim v.2.s.val ∧
      (prvUpdateFromFrame.effect i v).1.sim = Host.prvUpdateFromFrame v.1.sim v.2.f.val ∧
      ((prvIncrementDrop sensorQ).effect i v).1.sim = Host.prvIncrementDrop v.1.sim sensorQ ∧
      (prvMakeSensorSample.effect i v).2.s.val =
        Host.prvMakeSensorSample v.2.seq v.1.sim.faultMode i.now ∧
      (prvProcessSample.effect i v).2.f.val = Host.prvProcessSample v.2.s.val i.now :=
  ⟨rfl, rfl, rfl, rfl, rfl, rfl⟩

/-- Undisturbed, a push has the effect of one on a bounded queue. -/
theorem effect_push :
    (((queuePush .sensor).effect i v).1.sim.sensorQueue, ((queuePush .sensor).effect i v).2.ok) =
        BoundedFifo.push queueCapacity v.1.sim.sensorQueue v.2.s ∧
      (((queuePush .telemetry).effect i v).1.sim.telemetryQueue,
          ((queuePush .telemetry).effect i v).2.ok) =
        BoundedFifo.push queueCapacity v.1.sim.telemetryQueue v.2.f := by
  constructor
  · rcases Nat.lt_or_ge v.1.sim.sensorQueue.length queueCapacity with hroom | hfull
    · rw [BoundedFifo.push_of_lt hroom]
      simp [queuePush, Stmt.block, Stmt.effect, onLocals, onSim, QueueId.length, QueueId.append,
        hroom]
    · rw [BoundedFifo.push_of_le hfull]
      simp [queuePush, Stmt.block, Stmt.effect, onLocals, QueueId.length, Nat.not_lt.mpr hfull]
  · rcases Nat.lt_or_ge v.1.sim.telemetryQueue.length queueCapacity with hroom | hfull
    · rw [BoundedFifo.push_of_lt hroom]
      simp [queuePush, Stmt.block, Stmt.effect, onLocals, onSim, QueueId.length, QueueId.append,
        hroom]
    · rw [BoundedFifo.push_of_le hfull]
      simp [queuePush, Stmt.block, Stmt.effect, onLocals, QueueId.length, Nat.not_lt.mpr hfull]

/-- Undisturbed, the calls have the effects that the command loop gives them. -/
theorem effect_calls (mode : FaultMode) :
    ((ecuSetFault mode).effect i v).1.sim = execute v.1.sim (.fault mode) ∧
      (ecuReset.effect i v).1.sim = execute v.1.sim .reset ∧
      (ecuSnapshot.effect i v).2.out = Host.ecuSnapshot v.1.sim ∧
      (ecuGetFault.effect i v).2.fault = v.1.sim.faultMode :=
  ⟨rfl, rfl, rfl, rfl⟩

end Effect

/-- In any state reached in which no mutex is held, a thread that is about to execute a function
that neither waits nor joins comes to its end, when no other thread moves, with its effect. -/
theorem function_undisturbed (calls : List Call) (locals : Thread → Locals)
    (acts : List (Thread × Input)) (i : Input) {t : Thread} {p : Proc} (hp : p.Straight)
    {k : List Proc} (hc : (simulator.run (start calls locals) acts).cont t = p :: k)
    (hfree : ∀ m, (simulator.run (start calls locals) acts).owner m = none) :
    ∃ n, (simulator.run (start calls locals) acts).Reaches nests t i n k
      (p.effect i ((simulator.run (start calls locals) acts).view t)) := by
  have h := (disciplined_start calls locals).run rank_lt_of_nests acts
  have halone : (simulator.run (start calls locals) acts).Alone nests t :=
    ⟨h t, fun m u hown => absurd ((hfree m).symm.trans hown) (by simp)⟩
  exact halone.undisturbed rank_lt_of_nests i hp hc

end EcuTelemetry.Host.Code
