import EcuTelemetry.Core.Machine
import Mathlib.Data.Fintype.Defs
import Mathlib.Data.Set.Finite.Basic
import Mathlib.Logic.Function.Basic
import Mathlib.Logic.Relation
import Mathlib.Order.WellFounded

/-!
# Threads that take mutexes

A small language for threads that share a state and take mutexes: atomic accesses, taking and
releasing a mutex, waiting on a condition variable, joining a thread, and the usual control. A
thread is a list of statements still to be executed; a step executes the first of them.

`check` follows the mutexes held through a statement and accepts it when mutexes are nested in a
given order only, are released in the opposite order, and no thread waits or joins while it holds a
mutex that others need. `Disciplined.step` says that what is accepted stays so, and what follows
draws the conclusions: the waits-for relation is acyclic, and whenever a mutex is held some holder
can go on. `Alone.undisturbed` gives the effect of a statement that no other thread disturbs.
-/

namespace EcuTelemetry.Core

/-! ### Statements -/

/-- Statements over mutexes `M`, threads `T`, inputs `ι` and a state `σ` as one thread sees it. -/
inductive Stmt (M T ι σ : Type*) where
  | skip
  | lock (m : M)
  | unlock (m : M)
  /-- One atomic access. -/
  | act (f : ι → σ → σ)
  /-- Release the mutex and go to sleep. -/
  | wait (m : M)
  /-- Asleep, to be woken at any time and then to take the mutex again. -/
  | asleep (m : M)
  | join (t : T)
  | seq (p q : Stmt M T ι σ)
  | ite (c : σ → Bool) (p q : Stmt M T ι σ)
  | loop (c : σ → Bool) (p : Stmt M T ι σ)

variable {M T ι S L : Type*}

/-- Statements one after the other. -/
def Stmt.block {σ : Type*} : List (Stmt M T ι σ) → Stmt M T ι σ
  | []      => .skip
  | [p]     => p
  | p :: ps => .seq p (block ps)

/-- The holder of each mutex, what each thread has still to execute, the shared state, and what only
one thread sees. -/
structure Config (M T ι S L : Type*) where
  owner : M → Option T
  cont : T → List (Stmt M T ι (S × L))
  shared : S
  locals : T → L

namespace Config

/-- What a thread sees. -/
def view (c : Config M T ι S L) (t : T) : S × L := (c.shared, c.locals t)

/-- The mutex that a thread is about to take. -/
def request (c : Config M T ι S L) (t : T) : Option M :=
  match c.cont t with
  | .lock m :: _ => some m
  | _            => none

/-- A thread is about to take a mutex that another thread, or itself, holds. -/
def WaitsFor (c : Config M T ι S L) (t u : T) : Prop :=
  ∃ m, c.request t = some m ∧ c.owner m = some u

/-- The next statement of a thread can be executed. -/
def Runnable (c : Config M T ι S L) (t : T) : Prop :=
  match c.cont t with
  | []           => False
  | .lock m :: _ => c.owner m = none
  | .join u :: _ => c.cont u = []
  | _ :: _       => True

/-- The thread has `k` still to execute. -/
def goto [DecidableEq T] (c : Config M T ι S L) (t : T) (k : List (Stmt M T ι (S × L))) :
    Config M T ι S L :=
  { c with cont := Function.update c.cont t k }

@[simp] lemma goto_owner [DecidableEq T] (c : Config M T ι S L) (t : T)
    (k : List (Stmt M T ι (S × L))) : (c.goto t k).owner = c.owner := rfl

@[simp] lemma goto_view [DecidableEq T] (c : Config M T ι S L) (t u : T)
    (k : List (Stmt M T ι (S × L))) : (c.goto t k).view u = c.view u := rfl

@[simp] lemma goto_cont [DecidableEq T] (c : Config M T ι S L) (t : T)
    (k : List (Stmt M T ι (S × L))) : (c.goto t k).cont = Function.update c.cont t k := rfl

/-- A mutex gets another holder, or none. -/
def give [DecidableEq M] (c : Config M T ι S L) (m : M) (holder : Option T) : Config M T ι S L :=
  { c with owner := Function.update c.owner m holder }

@[simp] lemma give_owner [DecidableEq M] (c : Config M T ι S L) (m : M) (holder : Option T) :
    (c.give m holder).owner = Function.update c.owner m holder := rfl

@[simp] lemma give_view [DecidableEq M] (c : Config M T ι S L) (m : M) (holder : Option T) (t : T) :
    (c.give m holder).view t = c.view t := rfl

@[simp] lemma give_cont [DecidableEq M] (c : Config M T ι S L) (m : M) (holder : Option T) :
    (c.give m holder).cont = c.cont := rfl

variable [DecidableEq M] [DecidableEq T]

/-- The next step of a thread. A thread that has to wait stays where it is. -/
def step (c : Config M T ι S L) (t : T) (i : ι) : Config M T ι S L :=
  match c.cont t with
  | [] => c
  | .skip :: k => c.goto t k
  | .lock m :: k =>
    match c.owner m with
    | none   => (c.give m (some t)).goto t k
    | some _ => c
  | .unlock m :: k => (c.give m none).goto t k
  | .act f :: k =>
    { c.goto t k with
      shared := (f i (c.view t)).1
      locals := Function.update c.locals t (f i (c.view t)).2 }
  | .wait m :: k => (c.give m none).goto t (.asleep m :: k)
  | .asleep m :: k => c.goto t (.lock m :: k)
  | .join u :: k =>
    match c.cont u with
    | []     => c.goto t k
    | _ :: _ => c
  | .seq p q :: k => c.goto t (p :: q :: k)
  | .ite b p q :: k => c.goto t ((if b (c.view t) then p else q) :: k)
  | .loop b p :: k => c.goto t (if b (c.view t) then p :: .loop b p :: k else k)

end Config

/-- Threads in any order. -/
def threads (M T ι S L : Type*) [DecidableEq M] [DecidableEq T] :
    Machine (Config M T ι S L) (T × ι) Empty :=
  ⟨fun c a => (c.step a.1 a.2, [])⟩

/-- A thread whose next statement can be executed goes on. -/
lemma Config.Runnable.step_ne [DecidableEq M] [DecidableEq T] {c : Config M T ι S L} {t : T}
    (h : c.Runnable t) (i : ι) : (c.step t i).cont t ≠ c.cont t := by
  rw [Config.Runnable] at h
  rw [Config.step]
  cases hc : c.cont t with
  | nil => simp [hc] at h
  | cons p k =>
    rw [hc] at h
    cases p with
    | lock m => simp_all
    | join u => simp_all
    | ite b p q =>
      -- a branch is smaller than the statement
      have hsize : sizeOf (if b (c.view t) then p else q) < sizeOf (Stmt.ite b p q) := by
        split <;> (rw [Stmt.ite.sizeOf_spec]; omega)
      simp only [Config.goto_cont, Function.update_self, ne_eq, List.cons.injEq, and_true]
      exact fun heq => absurd (congrArg sizeOf heq) (Nat.ne_of_lt hsize)
    | loop b p =>
      simp only [Config.goto_cont, Function.update_self]
      split <;> simp
    | _ => simp

/-! ### The discipline -/

section Check

variable [DecidableEq M] {σ : Type*} (nests : M → M → Bool)

/-- The mutexes held after a statement, when those in the list are held before, the one taken last
first; `none` if the statement breaks the discipline. A mutex may be taken inside those that it
nests in, is released when it was the one taken last, and a thread waits with the one mutex that it
releases and joins with none. -/
def Stmt.check : Stmt M T ι σ → List M → Option (List M)
  | .skip, held      => some held
  | .lock m, held    => if held.all fun m' => nests m' m then some (m :: held) else none
  | .unlock m, held  =>
    match held with
    | []         => none
    | m' :: rest => if m' = m then some rest else none
  | .act _, held     => some held
  | .wait m, held    => if held = [m] then some held else none
  | .asleep m, held  => if held = [] then some [m] else none
  | .join _, held    => if held = [] then some held else none
  | .seq p q, held   => (p.check held).bind q.check
  | .ite _ p q, held => if p.check held = q.check held then p.check held else none
  | .loop _ p, held  => if p.check held = some held then some held else none

/-- The same for a list of statements. -/
def checkAll : List (Stmt M T ι σ) → List M → Option (List M)
  | [], held     => some held
  | p :: k, held => (p.check nests held).bind (checkAll k)

lemma checkAll_cons (p : Stmt M T ι σ) (k : List (Stmt M T ι σ)) (held after : List M) :
    checkAll nests (p :: k) held = some after ↔
      ∃ mid, p.check nests held = some mid ∧ checkAll nests k mid = some after :=
  Option.bind_eq_some_iff

end Check

/-- A thread holds the mutexes in the list, the one taken last first, nested as allowed, and what it
has still to execute keeps the discipline and releases them all. -/
structure Config.Keeps [DecidableEq M] (nests : M → M → Bool) (c : Config M T ι S L) (t : T)
    (held : List M) : Prop where
  owner : ∀ m, m ∈ held ↔ c.owner m = some t
  nested : held.Pairwise fun m m' => nests m' m = true
  check : checkAll nests (c.cont t) held = some []

/-- Every thread keeps the discipline. -/
def Config.Disciplined [DecidableEq M] (nests : M → M → Bool) (c : Config M T ι S L) : Prop :=
  ∀ t, ∃ held, c.Keeps nests t held

/-- Nothing that concerns another thread than `t` is changed. -/
def Config.SameBut (t : T) (c c' : Config M T ι S L) : Prop :=
  ∀ u, u ≠ t → c'.cont u = c.cont u ∧ ∀ m, c'.owner m = some u ↔ c.owner m = some u

/-- What concerns a thread is unchanged. -/
lemma Config.Keeps.frame [DecidableEq M] {nests : M → M → Bool} {c c' : Config M T ι S L} {t u : T}
    {held : List M} (h : c.Keeps nests u held) (hsame : Config.SameBut t c c') (hu : u ≠ t) :
    c'.Keeps nests u held := by
  obtain ⟨hcont, howner⟩ := hsame u hu
  exact ⟨fun m => (h.owner m).trans (howner m).symm, h.nested, by rw [hcont]; exact h.check⟩

section Discipline

variable [DecidableEq M] [DecidableEq T] {nests : M → M → Bool} {rank : M → ℕ}

omit [DecidableEq M] in
/-- A step of a thread that takes and releases nothing. -/
lemma Config.sameBut_goto (c : Config M T ι S L) (t : T) (k : List (Stmt M T ι (S × L))) :
    Config.SameBut t c (c.goto t k) :=
  fun _ hu => ⟨by simp [hu], fun _ => Iff.rfl⟩

lemma Config.Keeps.goto {c : Config M T ι S L} {t : T} {held : List M}
    (h : c.Keeps nests t held) {k : List (Stmt M T ι (S × L))}
    (hk : checkAll nests k held = some []) : (c.goto t k).Keeps nests t held :=
  ⟨h.owner, h.nested, by simpa using hk⟩

/-- A mutex that no other thread holds gets another holder. -/
lemma Config.sameBut_give {c : Config M T ι S L} {t : T} {m : M} {holder : Option T}
    (hbefore : ∀ u, u ≠ t → c.owner m ≠ some u) (hafter : ∀ u, u ≠ t → holder ≠ some u)
    (k : List (Stmt M T ι (S × L))) : Config.SameBut t c ((c.give m holder).goto t k) := by
  refine fun u hu => ⟨by simp [hu], fun m' => ?_⟩
  by_cases hm : m' = m
  · subst hm
    simp [hbefore u hu, hafter u hu]
  · simp [hm]

/-- A thread takes a mutex. -/
lemma Config.Keeps.lock {c : Config M T ι S L} {t : T} {held : List M} (h : c.Keeps nests t held)
    {m : M} {k : List (Stmt M T ι (S × L))} (hnests : ∀ m' ∈ held, nests m' m = true)
    (hk : checkAll nests k (m :: held) = some []) :
    ((c.give m (some t)).goto t k).Keeps nests t (m :: held) := by
  refine ⟨fun m' => ?_, List.pairwise_cons.mpr ⟨hnests, h.nested⟩, by simpa using hk⟩
  by_cases hm : m' = m
  · simp [hm]
  · simp [hm, h.owner]

/-- A thread releases the mutex that it took last. -/
lemma Config.Keeps.unlock (hrank : ∀ a b, nests a b = true → rank a < rank b)
    {c : Config M T ι S L} {t : T} {m : M} {rest : List M} (h : c.Keeps nests t (m :: rest))
    {k : List (Stmt M T ι (S × L))} (hk : checkAll nests k rest = some []) :
    ((c.give m none).goto t k).Keeps nests t rest := by
  obtain ⟨hm, hrest⟩ := List.pairwise_cons.mp h.nested
  have hnot : m ∉ rest := fun hmem => Nat.lt_irrefl _ (hrank m m (hm m hmem))
  refine ⟨fun m' => ?_, hrest, by simpa using hk⟩
  by_cases hm' : m' = m
  · simp [hm', hnot]
  · simp [hm', ← h.owner]

lemma Config.Keeps.sameBut_unlock {c : Config M T ι S L} {t : T} {m : M} {rest : List M}
    (h : c.Keeps nests t (m :: rest)) (k : List (Stmt M T ι (S × L))) :
    Config.SameBut t c ((c.give m none).goto t k) := by
  have howner : c.owner m = some t := (h.owner m).mp List.mem_cons_self
  exact Config.sameBut_give (fun u hu => by simp [howner, Ne.symm hu]) (by simp) k

/-- A step keeps the discipline of the thread that moves and leaves the others alone. -/
lemma Config.Keeps.step (hrank : ∀ a b, nests a b = true → rank a < rank b)
    {c : Config M T ι S L} {t : T} {held : List M} (h : c.Keeps nests t held) (i : ι) :
    (∃ held', (c.step t i).Keeps nests t held') ∧ Config.SameBut t c (c.step t i) := by
  have hstill : (∃ held', c.Keeps nests t held') ∧ Config.SameBut t c c :=
    ⟨⟨held, h⟩, fun _ _ => ⟨rfl, fun _ => Iff.rfl⟩⟩
  have hgoto {k : List (Stmt M T ι (S × L))} (hk : checkAll nests k held = some []) :
      (∃ held', (c.goto t k).Keeps nests t held') ∧ Config.SameBut t c (c.goto t k) :=
    ⟨⟨held, h.goto hk⟩, c.sameBut_goto t k⟩
  have hcheck := h.check
  rw [Config.step]
  cases hc : c.cont t with
  | nil => exact hstill
  | cons p k =>
    rw [hc] at hcheck
    obtain ⟨mid, hp, hk⟩ := (checkAll_cons nests p k held []).mp hcheck
    cases p with
    | skip =>
      obtain rfl : held = mid := Option.some.inj hp
      exact hgoto hk
    | lock m =>
      simp only [Stmt.check, Option.ite_none_right_eq_some, List.all_eq_true,
        Option.some.injEq] at hp
      obtain ⟨hnests, rfl⟩ := hp
      dsimp only
      cases ho : c.owner m with
      | none =>
        refine ⟨⟨_, h.lock hnests hk⟩, Config.sameBut_give (fun u _ => by simp [ho]) ?_ k⟩
        exact fun u hu heq => hu (Option.some.inj heq).symm
      | some u => exact hstill
    | unlock m =>
      cases held with
      | nil => simp [Stmt.check] at hp
      | cons m' rest =>
        simp only [Stmt.check, Option.ite_none_right_eq_some, Option.some.injEq] at hp
        obtain ⟨rfl, rfl⟩ := hp
        exact ⟨⟨_, h.unlock hrank hk⟩, h.sameBut_unlock k⟩
    | act f =>
      obtain rfl : held = mid := Option.some.inj hp
      obtain ⟨⟨held', h'⟩, hsame⟩ := hgoto hk
      exact ⟨⟨held', h'.owner, h'.nested, h'.check⟩, hsame⟩
    | wait m =>
      simp only [Stmt.check, Option.ite_none_right_eq_some, Option.some.injEq] at hp
      obtain ⟨rfl, rfl⟩ := hp
      have hk' : checkAll nests (.asleep m :: k) [] = some [] :=
        (checkAll_cons nests _ k _ _).mpr ⟨[m], rfl, hk⟩
      exact ⟨⟨_, h.unlock hrank hk'⟩, h.sameBut_unlock _⟩
    | asleep m =>
      simp only [Stmt.check, Option.ite_none_right_eq_some, Option.some.injEq] at hp
      obtain ⟨rfl, rfl⟩ := hp
      exact hgoto ((checkAll_cons nests _ k _ _).mpr ⟨[m], rfl, hk⟩)
    | join u =>
      simp only [Stmt.check, Option.ite_none_right_eq_some, Option.some.injEq] at hp
      obtain ⟨rfl, rfl⟩ := hp
      dsimp only
      cases hu : c.cont u with
      | nil => exact hgoto hk
      | cons q l => exact hstill
    | seq p q =>
      obtain ⟨between, hp, hq⟩ := Option.bind_eq_some_iff.mp hp
      apply hgoto
      exact (checkAll_cons nests _ _ _ _).mpr ⟨between, hp, (checkAll_cons nests _ _ _ _).mpr
        ⟨mid, hq, hk⟩⟩
    | ite b p q =>
      simp only [Stmt.check, Option.ite_none_right_eq_some] at hp
      obtain ⟨hpq, hp⟩ := hp
      apply hgoto
      apply (checkAll_cons nests _ _ _ _).mpr
      refine ⟨mid, ?_, hk⟩
      split
      · exact hp
      · exact hpq ▸ hp
    | loop b p =>
      have hloop := hp
      simp only [Stmt.check, Option.ite_none_right_eq_some, Option.some.injEq] at hp
      obtain ⟨hp, rfl⟩ := hp
      apply hgoto
      split
      · exact (checkAll_cons nests _ _ _ _).mpr ⟨held, hp, (checkAll_cons nests _ _ _ _).mpr
          ⟨held, hloop, hk⟩⟩
      · exact hk

/-- Every step keeps the discipline. -/
theorem Config.Disciplined.step (hrank : ∀ a b, nests a b = true → rank a < rank b)
    {c : Config M T ι S L} (h : c.Disciplined nests) (t : T) (i : ι) :
    (c.step t i).Disciplined nests := by
  obtain ⟨held, ht⟩ := h t
  obtain ⟨ht', hsame⟩ := ht.step hrank i
  intro u
  by_cases hu : u = t
  · exact hu ▸ ht'
  · obtain ⟨held', hkeeps⟩ := h u
    exact ⟨held', hkeeps.frame hsame hu⟩

/-- Every run keeps the discipline. -/
theorem Config.Disciplined.run (hrank : ∀ a b, nests a b = true → rank a < rank b)
    {c : Config M T ι S L} (h : c.Disciplined nests) (acts : List (T × ι)) :
    ((threads M T ι S L).run c acts).Disciplined nests :=
  (threads M T ι S L).invariant_always (P := fun c _ => c.Disciplined nests)
    (fun _ _ a h => h.step hrank a.1 a.2) h acts

end Discipline

/-! ### Conclusions -/

section Conclusions

variable [DecidableEq M] {nests : M → M → Bool} {rank : M → ℕ} {c : Config M T ι S L}

omit [DecidableEq M] in
lemma Config.cont_of_request {t : T} {m : M} (h : c.request t = some m) :
    ∃ k, c.cont t = .lock m :: k := by
  rw [Config.request] at h
  split at h
  · rename_i m' k hc
    exact ⟨k, Option.some.inj h ▸ hc⟩
  · exact absurd h (by simp)

/-- A thread takes a mutex only inside those that it nests in. -/
theorem Config.Disciplined.nested (h : c.Disciplined nests) {t : T} {m m' : M}
    (hreq : c.request t = some m) (hown : c.owner m' = some t) : nests m' m = true := by
  obtain ⟨held, hkeeps⟩ := h t
  obtain ⟨k, hc⟩ := Config.cont_of_request hreq
  have hcheck := hkeeps.check
  rw [hc] at hcheck
  obtain ⟨mid, hp, -⟩ := (checkAll_cons nests _ k held []).mp hcheck
  simp only [Stmt.check, Option.ite_none_right_eq_some, List.all_eq_true] at hp
  exact hp.1 m' ((hkeeps.owner m').mpr hown)

/-- Along the waits-for relation the requested mutexes go up. -/
lemma Config.Disciplined.rank_lt (hrank : ∀ a b, nests a b = true → rank a < rank b)
    (h : c.Disciplined nests) {t u : T} (hwait : Relation.TransGen c.WaitsFor t u) {m m' : M}
    (ht : c.request t = some m) (hu : c.request u = some m') : rank m < rank m' := by
  have hone {t u : T} {m m' : M} (hw : c.WaitsFor t u) (ht : c.request t = some m)
      (hu : c.request u = some m') : rank m < rank m' := by
    obtain ⟨m₁, hreq, hown⟩ := hw
    obtain rfl : m = m₁ := Option.some.inj (ht.symm.trans hreq)
    exact hrank m m' (h.nested hu hown)
  induction hwait generalizing m' with
  | single hw => exact hone hw ht hu
  | tail _ hw ih =>
    obtain ⟨m₁, hreq, -⟩ := id hw
    exact Nat.lt_trans (ih hreq) (hone hw hreq hu)

/-- No thread waits for itself, directly or through others. -/
theorem Config.Disciplined.acyclic (hrank : ∀ a b, nests a b = true → rank a < rank b)
    (h : c.Disciplined nests) (t : T) : ¬ Relation.TransGen c.WaitsFor t t := by
  intro hcycle
  obtain ⟨u, ⟨m, hreq, -⟩, -⟩ := Relation.TransGen.head'_iff.mp hcycle
  exact Nat.lt_irrefl _ (h.rank_lt hrank hcycle hreq hreq)

/-- A thread joins another without holding any mutex. -/
theorem Config.Disciplined.join_free (h : c.Disciplined nests) {t u : T}
    {k : List (Stmt M T ι (S × L))} (hc : c.cont t = .join u :: k) (m : M) :
    c.owner m ≠ some t := by
  obtain ⟨held, hkeeps⟩ := h t
  have hcheck := hkeeps.check
  rw [hc] at hcheck
  obtain ⟨mid, hp, -⟩ := (checkAll_cons nests _ k held []).mp hcheck
  simp only [Stmt.check, Option.ite_none_right_eq_some] at hp
  obtain ⟨rfl, -⟩ := hp
  exact fun hown => absurd ((hkeeps.owner m).mpr hown) List.not_mem_nil

/-- A statement takes as many mutexes more than it releases wherever it is executed. -/
lemma Stmt.check_length {σ : Type*} {p : Stmt M T ι σ} {held held' after after' : List M}
    (h : p.check nests held = some after) (h' : p.check nests held' = some after') :
    after.length + held'.length = after'.length + held.length := by
  induction p generalizing held held' after after' with
  | seq p q hp hq =>
    obtain ⟨mid, h₁, h₂⟩ := Option.bind_eq_some_iff.mp h
    obtain ⟨mid', h₁', h₂'⟩ := Option.bind_eq_some_iff.mp h'
    have hone := hp h₁ h₁'
    have htwo := hq h₂ h₂'
    omega
  | ite b p q hp hq =>
    simp only [Stmt.check, Option.ite_none_right_eq_some] at h h'
    exact hp h.2 h'.2
  | unlock m =>
    cases held <;> cases held' <;> simp [Stmt.check] at h h' ⊢
    obtain ⟨-, rfl⟩ := h
    obtain ⟨-, rfl⟩ := h'
    omega
  | lock m =>
    simp only [Stmt.check, Option.ite_none_right_eq_some, Option.some.injEq] at h h'
    obtain ⟨-, rfl⟩ := h
    obtain ⟨-, rfl⟩ := h'
    simp only [List.length_cons]
    omega
  | asleep m =>
    simp only [Stmt.check, Option.ite_none_right_eq_some, Option.some.injEq] at h h'
    obtain ⟨rfl, rfl⟩ := h
    obtain ⟨rfl, rfl⟩ := h'
    rfl
  | skip =>
    obtain rfl := Option.some.inj h
    obtain rfl := Option.some.inj h'
    exact Nat.add_comm _ _
  | act f =>
    obtain rfl := Option.some.inj h
    obtain rfl := Option.some.inj h'
    exact Nat.add_comm _ _
  | _ =>
    simp only [Stmt.check, Option.ite_none_right_eq_some, Option.some.injEq] at h h'
    obtain ⟨-, rfl⟩ := h
    obtain ⟨-, rfl⟩ := h'
    exact Nat.add_comm _ _

lemma checkAll_length {σ : Type*} {k : List (Stmt M T ι σ)} {held held' after after' : List M}
    (h : checkAll nests k held = some after) (h' : checkAll nests k held' = some after') :
    after.length + held'.length = after'.length + held.length := by
  induction k generalizing held held' after after' with
  | nil =>
    obtain rfl := Option.some.inj h
    obtain rfl := Option.some.inj h'
    exact Nat.add_comm _ _
  | cons p k ih =>
    obtain ⟨mid, hp, hk⟩ := (checkAll_cons nests p k _ _).mp h
    obtain ⟨mid', hp', hk'⟩ := (checkAll_cons nests p k _ _).mp h'
    have hone := Stmt.check_length hp hp'
    have htwo := ih hk hk'
    omega

/-- A thread that has statements still to execute that may start with no mutex holds none. -/
theorem Config.Disciplined.released (h : c.Disciplined nests) {t : T}
    (hk : checkAll nests (c.cont t) [] = some []) (m : M) : c.owner m ≠ some t := by
  obtain ⟨held, hkeeps⟩ := h t
  have hlen := checkAll_length hk hkeeps.check
  obtain rfl : held = [] := by simpa using hlen
  exact fun hown => absurd ((hkeeps.owner m).mpr hown) List.not_mem_nil

/-- Whenever a mutex is held, its holder or a holder that it waits for through others can go on. -/
theorem Config.Disciplined.goes_on [Finite T]
    (hrank : ∀ a b, nests a b = true → rank a < rank b) (h : c.Disciplined nests) {t : T} {m : M}
    (hown : c.owner m = some t) :
    ∃ u, Relation.ReflTransGen c.WaitsFor t u ∧ (∃ m', c.owner m' = some u) ∧ c.Runnable u := by
  have hwf : WellFounded (flip (Relation.TransGen c.WaitsFor)) := by
    have htrans : IsTrans T (flip (Relation.TransGen c.WaitsFor)) :=
      ⟨fun _ _ _ hab hbc => Relation.TransGen.trans hbc hab⟩
    have hirrefl : Std.Irrefl (flip (Relation.TransGen c.WaitsFor)) := ⟨h.acyclic hrank⟩
    exact Finite.wellFounded_of_trans_of_irrefl _
  induction t using hwf.induction generalizing m with
  | h t ih =>
    by_cases hwait : ∃ u, c.WaitsFor t u
    · obtain ⟨u, hu⟩ := hwait
      obtain ⟨m', -, hown'⟩ := id hu
      obtain ⟨v, hv, hrun⟩ := ih u (.single hu) hown'
      exact ⟨v, hv.head hu, hrun⟩
    · refine ⟨t, .refl, ⟨m, hown⟩, ?_⟩
      rw [Config.Runnable]
      split
      · rename_i hc
        exact h.released (by rw [hc]; rfl) m hown
      · rename_i m' k hc
        cases ho : c.owner m' with
        | none => rfl
        | some u => exact (hwait ⟨u, m', by simp [Config.request, hc], ho⟩).elim
      · rename_i u k hc
        exact (h.join_free hc m hown).elim
      · trivial

end Conclusions

/-! ### Undisturbed threads -/

/-- The statement neither waits nor joins nor loops. -/
def Stmt.Straight {σ : Type*} : Stmt M T ι σ → Prop
  | .skip | .lock _ | .unlock _ | .act _ => True
  | .seq p q | .ite _ p q => p.Straight ∧ q.Straight
  | _ => False

/-- What the accesses of such a statement do one after the other. -/
def Stmt.effect {σ : Type*} (i : ι) : Stmt M T ι σ → σ → σ
  | .act f, v     => f i v
  | .seq p q, v   => q.effect i (p.effect i v)
  | .ite b p q, v => if b v then p.effect i v else q.effect i v
  | _, v          => v

/-- The thread keeps the discipline, and no other thread holds a mutex. -/
def Config.Alone [DecidableEq M] (nests : M → M → Bool) (c : Config M T ι S L) (t : T) : Prop :=
  (∃ held, c.Keeps nests t held) ∧ ∀ m u, c.owner m = some u → u = t

section Undisturbed

variable [DecidableEq M] [DecidableEq T] {nests : M → M → Bool} {rank : M → ℕ}

lemma Config.Alone.step (hrank : ∀ a b, nests a b = true → rank a < rank b)
    {c : Config M T ι S L} {t : T} (h : c.Alone nests t) (i : ι) : (c.step t i).Alone nests t := by
  obtain ⟨⟨held, hkeeps⟩, hfree⟩ := h
  obtain ⟨hkeeps', hsame⟩ := hkeeps.step hrank i
  refine ⟨hkeeps', fun m u hown => ?_⟩
  by_contra hu
  exact hu (hfree m u (((hsame u hu).2 m).mp hown))

omit [DecidableEq T] in
/-- A thread that is alone takes the mutex it is about to take. -/
lemma Config.Alone.free (hrank : ∀ a b, nests a b = true → rank a < rank b)
    {c : Config M T ι S L} {t : T} (h : c.Alone nests t) {m : M} {k : List (Stmt M T ι (S × L))}
    (hc : c.cont t = .lock m :: k) : c.owner m = none := by
  obtain ⟨⟨held, hkeeps⟩, hfree⟩ := h
  have hcheck := hkeeps.check
  rw [hc] at hcheck
  obtain ⟨mid, hp, -⟩ := (checkAll_cons nests _ k held []).mp hcheck
  simp only [Stmt.check, Option.ite_none_right_eq_some, List.all_eq_true] at hp
  cases ho : c.owner m with
  | none => rfl
  | some u =>
    obtain rfl := hfree m u ho
    exact absurd (hrank m m (hp.1 m ((hkeeps.owner m).mpr ho))) (Nat.lt_irrefl _)

/-- In `n` steps of its own the thread comes to `k` and sees `v`. -/
structure Config.Reaches (nests : M → M → Bool) (c : Config M T ι S L) (t : T) (i : ι) (n : ℕ)
    (k : List (Stmt M T ι (S × L))) (v : S × L) : Prop where
  alone : ((threads M T ι S L).run c (List.replicate n (t, i))).Alone nests t
  cont : ((threads M T ι S L).run c (List.replicate n (t, i))).cont t = k
  view : ((threads M T ι S L).run c (List.replicate n (t, i))).view t = v

/-- One step, and then more. -/
lemma Config.Reaches.cons {c : Config M T ι S L} {t : T} {i : ι} {n : ℕ}
    {k : List (Stmt M T ι (S × L))} {v : S × L} (h : (c.step t i).Reaches nests t i n k v) :
    c.Reaches nests t i (n + 1) k v := ⟨h.alone, h.cont, h.view⟩

/-- More steps after some. -/
lemma Config.Reaches.append {c : Config M T ι S L} {t : T} {i : ι} {m n : ℕ}
    {k : List (Stmt M T ι (S × L))} {v : S × L}
    (h : ((threads M T ι S L).run c (List.replicate m (t, i))).Reaches nests t i n k v) :
    c.Reaches nests t i (m + n) k v := by
  have happ : (threads M T ι S L).run c (List.replicate (m + n) (t, i)) =
      (threads M T ι S L).run ((threads M T ι S L).run c (List.replicate m (t, i)))
        (List.replicate n (t, i)) := by
    rw [List.replicate_add, Machine.run_append]
  exact ⟨happ ▸ h.alone, happ ▸ h.cont, happ ▸ h.view⟩

/-- One step is enough. -/
lemma Config.Reaches.one {c : Config M T ι S L} {t : T} {i : ι} {k : List (Stmt M T ι (S × L))}
    {v : S × L} (halone : (c.step t i).Alone nests t) (hcont : (c.step t i).cont t = k)
    (hview : (c.step t i).view t = v) : c.Reaches nests t i 1 k v := ⟨halone, hcont, hview⟩

/-- Undisturbed, a thread carries a statement to its end with the effect of its accesses. -/
theorem Config.Alone.undisturbed (hrank : ∀ a b, nests a b = true → rank a < rank b) (i : ι)
    {t : T} {p : Stmt M T ι (S × L)} (hp : p.Straight) {c : Config M T ι S L}
    (h : c.Alone nests t) {k : List (Stmt M T ι (S × L))} (hc : c.cont t = p :: k) :
    ∃ n, c.Reaches nests t i n k (p.effect i (c.view t)) := by
  have hstep := h.step hrank i
  induction p generalizing c k with
  | skip =>
    exact ⟨1, .one hstep (by simp [Config.step, hc]) (by simp [Config.step, hc, Stmt.effect])⟩
  | lock m =>
    have hm := h.free hrank hc
    refine ⟨1, .one hstep ?_ ?_⟩
    · simp [Config.step, hc, hm]
    · simp [Config.step, hc, hm, Stmt.effect]
  | unlock m =>
    exact ⟨1, .one hstep (by simp [Config.step, hc]) (by simp [Config.step, hc, Stmt.effect])⟩
  | act f =>
    refine ⟨1, .one hstep (by simp [Config.step, hc]) ?_⟩
    simp [Config.step, hc, Config.view, Stmt.effect]
  | seq p q ihp ihq =>
    have hcont : (c.step t i).cont t = p :: q :: k := by simp [Config.step, hc]
    have hview : (c.step t i).view t = c.view t := by simp [Config.step, hc]
    obtain ⟨m, hm⟩ := ihp hp.1 hstep hcont (hstep.step hrank i)
    obtain ⟨n, hn⟩ := ihq hp.2 hm.alone hm.cont (hm.alone.step hrank i)
    rw [hm.view, hview] at hn
    exact ⟨_, hn.append.cons⟩
  | ite b p q ihp ihq =>
    have hview : (c.step t i).view t = c.view t := by simp [Config.step, hc]
    rw [Stmt.effect]
    split
    · rename_i hb
      have hcont : (c.step t i).cont t = p :: k := by simp [Config.step, hc, hb]
      obtain ⟨n, hn⟩ := ihp hp.1 hstep hcont (hstep.step hrank i)
      exact ⟨_, hview ▸ hn.cons⟩
    · rename_i hb
      have hcont : (c.step t i).cont t = q :: k := by simp [Config.step, hc, hb]
      obtain ⟨n, hn⟩ := ihq hp.2 hstep hcont (hstep.step hrank i)
      exact ⟨_, hview ▸ hn.cons⟩
  | _ => exact hp.elim

end Undisturbed

end EcuTelemetry.Core
