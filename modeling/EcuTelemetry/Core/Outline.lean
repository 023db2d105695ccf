import EcuTelemetry.Core.Locks

/-!
# Proof outlines for threads with mutexes

A logic for the threads of `Core.Locks`. A `Contract` says which part of the shared state each mutex
protects, how the state may evolve and what holds of it all the time. A thread may assert of a part
whose mutex it holds what it likes, of the rest only what stays true however the state evolves, and
changes a part only while it holds its mutex.

`Outline` has one rule for each kind of statement. `Outlined.step` says that outlines of the
threads, each made by itself, fit together: every step of every thread keeps the contract and what
the others assert.
-/

namespace EcuTelemetry.Core

variable {M T ι S L : Type*}

/-! ### Contracts -/

/-- What the threads promise each other about the shared state. -/
structure Contract (M S : Type*) where
  /-- What the mutex protects is unchanged. -/
  Same : M → S → S → Prop
  /-- The second state may come after the first. -/
  Evolves : S → S → Prop
  /-- What holds all the time. -/
  Inv : S → Prop
  same_refl : ∀ m s, Same m s s
  same_trans : ∀ m s s' s'', Same m s s' → Same m s' s'' → Same m s s''
  evolves_refl : ∀ s, Evolves s s

namespace Contract

variable {r : Contract M S} {held : List M}

/-- No other thread makes the assertion false while this one holds the mutexes in the list. -/
def Stable (r : Contract M S) (held : List M) (P : S × L → Prop) : Prop :=
  ∀ s s' l, (∀ m ∈ held, r.Same m s s') → r.Evolves s s' → P (s, l) → P (s', l)

/-- Holding the mutexes in the list, a thread may take the first state to the second. -/
structure Allows (r : Contract M S) (held : List M) (s s' : S) : Prop where
  same : ∀ m, m ∉ held → r.Same m s s'
  evolves : r.Evolves s s'
  inv : r.Inv s'

/-- With more mutexes more is stable. -/
lemma Stable.mono {P : S × L → Prop} (h : r.Stable held P) {held' : List M}
    (hsub : held ⊆ held') : r.Stable held' P :=
  fun s s' l hsame => h s s' l fun m hm => hsame m (hsub hm)

lemma Stable.and {P Q : S × L → Prop} (hP : r.Stable held P) (hQ : r.Stable held Q) :
    r.Stable held fun v => P v ∧ Q v :=
  fun s s' l hsame hev h => ⟨hP s s' l hsame hev h.1, hQ s s' l hsame hev h.2⟩

/-- What a thread says of its own data is always stable. -/
lemma stable_local (A : L → Prop) : r.Stable held fun v : S × L => A v.2 :=
  fun _ _ _ _ _ h => h

lemma Allows.refl {s : S} (h : r.Inv s) : r.Allows held s s :=
  ⟨fun m _ => r.same_refl m s, r.evolves_refl s, h⟩

end Contract

/-! ### Outlines -/

section Outline

variable (nests : M → M → Bool) (r : Contract M S)

/-- Executed with the mutexes `held` in a state with `P`, the statement ends with the mutexes
`after` in a state with `Q`, and keeps the contract on the way. -/
inductive Outline : List M → (S × L → Prop) → Stmt M T ι (S × L) → List M → (S × L → Prop) → Prop
  | skip {held : List M} {P : S × L → Prop} (hP : r.Stable held P) : Outline held P .skip held P
  | lock {held : List M} {m : M} {P : S × L → Prop} (hnests : ∀ m' ∈ held, nests m' m = true)
      (hP : r.Stable held P) : Outline held P (.lock m) (m :: held) P
  | unlock {held : List M} {m : M} {P : S × L → Prop} (hP : r.Stable held P) :
      Outline (m :: held) P (.unlock m) held P
  | act {held : List M} {f : ι → S × L → S × L} {P Q : S × L → Prop} (hP : r.Stable held P)
      (hQ : r.Stable held Q)
      (h : ∀ i v, r.Inv v.1 → P v → r.Allows held v.1 (f i v).1 ∧ Q (f i v)) :
      Outline held P (.act f) held Q
  | wait {m : M} {P : S × L → Prop} (hP : r.Stable [] P) : Outline [m] P (.wait m) [m] P
  | asleep {m : M} {P : S × L → Prop} (hP : r.Stable [] P) : Outline [] P (.asleep m) [m] P
  | join {t : T} {P : S × L → Prop} (hP : r.Stable [] P) : Outline [] P (.join t) [] P
  | seq {held mid after : List M} {p q : Stmt M T ι (S × L)} {P R Q : S × L → Prop}
      (hp : Outline held P p mid R) (hq : Outline mid R q after Q) :
      Outline held P (.seq p q) after Q
  | ite {held after : List M} {b : S × L → Bool} {p q : Stmt M T ι (S × L)}
      {P A B Q : S × L → Prop} (hP : r.Stable held P) (hthen : ∀ v, P v → b v = true → A v)
      (helse : ∀ v, P v → b v = false → B v) (hp : Outline held A p after Q)
      (hq : Outline held B q after Q) : Outline held P (.ite b p q) after Q
  | loop {held : List M} {b : S × L → Bool} {p : Stmt M T ι (S × L)} {P B Q : S × L → Prop}
      (hP : r.Stable held P) (hQ : r.Stable held Q) (hbody : ∀ v, P v → b v = true → B v)
      (hend : ∀ v, P v → b v = false → Q v) (hp : Outline held B p held P) :
      Outline held P (.loop b p) held Q
  | conseq {held after : List M} {p : Stmt M T ι (S × L)} {P P' Q Q' : S × L → Prop}
      (hP' : r.Stable held P') (hQ' : r.Stable after Q') (hpre : ∀ v, r.Inv v.1 → P' v → P v)
      (hpost : ∀ v, r.Inv v.1 → Q v → Q' v) (h : Outline held P p after Q) :
      Outline held P' p after Q'

/-- The same for a list of statements, which release all mutexes. -/
inductive OutlineAll :
    List M → (S × L → Prop) → List (Stmt M T ι (S × L)) → (S × L → Prop) → Prop
  | nil {P Q : S × L → Prop} (hP : r.Stable [] P) (h : ∀ v, r.Inv v.1 → P v → Q v) :
      OutlineAll [] P [] Q
  | cons {held mid : List M} {p : Stmt M T ι (S × L)} {k : List (Stmt M T ι (S × L))}
      {P R Q : S × L → Prop} (hp : Outline nests r held P p mid R) (hk : OutlineAll mid R k Q) :
      OutlineAll held P (p :: k) Q

end Outline

section Rules

variable {nests : M → M → Bool} {r : Contract M S} {held after : List M}
  {p : Stmt M T ι (S × L)} {k : List (Stmt M T ι (S × L))} {P Q R : S × L → Prop}

/-- What an outline asserts at its ends is stable there. -/
lemma Outline.stable (h : Outline nests r held P p after Q) :
    r.Stable held P ∧ r.Stable after Q := by
  induction h with
  | skip hP => exact ⟨hP, hP⟩
  | lock _ hP => exact ⟨hP, hP.mono (List.subset_cons_self _ _)⟩
  | unlock hP => exact ⟨hP.mono (List.subset_cons_self _ _), hP⟩
  | act hP hQ _ => exact ⟨hP, hQ⟩
  | wait hP => exact ⟨hP.mono (List.nil_subset _), hP.mono (List.nil_subset _)⟩
  | asleep hP => exact ⟨hP, hP.mono (List.nil_subset _)⟩
  | join hP => exact ⟨hP, hP⟩
  | seq _ _ ihp ihq => exact ⟨ihp.1, ihq.2⟩
  | ite hP _ _ _ _ ihp _ => exact ⟨hP, ihp.2⟩
  | loop hP hQ _ _ _ _ => exact ⟨hP, hQ⟩
  | conseq hP' hQ' _ _ _ _ => exact ⟨hP', hQ'⟩

/-- A statement with an outline keeps the discipline. -/
lemma Outline.check [DecidableEq M] (h : Outline nests r held P p after Q) :
    p.check nests held = some after := by
  induction h with
  | lock hnests _ => simpa [Stmt.check] using hnests
  | seq _ _ ihp ihq => exact Option.bind_eq_some_iff.mpr ⟨_, ihp, ihq⟩
  | ite _ _ _ _ _ ihp ihq => simp [Stmt.check, ihp, ihq]
  | loop _ _ _ _ _ ih => simp [Stmt.check, ih]
  | conseq _ _ _ _ _ ih => exact ih
  | _ => simp [Stmt.check]

lemma OutlineAll.stable (h : OutlineAll nests r held P k Q) : r.Stable held P := by
  cases h with
  | nil hP _ => exact hP
  | cons hp _ => exact hp.stable.1

lemma OutlineAll.check [DecidableEq M] (h : OutlineAll nests r held P k Q) :
    checkAll nests k held = some [] := by
  induction h with
  | nil _ _ => rfl
  | cons hp _ ih => exact (checkAll_cons nests _ _ _ _).mpr ⟨_, hp.check, ih⟩

/-- Less may be asserted of the end. -/
lemma Outline.post (h : Outline nests r held P p after R) (hQ : r.Stable after Q)
    (hpost : ∀ v, r.Inv v.1 → R v → Q v) : Outline nests r held P p after Q :=
  h.conseq h.stable.1 hQ (fun _ _ hv => hv) hpost

/-- More may be asserted of the start. -/
lemma Outline.pre (h : Outline nests r held R p after Q) (hP : r.Stable held P)
    (hpre : ∀ v, r.Inv v.1 → P v → R v) : Outline nests r held P p after Q :=
  h.conseq hP h.stable.2 hpre fun _ _ hv => hv

lemma OutlineAll.pre (h : OutlineAll nests r held R k Q) (hP : r.Stable held P)
    (hpre : ∀ v, r.Inv v.1 → P v → R v) : OutlineAll nests r held P k Q := by
  cases h with
  | nil _ h => exact .nil hP fun v hinv hv => h v hinv (hpre v hinv hv)
  | cons hp hk => exact .cons (hp.pre hP hpre) hk

/-- A statement by itself. -/
lemma Outline.all (h : Outline nests r [] P p [] Q) : OutlineAll nests r [] P [p] Q :=
  .cons h (.nil h.stable.2 fun _ _ hv => hv)

end Rules

/-! ### Threads -/

section Threads

variable [DecidableEq M] {nests : M → M → Bool} {rank : M → ℕ} {r : Contract M S}

/-- What a thread asserts, with an outline of what it still has to execute, which ends with `Q`. -/
structure Config.Asserts (nests : M → M → Bool) (r : Contract M S) (c : Config M T ι S L) (t : T)
    (held : List M) (P Q : S × L → Prop) : Prop where
  keeps : c.Keeps nests t held
  outline : OutlineAll nests r held P (c.cont t) Q
  holds : P (c.view t)

/-- Every thread has an outline of what it still has to execute. -/
structure Config.Outlined (nests : M → M → Bool) (r : Contract M S) (post : T → S × L → Prop)
    (c : Config M T ι S L) : Prop where
  inv : r.Inv c.shared
  asserts : ∀ t, ∃ held P, c.Asserts nests r t held P (post t)

variable [DecidableEq T] {c : Config M T ι S L} {t : T} {held : List M} {P Q R : S × L → Prop}
  {k : List (Stmt M T ι (S × L))}

/-- After a step of thread `t`, which held `held`, it has an outline again; the contract is kept,
and the data of the other threads. -/
structure Config.Proceeds (nests : M → M → Bool) (r : Contract M S) (c : Config M T ι S L) (t : T)
    (held : List M) (Q : S × L → Prop) (c' : Config M T ι S L) : Prop where
  asserts : ∃ held' P', c'.Asserts nests r t held' P' Q
  allows : r.Allows held c.shared c'.shared
  locals : ∀ u, u ≠ t → c'.locals u = c.locals u

/-- The thread goes on with `k`. -/
lemma Config.Keeps.proceeds_goto (h : c.Keeps nests t held) (hinv : r.Inv c.shared)
    (hk : OutlineAll nests r held R k Q) (hR : R (c.view t)) :
    c.Proceeds nests r t held Q (c.goto t k) := by
  refine ⟨⟨held, R, h.goto hk.check, ?_, hR⟩, .refl hinv, fun _ _ => rfl⟩
  simpa using hk

/-- The thread takes a mutex. -/
lemma Config.Keeps.proceeds_lock (h : c.Keeps nests t held) (hinv : r.Inv c.shared) {m : M}
    (hnests : ∀ m' ∈ held, nests m' m = true) (hk : OutlineAll nests r (m :: held) R k Q)
    (hR : R (c.view t)) : c.Proceeds nests r t held Q ((c.give m (some t)).goto t k) := by
  refine ⟨⟨m :: held, R, h.lock hnests hk.check, ?_, hR⟩, .refl hinv, fun _ _ => rfl⟩
  simpa using hk

/-- The thread releases the mutex that it took last. -/
lemma Config.Keeps.proceeds_unlock (hrank : ∀ a b, nests a b = true → rank a < rank b) {m : M}
    (h : c.Keeps nests t (m :: held)) (hinv : r.Inv c.shared)
    (hk : OutlineAll nests r held R k Q) (hR : R (c.view t)) :
    c.Proceeds nests r t (m :: held) Q ((c.give m none).goto t k) := by
  refine ⟨⟨held, R, h.unlock hrank hk.check, ?_, hR⟩, .refl hinv, fun _ _ => rfl⟩
  simpa using hk

/-- The thread accesses the state. -/
lemma Config.Keeps.proceeds_act {i : ι} {f : ι → S × L → S × L} (h : c.Keeps nests t held)
    (hallows : r.Allows held c.shared (f i (c.view t)).1) (hk : OutlineAll nests r held R k Q)
    (hR : R (f i (c.view t))) :
    c.Proceeds nests r t held Q
      { c.goto t k with
        shared := (f i (c.view t)).1
        locals := Function.update c.locals t (f i (c.view t)).2 } := by
  have hkeeps := h.goto hk.check
  refine ⟨⟨held, R, ⟨hkeeps.owner, hkeeps.nested, hkeeps.check⟩, ?_, ?_⟩, hallows, fun u hu => ?_⟩
  · simpa using hk
  · simpa [Config.view] using hR
  · simp [hu]

/-- A step of a thread whose next statement has an outline, one rule after the other. -/
lemma Outline.proceeds (hrank : ∀ a b, nests a b = true → rank a < rank b)
    {p : Stmt M T ι (S × L)} {after : List M} (hp : Outline nests r held P p after R)
    (hc : c.cont t = p :: k) (hkeeps : c.Keeps nests t held) (hinv : r.Inv c.shared)
    (hP : P (c.view t)) (hk : OutlineAll nests r after R k Q) (i : ι) :
    c.Proceeds nests r t held Q (c.step t i) := by
  -- a thread that has to wait
  have hstill (hall : OutlineAll nests r held P (c.cont t) Q) : c.Proceeds nests r t held Q c :=
    ⟨⟨held, P, hkeeps, hall, hP⟩, .refl hinv, fun _ _ => rfl⟩
  induction hp generalizing k with
  | skip _ =>
    simp only [Config.step, hc]
    exact hkeeps.proceeds_goto hinv hk hP
  | @lock held m P hnests hstable =>
    simp only [Config.step, hc]
    cases c.owner m with
    | none => exact hkeeps.proceeds_lock hinv hnests hk hP
    | some u => exact hstill (hc ▸ .cons (.lock hnests hstable) hk)
  | unlock _ =>
    simp only [Config.step, hc]
    exact hkeeps.proceeds_unlock hrank hinv hk hP
  | act _ _ h =>
    obtain ⟨hallows, hQ⟩ := h i (c.view t) hinv hP
    simp only [Config.step, hc]
    exact hkeeps.proceeds_act hallows hk hQ
  | wait hstable =>
    simp only [Config.step, hc]
    exact hkeeps.proceeds_unlock hrank hinv (.cons (.asleep hstable) hk) hP
  | asleep hstable =>
    simp only [Config.step, hc]
    exact hkeeps.proceeds_goto hinv (.cons (.lock (by simp) hstable) hk) hP
  | @join u P hstable =>
    simp only [Config.step, hc]
    cases c.cont u with
    | nil => exact hkeeps.proceeds_goto hinv hk hP
    | cons q l => exact hstill (hc ▸ .cons (.join hstable) hk)
  | seq hp hq _ _ =>
    simp only [Config.step, hc]
    exact hkeeps.proceeds_goto hinv (.cons hp (.cons hq hk)) hP
  | @ite held after b p q P A B Q' _ hthen helse hp hq _ _ =>
    simp only [Config.step, hc]
    cases hb : b (c.view t) with
    | true => exact hkeeps.proceeds_goto hinv (.cons hp hk) (hthen _ hP hb)
    | false => exact hkeeps.proceeds_goto hinv (.cons hq hk) (helse _ hP hb)
  | @loop held b p P B Q' hstable hend hbody hexit hp _ =>
    simp only [Config.step, hc]
    cases hb : b (c.view t) with
    | true =>
      have hloop := Outline.loop hstable hend hbody hexit hp
      exact hkeeps.proceeds_goto hinv (.cons hp (.cons hloop hk)) (hbody _ hP hb)
    | false => exact hkeeps.proceeds_goto hinv hk (hexit _ hP hb)
  | conseq hP' hQ' hpre hpost h ih =>
    refine ih hc hkeeps (hpre _ hinv hP) (hk.pre h.stable.2 hpost) fun hall => ?_
    exact hstill (hall.pre hP' hpre)

omit [DecidableEq T] in
/-- A step of thread `t` keeps what another thread asserts. -/
lemma Config.Asserts.frame {c' : Config M T ι S L} {u : T} {held' : List M} {Q' : S × L → Prop}
    (h : c.Asserts nests r u held P Q) (hkeeps : c.Keeps nests t held')
    (hsame : Config.SameBut t c c') (hproceeds : c.Proceeds nests r t held' Q' c') (hu : u ≠ t) :
    c'.Asserts nests r u held P Q := by
  have hcont : c'.cont u = c.cont u := (hsame u hu).1
  refine ⟨h.keeps.frame hsame hu, hcont ▸ h.outline, ?_⟩
  have hview : c'.view u = (c'.shared, c.locals u) := by
    rw [Config.view, hproceeds.locals u hu]
  rw [hview]
  refine h.outline.stable _ _ _ (fun m hm => ?_) hproceeds.allows.evolves h.holds
  -- what this thread holds the other one does not
  refine hproceeds.allows.same m fun hm' => hu ?_
  have hmine := (h.keeps.owner m).mp hm
  have hother := (hkeeps.owner m).mp hm'
  exact Option.some.inj (hmine.symm.trans hother)

/-- A step of any thread keeps all outlines, evolves the state, and changes nothing but what is
protected by mutexes that the thread holds. -/
theorem Config.Outlined.step (hrank : ∀ a b, nests a b = true → rank a < rank b)
    {post : T → S × L → Prop} (h : c.Outlined nests r post) (t : T) (i : ι) :
    (c.step t i).Outlined nests r post ∧ r.Evolves c.shared (c.step t i).shared ∧
      ∀ m, c.owner m ≠ some t → r.Same m c.shared (c.step t i).shared := by
  obtain ⟨held, P, ht⟩ := h.asserts t
  have hproceeds : c.Proceeds nests r t held (post t) (c.step t i) := by
    have hall := ht.outline
    cases hc : c.cont t with
    | nil =>
      have hstep : c.step t i = c := by simp only [Config.step, hc]
      rw [hstep]
      exact ⟨⟨held, P, ht⟩, .refl h.inv, fun _ _ => rfl⟩
    | cons p k =>
      rw [hc] at hall
      cases hall with
      | cons hp hk => exact hp.proceeds hrank hc ht.keeps h.inv ht.holds hk i
  obtain ⟨-, hsame⟩ := ht.keeps.step hrank i
  refine ⟨⟨hproceeds.allows.inv, fun u => ?_⟩, hproceeds.allows.evolves, fun m hm => ?_⟩
  · by_cases hu : u = t
    · rw [hu]
      exact hproceeds.asserts
    · obtain ⟨held', P', hu'⟩ := h.asserts u
      exact ⟨held', P', hu'.frame ht.keeps hsame hproceeds hu⟩
  · exact hproceeds.allows.same m fun hmem => hm ((ht.keeps.owner m).mp hmem)

/-- Every run keeps all outlines. -/
theorem Config.Outlined.run (hrank : ∀ a b, nests a b = true → rank a < rank b)
    {post : T → S × L → Prop} (h : c.Outlined nests r post) (acts : List (T × ι)) :
    ((threads M T ι S L).run c acts).Outlined nests r post :=
  (threads M T ι S L).invariant_always (P := fun c _ => c.Outlined nests r post)
    (fun _ _ a h => (h.step hrank a.1 a.2).1) h acts

/-- While a thread holds a mutex, the others take any number of steps without changing what it
protects. -/
theorem Config.Outlined.undisturbed (hrank : ∀ a b, nests a b = true → rank a < rank b)
    {post : T → S × L → Prop} (h : c.Outlined nests r post) {m : M} (hown : c.owner m = some t)
    {acts : List (T × ι)} (hothers : ∀ a ∈ acts, a.1 ≠ t) :
    ((threads M T ι S L).run c acts).owner m = some t ∧
      r.Same m c.shared ((threads M T ι S L).run c acts).shared := by
  induction acts generalizing c with
  | nil => exact ⟨hown, r.same_refl m _⟩
  | cons a acts ih =>
    obtain ⟨ha, hacts⟩ := List.forall_mem_cons.mp hothers
    obtain ⟨hnext, -, hsame⟩ := h.step hrank a.1 a.2
    obtain ⟨held, P, hmover⟩ := h.asserts a.1
    obtain ⟨-, hbut⟩ := hmover.keeps.step hrank a.2
    have hown' : (c.step a.1 a.2).owner m = some t := ((hbut t (Ne.symm ha)).2 m).mpr hown
    obtain ⟨howner, hlater⟩ := ih hnext hown' hacts
    have hnow := hsame m fun hmine => ha (Option.some.inj (hmine.symm.trans hown))
    exact ⟨howner, r.same_trans _ _ _ _ hnow hlater⟩

omit [DecidableEq T] in
/-- A thread that has come to its end has reached what its outline promises. -/
theorem Config.Outlined.finished {post : T → S × L → Prop} (h : c.Outlined nests r post)
    (hc : c.cont t = []) : post t (c.view t) := by
  obtain ⟨held, P, ht⟩ := h.asserts t
  have hall := ht.outline
  rw [hc] at hall
  cases hall with
  | nil _ hpost => exact hpost _ h.inv ht.holds

end Threads

end EcuTelemetry.Core
