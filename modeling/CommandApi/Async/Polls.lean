import CommandApi.Async.Control

/-!
# Awaits, poll by poll

For a `Machine` an await is one operation that has an answer when it is ready.  What an `async`
runtime does is finer: whenever the task is woken, the await *polls* its futures one after the
other, until one of them is ready or all of them are pending, and then the task is put aside until
it is woken again.  In between anything may happen.

A `Poller` says which futures an operation polls (`branches`), what a poll of each may find, and
what the answer of the await is when one is ready.  A `tokio::select!` begins with any of its
branches and goes around; a `timeout` around a future is a branch that polls the future and then the
timer.  `Poller.Step` is one such step of a program and `Poller.Run` a whole execution.

Some futures are temporaries of the await and are gone when it is over.  Others are variables of the
function (`kept`): they can be polled by one await after another, and polling one that has completed
is a panic.  `Polled.Repolls` says that this is about to happen, and `Poller.Run.not_repolls` is
the rule to show that it never does, along a control graph of the program.
-/

set_option autoImplicit false

namespace Async

open Relation

variable {S : Signature} {F W Φ ε α : Type}

/-- How the operations of `S` are carried out by polls of futures of type `F`. -/
structure Poller (S : Signature) (F W : Type) where
  /-- The branches of an await, each with the futures it polls, in this order.  An operation without
  branches is no await. -/
  branches : S.Op → List (List F)
  /-- The future outlives the await. -/
  kept : F → Bool
  /-- An operation that is no await. -/
  act : (o : S.Op) → W → S.Resp o → W → Prop
  /-- A future is polled and pending. -/
  pending : F → W → W → Prop
  /-- A future is polled and ready, which ends the await with this answer. -/
  ready : (o : S.Op) → F → W → S.Resp o → W → Prop
  /-- A temporary future is polled and ready, and the await starts again. -/
  again : F → W → W → Prop
  /-- A step of everything that is not the program. -/
  env : W → W → Prop

/-- A program that is being polled. -/
structure Polled (S : Signature) (F W ε α : Type) where
  program : Prog S ε α
  /-- The futures that are still to be polled, while the task is. -/
  pass : Option (List F)
  world : W
  /-- The kept futures that have completed. -/
  completed : List F

/-- The program, before it is polled for the first time. -/
def Polled.start (p : Prog S ε α) (w : W) : Polled S F W ε α := ⟨p, none, w, []⟩

/-- The next thing that happens is a poll of a future that has completed. -/
def Polled.Repolls (c : Polled S F W ε α) : Prop :=
  ∃ f fs, c.pass = some (f :: fs) ∧ f ∈ c.completed

namespace Poller

variable (E : Poller S F W)

/-- A future has completed. -/
def note (f : F) (completed : List F) : List F :=
  if E.kept f then f :: completed else completed

inductive Step : Polled S F W ε α → Polled S F W ε α → Prop
  | act {o : S.Op} {k : S.Resp o → Prog S ε α} {r : S.Resp o} {w v : W} {done : List F}
      (hb : E.branches o = []) (h : E.act o w r v) :
      Step ⟨.call o k, none, w, done⟩ ⟨k r, none, v, done⟩
  /-- The await is polled, beginning with any branch. -/
  | wake {o : S.Op} {k : S.Resp o → Prog S ε α} {w : W} {done : List F}
      (hb : E.branches o ≠ []) (i : ℕ) :
      Step ⟨.call o k, none, w, done⟩
        ⟨.call o k, some ((E.branches o).rotate i).flatten, w, done⟩
  | pending {p : Prog S ε α} {f : F} {fs : List F} {w v : W} {done : List F}
      (h : E.pending f w v) : Step ⟨p, some (f :: fs), w, done⟩ ⟨p, some fs, v, done⟩
  | ready {o : S.Op} {k : S.Resp o → Prog S ε α} {f : F} {fs : List F} {r : S.Resp o} {w v : W}
      {done : List F} (h : E.ready o f w r v) :
      Step ⟨.call o k, some (f :: fs), w, done⟩ ⟨k r, none, v, E.note f done⟩
  | again {p : Prog S ε α} {f : F} {fs : List F} {w v : W} {done : List F}
      (h : E.again f w v) : Step ⟨p, some (f :: fs), w, done⟩ ⟨p, none, v, done⟩
  /-- Nothing was ready. -/
  | park {p : Prog S ε α} {w : W} {done : List F} :
      Step ⟨p, some [], w, done⟩ ⟨p, none, w, done⟩
  | env {p : Prog S ε α} {pass : Option (List F)} {w v : W} {done : List F} (h : E.env w v) :
      Step ⟨p, pass, w, done⟩ ⟨p, pass, v, done⟩

abbrev Run : Polled S F W ε α → Polled S F W ε α → Prop := ReflTransGen E.Step

/-! ## Awaits as operations

An await that ends is one operation of the program, with the completed futures as a part of the
world; all other polls are steps of the environment.  So what is proved along a control graph holds
poll by poll. -/

/-- The machine whose operations are whole awaits. -/
def awaits : Machine S (W × List F) where
  act o u r v := (E.branches o = [] ∧ E.act o u.1 r v.1 ∧ v.2 = u.2) ∨
    ∃ f ∈ (E.branches o).flatten, E.ready o f u.1 r v.1 ∧ v.2 = E.note f u.2
  env u v := (E.env u.1 v.1 ∨ ∃ f, E.pending f u.1 v.1 ∨ E.again f u.1 v.1) ∧ v.2 = u.2

variable {E} {c c' : Polled S F W ε α}

/-- What is polled belongs to the await at hand, and what has completed is kept. -/
structure Passing (E : Poller S F W) (c : Polled S F W ε α) : Prop where
  pass : ∀ f fs, c.pass = some (f :: fs) →
    ∃ o k, c.program = .call o k ∧ ∀ g ∈ f :: fs, g ∈ (E.branches o).flatten
  kept : ∀ f ∈ c.completed, E.kept f = true

theorem kept_of_mem_note {f g : F} {done : List F} (hdone : ∀ f ∈ done, E.kept f = true)
    (hg : g ∈ E.note f done) : E.kept g = true := by
  unfold note at hg
  split at hg
  · rename_i hf
    rcases List.mem_cons.mp hg with rfl | hg
    · exact hf
    · exact hdone g hg
  · exact hdone g hg

theorem mem_flatten_rotate {bs : List (List F)} {i : ℕ} {f : F} :
    f ∈ (bs.rotate i).flatten ↔ f ∈ bs.flatten := by
  simp only [List.mem_flatten, List.mem_rotate]

theorem Step.passing (hs : E.Step c c') (hc : Passing E c) : Passing E c' := by
  cases hs with
  | act => exact ⟨nofun, hc.kept⟩
  | @wake o k w done hb i =>
    refine ⟨fun f fs hpass ↦ ⟨o, k, rfl, fun g hg ↦ ?_⟩, hc.kept⟩
    rw [← Option.some.inj hpass] at hg
    exact mem_flatten_rotate.mp hg
  | @pending p f fs w v done h =>
    refine ⟨fun g gs hpass ↦ ?_, hc.kept⟩
    obtain ⟨o, k, hp, hmem⟩ := hc.pass f fs rfl
    refine ⟨o, k, hp, fun x hx ↦ hmem x (List.mem_cons_of_mem f ?_)⟩
    rw [Option.some.inj hpass]
    exact hx
  | ready => exact ⟨nofun, fun g hg ↦ kept_of_mem_note hc.kept hg⟩
  | again => exact ⟨nofun, hc.kept⟩
  | park => exact ⟨nofun, hc.kept⟩
  | env => exact ⟨hc.pass, hc.kept⟩

/-- A poll is an operation, a step of the environment, or nothing. -/
theorem Step.awaits (hs : E.Step c c') (hc : Passing E c) :
    E.awaits.Run (c.program, (c.world, c.completed)) (c'.program, (c'.world, c'.completed)) := by
  cases hs with
  | act hb h => exact .single (.act (.inl ⟨hb, h, rfl⟩))
  | wake => exact .refl
  | pending h => exact .single (.env ⟨.inr ⟨_, .inl h⟩, rfl⟩)
  | @ready o k f fs r w v done h =>
    obtain ⟨o', k', heq, hmem⟩ := hc.pass f fs rfl
    cases heq
    exact .single (.act (.inr ⟨f, hmem f List.mem_cons_self, h, rfl⟩))
  | again h => exact .single (.env ⟨.inr ⟨_, .inr h⟩, rfl⟩)
  | park => exact .refl
  | env h => exact .single (.env ⟨.inl h, rfl⟩)

theorem Run.passing (h : E.Run c c') (hc : Passing E c) : Passing E c' := by
  induction h with
  | refl => exact hc
  | tail _ hs ih => exact hs.passing ih

theorem Run.awaits (h : E.Run c c') (hc : Passing E c) :
    E.awaits.Run (c.program, (c.world, c.completed)) (c'.program, (c'.world, c'.completed)) := by
  induction h with
  | refl => exact .refl
  | tail hr hs ih => exact ih.trans (hs.awaits (Run.passing hr hc))

theorem passing_start (p : Prog S ε α) (w : W) : Passing E (.start p w) := ⟨nofun, nofun⟩

/-- An invariant of the awaits holds in every state of every execution. -/
theorem Run.tracked {g : ControlGraph S Φ} {A : Φ → W × List F → Prop}
    {Q : Except ε α → Φ → Prop} {p : Prog S ε α} {w : W} (hA : Invariant E.awaits g A)
    (hp : Tracked g A Q (p, (w, []))) (h : E.Run (.start p w) c) :
    Tracked g A Q (c.program, (c.world, c.completed)) :=
  hA.run hp (Run.awaits h (passing_start p w))

/-- **No future is polled after it has completed**, if in no phase an await polls a kept future that
has. -/
theorem Run.not_repolls [∀ o, Nonempty (S.Resp o)] {g : ControlGraph S Φ}
    {A : Φ → W × List F → Prop} {Q : Except ε α → Φ → Prop} {p : Prog S ε α} {w : W}
    (hA : Invariant E.awaits g A)
    (hfresh : ∀ φ o r ψ u, A φ u → g φ o r ψ → ∀ f ∈ (E.branches o).flatten,
      E.kept f = true → f ∉ u.2)
    (hp : Tracked g A Q (p, (w, []))) (h : E.Run (.start p w) c) : ¬ c.Repolls := by
  rintro ⟨f, fs, hpass, hf⟩
  have hc : Passing E c := Run.passing h (passing_start p w)
  obtain ⟨o, k, hprogram, hmem⟩ := hc.pass f fs hpass
  obtain ⟨φ, hfollows, hφ⟩ := Run.tracked hA hp h
  rw [hprogram] at hfollows
  obtain ⟨ψ, hg, -⟩ := hfollows (Classical.arbitrary _)
  exact hfresh φ o _ ψ _ hφ hg f (hmem f List.mem_cons_self) (hc.kept f hf) hf

/-! ## Operations as awaits

The other way around: an operation of a machine can be carried out by polls when some branch of its
await gives the answer and what is polled before it is pending. -/

/-- An await that begins at some branch comes to this answer, and the world `W` to `w`. -/
def Answers {X : Type} (E : Poller S F (W × X)) (o : S.Op) (u : W × X) (r : S.Resp o) (w : W) :
    Prop :=
  ∃ i fs f gs x, ((E.branches o).rotate i).flatten = fs ++ f :: gs ∧
    (∀ g ∈ fs, E.pending g u u) ∧ E.ready o f u r (w, x)

theorem run_pending {p : Prog S ε α} {fs : List F} (gs : List F) {w : W} {done : List F}
    (h : ∀ f ∈ fs, E.pending f w w) :
    E.Run ⟨p, some (fs ++ gs), w, done⟩ ⟨p, some gs, w, done⟩ := by
  induction fs with
  | nil => exact .refl
  | cons f fs ih =>
    exact .head (.pending (h f List.mem_cons_self)) (ih fun g hg ↦ h g (List.mem_cons_of_mem f hg))

theorem Answers.run {X : Type} {E : Poller S F (W × X)} {o : S.Op} {u : W × X} {r : S.Resp o}
    {w : W} (h : Answers E o u r w) (k : S.Resp o → Prog S ε α) (done : List F) :
    ∃ x done', E.Run ⟨.call o k, none, u, done⟩ ⟨k r, none, (w, x), done'⟩ := by
  obtain ⟨i, fs, f, gs, x, hpass, hpending, hready⟩ := h
  have hb : E.branches o ≠ [] := by
    intro hb
    rw [hb, List.rotate_nil, List.flatten_nil] at hpass
    exact List.cons_ne_nil f gs (List.append_eq_nil_iff.mp hpass.symm).2
  have hwake : E.Step ⟨.call o k, none, u, done⟩ ⟨.call o k, some (fs ++ f :: gs), u, done⟩ :=
    hpass ▸ .wake hb i
  exact ⟨x, _, .head hwake ((run_pending _ hpending).tail (.ready hready))⟩

/-- An execution of a machine whose operations can be carried out by polls. -/
theorem exists_run {X : Type} {E : Poller S F (W × X)} {M : Machine S W}
    (hact : ∀ o w r w' x, M.act o w r w' →
      (E.branches o = [] ∧ E.act o (w, x) r (w', x)) ∨ Answers E o (w, x) r w')
    (henv : ∀ w w' x, M.env w w' → E.env (w, x) (w', x)) {p q : Prog S ε α} {w v : W}
    (h : M.Run (p, w) (q, v)) (x : X) (done : List F) :
    ∃ x' done', E.Run ⟨p, none, (w, x), done⟩ ⟨q, none, (v, x'), done'⟩ := by
  suffices hrun : ∀ c, M.Run (p, w) c →
      ∃ x' done', E.Run ⟨p, none, (w, x), done⟩ ⟨c.1, none, (c.2, x'), done'⟩ from hrun _ h
  intro c hc
  induction hc with
  | refl => exact ⟨x, done, .refl⟩
  | tail _ hs ih =>
    obtain ⟨x', done', hrun⟩ := ih
    cases hs with
    | @act o k w v r h =>
      rcases hact o w r v x' h with ⟨hb, hdo⟩ | hanswers
      · exact ⟨x', done', hrun.tail (.act hb hdo)⟩
      · obtain ⟨x'', done'', hawait⟩ := hanswers.run k done'
        exact ⟨x'', done'', hrun.trans hawait⟩
    | env h => exact ⟨x', done', hrun.tail (.env (henv _ _ x' h))⟩

/-! ## Polls as awaits of another machine

A machine with its own idea of when an await is over can follow the polls, if it may wait with what
happens around the program until the poll is decided. -/

/-- The machine `M` follows the polls.  `R none` relates the worlds between two polls of the task
and `R (some (o, fs))` while the await `o` has `fs` left to poll. -/
structure Refines {V : Type} (E : Poller S F W) (M : Machine S V)
    (R : Option (S.Op × List F) → W → V → Prop) : Prop where
  act : ∀ o w r w' u, R none w u → E.branches o = [] → E.act o w r w' →
    ∃ u', M.act o u r u' ∧ R none w' u'
  wake : ∀ o i w u, R none w u → R (some (o, ((E.branches o).rotate i).flatten)) w u
  pending : ∀ o f fs w w' u, R (some (o, f :: fs)) w u → E.pending f w w' →
    ∃ u', ReflTransGen M.env u u' ∧ R (some (o, fs)) w' u'
  ready : ∀ o f fs w r w' u, R (some (o, f :: fs)) w u → E.ready o f w r w' →
    ∃ u₁ u₂ u', ReflTransGen M.env u u₁ ∧ M.act o u₁ r u₂ ∧ ReflTransGen M.env u₂ u' ∧
      R none w' u'
  again : ∀ o f fs w w' u, R (some (o, f :: fs)) w u → E.again f w w' →
    ∃ u', ReflTransGen M.env u u' ∧ R none w' u'
  park : ∀ o w u, R (some (o, [])) w u → ∃ u', ReflTransGen M.env u u' ∧ R none w u'
  env : ∀ x w w' u, R x w u → E.env w w' → ∃ u', ReflTransGen M.env u u' ∧ R x w' u'

/-- The await at hand, and what is left of its poll. -/
inductive At : Polled S F W ε α → Option (S.Op × List F) → Prop
  | between {p : Prog S ε α} {w : W} {done : List F} : At ⟨p, none, w, done⟩ none
  | during {o : S.Op} {k : S.Resp o → Prog S ε α} {fs : List F} {w : W} {done : List F} :
      At ⟨.call o k, some fs, w, done⟩ (some (o, fs))

namespace Refines

variable {V : Type} {M : Machine S V} {R : Option (S.Op × List F) → W → V → Prop} {u : V}
  {x : Option (S.Op × List F)}

theorem env_run {u' : V} (p : Prog S ε α) (h : ReflTransGen M.env u u') : M.Run (p, u) (p, u') :=
  ReflTransGen.lift (fun u ↦ (p, u)) (fun _ _ h ↦ .env h) _ _ h

theorem step (hR : Refines E M R) (hx : At c x) (hu : R x c.world u) (hs : E.Step c c') :
    ∃ x' u', At c' x' ∧ M.Run (c.program, u) (c'.program, u') ∧ R x' c'.world u' := by
  cases hs with
  | act hb h =>
    cases hx
    obtain ⟨u', hact, hu'⟩ := hR.act _ _ _ _ u hu hb h
    exact ⟨none, u', .between, .single (.act hact), hu'⟩
  | wake hb i =>
    cases hx
    exact ⟨_, u, .during, .refl, hR.wake _ i _ u hu⟩
  | pending h =>
    cases hx
    obtain ⟨u', henv, hu'⟩ := hR.pending _ _ _ _ _ u hu h
    exact ⟨_, u', .during, env_run _ henv, hu'⟩
  | ready h =>
    cases hx
    obtain ⟨u₁, u₂, u', henv₁, hact, henv₂, hu'⟩ := hR.ready _ _ _ _ _ _ u hu h
    exact ⟨none, u', .between, ((env_run _ henv₁).tail (.act hact)).trans (env_run _ henv₂), hu'⟩
  | again h =>
    cases hx
    obtain ⟨u', henv, hu'⟩ := hR.again _ _ _ _ _ u hu h
    exact ⟨none, u', .between, env_run _ henv, hu'⟩
  | park =>
    cases hx
    obtain ⟨u', henv, hu'⟩ := hR.park _ _ u hu
    exact ⟨none, u', .between, env_run _ henv, hu'⟩
  | env h =>
    obtain ⟨u', henv, hu'⟩ := hR.env x _ _ u hu h
    refine ⟨x, u', ?_, env_run _ henv, hu'⟩
    cases hx with
    | between => exact .between
    | during => exact .during

/-- **An execution by polls is one of the machine.** -/
theorem run (hR : Refines E M R) (hx : At c x) (hu : R x c.world u) (h : E.Run c c') :
    ∃ x' u', At c' x' ∧ M.Run (c.program, u) (c'.program, u') ∧ R x' c'.world u' := by
  induction h with
  | refl => exact ⟨x, u, hx, .refl, hu⟩
  | tail _ hs ih =>
    obtain ⟨x', u', hx', hrun, hu'⟩ := ih
    obtain ⟨x'', u'', hx'', hstep, hu''⟩ := hR.step hx' hu' hs
    exact ⟨x'', u'', hx'', hrun.trans hstep, hu''⟩

end Refines

end Poller

end Async
