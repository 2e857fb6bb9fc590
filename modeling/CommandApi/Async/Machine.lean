import CommandApi.Async.Prog

/-!
# Running a program next to an environment

A `Machine` gives a meaning to the effects of a signature on a world `W`: `act o w r w'` says that
operation `o`, performed in world `w`, may answer `r` and leave the world at `w'`, and `env w w'`
says that something other than the program — another task, a child process, a clock, a client —
may take the world from `w` to `w'`.  An operation with no admissible answer is *pending*, and the
program waits.

* `Machine.Step` interleaves the program's operations with the environment in every possible way,
  and `Machine.Run` is a whole execution.
* `Machine.Poll` is one poll of an `async` runtime: the program performs operations, undisturbed,
  until the next one is pending or suspends it.
* `Machine.restrict` forbids some of the steps, which is how "every execution whose steps all meet
  a condition" is said.
-/

set_option autoImplicit false

namespace Async

open Relation

variable {S : Signature} {W ε α : Type}

/-- A meaning for the operations of `S` on worlds of type `W`, next to an environment. -/
structure Machine (S : Signature) (W : Type) where
  /-- `act o w r w'`: operation `o` may answer `r` in world `w` and leave it at `w'`. -/
  act : (o : S.Op) → W → S.Resp o → W → Prop
  /-- A step of everything that is not the program. -/
  env : W → W → Prop

namespace Machine

variable (M : Machine S W)

/-- One step of a program next to its environment. -/
inductive Step : Prog S ε α × W → Prog S ε α × W → Prop
  | act {o : S.Op} {k : S.Resp o → Prog S ε α} {w v : W} {r : S.Resp o} (h : M.act o w r v) :
      Step (.call o k, w) (k r, v)
  | env {p : Prog S ε α} {w v : W} (h : M.env w v) : Step (p, w) (p, v)

/-- An execution: any number of steps. -/
abbrev Run : Prog S ε α × W → Prog S ε α × W → Prop := ReflTransGen M.Step

/-- One poll: operations of the program, and nothing else, until it has ended or its next
operation has no admissible answer.  An operation that `suspends` hands its work to somebody else,
so a poll may also end in front of it, whether or not it could be answered at once. -/
inductive Poll (suspends : S.Op → Prop) : Prog S ε α × W → Prog S ε α × W → Prop
  | ret {a : α} {w : W} : Poll suspends (.ret a, w) (.ret a, w)
  | fail {e : ε} {w : W} : Poll suspends (.fail e, w) (.fail e, w)
  | pending {o : S.Op} {k : S.Resp o → Prog S ε α} {w : W} (h : ∀ r w', ¬ M.act o w r w') :
      Poll suspends (.call o k, w) (.call o k, w)
  | suspended {o : S.Op} {k : S.Resp o → Prog S ε α} {w : W} (h : suspends o) :
      Poll suspends (.call o k, w) (.call o k, w)
  | act {o : S.Op} {k : S.Resp o → Prog S ε α} {w v : W} {r : S.Resp o}
      {c : Prog S ε α × W} (h : M.act o w r v) (hc : Poll suspends (k r, v) c) :
      Poll suspends (.call o k, w) c

/-- The machine with some of its steps forbidden: `P` on the program's operations and `E` on the
environment's.  The executions of `M.restrict P E` are the executions of `M` all of whose steps
satisfy `P` and `E`. -/
def restrict (P : (o : S.Op) → W → S.Resp o → Prop) (E : W → W → Prop) : Machine S W where
  act o w r w' := M.act o w r w' ∧ P o w r
  env w w' := M.env w w' ∧ E w w'

/-- The machine watched by an observer: `look` is what the observer may note down, and when.  It
never changes the world. -/
def observe {O : Type} (look : W → O → O → Prop) : Machine S (W × O) where
  act o w r w' := M.act o w.1 r w'.1 ∧ w'.2 = w.2
  env w w' := (M.env w.1 w'.1 ∧ w'.2 = w.2) ∨ (w'.1 = w.1 ∧ look w.1 w.2 w'.2)

variable {M}

/-- The steps of a restricted machine are steps of the machine. -/
theorem Step.of_restrict {P : (o : S.Op) → W → S.Resp o → Prop} {E : W → W → Prop}
    {c c' : Prog S ε α × W} (h : (M.restrict P E).Step c c') : M.Step c c' := by
  cases h with
  | act h => exact .act h.1
  | env h => exact .env h.1

theorem Run.of_restrict {P : (o : S.Op) → W → S.Resp o → Prop} {E : W → W → Prop}
    {c c' : Prog S ε α × W} (h : (M.restrict P E).Run c c') : M.Run c c' :=
  ReflTransGen.mono (fun _ _ h ↦ Step.of_restrict h) _ _ h

variable {suspends : S.Op → Prop}

/-- A poll is an execution in which nothing else happens. -/
theorem Poll.run {c c' : Prog S ε α × W} (h : M.Poll suspends c c') : M.Run c c' := by
  induction h with
  | ret | fail | pending _ | suspended _ => exact .refl
  | act h _ ih => exact .head (.act h) ih

/-- A poll does not stop in front of an operation that can be answered and does not suspend it. -/
theorem Poll.answered {o : S.Op} {k : S.Resp o → Prog S ε α} {w : W} {c : Prog S ε α × W}
    (h : M.Poll suspends (.call o k, w) c) (ho : ¬ suspends o) (hready : ∃ r v, M.act o w r v) :
    ∃ r v, M.act o w r v ∧ M.Poll suspends (k r, v) c := by
  cases h with
  | pending hno =>
    obtain ⟨r, v, hact⟩ := hready
    exact absurd hact (hno r v)
  | suspended hs => exact absurd hs ho
  | act hact hc => exact ⟨_, _, hact, hc⟩

/-! ## Executions of composed programs -/

variable {β δ : Type}

theorem Run.perform {o : S.Op} {w v : W} {r : S.Resp o} (h : M.act o w r v) :
    M.Run ((Prog.perform o : Prog S ε _), w) (.ret r, v) :=
  .single (.act h)

/-- The environment alone. -/
theorem Run.env {p : Prog S ε α} {w v : W} (h : ReflTransGen M.env w v) : M.Run (p, w) (p, v) :=
  ReflTransGen.lift (p := M.Step) (fun u : W ↦ (p, u)) (fun _ _ h ↦ .env h) _ _ h

/-- An execution, in a context `C` that performs the operations of the program in it. -/
theorem Run.inside {C : Prog S ε α → Prog S δ β}
    (hC : ∀ o k, C (.call o k) = .call o fun r ↦ C (k r)) {c c' : Prog S ε α × W}
    (h : M.Run c c') : M.Run (C c.1, c.2) (C c'.1, c'.2) := by
  induction h with
  | refl => exact .refl
  | tail _ hs ih =>
    refine ih.tail ?_
    cases hs with
    | @act o k _ _ _ h =>
      rw [hC o k]
      exact .act h
    | env h => exact .env h

/-- An execution of `p` is the beginning of one of `p >>= f`. -/
theorem Run.bind {c c' : Prog S ε α × W} (h : M.Run c c') (f : α → Prog S ε β) :
    M.Run (c.1 >>= f, c.2) (c'.1 >>= f, c'.2) :=
  h.inside (C := fun p ↦ p >>= f) fun _ _ ↦ rfl

theorem Run.attempt {c c' : Prog S ε α × W} (h : M.Run c c') :
    M.Run ((c.1.attempt : Prog S δ _), c.2) (c'.1.attempt, c'.2) :=
  h.inside (C := Prog.attempt) fun _ _ ↦ rfl

theorem Run.mapError {c c' : Prog S ε α × W} (h : M.Run c c') (f : ε → δ) :
    M.Run (c.1.mapError f, c.2) (c'.1.mapError f, c'.2) :=
  h.inside (C := Prog.mapError f) fun _ _ ↦ rfl

/-- An execution, simulated by another machine. -/
theorem Run.simulate {V : Type} {N : Machine S V} {R : W → V → Prop}
    (hact : ∀ o w r w' v, R w v → M.act o w r w' → ∃ v', N.act o v r v' ∧ R w' v')
    (henv : ∀ w w' v, R w v → M.env w w' → ∃ v', N.env v v' ∧ R w' v')
    {c c' : Prog S ε α × W} {v : V} (h : M.Run c c') (hR : R c.2 v) :
    ∃ v', N.Run (c.1, v) (c'.1, v') ∧ R c'.2 v' := by
  induction h with
  | refl => exact ⟨v, .refl, hR⟩
  | tail _ hs ih =>
    obtain ⟨v', hrun, hR'⟩ := ih
    cases hs with
    | act h =>
      obtain ⟨v'', hv, hR''⟩ := hact _ _ _ _ _ hR' h
      exact ⟨v'', hrun.tail (.act hv), hR''⟩
    | env h =>
      obtain ⟨v'', hv, hR''⟩ := henv _ _ _ hR' h
      exact ⟨v'', hrun.tail (.env hv), hR''⟩

/-- An execution, next to a component of the world that follows along: whatever it holds, every
step of the machine is one with some change of it. -/
theorem Run.extend {O : Type} {N : Machine S (W × O)}
    (hact : ∀ o w r w' x, M.act o w r w' → ∃ x', N.act o (w, x) r (w', x'))
    (henv : ∀ w w' x, M.env w w' → ∃ x', N.env (w, x) (w', x'))
    {p q : Prog S ε α} {w v : W} (h : M.Run (p, w) (q, v)) (x : O) :
    ∃ x', N.Run (p, (w, x)) (q, (v, x')) := by
  have hact' : ∀ o w r w' (u : W × O), u.1 = w → M.act o w r w' →
      ∃ u', N.act o u r u' ∧ u'.1 = w' := by
    rintro o _ r w' ⟨w, x⟩ rfl h
    obtain ⟨x', hx⟩ := hact o w r w' x h
    exact ⟨(w', x'), hx, rfl⟩
  have henv' : ∀ w w' (u : W × O), u.1 = w → M.env w w' → ∃ u', N.env u u' ∧ u'.1 = w' := by
    rintro _ w' ⟨w, x⟩ rfl h
    obtain ⟨x', hx⟩ := henv w w' x h
    exact ⟨(w', x'), hx, rfl⟩
  obtain ⟨⟨_, x'⟩, hrun, rfl⟩ := h.simulate hact' henv' (v := (w, x)) rfl
  exact ⟨x', hrun⟩

/-- An execution, watched by an observer who does not look. -/
theorem Run.observe {O : Type} {look : W → O → O → Prop} {E : W × O → W × O → Prop}
    {p q : Prog S ε α} {w v : W} (h : M.Run (p, w) (q, v)) (o : O)
    (hE : ∀ w v, E (w, o) (v, o)) :
    ((M.observe look).restrict (fun _ _ _ ↦ True) E).Run (p, (w, o)) (q, (v, o)) := by
  have hlift : ∀ c c' : Prog S ε α × W, M.Step c c' →
      ((M.observe look).restrict (fun _ _ _ ↦ True) E).Step (c.1, (c.2, o)) (c'.1, (c'.2, o)) := by
    intro c c' hs
    cases hs with
    | act h => exact .act ⟨⟨h, rfl⟩, trivial⟩
    | env h => exact .env ⟨.inl ⟨h, rfl⟩, hE _ _⟩
  exact ReflTransGen.lift (p := ((M.observe look).restrict (fun _ _ _ ↦ True) E).Step)
    (fun c : Prog S ε α × W ↦ (c.1, (c.2, o))) hlift _ _ h

end Machine

end Async
