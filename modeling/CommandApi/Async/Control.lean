import CommandApi.Async.Machine

/-!
# Control graphs

To say what holds in every state of every execution of a program, one has to say *where in the
program* each fact holds.  A control graph does that without mentioning a world: it has a type `Φ`
of phases and a relation `g φ o r ψ`, "in phase `φ` the program may perform `o`, and the answer
`r` takes it to phase `ψ`".  `Follows g φ p Q` says that the program `p`, started in phase `φ`,
moves along the graph whatever the answers are, and ends in a phase that satisfies `Q`.  It is
proved once for each program, by its structure (`Follows.bind` and the rules next to it).

An invariant is then a family `A : Φ → W → Prop` of facts about the world, one for each phase, that
the environment keeps (`Invariant.env`) and that the operations carry along the edges of the graph
(`Invariant.act`).  The two are put together by `Invariant.run`: in every state of every execution
the program is in some phase `φ`, and `A φ` holds of the world.  Nothing about the program is left
in the hypotheses, so one walk through the program serves every invariant, on every machine.
`Invariant.poll` is what the invariant says about the place where a poll stops.
-/

set_option autoImplicit false

namespace Async

open Relation

variable {S : Signature} {W Φ ε δ α β : Type}

/-- A control graph: `g φ o r ψ` is an edge from phase `φ` to phase `ψ`. -/
abbrev ControlGraph (S : Signature) (Φ : Type) := Φ → (o : S.Op) → S.Resp o → Φ → Prop

/-- The program moves along the graph `g` from phase `φ`, and ends in a phase with `Q`. -/
def Follows (g : ControlGraph S Φ) : Φ → Prog S ε α → (Except ε α → Φ → Prop) → Prop
  | φ, .ret a, Q => Q (.ok a) φ
  | φ, .fail e, Q => Q (.error e) φ
  | φ, .call o k, Q => ∀ r, ∃ ψ, g φ o r ψ ∧ Follows g ψ (k r) Q

namespace Follows

variable {g : ControlGraph S Φ} {φ : Φ}

theorem mono {p : Prog S ε α} {Q Q' : Except ε α → Φ → Prop} (hQ : ∀ r ψ, Q r ψ → Q' r ψ)
    (h : Follows g φ p Q) : Follows g φ p Q' := by
  induction p generalizing φ with
  | ret a => exact hQ _ _ h
  | fail e => exact hQ _ _ h
  | call o k ih =>
    intro r
    obtain ⟨ψ, hg, hk⟩ := h r
    exact ⟨ψ, hg, ih r hk⟩

theorem bind {p : Prog S ε α} {f : α → Prog S ε β} {B : α → Φ → Prop}
    {Q : Except ε β → Φ → Prop}
    (hp : Follows g φ p fun r ψ ↦ match r with
      | .ok a => B a ψ
      | .error e => Q (.error e) ψ)
    (hf : ∀ a ψ, B a ψ → Follows g ψ (f a) Q) : Follows g φ (p >>= f) Q := by
  induction p generalizing φ with
  | ret a => exact hf a φ hp
  | fail e => exact hp
  | call o k ih =>
    intro r
    obtain ⟨ψ, hg, hk⟩ := hp r
    exact ⟨ψ, hg, ih r hk⟩

theorem attempt {p : Prog S ε α} {Q : Except δ (Except ε α) → Φ → Prop}
    (h : Follows g φ p fun r ψ ↦ Q (.ok r) ψ) : Follows g φ p.attempt Q := by
  induction p generalizing φ with
  | ret a => exact h
  | fail e => exact h
  | call o k ih =>
    intro r
    obtain ⟨ψ, hg, hk⟩ := h r
    exact ⟨ψ, hg, ih r hk⟩

theorem mapError {p : Prog S ε α} {f : ε → δ} {Q : Except δ α → Φ → Prop}
    (h : Follows g φ p fun r ψ ↦ Q (r.mapError f) ψ) : Follows g φ (p.mapError f) Q := by
  induction p generalizing φ with
  | ret a => exact h
  | fail e => exact h
  | call o k ih =>
    intro r
    obtain ⟨ψ, hg, hk⟩ := h r
    exact ⟨ψ, hg, ih r hk⟩

theorem perform {o : S.Op} {Q : Except ε (S.Resp o) → Φ → Prop}
    (h : ∀ r, ∃ ψ, g φ o r ψ ∧ Q (.ok r) ψ) : Follows g φ (Prog.perform o) Q := h

theorem perform_bind {o : S.Op} {f : S.Resp o → Prog S ε β} {Q : Except ε β → Φ → Prop}
    (h : ∀ r, ∃ ψ, g φ o r ψ ∧ Follows g ψ (f r) Q) : Follows g φ (Prog.perform o >>= f) Q := h

theorem ofExcept {x : Except ε α} {Q : Except ε α → Φ → Prop} (h : Q x φ) :
    Follows g φ (Prog.ofExcept x) Q := by
  cases x with
  | ok a => exact h
  | error e => exact h

/-- A program that only performs operations which leave the phase as it is. -/
theorem of_only {ok : S.Op → Prop} {p : Prog S ε α} (hp : p.Only ok)
    (hg : ∀ o r, ok o → g φ o r φ) : Follows g φ p fun _ ψ ↦ ψ = φ := by
  induction p with
  | ret a => exact rfl
  | fail e => exact rfl
  | call o k ih => exact fun r ↦ ⟨φ, hg o r hp.1, ih r (hp.2 r)⟩

/-- … in front of another one. -/
theorem only_bind {ok : S.Op → Prop} {p : Prog S ε α} {f : α → Prog S ε β}
    {Q : Except ε β → Φ → Prop} (hp : p.Only ok) (hg : ∀ o r, ok o → g φ o r φ)
    (hQ : ∀ e, Q (.error e) φ) (hf : ∀ a, Follows g φ (f a) Q) : Follows g φ (p >>= f) Q := by
  refine bind (B := fun _ ψ ↦ ψ = φ) ((of_only hp hg).mono fun r ψ hψ ↦ ?_) fun a ψ hψ ↦ ?_
  · subst hψ
    cases r with
    | ok a => exact rfl
    | error e => exact hQ e
  · subst hψ
    exact hf a

end Follows

/-- The error of an outcome. -/
def Except.error? : Except ε α → Option ε
  | .ok _ => none
  | .error e => some e

/-- A program that fails by the errors it is answered, along a graph that keeps them. -/
theorem Follows.of_failsBy {g : ControlGraph S (Option ε)} {ok : S.Op → Prop}
    {text : (o : S.Op) → S.Resp o → Option ε} {p : Prog S ε α} (hp : p.FailsBy ok text)
    (hg : ∀ o r, ok o → g none o r (text o r)) :
    Follows g none p fun r x ↦ x = Except.error? r := by
  induction p with
  | ret a => exact rfl
  | fail e => exact hp.elim
  | call o k ih =>
    intro r
    refine ⟨text o r, hg o r hp.1, ?_⟩
    cases htext : text o r with
    | none => exact ih r ((hp.2 r).1 htext)
    | some e =>
      rw [(hp.2 r).2 e htext]
      exact rfl

/-- Two graphs at once. -/
def ControlGraph.prod {Ψ : Type} (g : ControlGraph S Φ) (h : ControlGraph S Ψ) :
    ControlGraph S (Φ × Ψ) :=
  fun φ o r ψ ↦ g φ.1 o r ψ.1 ∧ h φ.2 o r ψ.2

/-- A program that follows two graphs follows both at once. -/
theorem Follows.prod {Ψ : Type} {g : ControlGraph S Φ} {h : ControlGraph S Ψ} {φ : Φ} {ψ : Ψ}
    {p : Prog S ε α} {Q : Except ε α → Φ → Prop} {R : Except ε α → Ψ → Prop}
    (hg : Follows g φ p Q) (hh : Follows h ψ p R) :
    Follows (g.prod h) (φ, ψ) p fun r χ ↦ Q r χ.1 ∧ R r χ.2 := by
  induction p generalizing φ ψ with
  | ret a => exact ⟨hg, hh⟩
  | fail e => exact ⟨hg, hh⟩
  | call o k ih =>
    intro r
    obtain ⟨φ', hφ, hg'⟩ := hg r
    obtain ⟨ψ', hψ, hh'⟩ := hh r
    exact ⟨(φ', ψ'), ⟨hφ, hψ⟩, ih r hg' hh'⟩

/-! ## Invariants along a control graph -/

/-- The family `A` is carried along the graph `g` by the machine `M`. -/
structure Invariant (M : Machine S W) (g : ControlGraph S Φ) (A : Φ → W → Prop) : Prop where
  /-- The environment keeps the facts of every phase. -/
  env : ∀ φ w w', A φ w → M.env w w' → A φ w'
  /-- An operation establishes the facts of the phase it leads to. -/
  act : ∀ φ o w r w' ψ, A φ w → M.act o w r w' → g φ o r ψ → A ψ w'

/-- A program that follows `g`, in a world where the facts of its phase hold. -/
def Tracked (g : ControlGraph S Φ) (A : Φ → W → Prop) (Q : Except ε α → Φ → Prop)
    (c : Prog S ε α × W) : Prop :=
  ∃ φ, Follows g φ c.1 Q ∧ A φ c.2

namespace Invariant

variable {M : Machine S W} {g : ControlGraph S Φ} {A : Φ → W → Prop}
  {Q : Except ε α → Φ → Prop}

theorem step (hA : Invariant M g A) {c c' : Prog S ε α × W} (hc : Tracked g A Q c)
    (hs : M.Step c c') : Tracked g A Q c' := by
  obtain ⟨φ, hf, hw⟩ := hc
  cases hs with
  | act h =>
    obtain ⟨ψ, hg, hk⟩ := hf _
    exact ⟨ψ, hk, hA.act φ _ _ _ _ ψ hw h hg⟩
  | env h => exact ⟨φ, hf, hA.env φ _ _ hw h⟩

/-- **In every state of every execution the program is in some phase, whose facts hold.** -/
theorem run (hA : Invariant M g A) {c c' : Prog S ε α × W} (hc : Tracked g A Q c)
    (hr : M.Run c c') : Tracked g A Q c' := by
  induction hr with
  | refl => exact hc
  | tail _ hs ih => exact hA.step ih hs

/-- Where a poll stops: the program has ended, or its next operation is pending or suspends it. -/
theorem poll (hA : Invariant M g A) {suspends : S.Op → Prop} {c c' : Prog S ε α × W}
    (hc : Tracked g A Q c) (hp : M.Poll suspends c c') :
    ∃ φ, A φ c'.2 ∧ ((∃ r, c'.1 = .ofExcept r ∧ Q r φ) ∨
      ∃ o k, c'.1 = .call o k ∧ (∀ r, ∃ ψ, g φ o r ψ) ∧
        (suspends o ∨ ∀ r w', ¬ M.act o c'.2 r w')) := by
  induction hp with
  | @ret a w =>
    obtain ⟨φ, hf, hw⟩ := hc
    exact ⟨φ, hw, .inl ⟨.ok a, rfl, hf⟩⟩
  | @fail e w =>
    obtain ⟨φ, hf, hw⟩ := hc
    exact ⟨φ, hw, .inl ⟨.error e, rfl, hf⟩⟩
  | @pending o k w hno =>
    obtain ⟨φ, hf, hw⟩ := hc
    exact ⟨φ, hw, .inr ⟨o, k, rfl, fun r ↦ (hf r).imp fun _ h ↦ h.1, .inr hno⟩⟩
  | @suspended o k w hs =>
    obtain ⟨φ, hf, hw⟩ := hc
    exact ⟨φ, hw, .inr ⟨o, k, rfl, fun r ↦ (hf r).imp fun _ h ↦ h.1, .inl hs⟩⟩
  | act h _ ih => exact ih (hA.step hc (.act h))

theorem restrict {P : (o : S.Op) → W → S.Resp o → Prop} {E : W → W → Prop}
    (hA : Invariant M g A) : Invariant (M.restrict P E) g A where
  env φ w w' h henv := hA.env φ w w' h henv.1
  act φ o w r w' ψ h hact hg := hA.act φ o w r w' ψ h hact.1 hg

theorem and {B : Φ → W → Prop} (hA : Invariant M g A) (hB : Invariant M g B) :
    Invariant M g fun φ w ↦ A φ w ∧ B φ w where
  env φ w w' h henv := ⟨hA.env φ w w' h.1 henv, hB.env φ w w' h.2 henv⟩
  act φ o w r w' ψ h hact hg :=
    ⟨hA.act φ o w r w' ψ h.1 hact hg, hB.act φ o w r w' ψ h.2 hact hg⟩

/-- What an observer knows, if the world keeps it true. -/
theorem observe {O : Type} {look : W → O → O → Prop} {B : W → O → Prop} (hA : Invariant M g A)
    (henv : ∀ φ w w' x, A φ w → M.env w w' → B w x → B w' x)
    (hact : ∀ φ o w r w' ψ x, A φ w → M.act o w r w' → g φ o r ψ → B w x → B w' x)
    (hlook : ∀ φ w x x', A φ w → B w x → look w x x' → B w x') :
    Invariant (M.observe look) g fun φ u ↦ A φ u.1 ∧ B u.1 u.2 where
  env φ u u' h he := by
    obtain ⟨hw, hx⟩ := h
    rcases he with ⟨he, hsame⟩ | ⟨hsame, hl⟩
    · rw [hsame]
      exact ⟨hA.env φ _ _ hw he, henv φ _ _ _ hw he hx⟩
    · rw [hsame]
      exact ⟨hw, hlook φ _ _ _ hw hx hl⟩
  act φ o u r u' ψ h ha hg := by
    obtain ⟨hw, hx⟩ := h
    rw [ha.2]
    exact ⟨hA.act φ o _ r _ ψ hw ha.1 hg, hact φ o _ r _ ψ _ hw ha.1 hg hx⟩

/-- **Worlds along an execution are related** by any preorder that single steps respect. -/
theorem run_rel (hA : Invariant M g A) {R : W → W → Prop} (hrefl : ∀ w, R w w)
    (htrans : ∀ u v w, R u v → R v w → R u w)
    (henv : ∀ φ w w', A φ w → M.env w w' → R w w')
    (hact : ∀ φ o w r w' ψ, A φ w → M.act o w r w' → g φ o r ψ → R w w')
    {c c' : Prog S ε α × W} (hc : Tracked g A Q c) (hr : M.Run c c') : R c.2 c'.2 := by
  induction hr with
  | refl => exact hrefl _
  | tail hr hs ih =>
    obtain ⟨φ, hf, hw⟩ := hA.run hc hr
    refine htrans _ _ _ ih ?_
    cases hs with
    | act h =>
      obtain ⟨ψ, hg, -⟩ := hf _
      exact hact φ _ _ _ _ ψ hw h hg
    | env h => exact henv φ _ _ hw h

end Invariant

end Async
