import CommandApi.Process.Futures

/-!
# A `select!` is what its polls make of it

`taskMachine` takes an await of the runner as one operation: any branch that is ready may be taken,
and a timeout is over when its time is and the future inside it is not ready, both at the same
moment.  Poll by poll, time passes between the two: the future is found pending, it becomes ready,
the grace period ends, and then the timer is found to have fired.

`polled_refines` says that nothing is lost.  What happens around the runner between these two polls
does not depend on the timer, so it might as well have happened behind the timeout.  The one
difference that stays is whether the runner has looked at the stop cell, which nobody asks for once
it is in `stop_process`.

With `exists_run_polled`, the runner of `CommandApi.Process.World` and the runner of
`CommandApi.Process.Futures` have the same executions.
-/

set_option autoImplicit false

namespace CommandApi

open Async Relation

variable {P : Platform} {line : TaskSnapshot → List UInt8} {w w' w₀ u : World} {o : Op}
  {r : runner.Resp o} {f : Future} {fs : List Future}

/-! ## What the surroundings do not depend on -/

/-- The same world, but that a value in the stop cell may have been seen in the first, and that the
deadline (`d`) or the grace period (`g`) is over in the second. -/
def Ahead (d g : Bool) (w u : World) : Prop :=
  ∃ b, (w.stopChanged = true → b = true) ∧
    u = { w with stopChanged := b, deadline := d || w.deadline, grace := g || w.grace }

/-- The same world, but for a value in the stop cell that has been seen in the first. -/
abbrev Unread (w u : World) : Prop := Ahead false false w u

theorem Unread.refl (w : World) : Unread w w := ⟨w.stopChanged, id, rfl⟩

theorem Unread.seen (h : Unread w u) : Unread { w with stopChanged := false } u := by
  obtain ⟨b, -, rfl⟩ := h
  exact ⟨b, nofun, rfl⟩

theorem Ahead.surroundings {d g : Bool} (h : Ahead d g w u) (he : Surroundings P w w') :
    ∃ u', Surroundings P u u' ∧ Ahead d g w' u' := by
  obtain ⟨b, hb, rfl⟩ := h
  cases he with
  | requestStop reason => exact ⟨_, .requestStop reason, true, fun _ ↦ rfl, rfl⟩
  | deadline => exact ⟨_, .deadline, b, hb, by rw [Bool.or_true]⟩
  | grace => exact ⟨_, .grace, b, hb, by rw [Bool.or_true]⟩
  | fork hlive => exact ⟨_, .fork hlive, b, hb, rfl⟩
  | othersExit => exact ⟨_, .othersExit, b, hb, rfl⟩
  | workerExit status halive hu => exact ⟨_, .workerExit status halive hu, b, hb, rfl⟩
  | workerFails status halive => exact ⟨_, .workerFails status halive, b, hb, rfl⟩
  | workerForce halive hu => exact ⟨_, .workerForce halive hu, b, hb, rfl⟩
  | output block hreader => exact ⟨_, .output block hreader, b, hb, rfl⟩
  | truncate hreader => exact ⟨_, .truncate hreader, b, hb, rfl⟩
  | readerEnds result hreader => exact ⟨_, .readerEnds result hreader, b, hb, rfl⟩
  | readerCrashes error hreader => exact ⟨_, .readerCrashes error hreader, b, hb, rfl⟩

theorem Ahead.events {d g : Bool} (h : Ahead d g w u) (he : ReflTransGen (Surroundings P) w w') :
    ∃ u', ReflTransGen (Surroundings P) u u' ∧ Ahead d g w' u' := by
  induction he with
  | refl => exact ⟨u, .refl, h⟩
  | tail _ he ih =>
    obtain ⟨u', hrun, hu'⟩ := ih
    obtain ⟨u'', hstep, hu''⟩ := hu'.surroundings he
    exact ⟨u'', hrun.tail hstep, hu''⟩

/-- Time may pass before anything else happens. -/
theorem Unread.ahead (h : Unread w u) (d g : Bool) :
    ∃ u', ReflTransGen (Surroundings P) u u' ∧ Ahead d g w u' := by
  obtain ⟨b, hb, rfl⟩ := h
  cases d with
  | false =>
    cases g with
    | false => exact ⟨_, .refl, b, hb, rfl⟩
    | true => exact ⟨_, .single .grace, b, hb, rfl⟩
  | true =>
    cases g with
    | false => exact ⟨_, .single .deadline, b, hb, rfl⟩
    | true => exact ⟨_, (ReflTransGen.single .deadline).tail .grace, b, hb, rfl⟩

/-- What is ahead has come. -/
theorem Ahead.unread {d g : Bool} (h : Ahead d g w u) (hd : d = true → w.deadline = true)
    (hg : g = true → w.grace = true) : Unread w u := by
  obtain ⟨b, hb, rfl⟩ := h
  have hdeadline : (d || w.deadline) = w.deadline := by
    cases d with
    | false => rfl
    | true => rw [hd rfl]; rfl
  have hgrace : (g || w.grace) = w.grace := by
    cases g with
    | false => rfl
    | true => rw [hg rfl]; rfl
  exact ⟨b, hb, by rw [hdeadline, hgrace]; rfl⟩

/-- An operation that is no await does not look at the cell. -/
theorem Unread.effect (h : Unread w u) (hb : o.branches = [])
    (he : taskEffect P line o w r w') : ∃ u', taskEffect P line o u r u' ∧ Unread w' u' := by
  obtain ⟨b, hchanged, rfl⟩ := h
  cases o with
  | fallible c =>
    cases r with
    | ok a => cases c <;> (cases he; exact ⟨_, rfl, b, hchanged, rfl⟩)
    | error e =>
      cases c with
      | persist =>
        obtain ⟨n, rfl⟩ := he
        exact ⟨_, ⟨n, rfl⟩, b, hchanged, rfl⟩
      | _ => cases he; exact ⟨_, rfl, b, hchanged, rfl⟩
  | update site g =>
    obtain ⟨now, rfl⟩ := he
    exact ⟨_, ⟨now, rfl⟩, b, hchanged, rfl⟩
  | selectMain | selectGrace | selectEmpty | childWait | waitEmpty | waitEmptyUntilDeadline =>
    cases hb
  | joinReader stream =>
    cases r with
    | ended result | crashed error =>
      obtain ⟨hreader, rfl⟩ := he
      exact ⟨_, ⟨hreader, rfl⟩, b, hchanged, rfl⟩
  | leaveRunTask =>
    cases he
    cases P <;> exact ⟨_, rfl, b, hchanged, rfl⟩
  | _ => cases he; exact ⟨_, rfl, b, hchanged, rfl⟩

/-! ## Timers -/

/-- The future that the timer is a timeout of. -/
def Op.timeoutOf : Op → Future → Option Future
  | .selectGrace, .graceDeadline => some .childWait
  | .selectEmpty, .graceDeadline => some .waitEmpty
  | .waitEmptyUntilDeadline, .deadline => some .waitEmpty
  | _, _ => none

/-- A timer is polled right behind the future that it is a timeout of. -/
def Op.Ordered (o : Op) : List Future → Prop :=
  List.IsChain fun f t ↦ ∀ g, o.timeoutOf t = some g → f = g

/-- If a timer is polled next, its future was pending in this world. -/
def Op.Timed (P : Platform) (o : Op) (fs : List Future) (w : World) : Prop :=
  ∀ t ∈ fs.head?, ∀ f, o.timeoutOf t = some f → f.Pending P w w

theorem Op.ordered_branches (o : Op) (i : ℕ) :
    o.Ordered (o.branches.rotate i).flatten ∧
      ∀ t ∈ (o.branches.rotate i).flatten.head?, o.timeoutOf t = none := by
  rw [← List.rotate_mod]
  cases o with
  | selectMain =>
    have hi : i % 3 < 3 := Nat.mod_lt i (by decide)
    rw [show (branches .selectMain).length = 3 from rfl]
    interval_cases i % 3 <;> simp [Ordered, branches, timeoutOf]
  | selectGrace =>
    have hi : i % 2 < 2 := Nat.mod_lt i (by decide)
    rw [show (branches .selectGrace).length = 2 from rfl]
    interval_cases i % 2 <;> simp [Ordered, branches, timeoutOf]
  | selectEmpty =>
    have hi : i % 2 < 2 := Nat.mod_lt i (by decide)
    rw [show (branches .selectEmpty).length = 2 from rfl]
    interval_cases i % 2 <;> simp [Ordered, branches, timeoutOf]
  | _ => simp [Ordered, branches, timeoutOf, Nat.mod_one]

theorem Op.timeoutOf_cases {t : Future} (h : o.timeoutOf t = some f) :
    f = .childWait ∨ f = .waitEmpty := by
  unfold timeoutOf at h
  split at h
  · exact .inl (Option.some.inj h).symm
  · exact .inr (Option.some.inj h).symm
  · exact .inr (Option.some.inj h).symm
  · cases h

theorem Future.Pending.again (h : f.Pending P w w') : f.Pending P w' w' := by
  cases f <;> (obtain ⟨hf, rfl⟩ := h; exact ⟨hf, rfl⟩)

theorem Unread.pending (h : Unread w u) (hp : f.Pending P w w') : Unread w' u := by
  cases f with
  | forceRequested =>
    obtain ⟨-, rfl⟩ := hp
    exact h.seen
  | _ =>
    obtain ⟨-, rfl⟩ := hp
    exact h

theorem Op.timed_of_pending (ho : o.Ordered (f :: fs)) (h : f.Pending P w w') :
    o.Timed P fs w' := by
  intro t ht g hg
  have hf : f = g := (List.isChain_cons.mp ho).1 t ht g hg
  exact hf ▸ h.again

/-! ## The refinement -/

/-- How the world of `taskMachine` follows.  Between two polls it is the same; during a poll it
stays behind, in a world where the future whose timer is next was pending. -/
def Follow (P : Platform) : Option (Op × List Future) → RunnerWorld → World → Prop
  | none, w, u => Unread w.1 u
  | some (o, fs), w, u =>
    o.Ordered fs ∧ ∃ w₀, Unread w₀ u ∧ ReflTransGen (Surroundings P) w₀ w.1 ∧ o.Timed P fs w₀

variable {x y : RunnerWorld}

/-- The world of `taskMachine` can catch up. -/
theorem Follow.catchUp (h : Follow P (some (o, fs)) x u) :
    ∃ u', ReflTransGen (Surroundings P) u u' ∧ Unread x.1 u' := by
  obtain ⟨-, w₀, hu, hevents, -⟩ := h
  exact hu.events hevents

/-- A timer that has fired has done so while its future was pending; what has happened since then
follows. -/
theorem Follow.timer {t : Future} (h : Follow P (some (o, t :: fs)) x u)
    (ht : o.timeoutOf t = some f) (d g : Bool) (hd : d = true → x.1.deadline = true)
    (hg : g = true → x.1.grace = true) :
    ∃ u₁ u', ReflTransGen (Surroundings P) u u₁ ∧ (d = true → u₁.deadline = true) ∧
      (g = true → u₁.grace = true) ∧ f.Pending P u₁ u₁ ∧ ReflTransGen (Surroundings P) u₁ u' ∧
      Unread x.1 u' := by
  obtain ⟨-, w₀, hu, hevents, htimed⟩ := h
  obtain ⟨u₁, hearly, hahead⟩ : ∃ u₁, ReflTransGen (Surroundings P) u u₁ ∧ Ahead d g w₀ u₁ :=
    hu.ahead d g
  obtain ⟨u', hlate, hlast⟩ := hahead.events hevents
  have hpending : f.Pending P w₀ w₀ := htimed t rfl f ht
  refine ⟨u₁, u', hearly, ?_, ?_, ?_, hlate, hlast.unread hd hg⟩
  · rintro rfl
    obtain ⟨b, -, rfl⟩ := hahead
    rfl
  · rintro rfl
    obtain ⟨b, -, rfl⟩ := hahead
    rfl
  · obtain ⟨b, -, rfl⟩ := hahead
    obtain rfl | rfl := Op.timeoutOf_cases ht
    · exact ⟨hpending.1, rfl⟩
    · exact ⟨hpending.1, rfl⟩

/-- **An await is over when one of its polls says so.** -/
theorem Follow.resolves (h : Follow P (some (o, f :: fs)) x u) (hr : Resolves P o f x.1 r w') :
    ∃ u₁ u₂ u', ReflTransGen (Surroundings P) u u₁ ∧ taskEffect P line o u₁ r u₂ ∧
      ReflTransGen (Surroundings P) u₂ u' ∧ Unread w' u' := by
  obtain ⟨v, hcatchUp, b, hb, rfl⟩ := h.catchUp
  cases hr with
  | mainExited result hw | graceExited result hw | childWait result hw =>
    cases result with
    | ok status => exact ⟨_, _, _, hcatchUp, ⟨hw, rfl⟩, .refl, b, hb, rfl⟩
    | error e => exact ⟨_, _, _, hcatchUp, rfl, .refl, b, hb, rfl⟩
  | mainDeadline hd => exact ⟨_, _, _, hcatchUp, ⟨hd, rfl⟩, .refl, b, hb, rfl⟩
  | mainStop hchanged hs =>
    exact ⟨_, _, _, hcatchUp, ⟨hb hchanged, hs, rfl⟩, .refl, false, nofun, rfl⟩
  | graceForce hs | emptyForce hs =>
    exact ⟨_, _, _, hcatchUp, ⟨hs, rfl⟩, .refl, false, nofun, rfl⟩
  | emptied result he | waitEmpty result he | emptyInTime result he =>
    exact ⟨_, _, _, hcatchUp, ⟨he, rfl⟩, .refl, b, hb, rfl⟩
  | graceElapsed hg | emptyElapsed hg =>
    obtain ⟨u₁, u', hearly, -, hgrace, hpending, hlate, hu'⟩ :=
      h.timer rfl false true nofun fun _ ↦ hg
    exact ⟨u₁, u₁, u', hearly, ⟨hgrace rfl, hpending.1, rfl⟩, hlate, hu'⟩
  | emptyLate hd =>
    obtain ⟨u₁, u', hearly, hdeadline, -, hpending, hlate, hu'⟩ :=
      h.timer rfl true false (fun _ ↦ hd) nofun
    exact ⟨u₁, u₁, u', hearly, ⟨hdeadline rfl, hpending.1, rfl⟩, hlate, hu'⟩

theorem follow_refines (P : Platform) (line : TaskSnapshot → List UInt8) :
    Poller.Refines (taskPoller P line) (taskMachine P line) (Follow P) where
  act o x r y u h hb he := by
    obtain ⟨u', heffect, hu'⟩ := Unread.effect h hb he.1
    exact ⟨u', heffect, hu'⟩
  wake o i x u h := by
    obtain ⟨hordered, hhead⟩ := o.ordered_branches i
    refine ⟨hordered, x.1, h, .refl, fun t ht f hf ↦ ?_⟩
    rw [hhead t ht] at hf
    cases hf
  pending o f fs x y u h hp := by
    obtain ⟨v, hcatchUp, hv⟩ := h.catchUp
    exact ⟨v, hcatchUp, h.1.tail, y.1, hv.pending hp.1, .refl, Op.timed_of_pending h.1 hp.1⟩
  ready o f fs x r y u h hr := h.resolves hr.1
  again o f fs x y u h ha := by
    obtain ⟨v, hcatchUp, hv⟩ := h.catchUp
    refine ⟨v, hcatchUp, ?_⟩
    obtain ⟨-, rfl | ⟨-, -, rfl⟩⟩ := ha
    · exact hv
    · exact hv.seen
  park o x u h := h.catchUp
  env z x y u h he := by
    cases z with
    | none =>
      obtain ⟨u', hstep, hu'⟩ := Ahead.surroundings h he.1
      exact ⟨u', .single hstep, hu'⟩
    | some z =>
      obtain ⟨hordered, w₀, hu, hevents, htimed⟩ := h
      exact ⟨u, .refl, hordered, w₀, hu, hevents.tail he.1, htimed⟩

/-- **An execution by polls is one of `taskMachine`**, which may be behind while the task is being
polled. -/
theorem polled_refines {ε α : Type} {p : Prog runner ε α}
    {c : Polled runner Future RunnerWorld ε α}
    (hrun : (taskPoller P line).Run (.start p (w, [])) c) :
    ∃ w₀ u, (taskMachine P line).Run (p, w) (c.program, u) ∧ Unread w₀ u ∧
      ReflTransGen (Surroundings P) w₀ c.world.1 ∧ (c.pass = none → w₀ = c.world.1) := by
  have hstart : Poller.At (Polled.start p (w, []) : Polled runner Future RunnerWorld ε α) none :=
    .between
  have hw : Follow P none (w, []) w := Unread.refl w
  obtain ⟨z, u, hat, hcoarse, hu⟩ := (follow_refines P line).run hstart hw hrun
  cases hat with
  | between => exact ⟨_, u, hcoarse, hu, .refl, fun _ ↦ rfl⟩
  | during =>
    obtain ⟨-, w₀, hw₀, hevents, -⟩ := hu
    exact ⟨w₀, u, hcoarse, hw₀, hevents, nofun⟩

end CommandApi
