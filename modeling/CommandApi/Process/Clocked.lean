import CommandApi.Async.Clock
import CommandApi.Process.World

/-!
# The runner and its clock

`run_task` and `stop_process` add a setting of the route to the current instant, and the timer that
is given the sum adds to it once more: tokio rounds a deadline up to the next millisecond when the
timer is first polled.  Each of these additions panics when its result has no representation.

`clockedMachine` is the runner next to its surroundings and a `Clock`; `Op.Panics` says which
operations may panic, and `World.unwound` is what a panic leaves behind.  `not_panics` bounds the
settings with which nothing of the kind happens up to an instant.

The runner is the one of Unix.  The group counts as empty at once there, so the timers around
`wait_empty` are never polled.
-/

set_option autoImplicit false

namespace CommandApi

open Async Relation

/-- The time, and the two deadlines the runner has computed from it. -/
structure Clock where
  now : Instant
  deadline : Option Instant
  grace : Option Instant

/-- A clock before any deadline is computed. -/
def Clock.start (now : Instant) : Clock := ⟨now, none, none⟩

/-- The nanoseconds tokio adds to the deadline of a timer that is polled for the first time. -/
def timerRounding : ℕ := 999999

/-- What an operation makes of the clock; `none` is a panic. -/
def Op.sets (route : ResolvedRoute) (t : Clock) : Op → Option Clock
  | .armDeadline =>
      (t.now.addSecs route.maxExecutionSeconds).map fun d ↦ { t with deadline := some d }
  | .armGrace =>
      (t.now.addSecs route.gracefulShutdownSeconds).map fun d ↦ { t with grace := some d }
  | _ => some t

/-- The deadline of the timer an operation may poll.  `timeout_at` polls the worker first. -/
def Op.timer (w : World) (t : Clock) : Op → Option Instant
  | .selectMain => t.deadline
  | .selectGrace => if w.worker = .alive then t.grace else none
  | _ => none

/-- The operation computes a deadline that has no representation, or may poll a timer that cannot
round its deadline up. -/
def Op.Panics (route : ResolvedRoute) (w : World) (t : Clock) (o : Op) : Prop :=
  o.sets route t = none ∨ ∃ d, o.timer w t = some d ∧ d.addNanos timerRounding = none

/-- What is left of a runner whose future has panicked: everything it owned is dropped, and
`mark_finished` is not called. -/
def World.unwound (w : World) : World := { w.left .unix with storeHeld := false }

/-- The runner of a task next to its surroundings and a clock.  An operation that cannot compute its
deadline has no answer. -/
def clockedMachine (line : TaskSnapshot → List UInt8) (route : ResolvedRoute) :
    Machine runner (World × Clock) where
  act o u r u' := taskEffect .unix line o u.1 r u'.1 ∧ o.sets route u.2 = some u'.2
  env u u' := (Surroundings .unix u.1 u'.1 ∧ u'.2 = u.2) ∨
    ∃ later, u.2.now ≤ later ∧ u' = (u.1, { u.2 with now := later })

/-- A deadline so many seconds from this instant can be computed, and a timer can round it up. -/
def FitsTimer (now : Instant) (seconds : ℕ) : Prop :=
  now.nanos + seconds * nanosPerSecond + timerRounding < instantLimit * nanosPerSecond

instance (now : Instant) (seconds : ℕ) : Decidable (FitsTimer now seconds) :=
  Int.decLt _ _

/-- The deadlines of the clock were computed from the settings of the route, in the past. -/
structure Clock.Armed (route : ResolvedRoute) (t : Clock) : Prop where
  deadline : ∀ d, t.deadline = some d →
    ∃ s ≤ t.now, s.addSecs route.maxExecutionSeconds = some d
  grace : ∀ d, t.grace = some d → ∃ s ≤ t.now, s.addSecs route.gracefulShutdownSeconds = some d

section

variable {line : TaskSnapshot → List UInt8} {route : ResolvedRoute} {w : World} {t t' : Clock}
  {now s d : Instant} {o : Op} {seconds : ℕ} {c c' : Task Unit × (World × Clock)}

theorem Clock.start_armed : (Clock.start now).Armed route where
  deadline d hd := by cases hd
  grace d hd := by cases hd

theorem Clock.Armed.tick (h : t.Armed route) (hnow : t.now ≤ now) :
    ({ t with now := now } : Clock).Armed route where
  deadline d hd := (h.deadline d hd).imp fun _ hs ↦ ⟨hs.1.trans hnow, hs.2⟩
  grace d hd := (h.grace d hd).imp fun _ hs ↦ ⟨hs.1.trans hnow, hs.2⟩

theorem Clock.Armed.sets (h : t.Armed route) (ho : o.sets route t = some t') :
    t'.Armed route := by
  cases o with
  | armDeadline =>
    obtain ⟨d, hadd, rfl⟩ := Option.map_eq_some_iff.mp ho
    refine ⟨fun d' hd ↦ ⟨t.now, le_rfl, ?_⟩, h.grace⟩
    cases hd
    exact hadd
  | armGrace =>
    obtain ⟨d, hadd, rfl⟩ := Option.map_eq_some_iff.mp ho
    refine ⟨h.deadline, fun d' hd ↦ ⟨t.now, le_rfl, ?_⟩⟩
    cases hd
    exact hadd
  | _ =>
    cases ho
    exact h

/-- The deadlines of a runner are always computed from its own settings. -/
theorem armed_run (hrun : (clockedMachine line route).Run c c') (h : c.2.2.Armed route) :
    c'.2.2.Armed route := by
  induction hrun with
  | refl => exact h
  | tail _ hs ih =>
    cases hs with
    | act hact => exact ih.sets hact.2
    | env henv =>
      rcases henv with ⟨-, hsame⟩ | ⟨later, hle, rfl⟩
      · exact hsame ▸ ih
      · exact ih.tick hle

/-- A clock only takes executions away. -/
theorem run_of_clocked (h : (clockedMachine line route).Run c c') :
    (taskMachine .unix line).Run (c.1, c.2.1) (c'.1, c'.2.1) := by
  induction h with
  | refl => exact .refl
  | tail _ hs ih =>
    cases hs with
    | act hact => exact ih.tail (.act hact.1)
    | env henv =>
      rcases henv with ⟨henv, -⟩ | ⟨later, -, rfl⟩
      · exact ih.tail (.env henv)
      · exact ih

/-! ## Settings that fit -/

/-- An earlier instant leaves more room. -/
theorem FitsTimer.mono (h : FitsTimer now seconds) (hs : s ≤ now) : FitsTimer s seconds := by
  have hnanos : s.nanos ≤ now.nanos := hs
  rw [FitsTimer] at h ⊢
  omega

theorem FitsTimer.add (h : FitsTimer now seconds) :
    ∃ d, now.addSecs seconds = some d ∧ d.addNanos timerRounding ≠ none := by
  have hsum : now.nanos + seconds * nanosPerSecond < instantLimit * nanosPerSecond := by
    rw [FitsTimer] at h
    omega
  refine ⟨_, dif_pos hsum, fun hnone ↦ ?_⟩
  exact absurd h (not_lt.mpr (Instant.addNanos_eq_none_iff.mp hnone))

/-- A sum that does not fit has no representation, or cannot be rounded up. -/
theorem not_fitsTimer (h : ¬ FitsTimer now seconds) :
    now.addSecs seconds = none ∨
      ∃ d, now.addSecs seconds = some d ∧ d.addNanos timerRounding = none := by
  cases hadd : now.addSecs seconds with
  | none => exact .inl rfl
  | some d =>
    refine .inr ⟨d, rfl, Instant.addNanos_eq_none_iff.mpr ?_⟩
    rw [Instant.addSecs_eq_some_iff.mp hadd]
    exact not_lt.mp h

theorem FitsTimer.rounded (h : FitsTimer now seconds) (hs : s ≤ now)
    (hadd : s.addSecs seconds = some d) : d.addNanos timerRounding ≠ none := by
  obtain ⟨d', hadd', hround⟩ := (h.mono hs).add
  cases hadd.symm.trans hadd'
  exact hround

/-- **With settings that fit no operation panics** up to that instant. -/
theorem not_panics (hmax : FitsTimer now route.maxExecutionSeconds)
    (hgrace : FitsTimer now route.gracefulShutdownSeconds) (h : t.Armed route)
    (hnow : t.now ≤ now) : ¬ o.Panics route w t := by
  rintro (hnone | ⟨d, htimer, hround⟩)
  · cases o with
    | armDeadline =>
      obtain ⟨d, hadd, -⟩ := (hmax.mono hnow).add
      simp [Op.sets, hadd] at hnone
    | armGrace =>
      obtain ⟨d, hadd, -⟩ := (hgrace.mono hnow).add
      simp [Op.sets, hadd] at hnone
    | _ => cases hnone
  · cases o with
    | selectMain =>
      obtain ⟨s, hs, hadd⟩ := h.deadline d htimer
      exact hmax.rounded (hs.trans hnow) hadd hround
    | selectGrace =>
      simp only [Op.timer] at htimer
      split at htimer
      · obtain ⟨s, hs, hadd⟩ := h.grace d htimer
        exact hgrace.rounded (hs.trans hnow) hadd hround
      · cases htimer
    | _ => cases htimer

/-! ## After a panic -/

@[simp] theorem World.unwound_snapshot : w.unwound.snapshot = w.snapshot := rfl

@[simp] theorem World.unwound_marked : w.unwound.marked = w.marked := rfl

/-- Nothing happens to the record of a task any more when its runner is gone. -/
theorem frame_of_env {u u' : World × Clock}
    (h : ReflTransGen (clockedMachine line route).env u u') :
    u'.1.snapshot = u.1.snapshot ∧ u'.1.marked = u.1.marked := by
  induction h with
  | refl => exact ⟨rfl, rfl⟩
  | tail _ henv ih =>
    rcases henv with ⟨henv, -⟩ | ⟨later, -, rfl⟩
    · exact ⟨henv.frame.1.trans ih.1, henv.marked.trans ih.2⟩
    · exact ih

end

end CommandApi
