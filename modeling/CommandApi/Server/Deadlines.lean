import CommandApi.Process.Clocked
import CommandApi.Server.Batch
import CommandApi.Server.Cooldown
import CommandApi.Server.Teardown

/-!
# Deadlines that cannot be represented

Three settings of the configuration are added to the clock: `max_execution_seconds` by `run_task`
before its main loop, `graceful_shutdown_seconds` by `stop_process` before its first `select!`, and
`token_failure_cooldown.seconds` by `record_auth_failure`.  `Config::resolve` only checks that they
are not zero, and `Instant + Duration` panics when the sum has no representation; so does the timer
of the first two, when it has to round up a deadline in the last millisecond there is.

A runner that dies so has published `Running` and never calls `mark_finished` (`Dies.unfinished`,
`dies_for_ever`).  `deadlines_fit_iff` says for which configurations and at which instants nothing
of the kind happens.
-/

set_option autoImplicit false

namespace CommandApi

open Async Text Relation

/-- The next operation of the runner may panic. -/
def Dies (route : ResolvedRoute) (c : Task Unit × (World × Clock)) : Prop :=
  ∃ o k, c.1 = .call o k ∧ o.Panics route c.2.1 c.2.2

/-- The sum of the instant and so many seconds can be represented. -/
def Fits (now : Instant) (seconds : ℕ) : Prop := now.seconds + seconds < instantLimit

instance (now : Instant) (seconds : ℕ) : Decidable (Fits now seconds) :=
  inferInstanceAs (Decidable (_ < _))

/-- No runner of the route dies before or at this instant. -/
def Survives (line : TaskSnapshot → List UInt8) (now : Instant) (route : ResolvedRoute) : Prop :=
  ∀ args w t c, Fresh w →
    (clockedMachine line route).Run (startTask .unix route args, (w, .start t)) c →
    c.2.2.now ≤ now → ¬ Dies route c

/-- `record_auth_failure` returns at this instant. -/
def Records (now : Instant) (cooldown : TokenFailureCooldownConfig) : Prop :=
  ∀ order ip failures, (recordAuthFailure cooldown order now ip failures).1 = true

/-! ## Settings that fit -/

section

variable {line : TaskSnapshot → List UInt8} {route : ResolvedRoute} {args : List String}
  {w v : World} {t u : Clock} {now : Instant} {c c' : Task Unit × (World × Clock)}
  {p q : Task Unit} {o : Op} {seconds : ℕ}

theorem not_fits_iff : ¬ Fits now seconds ↔ now.addSecs seconds = none := by
  rw [Instant.addSecs_eq_none_iff, Fits, not_lt]

theorem survives_of_fits (hmax : FitsTimer now route.maxExecutionSeconds)
    (hgrace : FitsTimer now route.gracefulShutdownSeconds) : Survives line now route := by
  rintro args w t c - hrun hc ⟨o, k, -, hpanics⟩
  exact not_panics hmax hgrace (armed_run hrun Clock.start_armed) hc hpanics

theorem records_iff {cooldown : TokenFailureCooldownConfig} :
    Records now cooldown ↔ (cooldown.enabled = true → Fits now cooldown.seconds) := by
  constructor
  · intro h henabled
    by_contra hfits
    have hrecord := h entryOrder (.v4 0) .empty
    simp [recordAuthFailure, henabled, not_fits_iff.mp hfits] at hrecord
  · intro h order ip failures
    by_cases henabled : cooldown.enabled = true
    · exact recordAuthFailure_fst (Instant.addSecs_isSome_iff.mpr (h henabled))
    · rw [recordAuthFailure, if_neg henabled]

/-! ## Where a runner dies -/

/-- The runner can come to a state at this instant in which it may die. -/
def CanDie (line : TaskSnapshot → List UInt8) (route : ResolvedRoute) (p : Task Unit) (w : World)
    (now : Instant) : Prop :=
  ∃ c, (clockedMachine line route).Run (p, (w, .start now)) c ∧ c.2.2.now = now ∧ Dies route c

/-- Computing a deadline takes no time. -/
theorem Op.sets_now (h : o.sets route t = some u) : u.now = t.now := by
  cases o with
  | armDeadline | armGrace =>
    obtain ⟨d, -, rfl⟩ := Option.map_eq_some_iff.mp h
    rfl
  | _ =>
    cases h
    rfl

/-- An execution of the task at one instant, or up to where it panics. -/
theorem run_or_dies (route : ResolvedRoute) (now : Instant)
    (h : (taskMachine .unix line).Run (p, w) (q, v)) :
    (∃ u, (clockedMachine line route).Run (p, (w, .start now)) (q, (v, u)) ∧ u.now = now) ∨
      CanDie line route p w now := by
  suffices hrun : ∀ c, (taskMachine .unix line).Run (p, w) c →
      (∃ u, (clockedMachine line route).Run (p, (w, .start now)) (c.1, (c.2, u)) ∧ u.now = now) ∨
        CanDie line route p w now from
    hrun _ h
  intro c hrun
  induction hrun with
  | refl => exact .inl ⟨_, .refl, rfl⟩
  | tail _ hs ih =>
    rcases ih with ⟨u, ih, hu⟩ | hdies
    · cases hs with
      | env henv => exact .inl ⟨u, ih.tail (.env (.inl ⟨henv, rfl⟩)), hu⟩
      | @act o k w v r hact =>
        cases hsets : o.sets route u with
        | none => exact .inr ⟨_, ih, hu, o, k, rfl, .inl hsets⟩
        | some u' => exact .inl ⟨u', ih.tail (.act ⟨hact, hsets⟩), (Op.sets_now hsets).trans hu⟩
    · exact .inr hdies

theorem run_armDeadline (line : TaskSnapshot → List UInt8) (route : ResolvedRoute)
    (args : List String) (w : World) :
    ∃ k k' v, (taskMachine .unix line).Run (startTask .unix route args, w)
        (.call .armDeadline k, v) ∧ k () = .call .selectMain k' := by
  have hpersist : (taskMachine .unix line).act (.fallible .persist) (w.begun route "") (.ok ())
      ((w.begun route "").persisted line) := rfl
  exact ⟨_, _, _, (run_toRunning taskMachine_allows "" w).tail (.act hpersist), rfl⟩

theorem run_armGrace (line : TaskSnapshot → List UInt8) (route : ResolvedRoute)
    (args : List String) (w : World) :
    ∃ k k' v, (taskMachine .unix line).Run (startTask .unix route args, w)
        (.call .armGrace k, v) ∧ k () = .call .selectGrace k' ∧ v.worker = .alive := by
  refine ⟨?k, ?k', ?v, (run_mainLoop taskMachine_allows "" w).trans ?_, ?_, ?_⟩
  rotate_left 3
  · refine .head (.env (.requestStop .cancelled)) ?_
    refine .head (.act (S := runner) (o := .selectMain) (r := .stop .cancelled) ⟨rfl, rfl, rfl⟩) ?_
    refine .head (.act (S := runner) (o := .update .graceful _) (r := ()) ⟨"", rfl⟩) ?_
    refine .head (.act (S := runner) (o := .fallible .persist) (r := .ok ()) rfl) ?_
    refine .head (.act (S := runner) (o := .writeTerminate) (r := ()) rfl) ?_
    refine .head (.act (S := runner) (o := .fallible .graceful) (r := .ok ()) rfl) ?_
    exact .refl
  · rfl
  · rfl

variable (line) in
/-- An execution time that does not fit: the sum panics, or the timer of the main loop does. -/
theorem canDie_deadline (h : ¬ FitsTimer now route.maxExecutionSeconds) (args : List String)
    (w : World) : CanDie line route (startTask .unix route args) w now := by
  obtain ⟨k, k', v, hrun, hnext⟩ := run_armDeadline line route args w
  rcases run_or_dies route now hrun with ⟨u, hrun, rfl⟩ | hdies
  · rcases not_fitsTimer h with hnone | ⟨d, hadd, hround⟩
    · exact ⟨_, hrun, rfl, _, k, rfl, .inl (by rw [Op.sets, hnone]; rfl)⟩
    · have hsets : Op.armDeadline.sets route u = some { u with deadline := some d } := by
        rw [Op.sets, hadd]
        rfl
      have harm : (clockedMachine line route).act .armDeadline (v, u) ()
          ({ v with deadline := false }, { u with deadline := some d }) := ⟨rfl, hsets⟩
      refine ⟨_, hrun.tail (.act harm), rfl, _, k', hnext, .inr ⟨d, rfl, hround⟩⟩
  · exact hdies

variable (line) in
/-- A grace period that does not fit. -/
theorem canDie_grace (h : ¬ FitsTimer now route.gracefulShutdownSeconds) (args : List String)
    (w : World) : CanDie line route (startTask .unix route args) w now := by
  obtain ⟨k, k', v, hrun, hnext, halive⟩ := run_armGrace line route args w
  rcases run_or_dies route now hrun with ⟨u, hrun, rfl⟩ | hdies
  · rcases not_fitsTimer h with hnone | ⟨d, hadd, hround⟩
    · exact ⟨_, hrun, rfl, _, k, rfl, .inl (by rw [Op.sets, hnone]; rfl)⟩
    · have hsets : Op.armGrace.sets route u = some { u with grace := some d } := by
        rw [Op.sets, hadd]
        rfl
      have harm : (clockedMachine line route).act .armGrace (v, u) ()
          ({ v with grace := false }, { u with grace := some d }) := ⟨rfl, hsets⟩
      exact ⟨_, hrun.tail (.act harm), rfl, _, k', hnext, .inr ⟨d, if_pos halive, hround⟩⟩
  · exact hdies

theorem survives_iff : Survives line now route ↔
    FitsTimer now route.maxExecutionSeconds ∧ FitsTimer now route.gracefulShutdownSeconds := by
  refine ⟨fun h ↦ ⟨?_, ?_⟩, fun h ↦ survives_of_fits h.1 h.2⟩
  · by_contra hfits
    obtain ⟨c, hc, hnow, hdies⟩ := canDie_deadline line hfits [] exampleWorld
    exact h [] exampleWorld now c exampleWorld_fresh hc hnow.le hdies
  · by_contra hfits
    obtain ⟨c, hc, hnow, hdies⟩ := canDie_grace line hfits [] exampleWorld
    exact h [] exampleWorld now c exampleWorld_fresh hc hnow.le hdies

/-! ## After that -/

/-- **A runner that dies has published `Running`** and has not called `mark_finished`. -/
theorem Dies.unfinished (hd : Dies route c) (hw : Fresh w)
    (hrun : (clockedMachine line route).Run (startTask .unix route args, (w, t)) c) :
    (c.2.1.visible.status = .running ∨ c.2.1.visible.status = .stopping) ∧
      c.2.1.marked = false := by
  obtain ⟨o, k, hc, hpanics⟩ := hd
  have hunmarked : Marked .starting w := fun hm ↦ absurd hm (by simp [hw.marked])
  obtain ⟨φ, hfollows, hfacts, hmarked⟩ := marked_invariant.run
    ⟨.starting, startTask_follows .unix route args, hw.facts, hunmarked⟩ (run_of_clocked hrun)
  rw [hc] at hfollows
  have hnot : φ ≠ .marked → φ ≠ .done → c.2.1.marked = false := fun h₁ h₂ ↦
    Bool.eq_false_of_not_eq_true fun hm ↦ (hmarked hm).elim h₁ h₂
  cases o with
  | armDeadline =>
    obtain ⟨ψ, hmove, -⟩ := hfollows ()
    cases hmove
    exact ⟨.inl hfacts.1.status, hnot nofun nofun⟩
  | selectMain =>
    obtain ⟨ψ, hmove, -⟩ := hfollows .deadline
    cases hmove
    exact ⟨.inl hfacts.1.status, hnot nofun nofun⟩
  | armGrace =>
    obtain ⟨ψ, hmove, -⟩ := hfollows ()
    cases hmove
    exact ⟨.inr hfacts.2.1.status, hnot nofun nofun⟩
  | selectGrace =>
    obtain ⟨ψ, hmove, -⟩ := hfollows .elapsed
    cases hmove
    exact ⟨.inr hfacts.2.1.status, hnot nofun nofun⟩
  | _ => rcases hpanics with h | ⟨d, h, -⟩ <;> cases h

/-- **An execution time that does not fit leaves a task unfinished for ever**: once the runner has
panicked, nothing that happens around it changes that. -/
theorem dies_for_ever (hfits : ¬ FitsTimer now route.maxExecutionSeconds) (hw : Fresh w) :
    ∃ c, (clockedMachine line route).Run (startTask .unix route args, (w, .start now)) c ∧
      Dies route c ∧
      ∀ u, ReflTransGen (clockedMachine line route).env (c.2.1.unwound, c.2.2) u →
        u.1.marked = false ∧ (u.1.visible.status = .running ∨ u.1.visible.status = .stopping) := by
  obtain ⟨c, hc, -, hdies⟩ := canDie_deadline line hfits args w
  refine ⟨c, hc, hdies, fun u hu ↦ ?_⟩
  obtain ⟨hstatus, hmarked⟩ := hdies.unfinished hw hc
  obtain ⟨hsnapshot, hsame⟩ := frame_of_env hu
  refine ⟨hsame.trans hmarked, ?_⟩
  show u.1.snapshot.status = .running ∨ u.1.snapshot.status = .stopping
  rw [hsnapshot]
  exact hstatus

end

/-! ## Configurations -/

section

variable {F : Type} {host : Host F} {fs fs' : F} {config : Config} {sourcePath : Path}
  {r : ResolvedConfig}

/-- The settings of the routes are the ones of the file. -/
theorem forall_routes_iff (h : resolve host fs config sourcePath = .ok (r, fs'))
    (C : ℕ → ℕ → Prop) :
    (∀ route ∈ r.routes, C route.maxExecutionSeconds route.gracefulShutdownSeconds) ↔
      ∀ route ∈ config.routes, C route.maxExecutionSeconds route.gracefulShutdownSeconds := by
  obtain ⟨base, -, -, -, -, hroutes⟩ := (resolve_ok h).routes
  refine forall_mem_iff_of_forall₂ (fun route resolved hroute ↦ ?_) (resolveRoutes_ok hroutes).1
  rw [hroute.carried]

/-- **When no deadline overflows.**  For every configuration that is accepted and every instant: no
runner dies and `record_auth_failure` returns, up to that instant, exactly when the settings fit. -/
theorem deadlines_fit_iff (line : TaskSnapshot → List UInt8) (now : Instant)
    (h : resolve host fs config sourcePath = .ok (r, fs')) :
    ((∀ route ∈ r.routes, Survives line now route) ∧
        Records now r.access.tokenFailureCooldown) ↔
      (∀ route ∈ config.routes,
        FitsTimer now route.maxExecutionSeconds ∧ FitsTimer now route.gracefulShutdownSeconds) ∧
      (config.access.tokenFailureCooldown.enabled = true →
        Fits now config.access.tokenFailureCooldown.seconds) := by
  have haccess : r.access = config.access := by rw [(resolve_ok h).carried]
  simp only [survives_iff]
  rw [records_iff, haccess,
    forall_routes_iff h fun max grace ↦ FitsTimer now max ∧ FitsTimer now grace]

end

/-! ## Two configurations -/

/-- A minute and ten seconds; the cooldown is off. -/
theorem deadlines_fit_iff_example :
    (∀ route ∈ (exampleResolved 16).routes, Survives snapshotCodec.line .zero route) ∧
      Records .zero (exampleResolved 16).access.tokenFailureCooldown := by
  have hresolve : resolve exampleHost "" (exampleConfig 16) ⟨true, ["srv", "config.yaml"]⟩ =
      .ok (exampleResolved 16, "") := rfl
  exact (deadlines_fit_iff snapshotCodec.line .zero hresolve).mpr ⟨by decide, by decide⟩

/-- A route whose tasks may take as long as a `u64` can say. -/
def endless : Config :=
  { exampleConfig 16 with
    routes := [{
      path := "/jobs/nightly"
      executor := .bash
      script := ⟨false, [".", "nightly.sh"]⟩
      maxConcurrency := 1
      maxExecutionSeconds := 2 ^ 64 - 1
      gracefulShutdownSeconds := 10 }] }

/-- … as it is resolved. -/
def endlessRoute : ResolvedRoute where
  path := "/jobs/nightly"
  executor := .bash
  program := ⟨false, ["bash"]⟩
  script := ⟨true, ["srv", "nightly.sh"]⟩
  fixedArgs := []
  requestArgs := {}
  requestArgPatterns := []
  workingDirectory := ⟨true, ["srv"]⟩
  env := []
  maxConcurrency := 1
  maxExecutionSeconds := 2 ^ 64 - 1
  gracefulShutdownSeconds := 10
  mergeStdoutStderr := false
  outputEncoding := .utf8

/-- `resolve` takes it, and its runner dies: the task is running or stopping for ever, and
`mark_finished` is never called. -/
theorem deadline_overflows :
    resolve exampleHost "" endless ⟨true, ["srv", "config.yaml"]⟩ =
        .ok ({ exampleResolved 16 with routes := [endlessRoute] }, "") ∧
      ∃ c, (clockedMachine snapshotCodec.line endlessRoute).Run
          (startTask .unix endlessRoute [], (exampleWorld, .start .zero)) c ∧
        Dies endlessRoute c ∧
        ∀ u, ReflTransGen (clockedMachine snapshotCodec.line endlessRoute).env
            (c.2.1.unwound, c.2.2) u →
          u.1.marked = false ∧
            (u.1.visible.status = .running ∨ u.1.visible.status = .stopping) :=
  ⟨rfl, dies_for_ever (by decide) exampleWorld_fresh⟩

end CommandApi
