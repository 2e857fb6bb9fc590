import CommandApi.Async.Control
import CommandApi.Process.Lifecycle
import CommandApi.Process.Runs

/-!
# Signals and the worker's pid

On Unix `tree.graceful()` and `tree.force()` signal the process group whose number is the worker's
pid.  Once `child_wait` has completed the worker has been reaped, and the number may be given to an
unrelated process.

`startTask_reaps` is a walk through the source that looks at nothing but the signals and the waits,
and `reapingMachine` notes when `child_wait` completes.  `no_signal_after_reaping` says when no
signal follows, and `signal_after_reaping` is the execution it leaves out: the worker exits in its
grace period, and a request to kill the task is in the stop cell when the second `select!` of
`stop_process` looks.
-/

set_option autoImplicit false

namespace CommandApi

open Async

/-! ## The walk through the source -/

/-- The operation neither signals the group nor waits for the worker or its tree with a choice. -/
def Op.calm : Op → Bool
  | .fallible .graceful | .fallible .force | .selectMain | .selectGrace | .selectEmpty | .childWait
  | .waitEmptyUntilDeadline => false
  | _ => true

/-- What the runner knows of the worker's pid. -/
inductive Pid
  /-- `child_wait` has not completed. -/
  | held
  /-- It has completed in the first `select!` of `stop_process`. -/
  | draining
  /-- It has completed, and the tree is to be killed. -/
  | forcing
  /-- It has completed. -/
  | reaped

/-- The control graph of `startTask`, as far as signals and waits are concerned. -/
inductive Reaps : ControlGraph runner Pid
  | calm {φ : Pid} {o : Op} {r : runner.Resp o} (h : o.calm = true) : Reaps φ o r φ
  | graceful (result : Except String Unit) : Reaps .held (.fallible .graceful) result .held
  | force (result : Except String Unit) : Reaps .held (.fallible .force) result .held
  | exited (result : Except String ExitStatus) :
      Reaps .held .selectMain (.exited result) .reaped
  | deadline : Reaps .held .selectMain .deadline .held
  | stop (reason : StopReason) : Reaps .held .selectMain (.stop reason) .held
  | graceExited (result : Except String ExitStatus) :
      Reaps .held .selectGrace (.exited result) .draining
  | graceElapsed : Reaps .held .selectGrace .elapsed .held
  | graceForce : Reaps .held .selectGrace .force .held
  | childWait (result : Except String ExitStatus) : Reaps .held .childWait result .reaped
  | drained (result : Except String Unit) : Reaps .draining .selectEmpty (.empty result) .reaped
  | drainElapsed : Reaps .draining .selectEmpty .elapsed .forcing
  | drainForce : Reaps .draining .selectEmpty .force .forcing
  | forced (result : Except String Unit) : Reaps .forcing (.fallible .force) result .reaped
  | emptied (result : Except String Unit) :
      Reaps .reaped .waitEmptyUntilDeadline (some result) .reaped
  | late : Reaps .reaped .waitEmptyUntilDeadline none .forcing

section

variable {P : Platform} {route : ResolvedRoute} {α β : Type} {φ : Pid}

/-- The program neither signals nor waits with a choice. -/
abbrev Calm (p : Task α) : Prop := p.Only fun o : Op ↦ o.calm = true

theorem calm_perform {o : Op} (h : o.calm = true) : Calm (perform o) := ⟨h, fun _ ↦ trivial⟩

theorem calm_call {c : Fallible} (h : (Op.fallible c).calm = true) : Calm (attemptCall c) :=
  only_attemptCall h

theorem calm_transition (site : Site) (f : String → TaskSnapshot → TaskSnapshot) :
    Calm (transition site f) :=
  only_transition f (fun _ ↦ rfl) rfl

theorem calm_ofExcept (x : Except String α) : Calm (Prog.ofExcept x) := .ofExcept x

theorem calm_waitEmpty (a : α) :
    Calm (perform .waitEmpty >>= fun empty ↦ Prog.ofExcept empty >>= fun _ ↦ pure a) :=
  (calm_perform rfl).bind fun _ ↦ (calm_ofExcept _).bind fun _ ↦ trivial

theorem calm_launch (streams : List OutputStream) (spec : WorkerSpec) :
    Calm (launch streams spec) := by
  refine (calm_call rfl).bind fun _ ↦ ?_
  refine Prog.Only.bind (only_startReaders streams rfl fun _ ↦ rfl) fun _ ↦ ?_
  refine ((calm_call rfl).mapError _).bind fun _ ↦ (calm_call rfl).bind fun _ ↦ ?_
  refine ((calm_call rfl).mapError _).bind fun _ ↦ (calm_call rfl).bind fun _ ↦ ?_
  refine ((calm_call rfl).mapError _).bind fun _ ↦ (calm_call rfl).bind fun _ ↦ ?_
  exact ((calm_call rfl).mapError _).bind fun _ ↦ calm_call rfl

theorem Calm.follows {p : Task α} (hp : Calm p) : Follows Reaps φ p fun _ ψ ↦ ψ = φ :=
  .of_only hp fun _ _ ↦ .calm

theorem calm_bind {p : Task α} {f : α → Task β} {Q : Except String β → Pid → Prop}
    (hp : Calm p) (hQ : ∀ e, Q (.error e) φ) (hf : ∀ a, Follows Reaps φ (f a) Q) :
    Follows Reaps φ (p >>= f) Q :=
  .only_bind hp (fun _ _ ↦ .calm) hQ hf

/-- The program ends with the worker reaped, unless it fails. -/
def EndsReaped (r : Except String α) (φ : Pid) : Prop := ∀ a, r = .ok a → φ = .reaped

theorem endsReaped_error (e : String) : EndsReaped (α := α) (.error e) φ := nofun

/-- A call followed by `?`. -/
theorem call_reaps {ψ : Pid} {c : Fallible} {f : Unit → Task β}
    (hg : ∀ result, Reaps φ (.fallible c) result ψ) (hf : ∀ u, Follows Reaps ψ (f u) EndsReaped) :
    Follows Reaps φ (attemptCall c >>= f) EndsReaped := by
  refine fun result ↦ ⟨ψ, hg result, ?_⟩
  cases result with
  | ok u => exact hf u
  | error e => exact endsReaped_error e

/-- What comes after the worker has been reaped. -/
theorem reaps_then {p : Task α} {f : α → Task β} (hp : Follows Reaps φ p EndsReaped)
    (hf : ∀ a, Follows Reaps .reaped (f a) EndsReaped) : Follows Reaps φ (p >>= f) EndsReaped := by
  refine Follows.bind (B := fun _ ψ ↦ ψ = .reaped) (hp.mono fun r ψ hψ ↦ ?_) fun a ψ hψ ↦ ?_
  · cases r with
    | ok a => exact hψ a rfl
    | error e => exact endsReaped_error e
  · subst hψ
    exact hf a

theorem reaps_pure (a : α) : Follows Reaps .reaped (pure a : Task α) EndsReaped := fun _ _ ↦ rfl

theorem Calm.reaped {p : Task α} (hp : Calm p) : Follows Reaps .reaped p EndsReaped :=
  hp.follows.mono fun _ _ hψ _ _ ↦ hψ

/-- A forced stop signals before it waits for the worker, unless it is given the worker's status. -/
theorem forceStopProcess_reaps (reason : StopReason) (attempted : Bool) :
    Follows Reaps .held (forceStopProcess P reason attempted none) EndsReaped ∧
      ∀ status, Follows Reaps .forcing (forceStopProcess P reason attempted (some status))
        EndsReaped := by
  constructor
  · refine calm_bind (calm_transition _ _) endsReaped_error fun _ ↦ call_reaps .force fun _ ↦ ?_
    refine reaps_then (Follows.perform_bind fun result ↦ ⟨.reaped, .childWait result, ?_⟩) ?_
    · exact Calm.reaped ((calm_ofExcept result).mapError _)
    · exact fun status ↦ (calm_waitEmpty status).reaped
  · intro status
    refine calm_bind (calm_transition _ _) endsReaped_error fun _ ↦ call_reaps .forced fun _ ↦ ?_
    exact (calm_waitEmpty status).reaped

theorem stopDescendants_reaps (reason : StopReason) :
    Follows Reaps .held (stopDescendants P reason none) EndsReaped ∧
      ∀ status, Follows Reaps .draining (stopDescendants P reason (some status)) EndsReaped := by
  constructor
  · exact reaps_then (forceStopProcess_reaps reason true).1 fun _ ↦ reaps_pure _
  · refine fun status ↦ Follows.perform_bind fun event ↦ ?_
    cases event with
    | empty result =>
      refine ⟨.reaped, .drained result, Calm.reaped ?_⟩
      exact (calm_ofExcept result).bind fun _ ↦ trivial
    | elapsed =>
      refine ⟨.forcing, .drainElapsed, ?_⟩
      exact reaps_then ((forceStopProcess_reaps reason true).2 status) fun _ ↦ reaps_pure _
    | force =>
      refine ⟨.forcing, .drainForce, ?_⟩
      exact reaps_then ((forceStopProcess_reaps .forceKilled true).2 status) fun _ ↦ reaps_pure _

theorem stopProcess_reaps (reason : StopReason) :
    Follows Reaps .held (stopProcess P route reason) EndsReaped := by
  rw [stopProcess]
  split
  · exact reaps_then (forceStopProcess_reaps reason false).1 fun _ ↦ reaps_pure _
  · refine calm_bind (calm_transition _ _) endsReaped_error fun _ ↦ ?_
    refine calm_bind (calm_perform rfl) endsReaped_error fun _ ↦ call_reaps .graceful fun _ ↦ ?_
    refine calm_bind (calm_perform rfl) endsReaped_error fun _ ↦ ?_
    refine Follows.perform_bind fun event ↦ ?_
    cases event with
    | exited result =>
      refine ⟨.draining, .graceExited result, ?_⟩
      cases result with
      | ok status => exact (stopDescendants_reaps reason).2 status
      | error e => exact endsReaped_error _
    | elapsed => exact ⟨.held, .graceElapsed, (stopDescendants_reaps reason).1⟩
    | force =>
      refine ⟨.held, .graceForce, ?_⟩
      exact reaps_then (forceStopProcess_reaps .forceKilled true).1 fun _ ↦ reaps_pure _

theorem mainLoop_reaps : Follows Reaps .held (mainLoop P route) EndsReaped := by
  refine Follows.perform_bind fun event ↦ ?_
  cases event with
  | exited result =>
    refine ⟨.reaped, .exited result, Calm.reaped ?_⟩
    exact ((calm_ofExcept result).mapError _).bind fun _ ↦ trivial
  | deadline =>
    exact ⟨.held, .deadline, reaps_then (stopProcess_reaps .timeout) fun _ ↦ reaps_pure _⟩
  | stop reason =>
    exact ⟨.held, .stop reason, reaps_then (stopProcess_reaps reason) fun _ ↦ reaps_pure _⟩

theorem awaitTree_reaps (reason : Option StopReason) :
    Follows Reaps .reaped (awaitTree P reason) EndsReaped := by
  cases reason with
  | some reason => exact (calm_waitEmpty _).reaped
  | none =>
    refine Follows.perform_bind fun answer ↦ ?_
    cases answer with
    | some result => exact ⟨.reaped, .emptied result, reaps_pure _⟩
    | none =>
      refine ⟨.forcing, .late, call_reaps .forced fun _ ↦ Calm.reaped ?_⟩
      exact (calm_transition _ _).bind fun _ ↦ calm_waitEmpty _

theorem runTask_reaps (args : List String) :
    Follows Reaps .held (runTask P route args) EndsReaped := by
  refine calm_bind (calm_launch _ _) endsReaped_error fun _ ↦ ?_
  refine calm_bind (calm_transition _ _) endsReaped_error fun _ ↦ ?_
  refine calm_bind (calm_perform rfl) endsReaped_error fun _ ↦ ?_
  refine reaps_then mainLoop_reaps fun x ↦ reaps_then (awaitTree_reaps x.2) fun reason ↦ ?_
  exact Calm.reaped (only_finish _ _ _ rfl (fun _ ↦ rfl) rfl (fun _ ↦ rfl) rfl)

theorem startTask_reaps (args : List String) :
    Follows Reaps .held (startTask P route args) fun _ _ ↦ True := by
  refine Follows.bind (B := fun _ _ ↦ True)
    (Follows.attempt ((runTask_reaps args).mono fun _ _ _ ↦ trivial)) fun result ψ _ ↦ ?_
  refine (Calm.follows ?_).mono fun _ _ _ ↦ trivial
  refine (calm_perform rfl).bind fun _ ↦ ?_
  refine Prog.Only.bind (only_reportError result (fun _ ↦ rfl) rfl) fun _ ↦ ?_
  exact (calm_perform rfl).bind fun _ ↦ calm_perform rfl

end

/-! ## The pid -/

/-- `child_wait` has completed with this answer. -/
def Op.reaps : (o : Op) → runner.Resp o → Bool
  | .selectMain, .exited _ => true
  | .selectGrace, .exited _ => true
  | .childWait, _ => true
  | _, _ => false

/-- The runner of a Unix task next to its surroundings, and whether its worker has been reaped. -/
def reapingMachine (line : TaskSnapshot → List UInt8) : Machine runner (World × Bool) where
  act o u r u' := taskEffect .unix line o u.1 r u'.1 ∧ u'.2 = (u.2 || o.reaps r)
  env u u' := Surroundings .unix u.1 u'.1 ∧ u'.2 = u.2

/-- The next thing the runner does is to signal the process group. -/
def SignalsNext (p : Task Unit) : Prop :=
  ∃ c k, (c = .graceful ∨ c = .force) ∧ p = .call (.fallible c) k

/-- The second `select!` of `stop_process` does not take the branch of a request to kill the
task. -/
def KillNotTaken (o : Op) (_ : World × Bool) (r : runner.Resp o) : Prop :=
  match o, r with
  | .selectEmpty, .force => False
  | _, _ => True

/-- The executions in which that branch is never taken. -/
def unkilledMachine (line : TaskSnapshot → List UInt8) : Machine runner (World × Bool) :=
  (reapingMachine line).restrict KillNotTaken fun _ _ ↦ True

/-- The phase says whether the worker has been reaped. -/
def Pid.Known (φ : Pid) (u : World × Bool) : Prop := φ = .held ↔ u.2 = false

section

variable {line : TaskSnapshot → List UInt8} {route : ResolvedRoute} {args : List String}
  {w : World} {c : Task Unit × (World × Bool)} {φ ψ : Pid} {o : Op} {r : runner.Resp o}

theorem Op.reaps_of_calm (h : o.calm = true) (r : runner.Resp o) : o.reaps r = false := by
  cases o with
  | selectMain | selectGrace | childWait => cases h
  | _ => rfl

/-- A worker is reaped once, by the operations that leave `held`. -/
theorem Reaps.known (h : Reaps φ o r ψ) : ψ = .held ↔ φ = .held ∧ o.reaps r = false := by
  cases h with
  | calm hcalm => simp [Op.reaps_of_calm hcalm]
  | _ => simp [Op.reaps]

theorem Reaps.killNotTaken (h : Reaps .held o r ψ) (u : World × Bool) : KillNotTaken o u r := by
  unfold KillNotTaken
  split
  · cases h with
    | calm hcalm => cases hcalm
  · trivial

theorem known_invariant : Invariant (reapingMachine line) Reaps Pid.Known where
  env φ u u' h henv := by
    rw [Pid.Known, henv.2]
    exact h
  act φ o u r u' ψ h hact hmove := by
    rw [Pid.Known, hmove.known, hact.2, Bool.or_eq_false_iff]
    exact and_congr_left' h

theorem Pid.known_held (w : World) : Pid.held.Known (w, false) := ⟨fun _ ↦ rfl, fun _ ↦ rfl⟩

theorem tracked_known
    (hrun : (reapingMachine line).Run (startTask .unix route args, (w, false)) c) :
    Tracked Reaps Pid.Known (fun _ _ ↦ True) c :=
  known_invariant.run ⟨.held, startTask_reaps args, Pid.known_held w⟩ hrun

/-- On Unix the tree counts as empty at once, so that only a request to kill the task leads to a
signal for a worker that has been reaped. -/
theorem forcing_invariant :
    Invariant (unkilledMachine line) Reaps fun φ _ ↦ φ ≠ .forcing where
  env _ _ _ h _ := h
  act φ o u r u' ψ h hact hmove := by
    obtain ⟨⟨heffect, -⟩, hbranch⟩ := hact
    cases hmove with
    | calm => exact h
    | drainElapsed | late =>
      obtain ⟨-, ⟨hwindows, -⟩, -⟩ := heffect
      cases hwindows
    | drainForce => exact hbranch.elim
    | _ => exact nofun

/-- **No signal after the worker has been reaped**, in the executions in which no request to kill
the task is taken up between the worker's exit and the check of its tree. -/
theorem no_signal_after_reaping
    (hrun : (unkilledMachine line).Run (startTask .unix route args, (w, false)) c)
    (hreaped : c.2.2 = true) : ¬ SignalsNext c.1 := by
  rintro ⟨call, k, hcall, heq⟩
  have hinvariant : Invariant (unkilledMachine line) Reaps fun φ u ↦ φ.Known u ∧ φ ≠ .forcing :=
    known_invariant.restrict.and forcing_invariant
  obtain ⟨φ, hfollows, hknown, hforcing⟩ :=
    hinvariant.run ⟨.held, startTask_reaps args, Pid.known_held w, nofun⟩ hrun
  rw [heq] at hfollows
  obtain ⟨ψ, hmove, -⟩ := hfollows (.ok ())
  cases hmove with
  | calm hcalm => rcases hcall with rfl | rfl <;> cases hcalm
  | graceful | force => exact absurd (hknown.mp rfl) (Bool.not_eq_false _ ▸ hreaped)
  | forced => exact hforcing rfl

/-! ## Executions -/

/-- An execution of the task is one in which the reaping is noted. -/
theorem exists_run_reaping {p q : Task Unit} {v : World}
    (hrun : (taskMachine .unix line).Run (p, w) (q, v)) (b : Bool) :
    ∃ b', (reapingMachine line).Run (p, (w, b)) (q, (v, b')) := by
  refine hrun.extend (fun o _ r _ b hact ↦ ?_) (fun _ _ b henv ↦ ?_) b
  · exact ⟨b || o.reaps r, hact, rfl⟩
  · exact ⟨b, henv, rfl⟩

/-- As long as the worker has not been reaped, the branch is not there. -/
theorem run_of_held (hrun : (reapingMachine line).Run (startTask .unix route args, (w, false)) c)
    (hc : c.2.2 = false) :
    (unkilledMachine line).Run (startTask .unix route args, (w, false)) c := by
  induction hrun with
  | refl => exact .refl
  | tail hrun hs ih =>
    cases hs with
    | env henv => exact (ih (henv.2.symm.trans hc)).tail (.env ⟨henv, trivial⟩)
    | @act o k u u' r hact =>
      obtain ⟨hu, hr⟩ := Bool.or_eq_false_iff.mp (hact.2.symm.trans hc)
      refine (ih hu).tail (.act ⟨hact, ?_⟩)
      obtain ⟨φ, hfollows, hknown⟩ := tracked_known hrun
      obtain rfl : φ = .held := hknown.mpr hu
      obtain ⟨ψ, hmove, -⟩ := hfollows r
      exact hmove.killNotTaken u

/-- The runner in front of its main loop. -/
theorem run_reaping_mainLoop (line : TaskSnapshot → List UInt8) (route : ResolvedRoute)
    (args : List String) (now : String) (w : World) :
    (reapingMachine line).Run (startTask .unix route args, (w, false))
      (atMainLoop .unix route, (w.looping line route now, false)) := by
  obtain ⟨b, hrun⟩ := exists_run_reaping (run_mainLoop taskMachine_allows now w) false
  obtain ⟨φ, hfollows, hknown⟩ := tracked_known hrun
  -- only a worker that has not been reaped is waited for in the main loop
  obtain ⟨ψ, hmove, -⟩ := hfollows .deadline
  obtain rfl : φ = .held := by
    cases hmove with
    | calm hcalm => cases hcalm
    | deadline => rfl
  obtain rfl : b = false := hknown.mp rfl
  exact hrun

theorem act_reaping {v : World} {k : runner.Resp o → Task Unit} (b : Bool)
    (h : taskEffect .unix line o w r v) :
    (reapingMachine line).Step (.call o k, (w, b)) (k r, (v, b || o.reaps r)) :=
  .act ⟨h, rfl⟩

theorem env_reaping {v : World} {p : Task Unit} (b : Bool) (h : Surroundings .unix w v) :
    (reapingMachine line).Step (p, (w, b)) (p, (v, b)) :=
  .env ⟨h, rfl⟩

/-- **The branch leads to a signal.**  A task is cancelled, its worker exits in the grace period,
and then a request to kill the task arrives. -/
theorem run_signal_after_reaping (line : TaskSnapshot → List UInt8) (route : ResolvedRoute)
    (args : List String) (now : String) (w : World) :
    ∃ c, (reapingMachine line).Run (startTask .unix route args, (w, false)) c ∧
      c.2.2 = true ∧ SignalsNext c.1 := by
  refine ⟨?c, (run_reaping_mainLoop line route args now w).trans ?_, ?_, ?_⟩
  rotate_left
  · refine .head (env_reaping _ (.requestStop .cancelled)) ?_
    refine .head (act_reaping (o := .selectMain) (r := .stop .cancelled) _ ⟨rfl, rfl, rfl⟩) ?_
    refine .head (act_reaping (o := .update .graceful _) (r := ()) _ ⟨"", rfl⟩) ?_
    refine .head (act_reaping (o := .fallible .persist) (r := .ok ()) _ rfl) ?_
    refine .head (act_reaping (o := .writeTerminate) (r := ()) _ rfl) ?_
    refine .head (act_reaping (o := .fallible .graceful) (r := .ok ()) _ rfl) ?_
    refine .head (act_reaping (o := .armGrace) (r := ()) _ rfl) ?_
    refine .head (env_reaping _ .othersExit) ?_
    refine .head (env_reaping _ (.workerExit (.exited 0) rfl fun _ ↦ rfl)) ?_
    refine .head (act_reaping (o := .selectGrace) (r := .exited (.ok (.exited 0))) _ ⟨rfl, rfl⟩) ?_
    refine .head (env_reaping _ (.requestStop .forceKilled)) ?_
    refine .head (act_reaping (o := .selectEmpty) (r := .force) _ ⟨rfl, rfl⟩) ?_
    refine .head (act_reaping (o := .update .forced _) (r := ()) _ ⟨"", rfl⟩) ?_
    refine .head (act_reaping (o := .fallible .persist) (r := .ok ()) _ rfl) ?_
    exact .refl
  · rfl
  · exact ⟨.force, _, .inr rfl, rfl⟩

end

/-- The worker has exited by itself, and the runner has been told. -/
theorem no_signal_after_reaping_exited :
    ∃ c, (unkilledMachine snapshotCodec.line).Run
        (startTask .unix exampleRoute [], (exampleWorld, false)) c ∧
      c.2.2 = true ∧ ¬ SignalsNext c.1 := by
  let u : World := exampleWorld.looping snapshotCodec.line exampleRoute "2026-01-01T00:00:01Z"
  have hmain : (unkilledMachine snapshotCodec.line).Run
      (startTask .unix exampleRoute [], (exampleWorld, false))
      (atMainLoop .unix exampleRoute, (u, false)) :=
    run_of_held (run_reaping_mainLoop _ _ _ _ _) rfl
  have hexit : Surroundings .unix u { u with worker := .exited (.exited 0) } :=
    .workerExit (.exited 0) rfl fun _ ↦ rfl
  have hgone := hmain.tail (.env (v := (_, false)) ⟨⟨hexit, rfl⟩, trivial⟩)
  have hreaped := hgone.tail
    (.act (S := runner) (o := .selectMain) (v := (_, true)) (r := .exited (.ok (.exited 0)))
      ⟨⟨⟨rfl, rfl⟩, rfl⟩, trivial⟩)
  exact ⟨_, hreaped, rfl, no_signal_after_reaping hreaped rfl⟩

/-- The process group of a reaped worker is killed. -/
theorem signal_after_reaping :
    ∃ c, (reapingMachine snapshotCodec.line).Run
        (startTask .unix exampleRoute [], (exampleWorld, false)) c ∧
      c.2.2 = true ∧ SignalsNext c.1 :=
  run_signal_after_reaping snapshotCodec.line exampleRoute [] "2026-01-01T00:00:01Z" exampleWorld

end CommandApi
