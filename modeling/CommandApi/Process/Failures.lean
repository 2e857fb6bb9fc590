import CommandApi.Async.Control
import CommandApi.Process.Program

/-!
# Where the errors of a task come from

`run_task` makes no errors up: it returns one exactly where an operation has answered one, at once,
and with the text `Op.errorText` makes of it (`runTask_failsBy`).  `Errors` keeps that text along
the control flow of `startTask`, up to where the error handler uses it.
-/

set_option autoImplicit false

namespace CommandApi

open Async

/-- The program passes on the errors it is answered, and makes no others. -/
abbrev Relays {α : Type} (p : Task α) : Prop := p.FailsBy Op.Own Op.errorText

section

variable {P : Platform} {route : ResolvedRoute}

/-- A call whose error is returned with a context. -/
theorem relays_context {c : Fallible} (text : String)
    (hc : ∀ e, c.errorText e = text ++ ": " ++ e) : Relays ((attemptCall c).context text) := by
  refine ⟨nofun, fun r ↦ ?_⟩
  cases r with
  | ok u => exact ⟨fun _ ↦ trivial, nofun⟩
  | error e =>
    refine ⟨nofun, fun e' he ↦ ?_⟩
    obtain rfl : c.errorText e = e' := Option.some.inj he
    exact congrArg Prog.fail (hc e).symm

/-- A call whose error is returned as it is. -/
theorem relays_attemptCall {c : Fallible} (hc : ∀ e, c.errorText e = e) :
    Relays (attemptCall c) := by
  refine ⟨nofun, fun r ↦ ?_⟩
  cases r with
  | ok u => exact ⟨fun _ ↦ trivial, nofun⟩
  | error e =>
    refine ⟨nofun, fun e' he ↦ ?_⟩
    obtain rfl : c.errorText e = e' := Option.some.inj he
    exact congrArg Prog.fail (hc e).symm

theorem relays_transition (site : Site) (f : String → TaskSnapshot → TaskSnapshot)
    (hsite : site ≠ .executorError) : Relays (transition site f) := by
  have hown : (Op.update site f).Own := fun g h ↦ hsite (Op.update.inj h).1
  exact (Prog.FailsBy.perform hown fun _ ↦ rfl).bind fun _ ↦ relays_attemptCall fun _ ↦ rfl

theorem relays_startReaders (streams : List OutputStream) : Relays (startReaders streams) := by
  induction streams with
  | nil => exact trivial
  | cons s rest ih =>
    refine (relays_attemptCall fun _ ↦ rfl).bind fun _ ↦ ?_
    exact (Prog.FailsBy.perform nofun fun _ ↦ rfl).bind fun _ ↦ ih

theorem relays_joinReaders (streams : List OutputStream) : Relays (joinReaders streams) := by
  induction streams with
  | nil => exact trivial
  | cons s rest ih =>
    refine ⟨nofun, fun r ↦ ?_⟩
    match r with
    | .crashed e => exact ⟨nofun, fun _ he ↦ congrArg Prog.fail (Option.some.inj he)⟩
    | .ended (.error e) => exact ⟨nofun, fun _ he ↦ congrArg Prog.fail (Option.some.inj he)⟩
    | .ended (.ok ()) => exact ⟨fun _ ↦ ih, nofun⟩

theorem relays_launch (streams : List OutputStream) (spec : WorkerSpec) :
    Relays (launch streams spec) := by
  refine (relays_attemptCall fun _ ↦ rfl).bind fun _ ↦ ?_
  refine (relays_startReaders streams).bind fun _ ↦ ?_
  refine (relays_context _ fun _ ↦ rfl).bind fun _ ↦ ?_
  refine (relays_attemptCall fun _ ↦ rfl).bind fun _ ↦ ?_
  refine (relays_context _ fun _ ↦ rfl).bind fun _ ↦ ?_
  refine (relays_attemptCall fun _ ↦ rfl).bind fun _ ↦ ?_
  refine (relays_context _ fun _ ↦ rfl).bind fun _ ↦ ?_
  refine (relays_attemptCall fun _ ↦ rfl).bind fun _ ↦ ?_
  refine (relays_context _ fun _ ↦ rfl).bind fun _ ↦ ?_
  exact relays_attemptCall fun _ ↦ rfl

/-- Waiting for the tree, and going on. -/
theorem relays_waitEmpty {α : Type} {p : Task α} (hp : Relays p) :
    Relays (perform .waitEmpty >>= fun empty ↦ Prog.ofExcept empty >>= fun _ ↦ p) := by
  refine ⟨nofun, fun r ↦ ?_⟩
  match r with
  | .ok () => exact ⟨fun _ ↦ hp, nofun⟩
  | .error e => exact ⟨nofun, fun _ he ↦ congrArg Prog.fail (Option.some.inj he)⟩

theorem relays_forcedStatus (status : Option ExitStatus) : Relays (forcedStatus status) := by
  cases status with
  | some s => exact trivial
  | none =>
    refine ⟨nofun, fun r ↦ ?_⟩
    match r with
    | .ok s => exact ⟨fun _ ↦ trivial, nofun⟩
    | .error e => exact ⟨nofun, fun _ he ↦ congrArg Prog.fail (Option.some.inj he)⟩

theorem relays_forceStopProcess (reason : StopReason) (attempted : Bool)
    (status : Option ExitStatus) : Relays (forceStopProcess P reason attempted status) := by
  refine (relays_transition .forced _ nofun).bind fun _ ↦ ?_
  refine (relays_attemptCall fun _ ↦ rfl).bind fun _ ↦ ?_
  exact (relays_forcedStatus status).bind fun _ ↦ relays_waitEmpty trivial

/-- … and returning with a reason. -/
theorem relays_forceStop (reason result : StopReason) (attempted : Bool)
    (status : Option ExitStatus) :
    Relays (forceStopProcess P reason attempted status >>= fun s ↦ pure (s, result)) :=
  (relays_forceStopProcess reason attempted status).bind fun _ ↦ trivial

theorem relays_stopDescendants (reason : StopReason) (status : Option ExitStatus) :
    Relays (stopDescendants P reason status) := by
  cases status with
  | none => exact relays_forceStop reason reason true none
  | some s =>
    refine ⟨nofun, fun r ↦ ?_⟩
    match r with
    | .empty (.ok ()) => exact ⟨fun _ ↦ trivial, nofun⟩
    | .empty (.error e) => exact ⟨nofun, fun _ he ↦ congrArg Prog.fail (Option.some.inj he)⟩
    | .elapsed => exact ⟨fun _ ↦ relays_forceStop reason reason true (some s), nofun⟩
    | .force => exact ⟨fun _ ↦ relays_forceStop .forceKilled .forceKilled true (some s), nofun⟩

theorem relays_stopProcess (reason : StopReason) : Relays (stopProcess P route reason) := by
  refine Prog.FailsBy.ite (relays_forceStop reason reason false none) ?_
  refine (relays_transition .graceful _ nofun).bind fun _ ↦ ?_
  refine (Prog.FailsBy.perform nofun fun _ ↦ rfl).bind fun _ ↦ ?_
  refine (relays_attemptCall fun _ ↦ rfl).bind fun _ ↦ ?_
  refine (Prog.FailsBy.perform nofun fun _ ↦ rfl).bind fun _ ↦ ?_
  refine ⟨nofun, fun r ↦ ?_⟩
  match r with
  | .exited (.ok s) => exact ⟨fun _ ↦ relays_stopDescendants reason (some s), nofun⟩
  | .exited (.error e) => exact ⟨nofun, fun _ he ↦ congrArg Prog.fail (Option.some.inj he)⟩
  | .elapsed => exact ⟨fun _ ↦ relays_stopDescendants reason none, nofun⟩
  | .force => exact ⟨fun _ ↦ relays_forceStop .forceKilled .forceKilled true none, nofun⟩

theorem relays_mainLoop : Relays (mainLoop P route) := by
  refine ⟨nofun, fun r ↦ ?_⟩
  match r with
  | .exited (.ok s) => exact ⟨fun _ ↦ trivial, nofun⟩
  | .exited (.error e) => exact ⟨nofun, fun _ he ↦ congrArg Prog.fail (Option.some.inj he)⟩
  | .deadline => exact ⟨fun _ ↦ (relays_stopProcess _).bind fun _ ↦ trivial, nofun⟩
  | .stop reason => exact ⟨fun _ ↦ (relays_stopProcess reason).bind fun _ ↦ trivial, nofun⟩

theorem relays_awaitTree (reason : Option StopReason) : Relays (awaitTree P reason) := by
  cases reason with
  | some reason => exact relays_waitEmpty trivial
  | none =>
    refine ⟨nofun, fun r ↦ ?_⟩
    match r with
    | some _ => exact ⟨fun _ ↦ trivial, nofun⟩
    | none =>
      refine ⟨fun _ ↦ ?_, nofun⟩
      refine (relays_attemptCall fun _ ↦ rfl).bind fun _ ↦ ?_
      exact (relays_transition .descendants _ nofun).bind fun _ ↦ relays_waitEmpty trivial

theorem relays_finish (streams : List OutputStream) (reason : Option StopReason)
    (status : ExitStatus) : Relays (finish streams reason status) := by
  refine (Prog.FailsBy.perform nofun fun _ ↦ rfl).bind fun _ ↦ ?_
  refine (relays_joinReaders streams).bind fun _ ↦ ?_
  refine (Prog.FailsBy.perform nofun fun _ ↦ rfl).bind fun _ ↦ ?_
  exact relays_transition .final _ nofun

/-- **`run_task` returns the errors it is answered**, and no others. -/
theorem runTask_failsBy (args : List String) : Relays (runTask P route args) := by
  refine (relays_launch _ _).bind fun _ ↦ ?_
  refine (relays_transition .running _ nofun).bind fun _ ↦ ?_
  refine (Prog.FailsBy.perform nofun fun _ ↦ rfl).bind fun _ ↦ relays_mainLoop.bind fun _ ↦ ?_
  exact (relays_awaitTree _).bind fun _ ↦ relays_finish _ _ _

/-! ## Along the control flow -/

/-- The error of `run_task`, where there is one: it appears with the answer it comes from, and the
error handler uses it. -/
inductive Errors : ControlGraph runner (Option String)
  | answer {o : Op} (r : runner.Resp o) (h : o.Own) : Errors none o r (o.errorText r)
  | after {o : Op} (r : runner.Resp o) (e : String) (h : o.Own) : Errors (some e) o r (some e)
  | report (e : String) :
      Errors (some e) (.update .executorError (toExecutorError e)) () (some e)

theorem startTask_errors (args : List String) :
    Follows Errors none (startTask P route args) fun _ _ ↦ True := by
  have hrun : Follows Errors none (runTask P route args) fun result x ↦ x = Except.error? result :=
    Follows.of_failsBy (runTask_failsBy args) fun o r h ↦ .answer r h
  refine Follows.bind (B := fun result x ↦ x = Except.error? result) hrun.attempt ?_
  intro result x hx
  subst hx
  cases result with
  | ok u => exact fun _ ↦ ⟨_, .answer _ nofun, fun _ ↦ ⟨_, .answer _ nofun, fun _ ↦
      ⟨_, .answer _ nofun, trivial⟩⟩⟩
  | error e =>
    refine fun _ ↦ ⟨_, .after _ e nofun, fun _ ↦ ⟨_, .report e, fun r ↦ ⟨_, .after r e nofun, ?_⟩⟩⟩
    cases r <;> exact fun _ ↦ ⟨_, .after _ e nofun, fun _ ↦ ⟨_, .after _ e nofun, trivial⟩⟩

end

end CommandApi
