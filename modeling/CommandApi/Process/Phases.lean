import CommandApi.Async.Control
import CommandApi.Process.Program

/-!
# Where the runner is

The control graph of `startTask`.  A `Phase` says how far the runner has come and what it carries
from one function to the next — the reason it is stopping for, the exit status it has collected,
the readers it has yet to join — and `Moves` lists, phase by phase, the operations it may perform
there and where their answers lead.  `startTask_follows` is the one walk through the source: the
runner never leaves the graph, whatever fails and whichever branch a `select!` picks.

The graph is coarser than the program where nothing depends on the difference: the calls between
two changes of the snapshot share a phase, in any order.  So every fact proved along the graph is a
fact about the program, and the proofs that use the graph do not change when two such calls are
swapped.
-/

set_option autoImplicit false

namespace CommandApi

open Async

/-- How far the runner has come. -/
inductive Phase
  /-- Before the worker is spawned. -/
  | starting
  /-- The worker is spawned, the task is not yet `Running`. -/
  | spawned
  /-- `Running` is set: the main loop. -/
  | running
  /-- `stop_process` has been entered with a reason. -/
  | stop (reason : StopReason)
  /-- A graceful exit is being requested. -/
  | grace (reason : StopReason)
  /-- The grace period has begun: the first `select!` of `stop_process`. -/
  | waiting (reason : StopReason)
  /-- The worker has exited: the second `select!` of `stop_process`. -/
  | drain (reason : StopReason) (status : ExitStatus)
  /-- `force_stop_process` is about to be entered after a graceful attempt. -/
  | overdue (reason : StopReason) (status : Option ExitStatus)
  /-- `force_stop_process` has set its termination record. -/
  | forced (reason : StopReason) (status : Option ExitStatus)
  /-- `stop_process` has returned. -/
  | stopped (reason : StopReason) (status : ExitStatus)
  /-- The main loop was left because the worker exited. -/
  | exited (status : ExitStatus)
  /-- The worker exited, and the deadline passed before the tree was empty. -/
  | late (status : ExitStatus)
  /-- … and the termination record says so. -/
  | lateForced (status : ExitStatus)
  /-- The tree counts as empty; these readers have yet to be joined. -/
  | ending (todo : List OutputStream) (reason : Option StopReason) (status : ExitStatus)
  /-- The permits are released. -/
  | released (reason : Option StopReason) (status : ExitStatus)
  /-- The terminal status is visible. -/
  | published
  /-- `run_task` has returned `Ok`. -/
  | returned
  /-- `run_task` has returned an error. -/
  | failed (error : String)
  /-- … and its locals are dropped. -/
  | crashed (error : String)
  /-- The error handler has made its change. -/
  | reported
  /-- `mark_finished` is next. -/
  | marking
  /-- `mark_finished` has been called. -/
  | marked
  /-- The spawned block has ended. -/
  | done

/-- The calls that leave the runner in its phase when they succeed. -/
inductive Quiet : Phase → Fallible → Prop
  | pipe : Quiet .starting .pipe
  | cloneReader : Quiet .starting .cloneReader
  | currentExe : Quiet .starting .currentExe
  | treeNew : Quiet .starting .treeNew
  | attach : Quiet .spawned .attach
  | takeStdin : Quiet .spawned .takeStdin
  | encodeSpec : Quiet .spawned .encodeSpec
  | writeSpec (spec : WorkerSpec) : Quiet .spawned (.writeSpec spec)
  | flushSpec : Quiet .spawned .flushSpec
  | persistRunning : Quiet .running .persist
  | persistGrace (reason : StopReason) : Quiet (.grace reason) .persist
  | graceful (reason : StopReason) : Quiet (.grace reason) .graceful
  | persistForced (reason : StopReason) (status : Option ExitStatus) :
      Quiet (.forced reason status) .persist
  | force (reason : StopReason) (status : Option ExitStatus) : Quiet (.forced reason status) .force
  | forceLate (status : ExitStatus) : Quiet (.late status) .force
  | persistLate (status : ExitStatus) : Quiet (.lateForced status) .persist

/-- The control graph of `startTask`. -/
inductive Moves (P : Platform) (route : ResolvedRoute) : ControlGraph runner Phase
  -- a call that succeeds, and a call that fails
  | quiet {φ : Phase} {c : Fallible} (h : Quiet φ c) : Moves P route φ (.fallible c) (.ok ()) φ
  | error {φ : Phase} {c : Fallible} (h : Quiet φ c) (e e' : String) :
      Moves P route φ (.fallible c) (.error e) (.failed e')
  -- before the main loop
  | startReader {stream : OutputStream} (h : stream ∈ route.outputMode.streams) :
      Moves P route .starting (.startReader stream) () .starting
  | spawn : Moves P route .starting (.fallible .spawn) (.ok ()) .spawned
  | spawnError (e e' : String) : Moves P route .starting (.fallible .spawn) (.error e) (.failed e')
  | toRunning : Moves P route .spawned (.update .running toRunning) () .running
  | armDeadline : Moves P route .running .armDeadline () .running
  -- the main loop
  | exited (status : ExitStatus) :
      Moves P route .running .selectMain (.exited (.ok status)) (.exited status)
  | exitedError (e e' : String) :
      Moves P route .running .selectMain (.exited (.error e)) (.failed e')
  | deadline : Moves P route .running .selectMain .deadline (.stop .timeout)
  | stop (reason : StopReason) : Moves P route .running .selectMain (.stop reason) (.stop reason)
  -- `stop_process`
  | forceNow :
      Moves P route (.stop .forceKilled) (.update .forced (toForced P .forceKilled false)) ()
        (.forced .forceKilled none)
  | toGraceful {reason : StopReason} (h : reason ≠ .forceKilled) :
      Moves P route (.stop reason) (.update .graceful (toGraceful P route reason)) ()
        (.grace reason)
  | writeTerminate (reason : StopReason) :
      Moves P route (.grace reason) .writeTerminate () (.grace reason)
  | armGrace (reason : StopReason) : Moves P route (.grace reason) .armGrace () (.waiting reason)
  | graceExited (reason : StopReason) (status : ExitStatus) :
      Moves P route (.waiting reason) .selectGrace (.exited (.ok status)) (.drain reason status)
  | graceError (reason : StopReason) (e e' : String) :
      Moves P route (.waiting reason) .selectGrace (.exited (.error e)) (.failed e')
  | graceElapsed (reason : StopReason) :
      Moves P route (.waiting reason) .selectGrace .elapsed (.overdue reason none)
  | graceForce (reason : StopReason) :
      Moves P route (.waiting reason) .selectGrace .force (.overdue .forceKilled none)
  | drained (reason : StopReason) (status : ExitStatus) :
      Moves P route (.drain reason status) .selectEmpty (.empty (.ok ())) (.stopped reason status)
  | drainError (reason : StopReason) (status : ExitStatus) (e e' : String) :
      Moves P route (.drain reason status) .selectEmpty (.empty (.error e)) (.failed e')
  | drainElapsed (reason : StopReason) (status : ExitStatus) :
      Moves P route (.drain reason status) .selectEmpty .elapsed (.overdue reason (some status))
  | drainForce (reason : StopReason) (status : ExitStatus) :
      Moves P route (.drain reason status) .selectEmpty .force
        (.overdue .forceKilled (some status))
  -- `force_stop_process`
  | toForced (reason : StopReason) (status : Option ExitStatus) :
      Moves P route (.overdue reason status) (.update .forced (toForced P reason true)) ()
        (.forced reason status)
  | childWait (reason : StopReason) (status : ExitStatus) :
      Moves P route (.forced reason none) .childWait (.ok status) (.forced reason (some status))
  | childWaitError (reason : StopReason) (e e' : String) :
      Moves P route (.forced reason none) .childWait (.error e) (.failed e')
  | forceEmpty (reason : StopReason) (status : ExitStatus) :
      Moves P route (.forced reason (some status)) .waitEmpty (.ok ()) (.stopped reason status)
  | forceEmptyError (reason : StopReason) (status : ExitStatus) (e e' : String) :
      Moves P route (.forced reason (some status)) .waitEmpty (.error e) (.failed e')
  -- after the main loop
  | stoppedEmpty (reason : StopReason) (status : ExitStatus) :
      Moves P route (.stopped reason status) .waitEmpty (.ok ())
        (.ending route.outputMode.streams (some reason) status)
  | stoppedError (reason : StopReason) (status : ExitStatus) (e e' : String) :
      Moves P route (.stopped reason status) .waitEmpty (.error e) (.failed e')
  | exitedEmpty (status : ExitStatus) (result : Except String Unit) :
      Moves P route (.exited status) .waitEmptyUntilDeadline (some result)
        (.ending route.outputMode.streams none status)
  | exitedLate (status : ExitStatus) :
      Moves P route (.exited status) .waitEmptyUntilDeadline none (.late status)
  | toLate (status : ExitStatus) :
      Moves P route (.late status) (.update .descendants (toDescendantsForced P)) ()
        (.lateForced status)
  | lateEmpty (status : ExitStatus) :
      Moves P route (.lateForced status) .waitEmpty (.ok ())
        (.ending route.outputMode.streams (some .timeout) status)
  | lateError (status : ExitStatus) (e e' : String) :
      Moves P route (.lateForced status) .waitEmpty (.error e) (.failed e')
  -- the readers, the permits, the last transition
  | dropControl (todo : List OutputStream) (reason : Option StopReason) (status : ExitStatus) :
      Moves P route (.ending todo reason status) .dropControl () (.ending todo reason status)
  | joined (stream : OutputStream) (todo : List OutputStream) (reason : Option StopReason)
      (status : ExitStatus) :
      Moves P route (.ending (stream :: todo) reason status) (.joinReader stream)
        (.ended (.ok ())) (.ending todo reason status)
  | joinError (stream : OutputStream) (todo : List OutputStream) (reason : Option StopReason)
      (status : ExitStatus) (e e' : String) :
      Moves P route (.ending (stream :: todo) reason status) (.joinReader stream)
        (.ended (.error e)) (.failed e')
  | joinCrashed (stream : OutputStream) (todo : List OutputStream) (reason : Option StopReason)
      (status : ExitStatus) (e e' : String) :
      Moves P route (.ending (stream :: todo) reason status) (.joinReader stream) (.crashed e)
        (.failed e')
  | dropPermits (reason : Option StopReason) (status : ExitStatus) :
      Moves P route (.ending [] reason status) .dropPermits () (.released reason status)
  | toFinal (reason : Option StopReason) (status : ExitStatus) :
      Moves P route (.released reason status) (.update .final (toFinal reason status)) () .published
  | persistFinal : Moves P route .published (.fallible .persist) (.ok ()) .returned
  | persistFinalError (e e' : String) :
      Moves P route .published (.fallible .persist) (.error e) (.failed e')
  -- `start_task` around it
  | leave : Moves P route .returned .leaveRunTask () .marking
  | leaveError (error : String) : Moves P route (.failed error) .leaveRunTask () (.crashed error)
  | toError (error : String) :
      Moves P route (.crashed error) (.update .executorError (toExecutorError error)) () .reported
  | persistError (result : Except String Unit) :
      Moves P route .reported (.fallible .persist) result .marking
  | markFinished : Moves P route .marking .markFinished () .marked
  | dropStore : Moves P route .marked .dropStore () .done

/-! ## The walk through the source -/

variable {P : Platform} {route : ResolvedRoute}

/-- A program that ends normally in one phase, or with the error it failed with. -/
private def EndsIn {α : Type} (B : α → Phase → Prop) : Except String α → Phase → Prop
  | .ok a, φ => B a φ
  | .error e, φ => φ = .failed e

private theorem attemptCall_follows {φ ψ : Phase} {c : Fallible}
    (hok : Moves P route φ (.fallible c) (.ok ()) ψ)
    (herr : ∀ e e', Moves P route φ (.fallible c) (.error e) (.failed e')) :
    Follows (Moves P route) φ (attemptCall c) (EndsIn fun _ χ ↦ χ = ψ) := by
  intro r
  cases r with
  | ok u => exact ⟨ψ, hok, rfl⟩
  | error e => exact ⟨.failed e, herr e e, rfl⟩

private theorem attemptCall_context_follows {φ ψ : Phase} {c : Fallible} (text : String)
    (hok : Moves P route φ (.fallible c) (.ok ()) ψ)
    (herr : ∀ e e', Moves P route φ (.fallible c) (.error e) (.failed e')) :
    Follows (Moves P route) φ ((attemptCall c).context text) (EndsIn fun _ χ ↦ χ = ψ) := by
  intro r
  cases r with
  | ok u => exact ⟨ψ, hok, rfl⟩
  | error e => exact ⟨.failed _, herr e _, rfl⟩

private theorem quiet_follows {φ : Phase} {c : Fallible} (h : Quiet φ c) :
    Follows (Moves P route) φ (attemptCall c) (EndsIn fun _ χ ↦ χ = φ) :=
  attemptCall_follows (.quiet h) (.error h)

private theorem quiet_context_follows {φ : Phase} {c : Fallible} (text : String)
    (h : Quiet φ c) :
    Follows (Moves P route) φ ((attemptCall c).context text) (EndsIn fun _ χ ↦ χ = φ) :=
  attemptCall_context_follows text (.quiet h) (.error h)

/-- Sequencing, for programs that end in `EndsIn`. -/
private theorem seq {α β : Type} {φ : Phase} {p : Task α} {f : α → Task β}
    {B : α → Phase → Prop} {Q : Except String β → Phase → Prop}
    (hQ : ∀ e, Q (.error e) (.failed e))
    (hp : Follows (Moves P route) φ p (EndsIn B))
    (hf : ∀ a ψ, B a ψ → Follows (Moves P route) ψ (f a) Q) :
    Follows (Moves P route) φ (p >>= f) Q := by
  refine Follows.bind (hp.mono fun r ψ h ↦ ?_) hf
  cases r with
  | ok a => exact h
  | error e => obtain rfl : ψ = .failed e := h; exact hQ e

private theorem endsIn_error {α : Type} {B : α → Phase → Prop} (e : String) :
    EndsIn B (.error e) (.failed e) := rfl

private theorem transition_follows {φ ψ : Phase} {site : Site}
    {f : String → TaskSnapshot → TaskSnapshot} (hu : Moves P route φ (.update site f) () ψ)
    (hq : Quiet ψ .persist) :
    Follows (Moves P route) φ (transition site f) (EndsIn fun _ χ ↦ χ = ψ) :=
  seq endsIn_error (B := fun _ χ ↦ χ = ψ) (fun _ ↦ ⟨ψ, hu, rfl⟩) fun _ χ hχ ↦ by
    subst hχ
    exact quiet_follows hq

private theorem startReaders_follows (streams : List OutputStream)
    (h : ∀ s ∈ streams, s ∈ route.outputMode.streams) :
    Follows (Moves P route) .starting (startReaders streams)
      (EndsIn fun _ χ ↦ χ = .starting) := by
  induction streams with
  | nil => exact rfl
  | cons s rest ih =>
    refine seq endsIn_error (quiet_follows .cloneReader) fun _ ψ hψ ↦ ?_
    subst hψ
    refine fun _ ↦ ⟨.starting, .startReader (h s List.mem_cons_self), ?_⟩
    exact ih fun t ht ↦ h t (List.mem_cons_of_mem s ht)

private theorem joinReaders_follows (reason : Option StopReason) (status : ExitStatus)
    (streams : List OutputStream) :
    Follows (Moves P route) (.ending streams reason status) (joinReaders streams)
      (EndsIn fun _ χ ↦ χ = .ending [] reason status) := by
  induction streams with
  | nil => exact rfl
  | cons s rest ih =>
    intro r
    match r with
    | .crashed e => exact ⟨.failed _, .joinCrashed s rest reason status e _, rfl⟩
    | .ended (.error e) => exact ⟨.failed e, .joinError s rest reason status e e, rfl⟩
    | .ended (.ok ()) => exact ⟨_, .joined s rest reason status, ih⟩

private theorem forcedStatus_follows (reason : StopReason) (status : Option ExitStatus) :
    Follows (Moves P route) (.forced reason status) (forcedStatus status)
      (EndsIn fun s χ ↦ χ = .forced reason (some s)) := by
  cases status with
  | some s => exact rfl
  | none =>
    intro r
    match r with
    | .ok s => exact ⟨_, .childWait reason s, rfl⟩
    | .error e => exact ⟨.failed _, .childWaitError reason e _, rfl⟩

private theorem forceStopProcess_follows {φ : Phase} {reason : StopReason} {attempted : Bool}
    {status : Option ExitStatus}
    (h : Moves P route φ (.update .forced (toForced P reason attempted)) ()
      (.forced reason status)) :
    Follows (Moves P route) φ (forceStopProcess P reason attempted status)
      (EndsIn fun s χ ↦ χ = .stopped reason s) := by
  refine seq endsIn_error (transition_follows h (.persistForced reason status)) fun _ ψ hψ ↦ ?_
  subst hψ
  refine seq endsIn_error (quiet_follows (.force reason status)) fun _ ψ hψ ↦ ?_
  subst hψ
  refine seq endsIn_error (forcedStatus_follows reason status) fun s ψ hψ ↦ ?_
  subst hψ
  intro r
  match r with
  | .ok () => exact ⟨_, .forceEmpty reason s, rfl⟩
  | .error e => exact ⟨.failed e, .forceEmptyError reason s e e, rfl⟩

/-- What `stop_process` returns is what its last phase carries. -/
private abbrev StopResult (r : ExitStatus × StopReason) (χ : Phase) : Prop :=
  χ = .stopped r.2 r.1

private theorem forceStop_result_follows {φ : Phase} {reason : StopReason} {attempted : Bool}
    {status : Option ExitStatus}
    (h : Moves P route φ (.update .forced (toForced P reason attempted)) ()
      (.forced reason status)) :
    Follows (Moves P route) φ
      (forceStopProcess P reason attempted status >>= fun s ↦ pure (s, reason))
      (EndsIn StopResult) :=
  seq endsIn_error (forceStopProcess_follows h) fun _ _ hψ ↦ hψ

private theorem stopDescendants_follows (reason : StopReason) (status : ExitStatus) :
    Follows (Moves P route) (.drain reason status) (stopDescendants P reason (some status))
      (EndsIn StopResult) := by
  intro r
  match r with
  | .empty (.ok ()) => exact ⟨_, .drained reason status, rfl⟩
  | .empty (.error e) => exact ⟨.failed e, .drainError reason status e e, rfl⟩
  | .elapsed =>
    exact ⟨_, .drainElapsed reason status, forceStop_result_follows (.toForced reason _)⟩
  | .force =>
    exact ⟨_, .drainForce reason status, forceStop_result_follows (.toForced .forceKilled _)⟩

private theorem stopProcess_follows (reason : StopReason) :
    Follows (Moves P route) (.stop reason) (stopProcess P route reason) (EndsIn StopResult) := by
  rw [stopProcess]
  split
  · rename_i h
    subst h
    exact forceStop_result_follows .forceNow
  · rename_i h
    refine seq endsIn_error (transition_follows (.toGraceful h) (.persistGrace reason))
      fun _ ψ hψ ↦ ?_
    subst hψ
    refine Follows.perform_bind fun _ ↦ ⟨.grace reason, .writeTerminate reason, ?_⟩
    refine seq endsIn_error (quiet_follows (.graceful reason)) fun _ ψ hψ ↦ ?_
    subst hψ
    refine Follows.perform_bind fun _ ↦ ⟨.waiting reason, .armGrace reason, ?_⟩
    refine Follows.perform_bind fun r ↦ ?_
    match r with
    | .exited (.ok status) =>
      exact ⟨_, .graceExited reason status, stopDescendants_follows reason status⟩
    | .exited (.error e) => exact ⟨.failed _, .graceError reason e _, rfl⟩
    | .elapsed =>
      exact ⟨_, .graceElapsed reason, forceStop_result_follows (.toForced reason none)⟩
    | .force =>
      exact ⟨_, .graceForce reason, forceStop_result_follows (.toForced .forceKilled none)⟩

/-- What the main loop returns is what its last phase carries. -/
private def LoopResult (r : ExitStatus × Option StopReason) (χ : Phase) : Prop :=
  match r.2 with
  | none => χ = .exited r.1
  | some reason => χ = .stopped reason r.1

private theorem mainLoop_follows :
    Follows (Moves P route) .running (mainLoop P route) (EndsIn LoopResult) := by
  refine Follows.perform_bind fun r ↦ ?_
  match r with
  | .exited (.ok status) => exact ⟨_, .exited status, rfl⟩
  | .exited (.error e) => exact ⟨.failed _, .exitedError e _, rfl⟩
  | .deadline =>
    exact ⟨_, .deadline, seq endsIn_error (stopProcess_follows .timeout) fun _ _ h ↦ h⟩
  | .stop reason =>
    exact ⟨_, .stop reason, seq endsIn_error (stopProcess_follows reason) fun _ _ h ↦ h⟩

private theorem awaitTree_follows {φ : Phase} {reason : Option StopReason} {status : ExitStatus}
    (h : LoopResult (status, reason) φ) :
    Follows (Moves P route) φ (awaitTree P reason)
      (EndsIn fun sr χ ↦ χ = .ending route.outputMode.streams sr status) := by
  cases reason with
  | some reason =>
    obtain rfl : φ = .stopped reason status := h
    intro r
    match r with
    | .ok () => exact ⟨_, .stoppedEmpty reason status, rfl⟩
    | .error e => exact ⟨.failed e, .stoppedError reason status e e, rfl⟩
  | none =>
    obtain rfl : φ = .exited status := h
    refine Follows.perform_bind fun r ↦ ?_
    match r with
    | some result => exact ⟨_, .exitedEmpty status result, rfl⟩
    | none =>
      refine ⟨_, .exitedLate status, ?_⟩
      refine seq endsIn_error (quiet_follows (.forceLate status)) fun _ ψ hψ ↦ ?_
      subst hψ
      refine seq endsIn_error (transition_follows (.toLate status) (.persistLate status))
        fun _ ψ hψ ↦ ?_
      subst hψ
      intro r
      match r with
      | .ok () => exact ⟨_, .lateEmpty status, rfl⟩
      | .error e => exact ⟨.failed e, .lateError status e e, rfl⟩

private theorem launch_follows (spec : WorkerSpec) :
    Follows (Moves P route) .starting (launch route.outputMode.streams spec)
      (EndsIn fun _ χ ↦ χ = .spawned) := by
  refine seq endsIn_error (quiet_follows .pipe) fun _ ψ hψ ↦ ?_
  subst hψ
  refine seq endsIn_error (startReaders_follows _ fun _ h ↦ h) fun _ ψ hψ ↦ ?_
  subst hψ
  refine seq endsIn_error (quiet_context_follows _ .currentExe) fun _ ψ hψ ↦ ?_
  subst hψ
  refine seq endsIn_error (quiet_follows .treeNew) fun _ ψ hψ ↦ ?_
  subst hψ
  refine seq endsIn_error (attemptCall_context_follows _ .spawn .spawnError) fun _ ψ hψ ↦ ?_
  subst hψ
  refine seq endsIn_error (quiet_follows .attach) fun _ ψ hψ ↦ ?_
  subst hψ
  refine seq endsIn_error (quiet_context_follows _ .takeStdin) fun _ ψ hψ ↦ ?_
  subst hψ
  refine seq endsIn_error (quiet_follows .encodeSpec) fun _ ψ hψ ↦ ?_
  subst hψ
  refine seq endsIn_error (quiet_context_follows _ (.writeSpec spec)) fun _ ψ hψ ↦ ?_
  subst hψ
  exact quiet_follows .flushSpec

private theorem finish_follows (reason : Option StopReason) (status : ExitStatus) :
    Follows (Moves P route) (.ending route.outputMode.streams reason status)
      (finish route.outputMode.streams reason status) (EndsIn fun _ χ ↦ χ = .returned) := by
  refine Follows.perform_bind fun _ ↦ ⟨_, .dropControl _ reason status, ?_⟩
  refine seq endsIn_error (joinReaders_follows reason status _) fun _ ψ hψ ↦ ?_
  subst hψ
  refine fun _ ↦ ⟨_, .dropPermits reason status, fun _ ↦ ⟨_, .toFinal reason status, ?_⟩⟩
  exact attemptCall_follows .persistFinal .persistFinalError

private theorem runTask_follows (requestArgs : List String) :
    Follows (Moves P route) .starting (runTask P route requestArgs)
      (EndsIn fun _ χ ↦ χ = .returned) := by
  refine seq endsIn_error (launch_follows _) fun _ ψ hψ ↦ ?_
  subst hψ
  refine seq endsIn_error (transition_follows .toRunning .persistRunning) fun _ ψ hψ ↦ ?_
  subst hψ
  refine Follows.perform_bind fun _ ↦ ⟨.running, .armDeadline, ?_⟩
  refine seq endsIn_error mainLoop_follows fun r ψ hψ ↦ ?_
  refine seq endsIn_error (awaitTree_follows hψ) fun sr ψ hψ ↦ ?_
  subst hψ
  exact finish_follows sr r.1

/-- `run_task` alone. -/
theorem runTask_returns (P : Platform) (route : ResolvedRoute) (requestArgs : List String) :
    Follows (Moves P route) .starting (runTask P route requestArgs)
      fun r φ ↦ ∀ u, r = .ok u → φ = .returned := by
  refine (runTask_follows requestArgs).mono fun r φ h u hr ↦ ?_
  rw [hr] at h
  exact h

/-- **The runner follows its control graph**, from the moment it is spawned to its end, whatever
its calls answer. -/
theorem startTask_follows (P : Platform) (route : ResolvedRoute) (requestArgs : List String) :
    Follows (Moves P route) .starting (startTask P route requestArgs)
      fun _ φ ↦ φ = .done := by
  have hend : Follows (Moves P route) .marking
      (perform .markFinished >>= fun _ ↦ perform .dropStore) fun _ φ ↦ φ = .done :=
    fun _ ↦ ⟨.marked, .markFinished, fun _ ↦ ⟨.done, .dropStore, rfl⟩⟩
  refine Follows.bind (B := fun r φ ↦ EndsIn (fun _ χ ↦ χ = .returned) r φ)
    (Follows.attempt (runTask_follows requestArgs)) fun r ψ hψ ↦ ?_
  cases r with
  | ok u =>
    obtain rfl : ψ = .returned := hψ
    exact fun _ ↦ ⟨.marking, .leave, hend⟩
  | error e =>
    obtain rfl : ψ = .failed e := hψ
    refine fun _ ↦ ⟨.crashed e, .leaveError e, fun _ ↦ ⟨.reported, .toError e, fun r ↦ ?_⟩⟩
    refine ⟨.marking, .persistError r, ?_⟩
    cases r with
    | ok u => exact hend
    | error e => exact hend

end CommandApi
