import CommandApi.Async.History
import CommandApi.Process.Failures
import CommandApi.Process.Lifecycle

/-!
# Why a task ended

A status is a statement about what has happened: nobody sees `Cancelled` unless someone cancelled.
`Caused` lists what the past of an execution has to contain for a snapshot to say what it says, and
`status_has_cause` shows it of every visible snapshot of every execution: the runner makes nothing
up, whichever of the events that are ready its `select!` picks and whatever fails.

The stop cell is written by `cancel_task` (`Cancelled`), `kill_task` (`ForceKilled`), `cancel_all`
(`ServerShutdown`, `ServerRestart`, `ForceKilled`) and a reader that cannot write its log
(`LoggingFailure`).  Nobody writes `Timeout` or `ParentExited` to it; `askedMachine` is the machine
of `CommandApi.Process.World` with these writers.  So `ParentExited` is a reason no task is ever
stopped for, and a task that timed out has been running when its deadline was over.
-/

set_option autoImplicit false

namespace CommandApi

open Async

/-- The reasons that are written to the stop cell. -/
def StopReason.requestable : StopReason → Bool
  | .cancelled | .forceKilled | .serverShutdown | .serverRestart | .loggingFailure => true
  | .timeout | .parentExited => false

/-- The stop cell is left as it is, or written by one of its writers. -/
def Asked (w w' : World) : Prop :=
  w'.stop = w.stop ∨ ∃ reason, reason.requestable = true ∧ w'.stop = some reason

/-- The runner next to the writers of the stop cell. -/
def askedMachine (P : Platform) (line : TaskSnapshot → List UInt8) : Machine runner World :=
  (taskMachine P line).restrict (fun _ _ _ ↦ True) Asked

/-! ## Causes -/

/-- A moment at which there is a reason to stop the task: its deadline is over while it runs, or
the reason is in the stop cell. -/
def World.Gives (reason : StopReason) (w : World) : Prop :=
  match reason with
  | .timeout => w.deadline = true ∧ w.snapshot.status = .running
  | reason => w.stop = some reason ∧ reason.requestable = true

/-- A moment at which the tree has outlived the grace period or the deadline. -/
def World.Outlived (w : World) : Prop := (w.grace = true ∨ w.deadline = true) ∧ w.TreeLive

/-- A moment at which the worker has exited with this status. -/
def World.ExitedWith (status : ExitStatus) (w : World) : Prop := w.worker = .exited status

/-- What has to have happened for a snapshot to say what it says.  `reported error` is to say that
an operation has been answered the error that `run_task` returns as `error`. -/
structure Caused (happened : (World → Prop) → Prop) (reported : String → Prop)
    (s : TaskSnapshot) : Prop where
  reason : ∀ t, s.termination = some t → happened (World.Gives t.reason)
  forced : ∀ t, s.termination = some t → t.forced = true → t.reason ≠ .forceKilled →
    happened World.Outlived
  succeeded : s.status = .succeeded →
    happened fun w ↦ ∃ status : ExitStatus, w.ExitedWith status ∧ status.success = true
  cancelled : s.status = .cancelled → happened (World.Gives .cancelled)
  timedOut : s.status = .timedOut → happened (World.Gives .timeout)
  killed : s.status = .killed → happened (World.Gives .forceKilled)
  interrupted : s.status = .interrupted →
    happened (World.Gives .serverShutdown) ∨ happened (World.Gives .serverRestart)
  failed : s.status = .failed →
    (∃ error : String, s.error = some s!"任务执行器异常: {error}" ∧ reported error) ∨
      happened (World.Gives .loggingFailure) ∨
      happened fun w ↦ ∃ status : ExitStatus, w.ExitedWith status ∧ status.success = false
  exitCode : ∀ code, s.exitCode = some code →
    happened fun w ↦ ∃ status : ExitStatus, w.ExitedWith status ∧ status.code = some code

theorem Caused.withFlag {happened : (World → Prop) → Prop} {reported : String → Prop}
    {s : TaskSnapshot} (h : Caused happened reported s) (truncated : Bool) :
    Caused happened reported { s with outputTruncated := truncated } :=
  ⟨h.reason, h.forced, h.succeeded, h.cancelled, h.timedOut, h.killed, h.interrupted, h.failed,
    h.exitCode⟩

theorem Caused.mono {happened happened' : (World → Prop) → Prop}
    {reported reported' : String → Prop} {s : TaskSnapshot} (h : Caused happened reported s)
    (hm : ∀ p, happened p → happened' p) (hr : ∀ e, reported e → reported' e) :
    Caused happened' reported' s where
  reason t ht := hm _ (h.reason t ht)
  forced t ht hf hr := hm _ (h.forced t ht hf hr)
  succeeded hs := hm _ (h.succeeded hs)
  cancelled hs := hm _ (h.cancelled hs)
  timedOut hs := hm _ (h.timedOut hs)
  killed hs := hm _ (h.killed hs)
  interrupted hs := (h.interrupted hs).imp (hm _) (hm _)
  failed hs := (h.failed hs).imp (fun ⟨e, he, hreported⟩ ↦ ⟨e, he, hr e hreported⟩)
    (Or.imp (hm _) (hm _))
  exitCode code hc := hm _ (h.exitCode code hc)

/-! ## What the runner has seen in each phase -/

section

variable (happened : (World → Prop) → Prop)

/-- There was a reason to stop, and if it is not a kill the tree has outlived a period. -/
structure OverdueFor (reason : StopReason) : Prop where
  given : happened (World.Gives reason)
  outlived : reason ≠ .forceKilled → happened World.Outlived

/-- The exit status, where there is one, is the worker's. -/
def Collected : Option ExitStatus → Prop
  | none => True
  | some status => happened (World.ExitedWith status)

/-- What has happened when the runner is in a phase. -/
def Seen : Phase → Prop
  | .stop reason | .grace reason | .waiting reason => happened (World.Gives reason)
  | .drain reason status =>
      happened (World.Gives reason) ∧ happened (World.ExitedWith status)
  | .overdue reason status | .forced reason status =>
      OverdueFor happened reason ∧ Collected happened status
  | .stopped reason status =>
      happened (World.Gives reason) ∧ happened (World.ExitedWith status)
  | .exited status => happened (World.ExitedWith status)
  | .late status | .lateForced status =>
      OverdueFor happened .timeout ∧ happened (World.ExitedWith status)
  | .ending _ reason status | .released reason status =>
      (∀ r, reason = some r → happened (World.Gives r)) ∧ happened (World.ExitedWith status)
  | _ => True

end

variable {happened happened' : (World → Prop) → Prop}

theorem Seen.mono {φ : Phase} (h : Seen happened φ) (hm : ∀ p, happened p → happened' p) :
    Seen happened' φ := by
  have hcoll : ∀ {status}, Collected happened status → Collected happened' status := by
    intro status hc
    cases status with
    | none => exact hc
    | some status => exact hm _ hc
  have hover : ∀ {reason}, OverdueFor happened reason → OverdueFor happened' reason :=
    fun ho ↦ ⟨hm _ ho.given, fun hr ↦ hm _ (ho.outlived hr)⟩
  cases φ with
  | stop _ | grace _ | waiting _ | exited _ => exact hm _ h
  | drain _ _ | stopped _ _ => exact ⟨hm _ h.1, hm _ h.2⟩
  | overdue _ _ | forced _ _ => exact ⟨hover h.1, hcoll h.2⟩
  | late _ | lateForced _ => exact ⟨hover h.1, hm _ h.2⟩
  | ending _ _ _ | released _ _ => exact ⟨fun r hr ↦ hm _ (h.1 r hr), hm _ h.2⟩
  | _ => exact trivial

/-! ## One step -/

section

variable {P : Platform} {route : ResolvedRoute} {line : TaskSnapshot → List UInt8} {φ ψ : Phase}
  {o : Op} {r : runner.Resp o} {w w' : World}

/-- What is in the stop cell is a reason to stop. -/
theorem World.gives_of_stop {reason : StopReason}
    (hstop : ∀ reason, w.stop = some reason → reason.requestable = true)
    (h : w.stop = some reason) : w.Gives reason := by
  have hr := hstop reason h
  cases reason with
  | timeout => cases hr
  | _ => exact ⟨h, hr⟩

/-- **The runner has seen what its phase stands for.** -/
theorem Seen.move (h : Seen happened φ) (hf : Facts φ w.snapshot)
    (hstop : ∀ reason, w.stop = some reason → reason.requestable = true)
    (hm : Moves P route φ o r ψ) (ha : taskEffect P line o w r w')
    (hmono : ∀ p, happened p → happened' p) (hnow : ∀ p : World → Prop, p w → happened' p) :
    Seen happened' ψ := by
  have h' : Seen happened' φ := h.mono hmono
  cases hm with
  | exited status => exact hnow (World.ExitedWith status) ha.1
  | deadline => exact hnow (World.Gives .timeout) ⟨ha.1, hf.1.status⟩
  | stop reason => exact hnow _ (World.gives_of_stop hstop ha.2.1)
  | forceNow => exact ⟨⟨h', fun hr ↦ absurd rfl hr⟩, trivial⟩
  | graceExited reason status => exact ⟨h', hnow (World.ExitedWith status) ha.1⟩
  | graceElapsed reason =>
    exact ⟨⟨h', fun _ ↦ hnow World.Outlived ⟨.inl ha.1, .inl ha.2.1⟩⟩, trivial⟩
  | graceForce reason =>
    exact ⟨⟨hnow _ (World.gives_of_stop hstop ha.1), fun hr ↦ absurd rfl hr⟩, trivial⟩
  | drained reason status => exact h'
  | drainElapsed reason status =>
    exact ⟨⟨h'.1, fun _ ↦ hnow World.Outlived ⟨.inl ha.1, ha.2.1.2⟩⟩, h'.2⟩
  | drainForce reason status =>
    exact ⟨⟨hnow _ (World.gives_of_stop hstop ha.1), fun hr ↦ absurd rfl hr⟩, h'.2⟩
  | childWait reason status => exact ⟨h'.1, hnow (World.ExitedWith status) ha.1⟩
  | forceEmpty reason status => exact ⟨h'.1.given, h'.2⟩
  | stoppedEmpty reason status =>
    exact ⟨fun r hr ↦ by obtain rfl := Option.some.inj hr; exact h'.1, h'.2⟩
  | exitedEmpty status result => exact ⟨fun r hr ↦ (Option.noConfusion rfl (heq_of_eq hr)), h'⟩
  | exitedLate status =>
    refine ⟨⟨hnow (World.Gives .timeout) ⟨ha.1, hf.1.status⟩, fun _ ↦ ?_⟩, h'⟩
    exact hnow World.Outlived ⟨.inr ha.1, ha.2.1.2⟩
  | lateEmpty status =>
    exact ⟨fun r hr ↦ by obtain rfl := Option.some.inj hr; exact h'.1.given, h'.2⟩
  | error h e e' | spawnError e e' | exitedError e e' | graceError _ e e' | drainError _ _ e e'
  | childWaitError _ e e' | forceEmptyError _ _ e e' | stoppedError _ _ e e' | lateError _ e e'
  | joinError _ _ _ _ e e' | joinCrashed _ _ _ _ e e' | persistFinalError e e' => exact trivial
  | spawn | toRunning | toFinal _ _ | persistFinal | leave | leaveError _ | toError _
  | persistError _ | markFinished | dropStore => exact trivial
  | _ => exact h'

variable {reported reported' : String → Prop} {s s' : TaskSnapshot}

/-- A task that is not finished claims nothing but its termination record. -/
theorem Caused.of_unfinished {a : TaskStatus} (ha : a.isFinished = false) (hs : s.status = a)
    (hcode : s.exitCode = none)
    (hreason : ∀ t, s.termination = some t → happened (World.Gives t.reason))
    (hforced : ∀ t, s.termination = some t → t.forced = true → t.reason ≠ .forceKilled →
      happened World.Outlived) : Caused happened reported s := by
  subst hs
  refine ⟨hreason, hforced, ?_, ?_, ?_, ?_, ?_, ?_, fun code hc ↦ ?_⟩
  · exact fun h ↦ absurd ha (by simp [h, TaskStatus.isFinished])
  · exact fun h ↦ absurd ha (by simp [h, TaskStatus.isFinished])
  · exact fun h ↦ absurd ha (by simp [h, TaskStatus.isFinished])
  · exact fun h ↦ absurd ha (by simp [h, TaskStatus.isFinished])
  · exact fun h ↦ absurd ha (by simp [h, TaskStatus.isFinished])
  · exact fun h ↦ absurd ha (by simp [h, TaskStatus.isFinished])
  · rw [hcode] at hc
    cases hc

/-- The termination record is set to one that has its cause. -/
theorem Caused.stopping (hcode : s.exitCode = none) {t : Termination}
    (hreason : happened (World.Gives t.reason))
    (hforced : t.forced = true → t.reason ≠ .forceKilled → happened World.Outlived) :
    Caused happened reported { s with status := .stopping, termination := some t } := by
  refine .of_unfinished (a := .stopping) rfl rfl hcode (fun u hu ↦ ?_) (fun u hu ↦ ?_)
  · obtain rfl := Option.some.inj hu
    exact hreason
  · obtain rfl := Option.some.inj hu
    exact hforced

theorem finalStatus_eq_interrupted {reason : Option StopReason} {status : ExitStatus}
    (h : finalStatus reason status = .interrupted) :
    reason = some .serverShutdown ∨ reason = some .serverRestart ∨ reason = some .parentExited := by
  cases reason with
  | none => rw [finalStatus] at h; split at h <;> cases h
  | some reason => cases reason <;> first | (cases h; done) | simp

theorem finalStatus_eq_failed {reason : Option StopReason} {status : ExitStatus}
    (h : finalStatus reason status = .failed) :
    reason = some .loggingFailure ∨ reason = none ∧ status.success = false := by
  cases reason with
  | none =>
    rw [finalStatus] at h
    split at h
    · cases h
    · rename_i hs
      exact .inr ⟨rfl, by simpa using hs⟩
  | some reason => cases reason <;> first | (cases h; done) | exact .inl rfl

/-- The last transition says what the runner has seen. -/
theorem Caused.final {reason : Option StopReason} {status : ExitStatus}
    (h : Caused happened reported s) (hreason : ∀ r, reason = some r → happened (World.Gives r))
    (hexited : happened (World.ExitedWith status))
    (himp : ∀ {p q : World → Prop}, (∀ w, p w → q w) → happened p → happened q)
    (hnever : ¬ happened (World.Gives .parentExited)) (now : String) :
    Caused happened reported (toFinal reason status now s) := by
  refine ⟨h.reason, h.forced, fun hs ↦ ?_, fun hs ↦ ?_, fun hs ↦ ?_, fun hs ↦ ?_, fun hs ↦ ?_,
    fun hs ↦ ?_, fun code hc ↦ ?_⟩
  · obtain ⟨-, hcode⟩ := finalStatus_eq_succeeded hs
    exact himp (fun w hw ↦ ⟨status, hw, by simp [ExitStatus.success, hcode]⟩) hexited
  · exact hreason _ (finalStatus_eq_cancelled hs)
  · exact hreason _ (finalStatus_eq_timedOut hs)
  · exact hreason _ (finalStatus_eq_killed hs)
  · rcases finalStatus_eq_interrupted hs with h | h | h
    · exact .inl (hreason _ h)
    · exact .inr (hreason _ h)
    · exact absurd (hreason _ h) hnever
  · rcases finalStatus_eq_failed hs with h | ⟨-, h⟩
    · exact .inr (.inl (hreason _ h))
    · exact .inr (.inr (himp (fun w hw ↦ ⟨status, hw, h⟩) hexited))
  · exact himp (fun w hw ↦ ⟨status, hw, hc⟩) hexited

/-- The error handler names an error that an operation has been answered. -/
theorem Caused.executorError (h : Caused happened reported s) (error now : String)
    (herror : reported error) : Caused happened reported (toExecutorError error now s) := by
  rw [toExecutorError]
  split
  · exact h
  · exact ⟨h.reason, h.forced, by simp, by simp, by simp, by simp, by simp,
      fun _ ↦ .inl ⟨error, rfl, herror⟩, h.exitCode⟩

/-- **What a transition writes has its cause.** -/
theorem Caused.move (h : Caused happened reported s) (hf : Facts φ s)
    (hp : s.status.isFinished = false → s.exitCode = none) (hs : Seen happened φ)
    (hm : Moves P route φ o r ψ) (hc : Changes o s s')
    (himp : ∀ {p q : World → Prop}, (∀ w, p w → q w) → happened p → happened q)
    (hnever : ¬ happened (World.Gives .parentExited))
    (herror : ∀ f, o = .update .executorError f → ∃ e, f = toExecutorError e ∧ reported e) :
    Caused happened reported s' := by
  have hcode : ∀ {a : TaskStatus}, Unfinished a s → a.isFinished = false → s.exitCode = none := by
    intro a ha hf
    exact hp (by rw [ha.status, hf])
  cases hm with
  | toRunning =>
    obtain ⟨now, rfl⟩ := hc
    exact .of_unfinished (a := .running) rfl rfl (hcode hf.1 rfl) h.reason h.forced
  | forceNow =>
    obtain ⟨now, rfl⟩ := hc
    exact .stopping (hcode (a := .running) hf.1 rfl) hs fun _ hr ↦ absurd rfl hr
  | toGraceful _ =>
    obtain ⟨now, rfl⟩ := hc
    exact .stopping (hcode (a := .running) hf.1 rfl) hs fun hforced ↦ nomatch hforced
  | toForced reason _ =>
    obtain ⟨now, rfl⟩ := hc
    exact .stopping (hcode hf rfl) hs.1.given fun _ hr ↦ hs.1.outlived hr
  | toLate _ =>
    obtain ⟨now, rfl⟩ := hc
    exact .stopping (hcode (a := .running) hf.1 rfl) hs.1.given fun _ hr ↦ hs.1.outlived hr
  | toFinal reason status => obtain ⟨now, rfl⟩ := hc; exact h.final hs.1 hs.2 himp hnever now
  | toError error =>
    obtain ⟨now, rfl⟩ := hc
    obtain ⟨e, he, hreported⟩ := herror _ rfl
    rw [he]
    exact h.executorError e now hreported
  | _ =>
    obtain rfl : s' = s := hc
    exact h

end

/-! ## Executions -/

section

variable {P : Platform} {route : ResolvedRoute} {line : TaskSnapshot → List UInt8}

/-- An operation has been answered the error that `run_task` returns as `error`. -/
def ReportedError (w : World × List (Passed runner World)) (error : String) : Prop :=
  Heard (fun (o : Op) r ↦ o.errorText r = some error) w

/-- What is known of the present and of the past. -/
structure Traced (φ : Phase × Option String) (w : World × List (Passed runner World)) : Prop where
  facts : Facts φ.1 w.1.snapshot
  stop : ∀ reason, w.1.stop = some reason → reason.requestable = true
  code : w.1.snapshot.status.isFinished = false → w.1.snapshot.exitCode = none
  seen : Seen (fun p ↦ Once p w) φ.1
  error : ∀ e, φ.2 = some e → ReportedError w e
  caused : Caused (fun p ↦ Once p w) (ReportedError w) w.1.snapshot

theorem not_gives_parentExited {w : World × List (Passed runner World)} :
    ¬ Once (World.Gives .parentExited) w := by
  rintro (⟨-, h⟩ | ⟨u, -, -, h⟩)
  · cases h
  · cases h

theorem traced_invariant :
    Invariant (askedMachine P line).remember ((Moves P route).prod Errors) Traced where
  env φ w w' h he := by
    obtain ⟨⟨he, hasked⟩, hpast⟩ := he
    have hmono : ∀ p, Once p w → Once p w' := fun p hp ↦ hp.step hpast
    have hreported : ∀ e, ReportedError w e → ReportedError w' e := fun e he ↦ he.step hpast
    refine ⟨?_, fun reason hreason ↦ ?_, ?_, h.seen.mono hmono,
      fun e he ↦ hreported e (h.error e he), ?_⟩
    · rw [he.frame.1]
      exact h.facts
    · rcases hasked with hsame | ⟨reason', hr, hsome⟩
      · exact h.stop reason (hsame ▸ hreason)
      · rw [hsome] at hreason
        exact Option.some.inj hreason ▸ hr
    · rw [he.frame.1]
      exact h.code
    · rw [he.frame.1]
      exact h.caused.mono hmono hreported
  act φ o w r w' ψ h ha hg := by
    obtain ⟨⟨ha, -⟩, hpast⟩ := ha
    obtain ⟨hm, herrors⟩ := hg
    have hmono : ∀ p, Once p w → Once p w' := fun p hp ↦ hp.step hpast
    have hreported : ∀ e, ReportedError w e → ReportedError w' e := fun e he ↦ he.step hpast
    obtain ⟨s', hc, hs'⟩ := taskEffect_changes ha
    refine ⟨?_, ?_, ?_, h.seen.move h.facts h.stop hm ha hmono fun p hp ↦ .before hp hpast, ?_, ?_⟩
    · rw [hs']
      exact (facts_move hm h.facts hc).withFlag _
    · rw [(taskEffect_shape ha).stop]
      exact h.stop
    · rw [hs']
      have hcode := exitCode_move hm h.facts hc h.code
      exact hcode
    · intro e he
      rw [ReportedError]
      obtain ⟨φ, x⟩ := φ
      obtain ⟨ψ, y⟩ := ψ
      cases herrors with
      | answer _ _ => exact .now he hpast
      | after _ _ _ | report _ => exact hreported e (h.error e he)
    · rw [hs']
      refine Caused.withFlag ?_ _
      refine (h.caused.mono hmono hreported).move h.facts h.code (h.seen.mono hmono) hm hc
        (fun hpq ↦ Once.mono hpq) not_gives_parentExited fun f hf ↦ ?_
      -- the error handler runs with the error that has been returned
      obtain ⟨φ, x⟩ := φ
      obtain ⟨ψ, y⟩ := ψ
      cases herrors with
      | answer _ hown | after _ _ hown => exact absurd hf (hown f)
      | report e => exact ⟨e, (Op.update.inj hf).2.symm, hreported e (h.error e rfl)⟩

/-- **No status without a cause.**  Whatever a visible snapshot says about how a task ended has
happened: the reason it was stopped for was asked for, or was its deadline; it was killed because a
kill was asked for, or because it outlived the grace period or the deadline; the exit code is the
worker's; and an error the executor names is one that an operation was answered. -/
theorem status_has_cause (P : Platform) (route : ResolvedRoute) (args : List String)
    (line : TaskSnapshot → List UInt8) (w₀ : World) (hw : Fresh w₀) (hstop : w₀.stop = none)
    (p : Task Unit) (w : World) (past : List (Passed runner World))
    (hr : (askedMachine P line).remember.Run (startTask P route args, w₀, []) (p, w, past)) :
    Caused (fun q ↦ Once q (w, past)) (ReportedError (w, past)) w.visible := by
  have hstart : Traced (.starting, none) (w₀, []) := by
    refine ⟨hw.facts, ?_, fun _ ↦ hw.exitCode, trivial, nofun, ?_⟩
    · intro reason h
      rw [hstop] at h
      cases h
    · refine .of_unfinished rfl hw.status hw.exitCode (fun t ht ↦ ?_) (fun t ht ↦ ?_)
      · rw [hw.termination] at ht
        cases ht
      · rw [hw.termination] at ht
        cases ht
  obtain ⟨φ, -, h⟩ := traced_invariant.run
    (c := (startTask P route args, w₀, []))
    ⟨(.starting, none), (startTask_follows P route args).prod (startTask_errors args), hstart⟩ hr
  exact h.caused.withFlag _

theorem askedMachine_allows : Allows P line (askedMachine P line) :=
  fun _ _ _ _ h _ _ ↦ ⟨h, trivial⟩

/-- A running task that someone cancels. -/
def exampleAsked : World :=
  (exampleWorld.looping snapshotCodec.line exampleRoute "2026-01-01T00:00:01Z").requestStop
    .cancelled

/-- The runner has taken the request up. -/
def exampleStopping : World :=
  ({ exampleAsked with stopChanged := false } : World).update
    (toGraceful .unix exampleRoute .cancelled "2026-01-01T00:00:02Z")

theorem run_exampleStopping : ∃ p, (askedMachine .unix snapshotCodec.line).Run
    (startTask .unix exampleRoute [], exampleWorld) (p, exampleStopping) := by
  have hasked : (askedMachine .unix snapshotCodec.line).Run
      (startTask .unix exampleRoute [], exampleWorld)
      (atMainLoop .unix exampleRoute, exampleAsked) :=
    (run_mainLoop askedMachine_allows "2026-01-01T00:00:01Z" exampleWorld).tail
      (.env ⟨.requestStop .cancelled, .inr ⟨_, rfl, rfl⟩⟩)
  have hselect : (askedMachine .unix snapshotCodec.line).act .selectMain exampleAsked
      (.stop .cancelled) { exampleAsked with stopChanged := false } :=
    ⟨⟨rfl, rfl, rfl⟩, trivial⟩
  have hupdate : (askedMachine .unix snapshotCodec.line).act
      (.update .graceful (toGraceful .unix exampleRoute .cancelled))
      { exampleAsked with stopChanged := false } () exampleStopping :=
    ⟨⟨"2026-01-01T00:00:02Z", rfl⟩, trivial⟩
  exact ⟨_, (hasked.tail (.act hselect)).tail (.act hupdate)⟩

/-- … and before that the request was in the cell. -/
theorem status_has_cause_cancelled :
    ∃ p past, (askedMachine .unix snapshotCodec.line).remember.Run
        (startTask .unix exampleRoute [], exampleWorld, []) (p, exampleStopping, past) ∧
      Once (World.Gives .cancelled) (exampleStopping, past) := by
  obtain ⟨p, hp⟩ := run_exampleStopping
  obtain ⟨past, hpast⟩ := hp.remembered []
  have h := status_has_cause .unix exampleRoute [] snapshotCodec.line exampleWorld
    exampleWorld_fresh rfl p exampleStopping past hpast
  exact ⟨p, past, hpast, h.reason _ rfl⟩

end

end CommandApi
