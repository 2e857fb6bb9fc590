import CommandApi.Async.Prog
import CommandApi.Config.Types

/-!
# The runner of a task

`src/process/mod.rs`, as programs over a signature of effects.  `startTask` is the future that
`start_task` spawns; `runTask`, `stopProcess` and `forceStopProcess` are the three functions it is
made of, each line of the source one operation.

The operations are the places where the runner meets the rest of the world: a call that can fail
(`Fallible`), the locked part of `TaskRecord::transition` (`Op.update`), a `select!`, an await, a
drop whose moment matters.  `tokio::select!` picks any branch that is ready, so its answer is an
event and the machine that runs the program says which events are possible; the arms of the main
loop that only `continue` (a closed channel, a `None` in the cell) leave it at the same `select!`
and have no event of their own.

Errors are the texts `anyhow` would print with `{error:#}`.
-/

set_option autoImplicit false

namespace CommandApi

open Async

/-! ## Platform texts -/

namespace Platform

def gracefulMethod : Platform → String
  | unix => "process_group_sigterm"
  | windows => "ctrl_break_event"

def forceMethod : Platform → String
  | unix => "process_group_sigkill"
  | windows => "terminate_job_object"

def gracefulSignal : Platform → Option String
  | unix => some "SIGTERM"
  | windows => some "CTRL_BREAK"

def forceSignal : Platform → Option String
  | unix => some "SIGKILL"
  | windows => none

end Platform

/-! ## The signature -/

/-- The message that tells the worker what to run. -/
structure WorkerSpec where
  executor : Executor
  program : Path
  script : Path
  fixedArgs : List String
  requestArgs : List String
  workingDirectory : Path
  env : List (String × String)
  gracefulShutdownSeconds : ℕ
  deriving DecidableEq, Repr

/-- The calls that return a `Result` and nothing else of interest. -/
inductive Fallible
  | pipe
  | cloneReader
  | currentExe
  | treeNew
  | spawn
  | attach
  | takeStdin
  | encodeSpec
  | writeSpec (spec : WorkerSpec)
  | flushSpec
  | persist
  | graceful
  | force
  deriving DecidableEq, Repr

/-- The places that call `TaskRecord::transition`. -/
inductive Site
  | running
  | graceful
  | forced
  | descendants
  | final
  | executorError
  deriving DecidableEq, Repr

/-- What can end the main `select!` of `run_task`. -/
inductive MainEvent
  | exited (result : Except String ExitStatus)
  | deadline
  | stop (reason : StopReason)

/-- What can end the first `select!` of `stop_process`. -/
inductive GraceEvent
  | exited (result : Except String ExitStatus)
  | elapsed
  | force

/-- What can end the second `select!` of `stop_process`. -/
inductive EmptyEvent
  | empty (result : Except String Unit)
  | elapsed
  | force

/-- What joining an output reader answers. -/
inductive JoinEvent
  | ended (result : Except String Unit)
  | crashed (error : String)

inductive Op
  | fallible (c : Fallible)
  | startReader (stream : OutputStream)
  | update (site : Site) (f : String → TaskSnapshot → TaskSnapshot)
  | armDeadline
  | selectMain
  | writeTerminate
  | armGrace
  | selectGrace
  | selectEmpty
  | childWait
  | waitEmpty
  | waitEmptyUntilDeadline
  | dropControl
  | joinReader (stream : OutputStream)
  | dropPermits
  | leaveRunTask
  | markFinished
  | dropStore

/-- The effects of the runner.  `waitEmptyUntilDeadline` answers `none` when the deadline comes
first; `update` picks the time its closure reads; every other operation without an answer of its
own answers `()`. -/
abbrev runner : Signature where
  Op := Op
  Resp
    | .fallible _ => Except String Unit
    | .selectMain => MainEvent
    | .selectGrace => GraceEvent
    | .selectEmpty => EmptyEvent
    | .childWait => Except String ExitStatus
    | .waitEmpty => Except String Unit
    | .waitEmptyUntilDeadline => Option (Except String Unit)
    | .joinReader _ => JoinEvent
    | .startReader _ | .update _ _ | .armDeadline | .writeTerminate | .armGrace | .dropControl
    | .dropPermits | .leaveRunTask | .markFinished | .dropStore => Unit

instance (o : Op) : Nonempty (runner.Resp o) :=
  match o with
  | .fallible _ | .waitEmpty => ⟨.ok ()⟩
  | .selectMain => ⟨.deadline⟩
  | .selectGrace => ⟨.elapsed⟩
  | .selectEmpty => ⟨.elapsed⟩
  | .childWait => ⟨.ok (.exited 0)⟩
  | .waitEmptyUntilDeadline => ⟨none⟩
  | .joinReader _ => ⟨.ended (.ok ())⟩
  | .startReader _ | .update _ _ | .armDeadline | .writeTerminate | .armGrace | .dropControl
  | .dropPermits | .leaveRunTask | .markFinished | .dropStore => ⟨()⟩

/-- The answers that make `run_task` return an error. -/
def Op.Fails : (o : Op) → runner.Resp o → Prop
  | .fallible _, .error _ => True
  | .selectMain, .exited (.error _) => True
  | .selectGrace, .exited (.error _) => True
  | .selectEmpty, .empty (.error _) => True
  | .childWait, .error _ => True
  | .waitEmpty, .error _ => True
  | .joinReader _, .ended (.error _) => True
  | .joinReader _, .crashed _ => True
  | _, _ => False

/-- The operations that are not the error handler's. -/
def Op.Own (o : Op) : Prop := ∀ f, o ≠ .update .executorError f

/-- What `run_task` makes of the error of a call. -/
def Fallible.errorText : Fallible → String → String
  | .currentExe, e => "无法确定 command-api 可执行文件路径" ++ ": " ++ e
  | .spawn, e => "无法启动内部任务 Worker" ++ ": " ++ e
  | .takeStdin, e => "无法打开 Worker 控制管道" ++ ": " ++ e
  | .writeSpec _, e => "无法初始化任务 Worker" ++ ": " ++ e
  | _, e => e

/-- The text of the error `run_task` returns for an answer, if it returns one. -/
def Op.errorText : (o : Op) → runner.Resp o → Option String
  | .fallible c, .error e => some (c.errorText e)
  | .selectMain, .exited (.error e) => some ("等待 Worker 退出失败" ++ ": " ++ e)
  | .selectGrace, .exited (.error e) => some ("等待 Worker 平滑退出失败" ++ ": " ++ e)
  | .selectEmpty, .empty (.error e) => some e
  | .childWait, .error e => some ("等待 Worker 强制退出失败" ++ ": " ++ e)
  | .waitEmpty, .error e => some e
  | .joinReader _, .ended (.error e) => some e
  | .joinReader _, .crashed e => some s!"输出读取任务崩溃: {e}"
  | _, _ => none

/-- The operations at which a poll can end although no event is waited for: the write lock of the
snapshot, the file I/O of `persist` and the writes to the control pipe. -/
def Op.Suspends : Op → Prop
  | .update _ _ | .writeTerminate => True
  | .fallible .persist | .fallible (.writeSpec _) | .fallible .flushSpec => True
  | _ => False

/-- A program of the runner. -/
abbrev Task (α : Type) := Prog runner String α

/-- Perform one operation of the runner. -/
abbrev perform (o : Op) : Task (runner.Resp o) := Prog.perform (S := runner) o

/-- A call followed by `?`. -/
def attemptCall (c : Fallible) : Task Unit :=
  perform (.fallible c) >>= Prog.ofExcept

/-- `TaskRecord::transition`: change the snapshot under the write lock, release it, append the new
snapshot to the log. -/
def transition (site : Site) (f : String → TaskSnapshot → TaskSnapshot) : Task Unit := do
  perform (.update site f)
  attemptCall .persist

/-! ## The functions -/

/-- The change made when the worker has been told what to run. -/
def toRunning (now : String) (s : TaskSnapshot) : TaskSnapshot :=
  { s with status := .running, startedAt := some now }

/-- The change `stop_process` makes when it asks for a graceful exit. -/
def toGraceful (P : Platform) (route : ResolvedRoute) (reason : StopReason) (_ : String)
    (s : TaskSnapshot) : TaskSnapshot :=
  { s with
    status := .stopping
    termination := some
      { reason
        gracefulAttempted := true
        forced := false
        method := P.gracefulMethod
        signal := P.gracefulSignal
        message := some s!"已请求平滑退出，宽限期 {route.gracefulShutdownSeconds} 秒" } }

/-- The change `force_stop_process` makes. -/
def toForced (P : Platform) (reason : StopReason) (gracefulAttempted : Bool) (_ : String)
    (s : TaskSnapshot) : TaskSnapshot :=
  { s with
    status := .stopping
    termination := some
      { reason
        gracefulAttempted
        forced := true
        method := P.forceMethod
        signal := P.forceSignal
        message := some <|
          if gracefulAttempted then
            if reason = .forceKilled then "收到强制终止请求，已立即终止整个进程树"
            else "平滑退出宽限期已结束，已强制终止整个进程树"
          else "已立即强制终止整个进程树，未尝试平滑退出" } }

/-- The change made when the script has exited but its children outlive the deadline. -/
def toDescendantsForced (P : Platform) (_ : String) (s : TaskSnapshot) : TaskSnapshot :=
  { s with
    status := .stopping
    termination := some
      { reason := .timeout
        gracefulAttempted := false
        forced := true
        method := P.forceMethod
        signal := P.forceSignal
        message := some "主脚本已经退出，但子进程超过最大执行时间，已强制终止进程树" } }

/-- The terminal status for a way of stopping and an exit status. -/
def finalStatus (stopReason : Option StopReason) (exitStatus : ExitStatus) : TaskStatus :=
  match stopReason with
  | some .timeout => .timedOut
  | some .cancelled => .cancelled
  | some .forceKilled => .killed
  | some .serverShutdown | some .serverRestart | some .parentExited => .interrupted
  | some .loggingFailure => .failed
  | none => if exitStatus.success then .succeeded else .failed

/-- The error recorded for a task that ends as `Failed` without one. -/
def failureText (stopReason : Option StopReason) (exitCode : Option Int32) : String :=
  match stopReason with
  | some .loggingFailure => "写入任务日志失败，任务已终止"
  | _ =>
    let code := match exitCode with
      | some c => toString c.toInt
      | none => "unknown"
    s!"脚本退出码非零: {code}"

/-- The last change `run_task` makes. -/
def toFinal (stopReason : Option StopReason) (exitStatus : ExitStatus) (now : String)
    (s : TaskSnapshot) : TaskSnapshot :=
  let status := finalStatus stopReason exitStatus
  { s with
    status
    finishedAt := some now
    exitCode := exitStatus.code
    error := if status = .failed ∧ s.error = none
      then some (failureText stopReason exitStatus.code) else s.error }

/-- The change `start_task` makes when `run_task` has returned an error. -/
def toExecutorError (error now : String) (s : TaskSnapshot) : TaskSnapshot :=
  if s.status.isFinished then s
  else
    { s with
      status := .failed
      finishedAt := some now
      error := some s!"任务执行器异常: {error}" }

/-- `Capture::start_readers`: one blocking reader for each pipe. -/
def startReaders : List OutputStream → Task Unit
  | [] => pure ()
  | stream :: rest => do
    attemptCall .cloneReader
    perform (.startReader stream)
    startReaders rest

/-- The loop that joins the readers. -/
def joinReaders : List OutputStream → Task Unit
  | [] => pure ()
  | stream :: rest => do
    match ← perform (.joinReader stream) with
    | .crashed error => .fail s!"输出读取任务崩溃: {error}"
    | .ended (.error error) => .fail error
    | .ended (.ok ()) => joinReaders rest

/-- The exit status `force_stop_process` returns: the one it was given, or the one it waits for. -/
def forcedStatus : Option ExitStatus → Task ExitStatus
  | some status => pure status
  | none => do
    let result ← perform .childWait
    (Prog.ofExcept result).context "等待 Worker 强制退出失败"

def forceStopProcess (P : Platform) (reason : StopReason) (gracefulAttempted : Bool)
    (workerStatus : Option ExitStatus) : Task ExitStatus := do
  transition .forced (toForced P reason gracefulAttempted)
  attemptCall .force
  let status ← forcedStatus workerStatus
  let empty ← perform .waitEmpty
  Prog.ofExcept empty
  pure status

/-- The second half of `stop_process`: the worker is gone or the grace period is over, and the
tree has until the grace deadline to become empty. -/
def stopDescendants (P : Platform) (reason : StopReason) (workerStatus : Option ExitStatus) :
    Task (ExitStatus × StopReason) := do
  match workerStatus with
  | some status =>
    match ← perform .selectEmpty with
    | .empty result => do
      Prog.ofExcept result
      pure (status, reason)
    | .elapsed => do
      let status ← forceStopProcess P reason true (some status)
      pure (status, reason)
    | .force => do
      let status ← forceStopProcess P .forceKilled true (some status)
      pure (status, .forceKilled)
  | none => do
    let status ← forceStopProcess P reason true none
    pure (status, reason)

def stopProcess (P : Platform) (route : ResolvedRoute) (reason : StopReason) :
    Task (ExitStatus × StopReason) := do
  if reason = .forceKilled then
    let status ← forceStopProcess P reason false none
    pure (status, reason)
  else
    transition .graceful (toGraceful P route reason)
    perform .writeTerminate
    attemptCall .graceful
    perform .armGrace
    match ← perform .selectGrace with
    | .exited result => do
      let status ← (Prog.ofExcept result).context "等待 Worker 平滑退出失败"
      stopDescendants P reason (some status)
    | .elapsed => stopDescendants P reason none
    | .force => do
      let status ← forceStopProcess P .forceKilled true none
      pure (status, .forceKilled)

/-- The main loop of `run_task`: the exit status of the worker, and why it was stopped. -/
def mainLoop (P : Platform) (route : ResolvedRoute) : Task (ExitStatus × Option StopReason) := do
  match ← perform .selectMain with
  | .exited result => do
    let status ← (Prog.ofExcept result).context "等待 Worker 退出失败"
    pure (status, none)
  | .deadline => do
    let (status, reason) ← stopProcess P route .timeout
    pure (status, some reason)
  | .stop reason => do
    let (status, reason) ← stopProcess P route reason
    pure (status, some reason)

/-- After the main loop: wait until the tree is empty.  A tree that is still alive at the deadline
is killed, and the task counts as timed out. -/
def awaitTree (P : Platform) : Option StopReason → Task (Option StopReason)
  | none => do
    match ← perform .waitEmptyUntilDeadline with
    | some _ => pure none
    | none => do
      attemptCall .force
      transition .descendants (toDescendantsForced P)
      let empty ← perform .waitEmpty
      Prog.ofExcept empty
      pure (some .timeout)
  | some reason => do
    let empty ← perform .waitEmpty
    Prog.ofExcept empty
    pure (some reason)

/-- Everything `run_task` does before the worker runs. -/
def launch (streams : List OutputStream) (spec : WorkerSpec) : Task Unit := do
  attemptCall .pipe
  startReaders streams
  (attemptCall .currentExe).context "无法确定 command-api 可执行文件路径"
  attemptCall .treeNew
  (attemptCall .spawn).context "无法启动内部任务 Worker"
  attemptCall .attach
  (attemptCall .takeStdin).context "无法打开 Worker 控制管道"
  attemptCall .encodeSpec
  (attemptCall (.writeSpec spec)).context "无法初始化任务 Worker"
  attemptCall .flushSpec

/-- Everything `run_task` does after the worker has exited. -/
def finish (streams : List OutputStream) (stopReason : Option StopReason)
    (exitStatus : ExitStatus) : Task Unit := do
  perform .dropControl
  joinReaders streams
  perform .dropPermits
  transition .final (toFinal stopReason exitStatus)

/-- The message `run_task` sends to the worker. -/
def workerSpec (route : ResolvedRoute) (requestArgs : List String) : WorkerSpec where
  executor := route.executor
  program := route.program
  script := route.script
  fixedArgs := route.fixedArgs
  requestArgs
  workingDirectory := route.workingDirectory
  env := route.env
  gracefulShutdownSeconds := route.gracefulShutdownSeconds

/-- The output mode of a route. -/
def ResolvedRoute.outputMode (route : ResolvedRoute) : OutputMode :=
  if route.mergeStdoutStderr then .combined else .separate

def runTask (P : Platform) (route : ResolvedRoute) (requestArgs : List String) : Task Unit := do
  launch route.outputMode.streams (workerSpec route requestArgs)
  transition .running toRunning
  perform .armDeadline
  let (exitStatus, stopReason) ← mainLoop P route
  let stopReason ← awaitTree P stopReason
  finish route.outputMode.streams stopReason exitStatus

/-- What `start_task` does about an error of `run_task`; an error of its own is dropped. -/
def reportError : Except String Unit → Task Unit
  | .ok () => pure ()
  | .error error => do
    let _ ← (transition .executorError (toExecutorError error)).attempt (δ := String)
    pure ()

/-- The future `start_task` spawns.  Returning from `run_task` drops what it owns (the permits,
the control pipe, the process tree), on every path, before the caller looks at the result; the
spawned block itself drops its `Arc<TaskStore>` last. -/
def startTask (P : Platform) (route : ResolvedRoute) (requestArgs : List String) : Task Unit := do
  let result ← (runTask P route requestArgs).attempt
  perform .leaveRunTask
  reportError result
  perform .markFinished
  perform .dropStore

/-! ## The operations of a function

Which of the operations each helper performs, for a class `ok` of them that has them all. -/

section

variable {ok : Op → Prop}

theorem only_attemptCall {c : Fallible} (h : ok (.fallible c)) : (attemptCall c).Only ok :=
  (Prog.Only.perform h).bind Prog.Only.ofExcept

theorem only_transition {site : Site} (f : String → TaskSnapshot → TaskSnapshot)
    (hu : ∀ f, ok (.update site f)) (hp : ok (.fallible .persist)) :
    (transition site f).Only ok :=
  (Prog.Only.perform (hu f)).bind fun _ ↦ only_attemptCall hp

theorem only_startReaders (streams : List OutputStream) (hc : ok (.fallible .cloneReader))
    (hs : ∀ s, ok (.startReader s)) : (startReaders streams).Only ok := by
  induction streams with
  | nil => exact trivial
  | cons s rest ih =>
    exact (only_attemptCall hc).bind fun _ ↦ (Prog.Only.perform (hs s)).bind fun _ ↦ ih

theorem only_joinReaders (streams : List OutputStream) (hj : ∀ s, ok (.joinReader s)) :
    (joinReaders streams).Only ok := by
  induction streams with
  | nil => exact trivial
  | cons s rest ih =>
    refine (Prog.Only.perform (hj s)).bind fun r ↦ ?_
    match r with
    | .crashed e => exact trivial
    | .ended (.error e) => exact trivial
    | .ended (.ok ()) => exact ih

theorem only_finish (streams : List OutputStream) (reason : Option StopReason)
    (status : ExitStatus) (hc : ok .dropControl) (hj : ∀ s, ok (.joinReader s))
    (hd : ok .dropPermits) (hu : ∀ f, ok (.update .final f)) (hp : ok (.fallible .persist)) :
    (finish streams reason status).Only ok := by
  refine (Prog.Only.perform hc).bind fun _ ↦ (only_joinReaders streams hj).bind fun _ ↦ ?_
  exact (Prog.Only.perform hd).bind fun _ ↦ only_transition _ hu hp

theorem only_reportError (result : Except String Unit) (hu : ∀ f, ok (.update .executorError f))
    (hp : ok (.fallible .persist)) : (reportError result).Only ok := by
  cases result with
  | ok u => exact trivial
  | error e => exact (only_transition _ hu hp).attempt.bind fun _ ↦ trivial

end

/-! ## Behind the start of the worker

What `run_task` does behind `launch` is made of a few kinds of operations, which is all that some
facts about `launch` need to know of it. -/

/-- The operations `run_task` performs behind `launch`. -/
def Op.supervises : Op → Bool
  | .fallible .persist | .fallible .graceful | .fallible .force => true
  | .fallible _ | .startReader _ | .leaveRunTask | .markFinished | .dropStore => false
  | _ => true

/-- The program performs only such operations. -/
abbrev Supervises {ε α : Type} (p : Prog runner ε α) : Prop :=
  p.Only fun o : Op ↦ o.supervises = true

section

variable {P : Platform} {route : ResolvedRoute}

theorem supervises_perform {o : Op} (h : o.supervises = true) : Supervises (perform o) := .perform h

theorem supervises_ofExcept {α : Type} (x : Except String α) :
    Supervises (Prog.ofExcept (S := runner) x) := .ofExcept x

theorem supervises_attemptCall {c : Fallible} (h : (Op.fallible c).supervises = true) :
    Supervises (attemptCall c) := only_attemptCall h

theorem supervises_transition {site : Site} (f : String → TaskSnapshot → TaskSnapshot) :
    Supervises (transition site f) := only_transition f (fun _ ↦ rfl) rfl

theorem supervises_forceStopProcess (reason : StopReason) (attempted : Bool)
    (status : Option ExitStatus) : Supervises (forceStopProcess P reason attempted status) := by
  have hstatus : Supervises (forcedStatus status) := by
    cases status with
    | some s => exact trivial
    | none => exact (supervises_perform rfl).bind fun _ ↦ (supervises_ofExcept _).mapError _
  refine (supervises_transition _).bind fun _ ↦ ?_
  refine (supervises_attemptCall rfl).bind fun _ ↦ hstatus.bind fun _ ↦ ?_
  refine (supervises_perform rfl).bind fun _ ↦ (supervises_ofExcept _).bind fun _ ↦ ?_
  exact trivial

theorem supervises_stopDescendants (reason : StopReason) (status : Option ExitStatus) :
    Supervises (stopDescendants P reason status) := by
  have hforce : ∀ r st, Supervises (forceStopProcess P r true st >>= fun s ↦ pure (s, r)) :=
    fun r st ↦ (supervises_forceStopProcess r true st).bind fun _ ↦ trivial
  cases status with
  | none => exact hforce reason none
  | some s =>
    refine (supervises_perform rfl).bind fun r ↦ ?_
    cases r with
    | empty result => exact (supervises_ofExcept _).bind fun _ ↦ trivial
    | elapsed => exact hforce reason (some s)
    | force => exact hforce .forceKilled (some s)

theorem supervises_stopProcess (reason : StopReason) : Supervises (stopProcess P route reason) := by
  have hforce : ∀ r b, Supervises (forceStopProcess P r b none >>= fun s ↦ pure (s, r)) :=
    fun r b ↦ (supervises_forceStopProcess r b none).bind fun _ ↦ trivial
  refine Prog.Only.ite ?_ ?_
  · exact hforce reason false
  · refine (supervises_transition _).bind fun _ ↦ (supervises_perform rfl).bind fun _ ↦ ?_
    refine (supervises_attemptCall rfl).bind fun _ ↦ (supervises_perform rfl).bind fun _ ↦ ?_
    refine (supervises_perform rfl).bind fun r ↦ ?_
    cases r with
    | exited result =>
      exact ((supervises_ofExcept _).mapError _).bind fun _ ↦ supervises_stopDescendants _ _
    | elapsed => exact supervises_stopDescendants _ _
    | force => exact hforce .forceKilled true

theorem supervises_mainLoop : Supervises (mainLoop P route) := by
  refine (supervises_perform rfl).bind fun r ↦ ?_
  cases r with
  | exited result => exact ((supervises_ofExcept _).mapError _).bind fun _ ↦ trivial
  | deadline => exact (supervises_stopProcess _).bind fun _ ↦ trivial
  | stop reason => exact (supervises_stopProcess _).bind fun _ ↦ trivial

theorem supervises_awaitTree (reason : Option StopReason) : Supervises (awaitTree P reason) := by
  cases reason with
  | some reason =>
    exact (supervises_perform rfl).bind fun _ ↦ (supervises_ofExcept _).bind fun _ ↦ trivial
  | none =>
    refine (supervises_perform rfl).bind fun r ↦ ?_
    cases r with
    | some _ => exact trivial
    | none =>
      refine (supervises_attemptCall rfl).bind fun _ ↦ (supervises_transition _).bind fun _ ↦ ?_
      exact (supervises_perform rfl).bind fun _ ↦ (supervises_ofExcept _).bind fun _ ↦ trivial

/-- What `run_task` does behind `launch`. -/
def supervise (P : Platform) (route : ResolvedRoute) : Task Unit := do
  transition .running toRunning
  perform .armDeadline
  let (exitStatus, stopReason) ← mainLoop P route
  let stopReason ← awaitTree P stopReason
  finish route.outputMode.streams stopReason exitStatus

theorem runTask_eq (args : List String) : runTask P route args =
    launch route.outputMode.streams (workerSpec route args) >>= fun _ ↦ supervise P route := rfl

theorem supervises_supervise : Supervises (supervise P route) := by
  refine (supervises_transition _).bind fun _ ↦ (supervises_perform rfl).bind fun _ ↦ ?_
  refine supervises_mainLoop.bind fun _ ↦ (supervises_awaitTree _).bind fun _ ↦ ?_
  exact only_finish _ _ _ rfl (fun _ ↦ rfl) rfl (fun _ ↦ rfl) rfl

end

end CommandApi
