import CommandApi.Process.World

/-!
# Executions that exist

How the runner gets from its start to its main loop when everything goes well, and what it does when
the first event it writes for the running task cannot be written.  The lemmas follow the functions
of `CommandApi.Process.Program` and hold in every world; they are how concrete executions are put
together.
-/

set_option autoImplicit false

namespace CommandApi

open Async

variable {P : Platform} {route : ResolvedRoute} {args : List String}
  {line : TaskSnapshot → List UInt8} {M : Machine runner World} {w u : World}

/-- The machine lets every operation succeed as `taskMachine` does; it may forbid that one fails,
and what the error handler does. -/
def Allows (P : Platform) (line : TaskSnapshot → List UInt8) (M : Machine runner World) : Prop :=
  ∀ (o : Op) (w : World) (r : runner.Resp o) (u : World), taskEffect P line o w r u →
    ¬ o.Fails r → o.Own → M.act o w r u

theorem taskMachine_allows : Allows P line (taskMachine P line) := fun _ _ _ _ h _ _ ↦ h

/-! ## Calls -/

theorem run_attemptCall (hM : Allows P line M) {c : Fallible}
    (h : callEffect P line c w (.ok ()) u) : M.Run (attemptCall c, w) (.ret (), u) :=
  .single (.act (S := runner) (o := .fallible c) (r := .ok ()) (hM _ _ _ _ h id nofun))

theorem run_attemptCall_context (hM : Allows P line M) {c : Fallible} (text : String)
    (h : callEffect P line c w (.ok ()) u) :
    M.Run ((attemptCall c).context text, w) (.ret (), u) :=
  (run_attemptCall hM h).mapError _

/-- A program that ends in a value, and the one after it. -/
theorem run_then {α β : Type} {p : Task α} {f : α → Task β} {a : α} {c : Task β × World}
    (h : M.Run (p, w) (.ret a, u)) (hf : M.Run (f a, u) c) : M.Run (p >>= f, w) c :=
  (h.bind f).trans hf

/-! ## To the main loop -/

/-- The readers have been started. -/
def World.reading (streams : List OutputStream) (w : World) : World :=
  streams.foldl (fun w s ↦ w.setReader s .running) w

/-- The readers have been started, and the worker has been spawned. -/
def World.launched (streams : List OutputStream) (w : World) : World :=
  { w.reading streams with worker := .alive }

theorem run_startReaders (hM : Allows P line M) (streams : List OutputStream) (w : World) :
    M.Run (startReaders streams, w) (.ret (), w.reading streams) := by
  induction streams generalizing w with
  | nil => exact .refl
  | cons s streams ih =>
    refine run_then (run_attemptCall hM (u := w) rfl) ?_
    have hstart : M.act (.startReader s) w () (w.setReader s .running) := hM _ _ _ _ rfl id nofun
    exact run_then (Machine.Run.perform hstart) (ih _)

theorem run_launch (hM : Allows P line M) (streams : List OutputStream) (spec : WorkerSpec)
    (w : World) : M.Run (launch streams spec, w) (.ret (), w.launched streams) := by
  refine run_then (run_attemptCall hM (u := w) rfl) ?_
  refine run_then (run_startReaders hM streams w) ?_
  refine run_then (run_attemptCall_context hM (u := w.reading streams) _ rfl) ?_
  refine run_then (run_attemptCall hM (u := w.reading streams) rfl) ?_
  refine run_then (run_attemptCall_context hM (u := w.launched streams) _ rfl) ?_
  refine run_then (run_attemptCall hM (u := w.launched streams) rfl) ?_
  refine run_then (run_attemptCall_context hM (u := w.launched streams) _ rfl) ?_
  refine run_then (run_attemptCall hM (u := w.launched streams) rfl) ?_
  refine run_then (run_attemptCall_context hM (u := w.launched streams) _ rfl) ?_
  exact run_attemptCall hM rfl

/-- What `start_task` does once the locals of `run_task` are dropped. -/
def afterLeave (result : Except String Unit) : Task Unit := do
  reportError result
  perform .markFinished
  perform .dropStore

/-- What `start_task` does with the result of `run_task`. -/
def handleResult (result : Except String Unit) : Task Unit := do
  perform .leaveRunTask
  afterLeave result

/-- What `run_task` does with the result of its main loop. -/
def afterLoop (P : Platform) (route : ResolvedRoute) :
    ExitStatus × Option StopReason → Task Unit
  | (exitStatus, stopReason) => do
    let stopReason ← awaitTree P stopReason
    finish route.outputMode.streams stopReason exitStatus

/-- What `run_task` does once the task counts as running. -/
def afterRunning (P : Platform) (route : ResolvedRoute) : Task Unit := do
  perform .armDeadline
  mainLoop P route >>= afterLoop P route

/-- An execution of `run_task` is one of `start_task`. -/
theorem run_startTask {p : Task Unit} (h : M.Run (runTask P route args, w) (p, u)) :
    M.Run (startTask P route args, w) (p.attempt >>= handleResult, u) :=
  h.attempt.bind handleResult

/-- The task has just become visible as running. -/
def World.begun (route : ResolvedRoute) (now : String) (w : World) : World :=
  (w.launched route.outputMode.streams).update (toRunning now)

/-- The runner in front of the event that says so. -/
def atRunning (P : Platform) (route : ResolvedRoute) : Task Unit :=
  (attemptCall .persist >>= fun _ ↦ afterRunning P route).attempt >>= handleResult

theorem run_toRunning (hM : Allows P line M) (now : String) (w : World) :
    M.Run (startTask P route args, w) (atRunning P route, w.begun route now) := by
  refine run_startTask (run_then (run_launch hM _ _ w) ?_)
  exact .single (.act (r := ()) (hM _ _ _ _ ⟨now, rfl⟩ id nofun))

/-- The event of the visible snapshot has been written. -/
def World.persisted (line : TaskSnapshot → List UInt8) (w : World) : World :=
  { w with events := w.events ++ line w.visible }

/-- The runner in front of its main loop. -/
def atMainLoop (P : Platform) (route : ResolvedRoute) : Task Unit :=
  (mainLoop P route >>= afterLoop P route).attempt >>= handleResult

/-- The world when the runner first gets there. -/
def World.looping (line : TaskSnapshot → List UInt8) (route : ResolvedRoute) (now : String)
    (w : World) : World :=
  { (w.begun route now).persisted line with deadline := false }

theorem run_mainLoop (hM : Allows P line M) (now : String) (w : World) :
    M.Run (startTask P route args, w) (atMainLoop P route, w.looping line route now) := by
  have hpersist : M.act (.fallible .persist) (w.begun route now) (.ok ())
      ((w.begun route now).persisted line) := hM _ _ _ _ rfl id nofun
  have harm : M.act .armDeadline ((w.begun route now).persisted line) ()
      (w.looping line route now) := hM _ _ _ _ rfl id nofun
  exact ((run_toRunning hM now w).tail (.act hpersist)).tail (.act harm)

/-! ## To the error handler -/

/-- The error handler has made the task visible as failed. -/
def World.reported (P : Platform) (error now : String) (w : World) : World :=
  (w.left P).update (toExecutorError error now)

/-- The pipe for the output cannot be made. -/
theorem run_pipe_error (e : String) (w : World) :
    (taskMachine P line).Run (startTask P route args, w) (handleResult (.error e), w) :=
  .single (.act (S := runner) (o := .fallible .pipe) (r := .error e) rfl)

/-- A part of the line of the visible snapshot has been written. -/
def World.torn (line : TaskSnapshot → List UInt8) (n : ℕ) (w : World) : World :=
  { w with events := w.events ++ (line w.visible).take n }

/-- The event of the running task cannot be written. -/
theorem run_persist_error (e now : String) (w : World) :
    (taskMachine P line).Run (startTask P route args, w)
      (handleResult (.error e), (w.begun route now).torn line 0) := by
  refine (run_toRunning taskMachine_allows now w).tail ?_
  exact .act (S := runner) (o := .fallible .persist) (r := .error e) ⟨0, rfl⟩

/-- What `start_task` does behind the change the error handler makes. -/
def afterReport : Task Unit :=
  (attemptCall .persist).attempt (δ := String) >>= (fun _ ↦ pure ()) >>= fun _ ↦ do
    perform .markFinished
    perform .dropStore

theorem run_reportError (e now : String) (w : World) :
    (taskMachine P line).Run (handleResult (.error e), w) (afterReport, w.reported P e now) := by
  have hleave : (taskMachine P line).act .leaveRunTask w () (w.left P) := rfl
  have hupdate : (taskMachine P line).act (.update .executorError (toExecutorError e)) (w.left P) ()
      (w.reported P e now) := ⟨now, rfl⟩
  exact (Relation.ReflTransGen.single (.act hleave)).tail (.act hupdate)

/-- … and writes the event. -/
theorem run_afterReport (w : World) :
    (taskMachine P line).Run (afterReport, w)
      (perform .markFinished >>= fun _ ↦ perform .dropStore,
        w.persisted line) :=
  .single (.act (S := runner) (o := .fallible .persist) (r := .ok ()) rfl)

/-- A route for the executions below. -/
def exampleRoute : ResolvedRoute where
  path := "/jobs/nightly"
  executor := .bash
  program := ⟨true, ["usr", "bin", "bash"]⟩
  script := ⟨true, ["srv", "nightly.sh"]⟩
  fixedArgs := []
  requestArgs := {}
  requestArgPatterns := []
  workingDirectory := ⟨true, ["srv"]⟩
  env := []
  maxConcurrency := 1
  maxExecutionSeconds := 60
  gracefulShutdownSeconds := 10
  mergeStdoutStderr := false
  outputEncoding := .utf8

end CommandApi
