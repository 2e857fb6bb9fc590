import CommandApi.Async.Polls
import CommandApi.Process.Lifecycle
import CommandApi.Process.Phases
import CommandApi.Process.Runs

/-!
# The futures of a runner

`run_task` makes one future out of `child.wait()` and hands it to `stop_process` and
`force_stop_process`, which poll it in a `select!`, inside a timeout or on its own; `stop_process`
has another one, `force_requested`, for its two `select!`s.  Either may be polled again only as long
as it is pending.  `taskPoller` carries out the awaits of the runner poll by poll, next to
everything else that goes on.

The programs here are those of `CommandApi.Process.Program` as the source has them where it may
panic: `stop_process` keeps the worker's status as an option and says `expect` in the end.
`Panicking.runTask_eq` says that the panic is in none of their branches.

`futures_polled_once` is the result: whatever is ready when, no future is polled after it has
completed, and a run that does not end in an error has got one exit status, which is the one that
the task is shown with.
-/

set_option autoImplicit false

namespace CommandApi

open Async

/-! ## Programs that may panic -/

inductive Failure
  | error (message : String)
  | panic (message : String)
  deriving DecidableEq, Repr

namespace Panicking

/-- A program of the runner that may panic. -/
abbrev Task (α : Type) := Prog runner Failure α

/-- A function that does not. -/
def lift {α : Type} (p : CommandApi.Task α) : Task α := p.mapError .error

/-- Perform one operation. -/
abbrev perform (o : Op) : Task (runner.Resp o) := Prog.perform (S := runner) o

/-- `Option::expect`. -/
def expect {α : Type} (text : String) : Option α → Task α
  | some a => pure a
  | none => .fail (.panic text)

/-- The end of `stop_process`. -/
def stopped (P : Platform) (reason : StopReason) (workerStatus : Option ExitStatus)
    (treeStopped : Bool) : Task (ExitStatus × StopReason) :=
  if treeStopped then do
    let status ← expect "worker status checked above" workerStatus
    pure (status, reason)
  else do
    let status ← lift (forceStopProcess P reason true workerStatus)
    pure (status, reason)

/-- The second `select!` of `stop_process`. -/
def stopTree (P : Platform) (reason : StopReason) (workerStatus : Option ExitStatus) :
    Task (ExitStatus × StopReason) :=
  if workerStatus.isSome then do
    match ← perform .selectEmpty with
    | .empty result => do
      lift (Prog.ofExcept result)
      stopped P reason workerStatus true
    | .elapsed => stopped P reason workerStatus false
    | .force => do
      let status ← lift (forceStopProcess P .forceKilled true workerStatus)
      pure (status, .forceKilled)
  else stopped P reason workerStatus false

def stopProcess (P : Platform) (route : ResolvedRoute) (reason : StopReason) :
    Task (ExitStatus × StopReason) :=
  if reason = .forceKilled then do
    let status ← lift (forceStopProcess P reason false none)
    pure (status, reason)
  else do
    lift (transition .graceful (toGraceful P route reason))
    perform .writeTerminate
    lift (attemptCall .graceful)
    perform .armGrace
    match ← perform .selectGrace with
    | .exited result => do
      let status ← lift ((Prog.ofExcept result).context "等待 Worker 平滑退出失败")
      stopTree P reason (some status)
    | .elapsed => stopTree P reason none
    | .force => do
      let status ← lift (forceStopProcess P .forceKilled true none)
      pure (status, .forceKilled)

def mainLoop (P : Platform) (route : ResolvedRoute) : Task (ExitStatus × Option StopReason) := do
  match ← perform .selectMain with
  | .exited result => do
    let status ← lift ((Prog.ofExcept result).context "等待 Worker 退出失败")
    pure (status, none)
  | .deadline => do
    let (status, reason) ← stopProcess P route .timeout
    pure (status, some reason)
  | .stop reason => do
    let (status, reason) ← stopProcess P route reason
    pure (status, some reason)

def runTask (P : Platform) (route : ResolvedRoute) (requestArgs : List String) : Task Unit := do
  lift (launch route.outputMode.streams (workerSpec route requestArgs))
  lift (transition .running toRunning)
  perform .armDeadline
  let (exitStatus, stopReason) ← mainLoop P route
  let stopReason ← lift (awaitTree P stopReason)
  lift (finish route.outputMode.streams stopReason exitStatus)

section

variable {P : Platform} {route : ResolvedRoute} {α β : Type}

theorem lift_bind (p : CommandApi.Task α) (f : α → CommandApi.Task β) :
    lift (p >>= f) = lift p >>= fun a ↦ lift (f a) :=
  Prog.mapError_bind _ p f

theorem lift_pure (a : α) : lift (pure a) = pure a := rfl

theorem lift_perform (o : Op) : lift (CommandApi.perform o) = perform o := rfl

/-- The worker's status is there when it is expected. -/
theorem stopTree_eq (reason : StopReason) (workerStatus : Option ExitStatus) :
    stopTree P reason workerStatus = lift (stopDescendants P reason workerStatus) := by
  cases workerStatus with
  | none =>
    simp only [stopTree, stopDescendants, stopped, lift_bind, lift_pure]
    rfl
  | some status =>
    rw [stopTree, stopDescendants, if_pos Option.isSome_some, lift_bind, lift_perform]
    refine bind_congr fun event ↦ ?_
    cases event with
    | empty result => simp only [lift_bind, lift_pure]; rfl
    | elapsed => simp only [lift_bind, lift_pure]; rfl
    | force => simp only [lift_bind, lift_pure]

theorem stopProcess_eq (reason : StopReason) :
    stopProcess P route reason = lift (CommandApi.stopProcess P route reason) := by
  rw [stopProcess, CommandApi.stopProcess]
  split
  · simp only [lift_bind, lift_pure]
  · simp only [lift_bind]
    refine bind_congr fun _ ↦ bind_congr fun _ ↦ bind_congr fun _ ↦ bind_congr fun _ ↦ ?_
    refine bind_congr fun event ↦ ?_
    cases event with
    | exited result => simp only [lift_bind, stopTree_eq]
    | elapsed => exact stopTree_eq reason none
    | force => simp only [lift_bind, lift_pure]

theorem mainLoop_eq : mainLoop P route = lift (CommandApi.mainLoop P route) := by
  rw [mainLoop, CommandApi.mainLoop, lift_bind, lift_perform]
  refine bind_congr fun event ↦ ?_
  cases event with
  | exited result => simp only [lift_bind, lift_pure]
  | deadline => simp only [stopProcess_eq, lift_bind, lift_pure]
  | stop reason => simp only [stopProcess_eq, lift_bind, lift_pure]

/-- **`run_task` does not panic** over the status of its worker. -/
theorem runTask_eq (requestArgs : List String) :
    runTask P route requestArgs = lift (CommandApi.runTask P route requestArgs) := by
  simp only [runTask, CommandApi.runTask, lift_bind, mainLoop_eq]
  rfl

end

end Panicking

/-! ## The futures -/

/-- What the awaits of the runner poll. -/
inductive Future
  /-- `child_wait`. -/
  | childWait
  /-- The timer of the execution deadline. -/
  | deadline
  /-- `stop_rx.changed()`. -/
  | changed
  /-- The timer of the grace deadline. -/
  | graceDeadline
  /-- `force_requested`, which is `wait_for_force_kill`. -/
  | forceRequested
  /-- `tree.wait_empty()`. -/
  | waitEmpty
  deriving DecidableEq, Repr

/-- The branches of an await.  A timeout polls its future and then its timer. -/
def Op.branches : Op → List (List Future)
  | .selectMain => [[.childWait], [.deadline], [.changed]]
  | .selectGrace => [[.childWait, .graceDeadline], [.forceRequested]]
  | .selectEmpty => [[.waitEmpty, .graceDeadline], [.forceRequested]]
  | .childWait => [[.childWait]]
  | .waitEmpty => [[.waitEmpty]]
  | .waitEmptyUntilDeadline => [[.waitEmpty, .deadline]]
  | _ => []

/-- The future is a variable of `run_task` or `stop_process`. -/
def Future.kept : Future → Bool
  | childWait | forceRequested => true
  | _ => false

/-- `child.wait()` answers. -/
def World.ChildAnswer (w : World) : Except String ExitStatus → Prop
  | .ok status => w.worker = .exited status
  | .error _ => True

/-- A poll that finds the future pending.  `wait_for_force_kill` marks what it has seen in the stop
cell. -/
def Future.Pending (P : Platform) : Future → World → World → Prop
  | childWait, w, w' => w.worker = .alive ∧ w' = w
  | deadline, w, w' => w.deadline = false ∧ w' = w
  | changed, w, w' => w.stopChanged = false ∧ w' = w
  | graceDeadline, w, w' => w.grace = false ∧ w' = w
  | forceRequested, w, w' => w.stop ≠ some .forceKilled ∧ w' = { w with stopChanged := false }
  | waitEmpty, w, w' => w.EmptyPending P ∧ w' = w

/-- A poll that finds the future ready, and the answer of the await. -/
inductive Resolves (P : Platform) : (o : Op) → Future → World → runner.Resp o → World → Prop
  | mainExited {w : World} (result : Except String ExitStatus) (h : w.ChildAnswer result) :
      Resolves P .selectMain .childWait w (.exited result) w
  | mainDeadline {w : World} (h : w.deadline = true) :
      Resolves P .selectMain .deadline w .deadline w
  | mainStop {w : World} {reason : StopReason} (h : w.stopChanged = true)
      (hs : w.stop = some reason) :
      Resolves P .selectMain .changed w (.stop reason) { w with stopChanged := false }
  | graceExited {w : World} (result : Except String ExitStatus) (h : w.ChildAnswer result) :
      Resolves P .selectGrace .childWait w (.exited result) w
  | graceElapsed {w : World} (h : w.grace = true) :
      Resolves P .selectGrace .graceDeadline w .elapsed w
  | graceForce {w : World} (h : w.stop = some .forceKilled) :
      Resolves P .selectGrace .forceRequested w .force { w with stopChanged := false }
  | emptied {w : World} (result : Except String Unit) (h : w.EmptyAnswer P result) :
      Resolves P .selectEmpty .waitEmpty w (.empty result) w
  | emptyElapsed {w : World} (h : w.grace = true) :
      Resolves P .selectEmpty .graceDeadline w .elapsed w
  | emptyForce {w : World} (h : w.stop = some .forceKilled) :
      Resolves P .selectEmpty .forceRequested w .force { w with stopChanged := false }
  | childWait {w : World} (result : Except String ExitStatus) (h : w.ChildAnswer result) :
      Resolves P .childWait .childWait w result w
  | waitEmpty {w : World} (result : Except String Unit) (h : w.EmptyAnswer P result) :
      Resolves P .waitEmpty .waitEmpty w result w
  | emptyInTime {w : World} (result : Except String Unit) (h : w.EmptyAnswer P result) :
      Resolves P .waitEmptyUntilDeadline .waitEmpty w (some result) w
  | emptyLate {w : World} (h : w.deadline = true) :
      Resolves P .waitEmptyUntilDeadline .deadline w none w

/-- The exit status that the runner gets with this answer. -/
def Op.obtains : (o : Op) → runner.Resp o → List ExitStatus
  | .selectMain, .exited (.ok status) => [status]
  | .selectGrace, .exited (.ok status) => [status]
  | .childWait, .ok status => [status]
  | _, _ => []

/-- A task world, and the exit statuses that the runner has got. -/
abbrev RunnerWorld := World × List ExitStatus

/-- The runner of a task, poll by poll, next to its surroundings. -/
def taskPoller (P : Platform) (line : TaskSnapshot → List UInt8) :
    Poller runner Future RunnerWorld where
  branches := Op.branches
  kept := Future.kept
  act o u r v := taskEffect P line o u.1 r v.1 ∧ v.2 = u.2
  pending f u v := f.Pending P u.1 v.1 ∧ v.2 = u.2
  ready o f u r v := Resolves P o f u.1 r v.1 ∧ v.2 = u.2 ++ o.obtains r
  -- the arms of the main loop that `continue`: the channel is closed, or there is no reason in it
  again f u v := f = .changed ∧ (v = u ∨
    u.1.stopChanged = true ∧ u.1.stop = none ∧ v = ({ u.1 with stopChanged := false }, u.2))
  env u v := Surroundings P u.1 v.1 ∧ v.2 = u.2

/-! ## The awaits of `taskMachine` are carried out by polls -/

section

variable {P : Platform} {line : TaskSnapshot → List UInt8} {o : Op} {r : runner.Resp o}
  {w w' : World}

theorem answers_first {u : RunnerWorld} {f : Future} {gs : List Future} (i : ℕ)
    (hpass : (o.branches.rotate i).flatten = f :: gs) (h : Resolves P o f u.1 r w') :
    Poller.Answers (taskPoller P line) o u r w' :=
  ⟨i, [], f, gs, _, hpass, nofun, h, rfl⟩

/-- A timer is polled behind the future it is a timeout of. -/
theorem answers_timer {u : RunnerWorld} {f t : Future} {gs : List Future}
    (hpass : (o.branches.rotate 0).flatten = f :: t :: gs) (hf : f.Pending P u.1 u.1)
    (h : Resolves P o t u.1 r w') : Poller.Answers (taskPoller P line) o u r w' := by
  refine ⟨0, [f], t, gs, _, hpass, fun g hg ↦ ?_, h, rfl⟩
  rw [List.mem_singleton.mp hg]
  exact ⟨hf, rfl⟩

/-- Every branch that `taskMachine` may take is the first to be found ready by some poll. -/
theorem taskEffect_polls (h : taskEffect P line o w r w') (x : List ExitStatus) :
    (o.branches = [] ∧ (taskPoller P line).act o (w, x) r (w', x)) ∨
      Poller.Answers (taskPoller P line) o (w, x) r w' := by
  cases o with
  | selectMain =>
    right
    cases r with
    | exited result =>
      cases result with
      | ok status =>
        obtain ⟨hw, rfl⟩ := h
        exact answers_first 0 rfl (.mainExited _ hw)
      | error e =>
        obtain rfl : w' = w := h
        exact answers_first 0 rfl (.mainExited _ trivial)
    | deadline =>
      obtain ⟨hd, rfl⟩ := h
      exact answers_first 1 rfl (.mainDeadline hd)
    | stop reason =>
      obtain ⟨hchanged, hs, rfl⟩ := h
      exact answers_first 2 rfl (.mainStop hchanged hs)
  | selectGrace =>
    right
    cases r with
    | exited result =>
      cases result with
      | ok status =>
        obtain ⟨hw, rfl⟩ := h
        exact answers_first 0 rfl (.graceExited _ hw)
      | error e =>
        obtain rfl : w' = w := h
        exact answers_first 0 rfl (.graceExited _ trivial)
    | elapsed =>
      obtain ⟨hgrace, hw, rfl⟩ := h
      exact answers_timer rfl ⟨hw, rfl⟩ (.graceElapsed hgrace)
    | force =>
      obtain ⟨hs, rfl⟩ := h
      exact answers_first 1 rfl (.graceForce hs)
  | selectEmpty =>
    right
    cases r with
    | empty result =>
      obtain ⟨he, rfl⟩ := h
      exact answers_first 0 rfl (.emptied _ he)
    | elapsed =>
      obtain ⟨hgrace, he, rfl⟩ := h
      exact answers_timer rfl ⟨he, rfl⟩ (.emptyElapsed hgrace)
    | force =>
      obtain ⟨hs, rfl⟩ := h
      exact answers_first 1 rfl (.emptyForce hs)
  | childWait =>
    right
    cases r with
    | ok status =>
      obtain ⟨hw, rfl⟩ := h
      exact answers_first 0 rfl (.childWait _ hw)
    | error e =>
      obtain rfl : w' = w := h
      exact answers_first 0 rfl (.childWait _ trivial)
  | waitEmpty =>
    right
    obtain ⟨he, rfl⟩ := h
    exact answers_first 0 rfl (.waitEmpty _ he)
  | waitEmptyUntilDeadline =>
    right
    cases r with
    | some result =>
      obtain ⟨he, rfl⟩ := h
      exact answers_first 0 rfl (.emptyInTime _ he)
    | none =>
      obtain ⟨hd, he, rfl⟩ := h
      exact answers_timer rfl ⟨he, rfl⟩ (.emptyLate hd)
  | _ => exact .inl ⟨rfl, h, rfl⟩

/-- **Every execution of `taskMachine` is one by polls.** -/
theorem exists_run_polled {ε α : Type} {p q : Prog runner ε α} {v : World}
    (h : (taskMachine P line).Run (p, w) (q, v)) :
    ∃ obtained completed,
      (taskPoller P line).Run (.start p (w, [])) ⟨q, none, (v, obtained), completed⟩ :=
  Poller.exists_run (E := taskPoller P line) (fun _ _ _ _ x hact ↦ taskEffect_polls hact x)
    (fun _ _ _ henv ↦ ⟨henv, rfl⟩) h [] []

end

/-! ## What has completed in each phase -/

/-- The kept future that has completed with this answer. -/
def Op.completes : (o : Op) → runner.Resp o → List Future
  | .selectMain, .exited _ => [.childWait]
  | .selectGrace, .exited _ => [.childWait]
  | .selectGrace, .force => [.forceRequested]
  | .selectEmpty, .force => [.forceRequested]
  | .childWait, _ => [.childWait]
  | _, _ => []

/-- What the runner knows in each phase about the exit code that is shown, the exit statuses it has
got and the futures that have completed. -/
def Awaited : Phase → Option Int32 → List ExitStatus → List Future → Prop
  | .starting, _, obtained, completed | .spawned, _, obtained, completed
  | .running, _, obtained, completed | .stop _, _, obtained, completed
  | .grace _, _, obtained, completed | .waiting _, _, obtained, completed =>
    obtained = [] ∧ completed = []
  | .drain _ status, _, obtained, completed => obtained = [status] ∧ .forceRequested ∉ completed
  | .overdue _ status, _, obtained, completed | .forced _ status, _, obtained, completed =>
    obtained = status.toList ∧ (status = none → .childWait ∉ completed)
  | .stopped _ status, _, obtained, _ | .exited status, _, obtained, _
  | .late status, _, obtained, _ | .lateForced status, _, obtained, _
  | .ending _ _ status, _, obtained, _ | .released _ status, _, obtained, _ => obtained = [status]
  | .published, exitCode, obtained, _ | .returned, exitCode, obtained, _ =>
    ∃ status, obtained = [status] ∧ exitCode = status.code
  | .failed _, _, obtained, _ | .crashed _, _, obtained, _ | .reported, _, obtained, _
  | .marking, _, obtained, _ | .marked, _, obtained, _ | .done, _, obtained, _ =>
    obtained.length ≤ 1

section

variable {P : Platform} {line : TaskSnapshot → List UInt8} {route : ResolvedRoute}
  {u v : RunnerWorld × List Future} {o : Op} {r : runner.Resp o} {φ ψ : Phase}

theorem Op.completes_of_branches (h : o.branches = []) (r : runner.Resp o) :
    o.obtains r = [] ∧ o.completes r = [] := by
  cases o with
  | selectMain | selectGrace | selectEmpty | childWait => cases h
  | _ => exact ⟨rfl, rfl⟩

theorem Resolves.note {f : Future} {w w' : World} (h : Resolves P o f w r w')
    (completed : List Future) :
    (taskPoller P line).note f completed = o.completes r ++ completed := by
  cases h <;> rfl

/-- What a whole await adds. -/
theorem awaits_act (h : (taskPoller P line).awaits.act o u r v) :
    v.1.2 = u.1.2 ++ o.obtains r ∧ v.2 = o.completes r ++ u.2 := by
  rcases h with ⟨hb, ⟨-, hobtained⟩, hcompleted⟩ | ⟨f, -, ⟨hresolves, hobtained⟩, hcompleted⟩
  · obtain ⟨hnone, hnone'⟩ := Op.completes_of_branches hb r
    rw [hnone, hnone', List.append_nil, List.nil_append]
    exact ⟨hobtained, hcompleted⟩
  · exact ⟨hobtained, hcompleted.trans (hresolves.note u.2)⟩

theorem Future.Pending.snapshot {f : Future} {w w' : World} (h : f.Pending P w w') :
    w'.snapshot = w.snapshot := by
  cases f <;> (obtain ⟨-, rfl⟩ := h; rfl)

theorem awaits_env (h : (taskPoller P line).awaits.env u v) :
    v.1.1.snapshot = u.1.1.snapshot ∧ v.1.2 = u.1.2 ∧ v.2 = u.2 := by
  obtain ⟨⟨henv, hobtained⟩ | ⟨f, ⟨hpending, hobtained⟩ | ⟨-, hsame | ⟨-, -, hsame⟩⟩⟩,
    hcompleted⟩ := h
  · exact ⟨henv.frame.1, hobtained, hcompleted⟩
  · exact ⟨hpending.snapshot, hobtained, hcompleted⟩
  · rw [hsame]
    exact ⟨rfl, rfl, hcompleted⟩
  · rw [hsame]
    exact ⟨rfl, rfl, hcompleted⟩

/-- An operation that is no await. -/
theorem awaits_effect (h : (taskPoller P line).awaits.act o u r v) (hb : o.branches = []) :
    taskEffect P line o u.1.1 r v.1.1 := by
  rcases h with ⟨-, heffect, -⟩ | ⟨f, hf, -⟩
  · exact heffect.1
  · exact absurd (show f ∈ o.branches.flatten from hf) (by rw [hb]; exact List.not_mem_nil)

/-- There is never more than one exit status. -/
theorem Awaited.length_le {exitCode : Option Int32} {obtained : List ExitStatus}
    {completed : List Future} (h : Awaited φ exitCode obtained completed) :
    obtained.length ≤ 1 := by
  have hone : ∀ status, obtained = [status] → obtained.length ≤ 1 := fun _ hs ↦ hs ▸ le_rfl
  have hnone : obtained = [] → obtained.length ≤ 1 := fun hs ↦ hs ▸ Nat.zero_le 1
  cases φ with
  | starting | spawned | running | stop | grace | waiting => exact hnone h.1
  | drain reason status => exact hone status h.1
  | overdue reason status | forced reason status => exact h.1 ▸ status.length_toList_le
  | stopped _ status | exited status | late status | lateForced status | ending _ _ status
  | released _ status => exact hone status h
  | published | returned =>
    obtain ⟨status, hs, -⟩ := h
    exact hone status hs
  | failed | crashed | reported | marking | marked | done => exact h

theorem awaited_invariant (P : Platform) (line : TaskSnapshot → List UInt8)
    (route : ResolvedRoute) :
    Invariant (taskPoller P line).awaits (Moves P route)
      fun φ u ↦ Awaited φ u.1.1.snapshot.exitCode u.1.2 u.2 where
  env φ u v h henv := by
    obtain ⟨hsnapshot, hobtained, hcompleted⟩ := awaits_env henv
    rw [hsnapshot, hobtained, hcompleted]
    exact h
  act φ o u r v ψ h hact hmove := by
    obtain ⟨hobtained, hcompleted⟩ := awaits_act hact
    rw [hobtained, hcompleted]
    cases hmove with
    | toFinal reason status =>
      obtain ⟨now, heffect⟩ := awaits_effect hact rfl
      rw [heffect]
      exact ⟨status, (List.append_nil _).trans h, rfl⟩
    | persistFinal =>
      have heffect : callEffect P line .persist u.1.1 (.ok ()) v.1.1 := awaits_effect hact rfl
      obtain ⟨status, hs, hcode⟩ := h
      refine ⟨status, (List.append_nil _).trans hs, ?_⟩
      rw [show v.1.1 = _ from heffect]
      exact hcode
    | quiet hquiet => cases hquiet <;> simpa [Awaited, Op.obtains, Op.completes] using h
    | error | spawnError | exitedError | graceError | drainError | childWaitError | forceEmptyError
    | stoppedError | lateError | joinError | joinCrashed | persistFinalError | leave | leaveError
    | toError | persistError | markFinished | dropStore =>
      exact (List.append_nil _).symm ▸ h.length_le
    | exited | graceExited | graceElapsed | graceForce | drained | drainElapsed | drainForce
    | forceNow | childWait | forceEmpty => simp_all [Awaited, Op.obtains, Op.completes]
    | _ => simpa [Awaited, Op.obtains, Op.completes] using h

/-- An await polls the worker only as long as there is no exit status, and `force_requested` only as
long as it has not been heard. -/
theorem Awaited.fresh {exitCode : Option Int32} {obtained : List ExitStatus}
    {completed : List Future} (h : Awaited φ exitCode obtained completed)
    (hmove : Moves P route φ o r ψ) {f : Future} (hf : f ∈ o.branches.flatten)
    (hkept : f.kept = true) : f ∉ completed := by
  cases hmove with
  | exited | exitedError | deadline | stop | graceExited | graceError | graceElapsed | graceForce =>
    rw [h.2]
    exact List.not_mem_nil
  | drained | drainError | drainElapsed | drainForce =>
    cases f with
    | forceRequested => exact h.2
    | childWait => simp [Op.branches] at hf
    | _ => cases hkept
  | childWait | childWaitError =>
    rw [List.mem_singleton.mp hf]
    exact h.2 rfl
  | forceEmpty | forceEmptyError | stoppedEmpty | stoppedError | exitedEmpty | exitedLate
  | lateEmpty | lateError =>
    cases f with
    | childWait | forceRequested => simp [Op.branches] at hf
    | _ => cases hkept
  | _ => exact absurd hf List.not_mem_nil

/-- `run_task` fails with an error, or returns when everything is done. -/
theorem Panicking.runTask_follows (P : Platform) (route : ResolvedRoute) (args : List String) :
    Follows (Moves P route) .starting (Panicking.runTask P route args)
      fun result φ ↦ (∀ text, result ≠ .error (.panic text)) ∧
        ∀ u, result = .ok u → φ = .returned := by
  rw [runTask_eq]
  refine Follows.mapError ((runTask_returns P route args).mono fun result φ h ↦ ?_)
  cases result with
  | ok u => exact ⟨nofun, fun _ _ ↦ h u rfl⟩
  | error e => exact ⟨nofun, nofun⟩

/-- **No future is polled after it has completed, and there is one exit status.**  In every state of
every run: the next poll is not one of a future that has completed, `run_task` has not panicked over
the worker's status, and if it has returned, then it has got one exit status, the one that is
shown. -/
theorem futures_polled_once (P : Platform) (line : TaskSnapshot → List UInt8)
    (route : ResolvedRoute) (args : List String) (w : World)
    (c : Polled runner Future RunnerWorld Failure Unit)
    (hrun : (taskPoller P line).Run (.start (Panicking.runTask P route args) (w, [])) c) :
    ¬ c.Repolls ∧ (∀ text, c.program ≠ .fail (.panic text)) ∧ c.world.2.length ≤ 1 ∧
      (c.program = .ret () →
        ∃ status, c.world.2 = [status] ∧ c.world.1.snapshot.exitCode = status.code) := by
  have hstart : Tracked (Moves P route)
      (fun φ (u : RunnerWorld × List Future) ↦ Awaited φ u.1.1.snapshot.exitCode u.1.2 u.2) _
      (Panicking.runTask P route args, ((w, []), [])) :=
    ⟨.starting, Panicking.runTask_follows P route args, rfl, rfl⟩
  have hpolls : ¬ c.Repolls :=
    Poller.Run.not_repolls (awaited_invariant P line route)
      (fun _ _ _ _ _ h hmove _ hf hkept ↦ h.fresh hmove hf hkept) hstart hrun
  obtain ⟨φ, hfollows, hφ⟩ := Poller.Run.tracked (awaited_invariant P line route) hstart hrun
  refine ⟨hpolls, fun text hfail ↦ ?_, hφ.length_le, fun hret ↦ ?_⟩
  · rw [hfail] at hfollows
    exact hfollows.1 text rfl
  · rw [hret] at hfollows
    obtain rfl : φ = .returned := hfollows.2 () rfl
    exact hφ

end

/-- A worker that exits by itself, and readers that come to the end. -/
theorem run_exampleExited : ∃ v, (taskMachine .unix snapshotCodec.line).Run
    (runTask .unix exampleRoute [], exampleWorld) (.ret (), v) := by
  refine ⟨?v, run_then (run_launch taskMachine_allows _ _ exampleWorld) ?_⟩
  rotate_left
  refine .head (.act (S := runner) (o := .update .running _) (r := ()) ⟨"", rfl⟩) ?_
  refine .head (.act (S := runner) (o := .fallible .persist) (r := .ok ()) rfl) ?_
  refine .head (.act (S := runner) (o := .armDeadline) (r := ()) rfl) ?_
  refine .head (.env (.workerExit (.exited 3) rfl fun _ ↦ rfl)) ?_
  refine .head (.act (S := runner) (o := .selectMain) (r := .exited (.ok (.exited 3)))
    ⟨rfl, rfl⟩) ?_
  refine .head (.act (S := runner) (o := .waitEmptyUntilDeadline) (r := some (.ok ()))
    ⟨.inl rfl, rfl⟩) ?_
  refine .head (.act (S := runner) (o := .dropControl) (r := ()) rfl) ?_
  refine .head (.env (@Surroundings.readerEnds _ _ .stdout (.ok ()) rfl)) ?_
  refine .head (.act (S := runner) (o := .joinReader .stdout) (r := .ended (.ok ()))
    ⟨rfl, rfl⟩) ?_
  refine .head (.env (@Surroundings.readerEnds _ _ .stderr (.ok ()) rfl)) ?_
  refine .head (.act (S := runner) (o := .joinReader .stderr) (r := .ended (.ok ()))
    ⟨rfl, rfl⟩) ?_
  refine .head (.act (S := runner) (o := .dropPermits) (r := ()) rfl) ?_
  refine .head (.act (S := runner) (o := .update .final _) (r := ()) ⟨"", rfl⟩) ?_
  refine .head (.act (S := runner) (o := .fallible .persist) (r := .ok ()) rfl) ?_
  exact .refl

theorem futures_polled_once_exited :
    ∃ c, (taskPoller .unix snapshotCodec.line).Run
        (.start (Panicking.runTask .unix exampleRoute []) (exampleWorld, [])) c ∧
      ¬ c.Repolls ∧ c.program = .ret () ∧
      ∃ status, c.world.2 = [status] ∧ c.world.1.snapshot.exitCode = status.code := by
  obtain ⟨v, hrun⟩ := run_exampleExited
  have hlifted : (taskMachine .unix snapshotCodec.line).Run
      (Panicking.runTask .unix exampleRoute [], exampleWorld) (.ret (), v) := by
    rw [Panicking.runTask_eq]
    exact hrun.mapError Failure.error
  obtain ⟨obtained, completed, hpolled⟩ := exists_run_polled hlifted
  obtain ⟨hpolls, -, -, hone⟩ :=
    futures_polled_once .unix snapshotCodec.line exampleRoute [] exampleWorld _ hpolled
  exact ⟨_, hpolled, hpolls, rfl, hone rfl⟩

end CommandApi
