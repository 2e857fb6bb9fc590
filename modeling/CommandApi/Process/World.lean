import CommandApi.Async.Machine
import CommandApi.Process.Program

/-!
# The world of one task

What the runner of a task shares with everything around it: the record (its snapshot and the
atomics beside it), the event log and the output files, the stop cell, the clocks, the process
tree and the permits.  `taskMachine` is what the runner's operations do there, on either platform,
and what may happen in between: stop requests from clients and from the server, the deadline and
the grace period running out, the worker and its descendants coming and going, the output readers
writing and ending.

Every operation that can fail may fail at any time, and every stop request may be written at any
time; a `select!` may pick any branch that is ready.  So what holds in every execution of
`taskMachine` holds for every order of these events.

The process tree is kept as two facts, whether the worker lives and whether anything else of its
process group (its job, on Windows) does.  A worker that ends normally on Unix has waited for all
its children, so nothing else is left then; on Windows it does not wait.  `CommandApi.Process.Unix`
has the processes themselves.
-/

set_option autoImplicit false

namespace CommandApi

open Async

/-- The worker process of a task. -/
inductive Worker
  | absent
  | alive
  | exited (status : ExitStatus)
  deriving DecidableEq, Repr

/-- A blocking output reader. -/
inductive Reader
  | idle
  | running
  | ended (result : Except String Unit)
  | crashed (error : String)

/-- The state a runner shares with its surroundings. -/
structure World where
  /-- The snapshot behind the record's lock. -/
  snapshot : TaskSnapshot
  /-- The record's `output_truncated` flag. -/
  outputTruncated : Bool
  /-- The bytes of `events.jsonl`. -/
  events : List UInt8
  /-- The stop cell: the last reason written to it. -/
  stop : Option StopReason
  /-- The cell has been written since the runner last read it. -/
  stopChanged : Bool
  /-- The execution deadline has passed. -/
  deadline : Bool
  /-- The grace period is over. -/
  grace : Bool
  worker : Worker
  /-- Something else of the worker's process group or job is alive. -/
  others : Bool
  readers : OutputStream → Reader
  /-- The output log files. -/
  files : OutputStream → List UInt8
  /-- The runner holds its two permits. -/
  permits : Bool
  /-- `mark_finished` has been called. -/
  marked : Bool
  /-- The runner still owns its `Arc<TaskStore>`. -/
  storeHeld : Bool

namespace World

/-- `TaskRecord::snapshot`: the snapshot with the flag of the record. -/
def visible (w : World) : TaskSnapshot := { w.snapshot with outputTruncated := w.outputTruncated }

/-- Some process of the tree is alive. -/
def TreeLive (w : World) : Prop := w.worker = .alive ∨ w.others = true

instance (w : World) : Decidable w.TreeLive := inferInstanceAs (Decidable (_ ∨ _))

/-- Every process of the group or job is killed. -/
def killTree (w : World) (status : ExitStatus) : World :=
  { w with
    worker := if w.worker = .alive then .exited status else w.worker
    others := false }

def setReader (w : World) (stream : OutputStream) (reader : Reader) : World :=
  { w with readers := fun s ↦ if s = stream then reader else w.readers s }

/-- A reader appends a block to its file. -/
def append (w : World) (stream : OutputStream) (block : List UInt8) : World :=
  { w with files := fun s ↦ if s = stream then w.files s ++ block else w.files s }

/-- The locked part of `TaskRecord::transition`. -/
def update (w : World) (f : TaskSnapshot → TaskSnapshot) : World :=
  { w with snapshot := { f w.snapshot with outputTruncated := w.outputTruncated } }

/-- A reason is written to the stop cell. -/
def requestStop (w : World) (reason : StopReason) : World :=
  { w with stop := some reason, stopChanged := true }

/-- Whether `ProcessTree::wait_empty` may answer: on Unix it returns at once; on Windows it polls
the job until no process is left, and the query may fail. -/
def EmptyAnswer (P : Platform) (w : World) : Except String Unit → Prop
  | .ok () => P = .unix ∨ ¬ w.TreeLive
  | .error _ => P = .windows

/-- `wait_empty` has no answer yet. -/
def EmptyPending (P : Platform) (w : World) : Prop := P = .windows ∧ w.TreeLive

end World

/-- How a process that is killed with its group or job ends. -/
def Platform.killStatus : Platform → ExitStatus
  | unix => .signaled 9
  | windows => .exited 1

/-- What `run_task` owns has been dropped.  The tree of a Windows runner is a job that dies with its
last handle. -/
def World.left (P : Platform) (w : World) : World :=
  match P with
  | .unix => { w with permits := false }
  | .windows => { w.killTree P.killStatus with permits := false }

/-- What the calls of the runner do when they succeed or fail.  `line` is the line `persist`
appends for a snapshot; a write that fails may have written any part of it. -/
def callEffect (P : Platform) (line : TaskSnapshot → List UInt8) :
    Fallible → World → Except String Unit → World → Prop
  | .spawn, w, .ok (), w' => w' = { w with worker := .alive }
  | .force, w, .ok (), w' => w' = w.killTree P.killStatus
  | .persist, w, .ok (), w' => w' = { w with events := w.events ++ line w.visible }
  | .persist, w, .error _, w' =>
      ∃ n, w' = { w with events := w.events ++ (line w.visible).take n }
  | _, w, _, w' => w' = w

/-- What the operations of the runner do.  A branch of a `select!` that is a timeout around another
future is only over when that future is not ready: the timeout polls it first. -/
def taskEffect (P : Platform) (line : TaskSnapshot → List UInt8) :
    (o : Op) → World → runner.Resp o → World → Prop
  | .fallible c, w, r, w' => callEffect P line c w r w'
  | .startReader stream, w, _, w' => w' = w.setReader stream .running
  | .update _ f, w, _, w' => ∃ now, w' = w.update (f now)
  | .armDeadline, w, _, w' => w' = { w with deadline := false }
  | .selectMain, w, r, w' => match r with
    | .exited (.ok status) => w.worker = .exited status ∧ w' = w
    | .exited (.error _) => w' = w
    | .deadline => w.deadline = true ∧ w' = w
    | .stop reason => w.stopChanged = true ∧ w.stop = some reason ∧
        w' = { w with stopChanged := false }
  | .writeTerminate, w, _, w' => w' = w
  | .armGrace, w, _, w' => w' = { w with grace := false }
  | .selectGrace, w, r, w' => match r with
    | .exited (.ok status) => w.worker = .exited status ∧ w' = w
    | .exited (.error _) => w' = w
    | .elapsed => w.grace = true ∧ w.worker = .alive ∧ w' = w
    | .force => w.stop = some .forceKilled ∧ w' = { w with stopChanged := false }
  | .selectEmpty, w, r, w' => match r with
    | .empty result => w.EmptyAnswer P result ∧ w' = w
    | .elapsed => w.grace = true ∧ w.EmptyPending P ∧ w' = w
    | .force => w.stop = some .forceKilled ∧ w' = { w with stopChanged := false }
  | .childWait, w, r, w' => match r with
    | .ok status => w.worker = .exited status ∧ w' = w
    | .error _ => w' = w
  | .waitEmpty, w, r, w' => w.EmptyAnswer P r ∧ w' = w
  | .waitEmptyUntilDeadline, w, r, w' => match r with
    | some result => w.EmptyAnswer P result ∧ w' = w
    | none => w.deadline = true ∧ w.EmptyPending P ∧ w' = w
  | .dropControl, w, _, w' => w' = w
  | .joinReader stream, w, r, w' => match r with
    | .ended result => w.readers stream = .ended result ∧ w' = w
    | .crashed error => w.readers stream = .crashed error ∧ w' = w
  | .dropPermits, w, _, w' => w' = { w with permits := false }
  | .leaveRunTask, w, _, w' => w' = w.left P
  | .markFinished, w, _, w' => w' = { w with marked := true }
  | .dropStore, w, _, w' => w' = { w with storeHeld := false }

/-- What happens around the runner. -/
inductive Surroundings (P : Platform) : World → World → Prop
  /-- `request_stop`, `cancel_all` and `request_stop_now`: the last writer wins. -/
  | requestStop {w : World} (reason : StopReason) :
      Surroundings P w (w.requestStop reason)
  | deadline {w : World} : Surroundings P w { w with deadline := true }
  | grace {w : World} : Surroundings P w { w with grace := true }
  /-- The worker starts the script, or a process of the tree starts another. -/
  | fork {w : World} (h : w.TreeLive) : Surroundings P w { w with others := true }
  | othersExit {w : World} : Surroundings P w { w with others := false }
  /-- The worker ends; on Unix it has waited until it has no children. -/
  | workerExit {w : World} (status : ExitStatus) (h : w.worker = .alive)
      (hu : P = .unix → w.others = false) : Surroundings P w { w with worker := .exited status }
  /-- The worker ends in another way, and leaves its children alone: `run_worker` returns an error,
  or the worker is killed by a signal. -/
  | workerFails {w : World} (status : ExitStatus) (h : w.worker = .alive) :
      Surroundings P w { w with worker := .exited status }
  /-- The worker has lost its parent or was told to stop, and kills its group. -/
  | workerForce {w : World} (h : w.worker = .alive) (hu : P = .unix) :
      Surroundings P w (w.killTree P.killStatus)
  | output {w : World} {stream : OutputStream} (block : List UInt8)
      (h : w.readers stream = .running) : Surroundings P w (w.append stream block)
  | truncate {w : World} {stream : OutputStream} (h : w.readers stream = .running) :
      Surroundings P w { w with outputTruncated := true }
  | readerEnds {w : World} {stream : OutputStream} (result : Except String Unit)
      (h : w.readers stream = .running) : Surroundings P w (w.setReader stream (.ended result))
  | readerCrashes {w : World} {stream : OutputStream} (error : String)
      (h : w.readers stream = .running) : Surroundings P w (w.setReader stream (.crashed error))

/-- The runner of a task next to its surroundings. -/
def taskMachine (P : Platform) (line : TaskSnapshot → List UInt8) : Machine runner World where
  act := taskEffect P line
  env := Surroundings P

/-! ## What an operation can do

`Shape` lists the worlds an operation can lead to, without the guards.  The facts about what
operations leave alone are read off it. -/

/-- The worlds an operation can lead to. -/
inductive Shape (P : Platform) (line : TaskSnapshot → List UInt8) (w : World) : Op → World → Prop
  | same {o : Op} (h : ∀ site f, o ≠ .update site f) : Shape P line w o w
  | spawn : Shape P line w (.fallible .spawn) { w with worker := .alive }
  | force : Shape P line w (.fallible .force) (w.killTree P.killStatus)
  | persist (n : ℕ) :
      Shape P line w (.fallible .persist)
        { w with events := w.events ++ (line w.visible).take n }
  | startReader (stream : OutputStream) :
      Shape P line w (.startReader stream) (w.setReader stream .running)
  | update (site : Site) (f : String → TaskSnapshot → TaskSnapshot) (now : String) :
      Shape P line w (.update site f) (w.update (f now))
  | armDeadline : Shape P line w .armDeadline { w with deadline := false }
  | armGrace : Shape P line w .armGrace { w with grace := false }
  | stopMain : Shape P line w .selectMain { w with stopChanged := false }
  | stopGrace : Shape P line w .selectGrace { w with stopChanged := false }
  | stopEmpty : Shape P line w .selectEmpty { w with stopChanged := false }
  | dropPermits : Shape P line w .dropPermits { w with permits := false }
  | leaveRunTask : Shape P line w .leaveRunTask (w.left P)
  | markFinished : Shape P line w .markFinished { w with marked := true }
  | dropStore : Shape P line w .dropStore { w with storeHeld := false }

section

variable {P : Platform} {line : TaskSnapshot → List UInt8} {w w' : World}

/-- `persist` appends a part of the line of the visible snapshot, the whole of it when it
succeeds. -/
theorem persist_effect {r : Except String Unit} (h : callEffect P line .persist w r w') :
    ∃ n, w' = { w with events := w.events ++ (line w.visible).take n } ∧
      (r = .ok () → n = (line w.visible).length) := by
  cases r with
  | ok u =>
    obtain rfl : w' = _ := h
    exact ⟨_, by rw [List.take_length], fun _ ↦ rfl⟩
  | error e =>
    obtain ⟨n, rfl⟩ := h
    exact ⟨n, rfl, fun h ↦ absurd h (by simp)⟩

theorem callEffect_shape {c : Fallible} {r : Except String Unit} (h : callEffect P line c w r w') :
    Shape P line w (.fallible c) w' := by
  cases c with
  | persist =>
    obtain ⟨n, rfl, -⟩ := persist_effect h
    exact .persist n
  | spawn =>
    cases r with
    | ok u => obtain rfl : w' = _ := h; exact .spawn
    | error e => obtain rfl : w' = w := h; exact .same nofun
  | force =>
    cases r with
    | ok u => obtain rfl : w' = _ := h; exact .force
    | error e => obtain rfl : w' = w := h; exact .same nofun
  | _ =>
    obtain rfl : w' = w := by cases r <;> exact h
    exact .same nofun

/-- **Every operation leads to one of the listed worlds.** -/
theorem taskEffect_shape {o : Op} {r : runner.Resp o} (h : taskEffect P line o w r w') :
    Shape P line w o w' := by
  cases o with
  | fallible c => exact callEffect_shape h
  | startReader stream => obtain rfl : w' = _ := h; exact .startReader stream
  | update site f => obtain ⟨now, rfl⟩ := h; exact .update site f now
  | armDeadline => obtain rfl : w' = _ := h; exact .armDeadline
  | armGrace => obtain rfl : w' = _ := h; exact .armGrace
  | dropPermits => obtain rfl : w' = _ := h; exact .dropPermits
  | leaveRunTask => obtain rfl : w' = _ := h; exact .leaveRunTask
  | markFinished => obtain rfl : w' = _ := h; exact .markFinished
  | dropStore => obtain rfl : w' = _ := h; exact .dropStore
  | selectMain =>
    match r, h with
    | .exited (.ok _), ⟨_, h⟩ | .deadline, ⟨_, h⟩ | .exited (.error _), h =>
      subst h; exact .same nofun
    | .stop _, ⟨_, _, h⟩ => subst h; exact .stopMain
  | selectGrace =>
    match r, h with
    | .exited (.ok _), ⟨_, h⟩ | .elapsed, ⟨_, _, h⟩ | .exited (.error _), h =>
      subst h; exact .same nofun
    | .force, ⟨_, h⟩ => subst h; exact .stopGrace
  | selectEmpty =>
    match r, h with
    | .empty _, ⟨_, h⟩ | .elapsed, ⟨_, _, h⟩ => subst h; exact .same nofun
    | .force, ⟨_, h⟩ => subst h; exact .stopEmpty
  | childWait =>
    match r, h with
    | .ok _, ⟨_, h⟩ | .error _, h => subst h; exact .same nofun
  | waitEmptyUntilDeadline =>
    match r, h with
    | some _, ⟨_, h⟩ | none, ⟨_, _, h⟩ => subst h; exact .same nofun
  | joinReader _ =>
    match r, h with
    | .ended _, ⟨_, h⟩ | .crashed _, ⟨_, h⟩ => subst h; exact .same nofun
  | waitEmpty => obtain ⟨-, rfl⟩ := h; exact .same nofun
  | writeTerminate | dropControl => obtain rfl : w' = w := h; exact .same nofun

@[simp] theorem World.left_snapshot : (w.left P).snapshot = w.snapshot := by cases P <;> rfl

@[simp] theorem World.left_outputTruncated : (w.left P).outputTruncated = w.outputTruncated := by
  cases P <;> rfl

@[simp] theorem World.left_events : (w.left P).events = w.events := by cases P <;> rfl

@[simp] theorem World.left_files : (w.left P).files = w.files := by cases P <;> rfl

@[simp] theorem World.left_readers : (w.left P).readers = w.readers := by cases P <;> rfl

/-- The snapshot is changed by `update` alone. -/
theorem Shape.snapshot {o : Op} (h : Shape P line w o w') (ho : ∀ site f, o ≠ .update site f) :
    w'.snapshot = w.snapshot := by
  cases h with
  | update site f now => exact absurd rfl (ho site f)
  | leaveRunTask => exact World.left_snapshot
  | _ => rfl

/-- The event log is changed by `persist` alone. -/
theorem Shape.events {o : Op} (h : Shape P line w o w') (ho : o ≠ .fallible .persist) :
    w'.events = w.events := by
  cases h with
  | persist n => exact absurd rfl ho
  | leaveRunTask => exact World.left_events
  | _ => rfl

/-- The output files are the readers' own. -/
theorem Shape.files {o : Op} (h : Shape P line w o w') : w'.files = w.files := by
  cases h with
  | leaveRunTask => exact World.left_files
  | _ => rfl

theorem Shape.readers {o : Op} (h : Shape P line w o w') (ho : ∀ s, o ≠ .startReader s) :
    w'.readers = w.readers := by
  cases h with
  | startReader s => exact absurd rfl (ho s)
  | leaveRunTask => exact World.left_readers
  | _ => rfl

/-- The stop cell is written by the surroundings alone. -/
theorem Shape.stop {o : Op} (h : Shape P line w o w') : w'.stop = w.stop := by
  cases h with
  | leaveRunTask => cases P <;> rfl
  | _ => rfl

/-- The flag is the readers' own. -/
theorem Shape.outputTruncated {o : Op} (h : Shape P line w o w') :
    w'.outputTruncated = w.outputTruncated := by
  cases h with
  | leaveRunTask => exact World.left_outputTruncated
  | _ => rfl

/-- Only `spawn` makes a worker. -/
theorem Shape.worker {o : Op} (h : Shape P line w o w') (ho : o ≠ .fallible .spawn)
    (hw : w.worker ≠ .alive) : w'.worker ≠ .alive := by
  cases h with
  | spawn => exact absurd rfl ho
  | force => simp [World.killTree, hw]
  | leaveRunTask =>
    cases P with
    | unix => exact hw
    | windows => simp [World.left, World.killTree, hw]
  | _ => exact hw

theorem Surroundings.worker (h : Surroundings P w w') (hw : w.worker ≠ .alive) :
    w'.worker ≠ .alive := by
  cases h with
  | workerExit _ ha _ | workerFails _ ha | workerForce ha _ => exact absurd ha hw
  | _ => exact hw

/-- `mark_finished` is not taken back. -/
theorem Shape.marked {o : Op} (h : Shape P line w o w') (hw : w.marked = true) :
    w'.marked = true := by
  cases h with
  | markFinished => rfl
  | leaveRunTask => cases P <;> exact hw
  | _ => exact hw

theorem Surroundings.marked (h : Surroundings P w w') : w'.marked = w.marked := by
  cases h <;> rfl

/-- The surroundings touch neither the snapshot nor the event log. -/
theorem Surroundings.frame (h : Surroundings P w w') :
    w'.snapshot = w.snapshot ∧ w'.events = w.events := by
  cases h <;> exact ⟨rfl, rfl⟩

end

/-- The world in which `start_task` spawns the runner of a freshly created record. -/
structure Fresh (w : World) : Prop where
  status : w.snapshot.status = .starting
  startedAt : w.snapshot.startedAt = none
  finishedAt : w.snapshot.finishedAt = none
  exitCode : w.snapshot.exitCode = none
  termination : w.snapshot.termination = none
  error : w.snapshot.error = none
  worker : w.worker = .absent
  others : w.others = false
  readers : ∀ s, w.readers s = .idle
  permits : w.permits = true
  marked : w.marked = false
  storeHeld : w.storeHeld = true

/-- The world after `TaskStore::create` has returned the record of `s`. -/
def World.created (line : TaskSnapshot → List UInt8) (s : TaskSnapshot) : World where
  snapshot := s
  outputTruncated := false
  events := line { s with outputTruncated := false }
  stop := none
  stopChanged := false
  deadline := false
  grace := false
  worker := .absent
  others := false
  readers := fun _ ↦ .idle
  files := fun _ ↦ []
  permits := true
  marked := false
  storeHeld := true

theorem World.created_fresh (line : TaskSnapshot → List UInt8) (id : Uuid) (route : String)
    (mode : OutputMode) (encoding : OutputEncoding) (now : String) :
    Fresh (.created line (.created id route mode encoding now)) :=
  ⟨rfl, rfl, rfl, rfl, rfl, rfl, rfl, rfl, fun _ ↦ rfl, rfl, rfl, rfl⟩

end CommandApi
