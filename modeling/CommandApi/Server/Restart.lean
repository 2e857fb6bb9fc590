import CommandApi.Async.Control
import CommandApi.Process.Durability
import CommandApi.Server.Execute

/-!
# Restarting the service

The part of `runtime::run` between the end of the HTTP server and the lock of the next
`TaskStore::open`, next to the runners that are still on their way out.

The lock on the log directory belongs to the store, and the store lives as long as somebody owns an
`Arc` of it: the main task, the router that is a local of the loop body, the cleanup task, and every
runner until its block ends.  Idleness is signalled earlier than that: `mark_finished` is the last
but one thing a runner does.  So the main task may get to the lock while a runner is between the
two (`restart_finds_lock`), and `lock_free_iff` says that this is the only way it can find the lock
taken.
-/

set_option autoImplicit false

namespace CommandApi

open Async Relation

/-! ## The program -/

inductive RuntimeOp
  | cancelAll (reason : StopReason)
  | waitUntilIdle (seconds : ℕ)
  | abortCleanup
  | awaitCleanup
  | dropStore
  | endLoopBody
  | tryLock

/-- The effects of the main task.  `waitUntilIdle` and `tryLock` answer whether they succeeded. -/
abbrev runtime : Signature where
  Op := RuntimeOp
  Resp
    | .waitUntilIdle _ | .tryLock => Bool
    | .cancelAll _ | .abortCleanup | .awaitCleanup | .dropStore | .endLoopBody => Unit

/-- A program of the main task. -/
abbrev Service (α : Type) := Prog runtime String α

/-- Perform one operation of the main task. -/
abbrev invoke (o : RuntimeOp) : Service (runtime.Resp o) := Prog.perform (S := runtime) o

/-- The second round, when the tasks have not ended in time. -/
def forceAll : Bool → Service Unit
  | true => pure ()
  | false => do
    invoke (.cancelAll .forceKilled)
    match ← invoke (.waitUntilIdle 5) with
    | true => pure ()
    | false => .fail "强制终止任务后仍无法释放运行资源"

/-- `try_lock_exclusive` in the next `TaskStore::open`. -/
def lock (root : String) : Service Unit := do
  match ← invoke .tryLock with
  | true => pure ()
  | false => .fail s!"日志目录 {root} 已被另一个 command-api 实例使用"

/-- What is left to do once no task is active. -/
def dropGeneration (root : String) : Service Unit := do
  invoke .abortCleanup
  invoke .awaitCleanup
  invoke .dropStore
  invoke .endLoopBody
  lock root

/-- The restart path of `run`, from the end of the server to the lock of the next store. -/
def restart (execution : ExecutionConfig) (root : String) : Service Unit := do
  invoke (.cancelAll .serverRestart)
  let idle ← invoke (.waitUntilIdle execution.shutdownTimeoutSeconds)
  forceAll idle
  dropGeneration root

/-! ## The owners of the store -/

/-- The cleanup task. -/
inductive Cleanup
  | running
  | aborted
  | ended
  deriving DecidableEq, Repr

/-- What is left of a generation of the service. -/
structure Generation where
  runners : List Job
  activeCount : ℕ
  cleanup : Cleanup
  /-- The main task owns its `Arc<TaskStore>`. -/
  store : Bool
  /-- The router, whose state owns one, is alive. -/
  application : Bool
  /-- Another process has locked the directory. -/
  foreignLock : Bool

namespace Generation

/-- The moment the HTTP server has ended: no handler is on its way. -/
def served (runners : List Job) (foreignLock : Bool) : Generation where
  runners
  activeCount := runners.countP fun j ↦ !j.world.marked
  cleanup := .running
  store := true
  application := true
  foreignLock

/-- Somebody owns an `Arc` of the store. -/
def StoreAlive (g : Generation) : Prop :=
  g.store = true ∨ g.application = true ∨ g.cleanup ≠ .ended ∨
    ∃ j ∈ g.runners, j.world.storeHeld = true

end Generation

/-- `cancel_all`, for one record. -/
def Job.cancel (reason : StopReason) (j : Job) : Job :=
  if j.world.snapshot.status.isFinished then j
  else { j with world := j.world.requestStop reason }

/-- What the operations of the main task do.  `wait_until_idle` may also run out of time. -/
def runtimeEffect : (o : RuntimeOp) → Generation → runtime.Resp o → Generation → Prop
  | .cancelAll reason, g, _, g' => g' = { g with runners := g.runners.map (Job.cancel reason) }
  | .waitUntilIdle _, g, idle, g' => (idle = true → g.activeCount = 0) ∧ g' = g
  | .abortCleanup, g, _, g' =>
      g' = { g with cleanup := if g.cleanup = .ended then .ended else .aborted }
  | .awaitCleanup, g, _, g' => g.cleanup = .ended ∧ g' = g
  | .dropStore, g, _, g' => g' = { g with store := false }
  | .endLoopBody, g, _, g' => g' = { g with application := false }
  | .tryLock, g, locked, g' =>
      (locked = true ↔ ¬ g.StoreAlive ∧ g.foreignLock = false) ∧ g' = g

/-- What the runners and the cleanup task do meanwhile.  `mark_finished` counts down. -/
inductive Winding (P : Platform) (line : TaskSnapshot → List UInt8) : Generation → Generation → Prop
  | runner {g : Generation} {pre post : List Job} {route : ResolvedRoute} {p q : Task Unit}
      {w v : World} (h : g.runners = pre ++ ⟨route, p, w⟩ :: post)
      (hs : (taskMachine P line).Step (p, w) (q, v)) :
      Winding P line g
        { g with
          runners := pre ++ ⟨route, q, v⟩ :: post
          activeCount := g.activeCount - if v.marked && !w.marked then 1 else 0 }
  | cleanup {g : Generation} (h : g.cleanup = .aborted) :
      Winding P line g { g with cleanup := .ended }

/-- The main task next to the runners. -/
def restartMachine (P : Platform) (line : TaskSnapshot → List UInt8) :
    Machine runtime Generation where
  act := runtimeEffect
  env := Winding P line

/-! ## Where the main task is -/

inductive RestartPhase
  | served
  | waiting
  | forcing
  | waitingForced
  | idle
  | aborted
  | cleaned
  | dropped
  | locking
  | over

inductive RestartMoves : ControlGraph runtime RestartPhase
  | cancel (reason : StopReason) : RestartMoves .served (.cancelAll reason) () .waiting
  | idle (seconds : ℕ) : RestartMoves .waiting (.waitUntilIdle seconds) true .idle
  | late (seconds : ℕ) : RestartMoves .waiting (.waitUntilIdle seconds) false .forcing
  | force (reason : StopReason) : RestartMoves .forcing (.cancelAll reason) () .waitingForced
  | idleForced (seconds : ℕ) : RestartMoves .waitingForced (.waitUntilIdle seconds) true .idle
  | giveUp (seconds : ℕ) : RestartMoves .waitingForced (.waitUntilIdle seconds) false .over
  | abort : RestartMoves .idle .abortCleanup () .aborted
  | await : RestartMoves .aborted .awaitCleanup () .cleaned
  | dropStore : RestartMoves .cleaned .dropStore () .dropped
  | endLoopBody : RestartMoves .dropped .endLoopBody () .locking
  | lock (locked : Bool) : RestartMoves .locking .tryLock locked .over

theorem restart_follows (execution : ExecutionConfig) (root : String) :
    Follows RestartMoves .served (restart execution root) fun _ φ ↦ φ = .over := by
  have hlock : Follows RestartMoves .locking (lock root) fun _ φ ↦ φ = .over := by
    intro locked
    refine ⟨.over, .lock locked, ?_⟩
    cases locked <;> exact rfl
  have htail : Follows RestartMoves .idle (dropGeneration root) fun _ φ ↦ φ = .over :=
    fun _ ↦ ⟨_, .abort, fun _ ↦ ⟨_, .await, fun _ ↦ ⟨_, .dropStore, fun _ ↦
      ⟨_, .endLoopBody, hlock⟩⟩⟩⟩
  refine fun _ ↦ ⟨_, .cancel _, fun idle ↦ ?_⟩
  cases idle with
  | true => exact ⟨_, .idle _, htail⟩
  | false =>
    refine ⟨_, .late _, fun _ ↦ ⟨_, .force _, fun idle ↦ ?_⟩⟩
    cases idle with
    | true => exact ⟨_, .idleForced _, htail⟩
    | false => exact ⟨_, .giveUp _, rfl⟩

/-! ## What the main task knows -/

/-- Every runner has called `mark_finished`. -/
def Generation.AllMarked (g : Generation) : Prop := ∀ j ∈ g.runners, j.world.marked = true

/-- The counter counts the runners that have yet to call `mark_finished`. -/
def Generation.Counted (g : Generation) : Prop :=
  g.activeCount = g.runners.countP fun j ↦ !j.world.marked

/-- Who may still own the store in each phase. -/
def Released : RestartPhase → Generation → Prop
  | .idle, g | .aborted, g => g.AllMarked
  | .cleaned, g => g.AllMarked ∧ g.cleanup = .ended
  | .dropped, g => g.AllMarked ∧ g.cleanup = .ended ∧ g.store = false
  | .locking, g => g.AllMarked ∧ g.cleanup = .ended ∧ g.store = false ∧ g.application = false
  | _, _ => True

section

variable {P : Platform} {line : TaskSnapshot → List UInt8} {g g' : Generation} {φ ψ : RestartPhase}
  {o : RuntimeOp} {r : runtime.Resp o}

theorem Generation.Counted.allMarked (h : g.Counted) (h0 : g.activeCount = 0) : g.AllMarked := by
  rw [Counted, h0] at h
  intro j hj
  simpa using List.countP_eq_zero.mp h.symm j hj

theorem Job.cancel_marked (reason : StopReason) (j : Job) :
    (j.cancel reason).world.marked = j.world.marked := by
  rw [Job.cancel]
  split <;> rfl

theorem marked_step {p q : Task Unit} {w v : World} (hs : (taskMachine P line).Step (p, w) (q, v))
    (hw : w.marked = true) : v.marked = true := by
  cases hs with
  | act h => exact (taskEffect_shape h).marked hw
  | env h => rwa [h.marked]

theorem Generation.Counted.env (h : g.Counted) (he : Winding P line g g') : g'.Counted := by
  cases he with
  | cleanup _ => exact h
  | @runner pre post route p q w v hg hs =>
    have hmono := marked_step hs
    simp only [Counted, hg, List.countP_append, List.countP_cons] at h ⊢
    cases hw : w.marked with
    | true => simp_all
    | false => cases hv : v.marked <;> simp_all

theorem Generation.AllMarked.env (h : g.AllMarked) (he : Winding P line g g') : g'.AllMarked := by
  cases he with
  | cleanup _ => exact h
  | @runner pre post route p q w v hg hs =>
    have hw : w.marked = true := h _ (by rw [hg]; exact List.mem_append_right _ List.mem_cons_self)
    intro j hj
    rcases List.mem_append.mp hj with hj | hj
    · exact h j (by rw [hg]; exact List.mem_append_left _ hj)
    · rcases List.mem_cons.mp hj with rfl | hj
      · exact marked_step hs hw
      · exact h j (by rw [hg]; exact List.mem_append_right _ (List.mem_cons_of_mem _ hj))

/-- The main task's own references are not given back to it. -/
theorem Winding.owners (he : Winding P line g g') :
    g'.store = g.store ∧ g'.application = g.application ∧
      (g.cleanup = .ended → g'.cleanup = .ended) := by
  cases he with
  | cleanup _ => exact ⟨rfl, rfl, fun _ ↦ rfl⟩
  | runner _ _ => exact ⟨rfl, rfl, id⟩

theorem Released.env (h : Released φ g) (he : Winding P line g g') : Released φ g' := by
  obtain ⟨hstore, happ, hclean⟩ := he.owners
  cases φ with
  | idle | aborted => exact Generation.AllMarked.env h he
  | cleaned => exact ⟨h.1.env he, hclean h.2⟩
  | dropped => exact ⟨h.1.env he, hclean h.2.1, hstore.trans h.2.2⟩
  | locking => exact ⟨h.1.env he, hclean h.2.1, hstore.trans h.2.2.1, happ.trans h.2.2.2⟩
  | _ => trivial

theorem Generation.Counted.act (h : g.Counted) (ha : runtimeEffect o g r g') : g'.Counted := by
  cases o with
  | cancelAll reason =>
    obtain rfl : g' = _ := ha
    simp only [Counted, List.countP_map, Function.comp_def, Job.cancel_marked]
    exact h
  | waitUntilIdle _ | awaitCleanup | tryLock => obtain ⟨-, rfl⟩ := ha; exact h
  | abortCleanup | dropStore | endLoopBody => obtain rfl : g' = _ := ha; exact h

theorem Released.act (h : Released φ g) (hcount : g.Counted) (hm : RestartMoves φ o r ψ)
    (ha : runtimeEffect o g r g') : Released ψ g' := by
  cases hm with
  | idle _ | idleForced _ =>
    obtain ⟨h0, rfl⟩ := ha
    exact hcount.allMarked (h0 rfl)
  | abort =>
    obtain rfl : g' = _ := ha
    exact h
  | await =>
    obtain ⟨hended, rfl⟩ := ha
    exact ⟨h, hended⟩
  | dropStore =>
    obtain rfl : g' = _ := ha
    exact ⟨h.1, h.2, rfl⟩
  | endLoopBody =>
    obtain rfl : g' = _ := ha
    exact ⟨h.1, h.2.1, h.2.2, rfl⟩
  | _ => trivial

theorem released_invariant :
    Invariant (restartMachine P line) RestartMoves fun φ g ↦ g.Counted ∧ Released φ g where
  env _ _ _ h he := ⟨h.1.env he, h.2.env he⟩
  act _ _ _ _ _ _ h ha hm := ⟨h.1.act ha, h.2.act h.1 hm ha⟩

end

/-- **The lock is free when the store is opened again**, exactly if no runner is between
`mark_finished` and the end of its block. -/
theorem lock_free_iff (P : Platform) (line : TaskSnapshot → List UInt8)
    (execution : ExecutionConfig) (root : String) (runners : List Job) (foreignLock : Bool)
    (k : Bool → Service Unit) (g : Generation) (hr : (restartMachine P line).Run
      (restart execution root, .served runners foreignLock) (.call .tryLock k, g)) :
    (¬ g.StoreAlive ∧ (g.foreignLock = false →
        ∀ locked g', (restartMachine P line).act .tryLock g locked g' → locked = true)) ↔
      ∀ j ∈ g.runners, ¬ (j.world.marked = true ∧ j.world.storeHeld = true) := by
  have hstart : Tracked RestartMoves (fun φ g ↦ g.Counted ∧ Released φ g) (fun _ φ ↦ φ = .over)
      (restart execution root, .served runners foreignLock) :=
    ⟨.served, restart_follows execution root, rfl, trivial⟩
  obtain ⟨φ, hf, -, hreleased⟩ := released_invariant.run hstart hr
  obtain ⟨ψ, hm, -⟩ := hf true
  cases hm with
  | lock _ =>
    obtain ⟨hmarked, hclean, hstore, happ⟩ := hreleased
    constructor
    · rintro ⟨hfree, -⟩ j hj ⟨-, hheld⟩
      exact hfree (.inr (.inr (.inr ⟨j, hj, hheld⟩)))
    · intro hnone
      have hfree : ¬ g.StoreAlive := by
        rintro (h | h | h | ⟨j, hj, hheld⟩)
        · rw [hstore] at h
          cases h
        · rw [happ] at h
          cases h
        · exact h hclean
        · exact hnone j hj ⟨hmarked j hj, hheld⟩
      exact ⟨hfree, fun hforeign locked g' hact ↦ hact.1.mpr ⟨hfree, hforeign⟩⟩

/-! ## Two executions

One runner, whose task has failed and whose last event is written. -/

/-- The owners of the store that are no runners are gone. -/
def Generation.released (g : Generation) : Generation :=
  { g with cleanup := .ended, store := false, application := false }

/-- The end of a generation as far as its own store is concerned, and what follows. -/
def quiesce (execution : ExecutionConfig) (reason : StopReason) (k : Service Unit) :
    Service Unit := do
  invoke (.cancelAll reason)
  let idle ← invoke (.waitUntilIdle execution.shutdownTimeoutSeconds)
  forceAll idle
  invoke .abortCleanup
  invoke .awaitCleanup
  k

/-- An execution of it in which the runners call `mark_finished` in time. -/
theorem run_quiesce {P : Platform} {line : TaskSnapshot → List UInt8} (execution : ExecutionConfig)
    (reason : StopReason) (k : Service Unit) {g₀ g : Generation}
    (hw : ReflTransGen (Winding P line)
      { g₀ with runners := g₀.runners.map (Job.cancel reason) } g)
    (hidle : g.activeCount = 0) (hclean : g.cleanup = .running) :
    (restartMachine P line).Run (quiesce execution reason k, g₀)
      (k, { g with cleanup := .ended }) := by
  let rest : Service Unit := invoke .abortCleanup >>= fun _ ↦ invoke .awaitCleanup >>= fun _ ↦ k
  let waiting : Service Unit :=
    invoke (.waitUntilIdle execution.shutdownTimeoutSeconds) >>= fun idle ↦
      forceAll idle >>= fun _ ↦ rest
  have hcancel : (restartMachine P line).Step (quiesce execution reason k, g₀) (waiting, _) :=
    .act (S := runtime) (o := .cancelAll reason) (r := ()) rfl
  have hwait : (restartMachine P line).Step (waiting, g) (rest, g) :=
    .act (S := runtime) (o := .waitUntilIdle _) (r := true) ⟨fun _ ↦ hidle, rfl⟩
  have habort : (restartMachine P line).act .abortCleanup g () { g with cleanup := .aborted } := by
    show _ = _
    rw [hclean]
    rfl
  have hended : (restartMachine P line).env { g with cleanup := .aborted }
      { g with cleanup := .ended } := Winding.cleanup rfl
  have hawait : (restartMachine P line).act .awaitCleanup { g with cleanup := .ended } ()
      { g with cleanup := .ended } := ⟨rfl, rfl⟩
  have hmeanwhile := ReflTransGen.lift (p := (restartMachine P line).Step)
    (fun g : Generation ↦ (waiting, g)) (fun _ _ h ↦ .env h) _ _ hw
  refine (ReflTransGen.head hcancel hmeanwhile).tail hwait |>.trans ?_
  exact ((ReflTransGen.single (.act habort)).tail (.env hended)).tail (.act hawait)

/-- … up to the lock of the next store. -/
theorem run_restart {P : Platform} {line : TaskSnapshot → List UInt8} (execution : ExecutionConfig)
    (root : String) {g₀ g : Generation}
    (hw : ReflTransGen (Winding P line)
      { g₀ with runners := g₀.runners.map (Job.cancel .serverRestart) } g)
    (hidle : g.activeCount = 0) (hclean : g.cleanup = .running) :
    (restartMachine P line).Run (restart execution root, g₀) (lock root, g.released) := by
  have hquiesce := run_quiesce execution .serverRestart
    (invoke .dropStore >>= fun _ ↦ invoke .endLoopBody >>= fun _ ↦ lock root) hw hidle hclean
  have hdrop : (restartMachine P line).act .dropStore { g with cleanup := .ended } ()
      { g with cleanup := .ended, store := false } := rfl
  have hend : (restartMachine P line).act .endLoopBody
      { g with cleanup := .ended, store := false } () g.released := rfl
  exact (hquiesce.tail (.act hdrop)).tail (.act hend)

section

variable (w : World)

/-- A runner whose last event is written. -/
def endingJob : Job := ⟨exampleRoute, perform .markFinished >>= fun _ ↦ perform .dropStore, w⟩

/-- … that has called `mark_finished`. -/
def markedJob : Job := ⟨exampleRoute, perform .dropStore, { w with marked := true }⟩

/-- … and whose block has ended. -/
def endedJob : Job := ⟨exampleRoute, .ret (), { w with marked := true, storeHeld := false }⟩

/-- The end of the server, with one runner. -/
def generationOf (active : ℕ) (j : Job) : Generation := ⟨[j], active, .running, true, true, false⟩

variable {w}

theorem generationOf_served {reason : StopReason} (hf : w.snapshot.status.isFinished = true)
    (hm : w.marked = false) :
    { Generation.served [endingJob w] false with
      runners := (Generation.served [endingJob w] false).runners.map (Job.cancel reason) } =
      generationOf 1 (endingJob w) := by
  have hcancel : (endingJob w).cancel reason = endingJob w := by
    rw [Job.cancel, if_pos (show (endingJob w).world.snapshot.status.isFinished = true from hf)]
  have hcount : [endingJob w].countP (fun j ↦ !j.world.marked) = 1 := by
    simp [endingJob, hm]
  simp only [Generation.served, generationOf, List.map_singleton, hcancel, hcount]

theorem winding_marked (hm : w.marked = false) :
    Winding .unix snapshotCodec.line (generationOf 1 (endingJob w))
      (generationOf 0 (markedJob w)) := by
  have hs : (taskMachine .unix snapshotCodec.line).Step
      (perform .markFinished >>= fun _ ↦ perform .dropStore, w)
      ((perform .dropStore : Task Unit), { w with marked := true }) :=
    .act (S := runner) (o := .markFinished) (r := ()) rfl
  have hrunners : (generationOf 1 (endingJob w)).runners =
      [] ++ ⟨exampleRoute, perform .markFinished >>= fun _ ↦ perform .dropStore, w⟩ :: [] := rfl
  simpa [generationOf, hm, markedJob] using Winding.runner hrunners hs

theorem winding_ended :
    Winding .unix snapshotCodec.line (generationOf 0 (markedJob w))
      (generationOf 0 (endedJob w)) := by
  have hs : (taskMachine .unix snapshotCodec.line).Step
      ((perform .dropStore : Task Unit), { w with marked := true })
      (.ret (), { w with marked := true, storeHeld := false }) :=
    .act (S := runner) (o := .dropStore) (r := ()) rfl
  have hrunners : (generationOf 0 (markedJob w)).runners =
      [] ++ ⟨exampleRoute, perform .dropStore, { w with marked := true }⟩ :: [] := rfl
  simpa [generationOf, endedJob] using Winding.runner hrunners hs

end

/-- The runner's block has ended by the time of the lock. -/
theorem lock_free_iff_ended :
    ∃ g, (restartMachine .unix snapshotCodec.line).Run
        (restart {} "/var/log/command-api", .served [endingJob exampleSaved] false)
        (lock "/var/log/command-api", g) ∧ ¬ g.StoreAlive := by
  have hw := (ReflTransGen.single (winding_marked (w := exampleSaved) rfl)).tail winding_ended
  rw [← generationOf_served rfl rfl] at hw
  have hr := run_restart {} "/var/log/command-api" hw rfl rfl
  refine ⟨_, hr, ((lock_free_iff .unix _ {} _ _ false _ _ hr).mpr ?_).1⟩
  rintro j hj ⟨-, hheld⟩
  rw [List.mem_singleton.mp (show j ∈ [endedJob exampleSaved] from hj)] at hheld
  cases hheld

/-- The main task gets to the lock between the last two steps of the runner. -/
theorem restart_finds_lock :
    ∃ g, (taskMachine .unix snapshotCodec.line).Run (startTask .unix exampleRoute [], exampleWorld)
        ((endingJob exampleSaved).program, (endingJob exampleSaved).world) ∧
      (restartMachine .unix snapshotCodec.line).Run
        (restart {} "/var/log/command-api", .served [endingJob exampleSaved] false)
        (lock "/var/log/command-api", g) ∧
      g.StoreAlive ∧ g.foreignLock = false ∧
      ∀ locked g', (restartMachine .unix snapshotCodec.line).act .tryLock g locked g' →
        locked = false := by
  have hw := ReflTransGen.single (winding_marked (w := exampleSaved) rfl)
  rw [← generationOf_served rfl rfl] at hw
  have hr := run_restart {} "/var/log/command-api" hw rfl rfl
  have halive : (generationOf 0 (markedJob exampleSaved)).released.StoreAlive :=
    .inr (.inr (.inr ⟨_, List.mem_singleton_self _, rfl⟩))
  refine ⟨_, run_exampleSaved, hr, halive, rfl, fun locked g' hact ↦ ?_⟩
  cases locked with
  | false => rfl
  | true => exact absurd halive (hact.1.mp rfl).1

end CommandApi
