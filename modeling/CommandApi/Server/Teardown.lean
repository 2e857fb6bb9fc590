import CommandApi.Server.Conservation
import CommandApi.Server.Restart

/-!
# Shutting down

The end of a generation, for a stop and for a restart, from the moment the HTTP server has ended to
`drop(store)`.  `active_count` is kept apart from the records: `create` counts up when the record is
in the map, and each runner counts down when its block is nearly over, whatever `run_task` returned.
`CountedStep` is the server with that counter; `Counted` says that it counts the runners that have
yet to call `mark_finished`, and `teardown_finished` that every record is finished once the main
task has read a zero.
-/

set_option autoImplicit false

namespace CommandApi

open Async Relation Text

/-! ## The counter -/

/-- The server, with `active_count`. -/
inductive CountedStep (P : Platform) (line : TaskSnapshot → List UInt8)
    (routes : List ResolvedRoute) : Server × ℕ → Server × ℕ → Prop
  /-- A handler goes on, or ends without a task. -/
  | handler {s s' : Server} {n : ℕ} (h : ServerStep P line (taskMachine P line) routes s s')
      (hjobs : s'.jobs = s.jobs) : CountedStep P line routes (s, n) (s', n)
  /-- `create` returns the record, and the handler starts its runner. -/
  | create {free : Sem → ℕ} {pre post : List Owner} {route : ResolvedRoute} {args : List String}
      {n : ℕ} (id : Uuid) (now : String) :
      CountedStep P line routes (⟨free, pre ++ .creating route args :: post⟩, n)
        (⟨free, pre ++ .job ⟨route, startTask P route args, route.world line id now⟩ :: post⟩,
          n + 1)
  /-- A runner or something around it makes a step; `mark_finished` counts down. -/
  | run {free : Sem → ℕ} {pre post : List Owner} {route : ResolvedRoute} {p q : Task Unit}
      {w v : World} {n : ℕ} (h : (taskMachine P line).Step (p, w) (q, v)) :
      CountedStep P line routes (⟨free, pre ++ .job ⟨route, p, w⟩ :: post⟩, n)
        (⟨fun k ↦ free k +
            (Owner.holds (.job ⟨route, p, w⟩) k - Owner.holds (.job ⟨route, q, v⟩) k),
          pre ++ .job ⟨route, q, v⟩ :: post⟩, n - if v.marked && !w.marked then 1 else 0)

/-- The runners that have yet to call `mark_finished`. -/
def unmarked (jobs : List Job) : ℕ := jobs.countP fun j ↦ !j.world.marked

section

variable {P : Platform} {line : TaskSnapshot → List UInt8} {max : ℕ}
  {routes : List ResolvedRoute} {s s' : Server} {c c' : Server × ℕ}

@[simp] theorem unmarked_append (pre post : List Job) :
    unmarked (pre ++ post) = unmarked pre + unmarked post := List.countP_append

@[simp] theorem unmarked_cons (j : Job) (jobs : List Job) :
    unmarked (j :: jobs) = unmarked jobs + if j.world.marked then 0 else 1 := by
  rw [unmarked, List.countP_cons, unmarked]
  cases j.world.marked <;> rfl

/-- A step that is one of a runner counts down if it marks, and leaves the others alone. -/
theorem unmarked_run (pre post : List Job) (route : ResolvedRoute) {p q : Task Unit} {w v : World}
    (hs : (taskMachine P line).Step (p, w) (q, v)) :
    unmarked (pre ++ ⟨route, q, v⟩ :: post) + (if v.marked && !w.marked then 1 else 0) =
      unmarked (pre ++ ⟨route, p, w⟩ :: post) := by
  have hmono := marked_step hs
  cases hw : w.marked with
  | true => simp [hw, hmono hw]
  | false => cases hv : v.marked <;> simp [hw, hv]; omega

theorem counted_step (h : c.2 = unmarked c.1.jobs) (hs : CountedStep P line routes c c') :
    c'.2 = unmarked c'.1.jobs := by
  cases hs with
  | handler _ hjobs => rw [hjobs]; exact h
  | create id now =>
    simp only [Server.jobs, List.filterMap_append, List.filterMap_cons, Owner.job?,
      unmarked_append] at h ⊢
    rw [h, unmarked_cons]
    rfl
  | @run free pre post route p q w v n hstep =>
    have hrun := unmarked_run (pre.filterMap Owner.job?) (post.filterMap Owner.job?) route hstep
    simp only [Server.jobs, List.filterMap_append, List.filterMap_cons, Owner.job?] at h ⊢
    omega

theorem counted_run (hr : ReflTransGen (CountedStep P line routes) (.built max routes, 0) c) :
    c.2 = unmarked c.1.jobs := by
  induction hr with
  | refl => rfl
  | tail _ hs ih => exact counted_step ih hs

/-- Every step of the server is one of the server with the counter. -/
theorem exists_countedStep (hs : ServerStep P line (taskMachine P line) routes s s') (n : ℕ) :
    ∃ n', CountedStep P line routes (s, n) (s', n') := by
  cases hs with
  | start id now => exact ⟨_, .create id now⟩
  | run h => exact ⟨_, .run h⟩
  | request args h => exact ⟨n, .handler (.request args h) rfl⟩
  | acquireGlobal h =>
    exact ⟨n, .handler (.acquireGlobal h) (by simp [Server.jobs, Owner.job?, List.filterMap_cons])⟩
  | acquireRoute h =>
    exact ⟨n, .handler (.acquireRoute h) (by simp [Server.jobs, Owner.job?, List.filterMap_cons])⟩
  | @giveUp free pre post o h =>
    refine ⟨n, .handler (.giveUp h) ?_⟩
    cases o with
    | job j => cases h
    | _ => simp [Server.jobs, Owner.job?, List.filterMap_cons]

theorem server_of_counted (hr : ReflTransGen (CountedStep P line routes) c c') :
    ReflTransGen (ServerStep P line (taskMachine P line) routes) c.1 c'.1 := by
  induction hr with
  | refl => exact .refl
  | tail _ hs ih =>
    cases hs with
    | handler h _ => exact ih.tail h
    | create id now => exact ih.tail (.start id now)
    | run h => exact ih.tail (.run h)

theorem exists_countedRun (hr : ReflTransGen (ServerStep P line (taskMachine P line) routes) s s')
    (n : ℕ) : ∃ n', ReflTransGen (CountedStep P line routes) (s, n) (s', n') := by
  induction hr with
  | refl => exact ⟨n, .refl⟩
  | tail _ hs ih =>
    obtain ⟨n₁, h₁⟩ := ih
    obtain ⟨n₂, h₂⟩ := exists_countedStep hs n₁
    exact ⟨n₂, h₁.tail h₂⟩

end

/-! ## A runner that has called `mark_finished` -/

section

variable {P : Platform} {route : ResolvedRoute} {line : TaskSnapshot → List UInt8} {w w' : World}
  {φ ψ : Phase} {o : Op} {r : runner.Resp o}

/-- Only the last two phases are behind `mark_finished`. -/
def Marked (φ : Phase) (w : World) : Prop := w.marked = true → φ = .marked ∨ φ = .done

theorem Shape.of_marked (h : Shape P line w o w') (hw : w'.marked = true) :
    w.marked = true ∨ o = .markFinished := by
  cases h with
  | markFinished => exact .inr rfl
  | leaveRunTask => cases P <;> exact .inl hw
  | _ => exact .inl hw

theorem Marked.act (h : Marked φ w) (hm : Moves P route φ o r ψ)
    (ha : taskEffect P line o w r w') : Marked ψ w' := by
  intro hw'
  rcases (taskEffect_shape ha).of_marked hw' with hw | rfl
  · rcases h hw with rfl | rfl
    · cases hm with
      | quiet hq => cases hq
      | error hq => cases hq
      | dropStore => exact .inr rfl
    · cases hm with
      | quiet hq => cases hq
      | error hq => cases hq
  · cases hm with
    | markFinished => exact .inl rfl

theorem marked_invariant :
    Invariant (taskMachine P line) (Moves P route) fun φ w ↦ Facts φ w.snapshot ∧ Marked φ w where
  env φ w w' h he :=
    ⟨by rw [he.frame.1]; exact h.1, fun hw ↦ h.2 (by rwa [← he.marked])⟩
  act φ o w r w' ψ h ha hm := ⟨facts_invariant.act φ o w r w' ψ h.1 ha hm, h.2.act hm ha⟩

/-- A runner on its way, before or behind `mark_finished`. -/
def Job.Marks (P : Platform) (j : Job) : Prop :=
  Tracked (Moves P j.route) (fun φ w ↦ Facts φ w.snapshot ∧ Marked φ w) (fun _ φ ↦ φ = .done)
    (j.program, j.world)

/-- A task whose runner has called `mark_finished` is finished. -/
theorem Job.Marks.finished {j : Job} (h : j.Marks P) (hm : j.world.marked = true) :
    j.world.visible.status.isFinished = true := by
  obtain ⟨φ, -, hf, hmarked⟩ := h
  rcases hmarked hm with rfl | rfl
  · exact hf.2
  · exact hf.2

theorem Job.Marks.cancel {j : Job} (h : j.Marks P) (reason : StopReason) :
    (j.cancel reason).Marks P := by
  rw [Job.cancel]
  split
  · exact h
  · exact h

end

/-! ## The end of a generation -/

/-- The stop path of `run`, from the end of the server. -/
def stop (execution : ExecutionConfig) : Service Unit := do
  invoke (.cancelAll .serverShutdown)
  let idle ← invoke (.waitUntilIdle execution.shutdownTimeoutSeconds)
  forceAll idle
  invoke .abortCleanup
  invoke .awaitCleanup
  invoke .dropStore
  invoke .endLoopBody

/-- What follows the end of the server: a stop, or a restart with this log directory. -/
def endGeneration (execution : ExecutionConfig) : Option String → Service Unit
  | none => stop execution
  | some root => restart execution root

theorem stop_follows (execution : ExecutionConfig) :
    Follows RestartMoves .served (stop execution) fun _ φ ↦ φ = .over ∨ φ = .locking := by
  have htail : Follows RestartMoves .idle
      (invoke .abortCleanup >>= fun _ ↦ invoke .awaitCleanup >>= fun _ ↦ invoke .dropStore >>=
        fun _ ↦ invoke .endLoopBody) fun _ φ ↦ φ = .over ∨ φ = .locking :=
    fun _ ↦ ⟨_, .abort, fun _ ↦ ⟨_, .await, fun _ ↦ ⟨_, .dropStore, fun _ ↦
      ⟨_, .endLoopBody, .inr rfl⟩⟩⟩⟩
  refine fun _ ↦ ⟨_, .cancel _, fun idle ↦ ?_⟩
  cases idle with
  | true => exact ⟨_, .idle _, htail⟩
  | false =>
    refine ⟨_, .late _, fun _ ↦ ⟨_, .force _, fun idle ↦ ?_⟩⟩
    cases idle with
    | true => exact ⟨_, .idleForced _, htail⟩
    | false => exact ⟨_, .giveUp _, .inl rfl⟩

theorem endGeneration_follows (execution : ExecutionConfig) (ending : Option String) :
    Follows RestartMoves .served (endGeneration execution ending)
      fun _ φ ↦ φ = .over ∨ φ = .locking := by
  cases ending with
  | none => exact stop_follows execution
  | some root => exact (restart_follows execution root).mono fun _ _ h ↦ .inl h

section

variable {P : Platform} {line : TaskSnapshot → List UInt8} {g g' : Generation}

/-- Every runner is on its way. -/
def Generation.Marks (P : Platform) (g : Generation) : Prop := ∀ j ∈ g.runners, j.Marks P

theorem Generation.Marks.env (h : g.Marks P) (he : Winding P line g g') : g'.Marks P := by
  cases he with
  | cleanup _ => exact h
  | @runner pre post route p q w v hg hs =>
    rw [Generation.Marks, hg] at h
    intro j hj
    rcases List.mem_append.mp hj with hj | hj
    · exact h j (List.mem_append_left _ hj)
    · rcases List.mem_cons.mp hj with rfl | hj
      · have hstart : Job.Marks P ⟨route, p, w⟩ :=
          h _ (List.mem_append_right _ List.mem_cons_self)
        exact marked_invariant.step hstart hs
      · exact h j (List.mem_append_right _ (List.mem_cons_of_mem _ hj))

theorem Generation.Marks.act {o : RuntimeOp} {r : runtime.Resp o} (h : g.Marks P)
    (ha : runtimeEffect o g r g') : g'.Marks P := by
  cases o with
  | cancelAll reason =>
    obtain rfl : g' = _ := ha
    intro j hj
    obtain ⟨j₀, hj₀, rfl⟩ := List.mem_map.mp hj
    exact (h j₀ hj₀).cancel reason
  | waitUntilIdle _ | awaitCleanup | tryLock => obtain ⟨-, rfl⟩ := ha; exact h
  | abortCleanup | dropStore | endLoopBody => obtain rfl : g' = _ := ha; exact h

theorem marks_invariant :
    Invariant (restartMachine P line) RestartMoves
      fun φ g ↦ (g.Counted ∧ Released φ g) ∧ g.Marks P where
  env φ g g' h he := ⟨released_invariant.env φ g g' h.1 he, h.2.env he⟩
  act φ o g r g' ψ h ha hm := ⟨released_invariant.act φ o g r g' ψ h.1 ha hm, h.2.act ha⟩

end

/-- The records of the store: those it was opened with, and those of the tasks created since. -/
def Generation.records (store : TaskStore) (g : Generation) : List TaskSnapshot :=
  store.tasks.map (·.2.visible) ++ g.runners.map (·.world.visible)

/-- Every record a store is opened with is finished. -/
theorem openStore_finished {codec : LineCodec TaskSnapshot} {parse : String → Option ℤ}
    {retention : ℕ} {o : Opening} {disk disk' : Disk} {store : TaskStore}
    (h : openStore codec parse retention o disk = (disk', .ok store)) :
    ∀ t ∈ store.tasks, t.2.visible.status.isFinished = true := by
  obtain ⟨rs, hrs, hc⟩ := openStore_inv h
  obtain ⟨-, rfl⟩ := Prod.mk.injEq .. ▸ hc
  rintro ⟨name, r⟩ ht
  obtain ⟨d, d', -, hr⟩ := exists_of_mem_recover hrs (List.mem_of_mem_filter ht)
  obtain ⟨s, -, rfl, -⟩ := recoverTask_inv hr
  rw [recoverRecord_visible]
  exact interruptUnfinished_isFinished _ s

/-- Every runner of a server is on its way. -/
theorem marks_of_run {P : Platform} {line : TaskSnapshot → List UInt8} {max : ℕ}
    {routes : List ResolvedRoute} {s : Server}
    (hr : ReflTransGen (ServerStep P line (taskMachine P line) routes) (.built max routes) s) :
    ∀ j, .job j ∈ s.owners → j.Marks P := by
  refine jobs_run (Q := Job.Marks P) ?_ ?_ hr
  · intro route args id now
    refine ⟨.starting, startTask_follows P route args, (World.created_fresh ..).facts, ?_⟩
    exact fun h ↦ absurd h (by simp [ResolvedRoute.world, World.created])
  · intro route p q w v h hs
    exact marked_invariant.step h hs

theorem jobs_map (free : Sem → ℕ) (runners : List Job) :
    (⟨free, runners.map .job⟩ : Server).jobs = runners := by
  simp [Server.jobs, List.filterMap_map, Function.comp_def, Owner.job?]

/-- **Shutting down leaves no unfinished task.** -/
theorem teardown_finished (P : Platform) (codec : LineCodec TaskSnapshot)
    (parse : String → Option ℤ) (retention : ℕ) (o : Opening) (disk disk' : Disk)
    (store : TaskStore) (hopen : openStore codec parse retention o disk = (disk', .ok store))
    (max : ℕ) (routes : List ResolvedRoute) (free : Sem → ℕ) (runners : List Job) (n : ℕ)
    (hserved : ReflTransGen (CountedStep P codec.line routes) (.built max routes, 0)
      (⟨free, runners.map .job⟩, n))
    (execution : ExecutionConfig) (ending : Option String) (foreignLock : Bool) (p : Service Unit)
    (g : Generation) (hr : (restartMachine P codec.line).Run
      (endGeneration execution ending, ⟨runners, n, .running, true, true, foreignLock⟩) (p, g)) :
    g.activeCount = unmarked g.runners ∧
    (∀ pre post route p q w v, g.runners = pre ++ ⟨route, p, w⟩ :: post →
      (taskMachine P codec.line).Step (p, w) (q, v) → w.marked = false → v.marked = true →
        0 < g.activeCount) ∧
    ∀ k, p = .call .dropStore k → ∀ s ∈ g.records store, s.status.isFinished = true := by
  have hcount : n = unmarked runners := by
    have h := counted_run hserved
    rwa [jobs_map] at h
  have hmarks : ∀ j ∈ runners, j.Marks P := fun j hj ↦
    marks_of_run (server_of_counted hserved) j (List.mem_map_of_mem hj)
  have hstart : Tracked RestartMoves (fun φ g ↦ (g.Counted ∧ Released φ g) ∧ g.Marks P)
      (fun _ φ ↦ φ = .over ∨ φ = .locking)
      (endGeneration execution ending,
        (⟨runners, n, .running, true, true, foreignLock⟩ : Generation)) :=
    ⟨.served, endGeneration_follows execution ending, ⟨hcount, trivial⟩, hmarks⟩
  obtain ⟨φ, hf, ⟨hcounted, hreleased⟩, hmarks'⟩ := marks_invariant.run hstart hr
  have hactive : g.activeCount = unmarked g.runners := hcounted
  refine ⟨hactive, ?_, ?_⟩
  · intro pre post route p q w v hg hs hw hv
    have hrun := unmarked_run pre post route hs
    rw [← hg, ← hactive, if_pos (by simp [hv, hw])] at hrun
    omega
  · rintro k rfl s hs
    have hall : g.AllMarked := by
      obtain ⟨ψ, hm, -⟩ := hf ()
      cases hm with
      | dropStore => exact hreleased.1
    rcases List.mem_append.mp hs with hs | hs
    · obtain ⟨t, ht, rfl⟩ := List.mem_map.mp hs
      exact openStore_finished hopen t ht
    · obtain ⟨j, hj, rfl⟩ := List.mem_map.mp hs
      exact (hmarks' j hj).finished (hall j hj)

/-! ## One execution

A task cannot be started, and the service is stopped before its runner has called
`mark_finished`. -/

theorem exists_endingJob :
    ∃ free n, ReflTransGen (CountedStep .unix snapshotCodec.line [exampleRoute])
      (.built 1 [exampleRoute], 0) (⟨free, [endingJob exampleSaved].map .job⟩, n) ∧ n = 1 := by
  obtain ⟨s₁, h₁, ho₁⟩ : ∃ s₁, ReflTransGen (ServerStep .unix snapshotCodec.line
      (taskMachine .unix snapshotCodec.line) [exampleRoute]) (.built 1 [exampleRoute]) s₁ ∧ _ :=
    exists_execute routeRuntime_example (by decide) (by decide) [] 1 "2026-01-01T00:00:00Z"
  obtain ⟨⟨free, owners⟩, h₂, rfl⟩ := exists_run_job run_exampleSaved
    (show s₁.owners = [] ++ .job ⟨exampleRoute, _, exampleWorld⟩ :: [] from ho₁)
  obtain ⟨n, hn⟩ := exists_countedRun (h₁.trans h₂) 0
  exact ⟨free, n, hn, counted_run hn⟩

/-- The record of the task, at `drop(store)`. -/
theorem teardown_finished_failed :
    ∃ k g, (restartMachine .unix snapshotCodec.line).Run
        (endGeneration {} none, ⟨[endingJob exampleSaved], 1, .running, true, true, false⟩)
        (.call .dropStore k, g) ∧
      g.runners = [markedJob exampleSaved] ∧
      ∀ s ∈ g.records ⟨[]⟩, s.status.isFinished = true := by
  obtain ⟨free, n, hserved, rfl⟩ := exists_endingJob
  have hopen : openStore snapshotCodec (fun _ ↦ none) 3600 ⟨fun _ ↦ "", 0, fun _ ↦ false⟩ [] =
      ([], .ok ⟨[]⟩) := rfl
  have hw := ReflTransGen.single (winding_marked (w := exampleSaved) rfl)
  rw [← generationOf_served rfl rfl] at hw
  have hr := run_quiesce {} .serverShutdown
    (invoke .dropStore >>= fun _ ↦ invoke .endLoopBody) hw rfl rfl
  exact ⟨_, _, hr, rfl, (teardown_finished .unix snapshotCodec _ _ _ _ _ _ hopen 1 [exampleRoute]
    free _ 1 hserved {} none false _ _ hr).2.2 _ rfl⟩

end CommandApi
