import CommandApi.Process.Lifecycle

/-!
# An accepted kill

`POST /tasks/{id}/kill` writes `ForceKilled` to the stop cell of the task.  The cell keeps only the
last reason written to it, and the runner looks at it in three of its waits only, so the kill can be
lost: `kill_overwritten` is an execution in which a cancel request that comes after it, and before
the runner looks, turns it into a graceful stop.

`kill_not_lost` says when it is not lost.  The runner may be anywhere when the kill is accepted, and
may be suspended in a write any number of times before it comes to one of these waits; the condition
(`KillStands`) is about the moment it is polled there.  The cell still holds the kill, and no other
branch of the `select!` is ready.  Then that poll enters `force_stop_process` with the reason
`ForceKilled`, and whatever happens afterwards the task ends as `Killed`, with a forced termination
record.
-/

set_option autoImplicit false

namespace CommandApi

open Async Relation

/-- The runner when all its calls succeed. -/
def smoothMachine (P : Platform) (line : TaskSnapshot → List UInt8) : Machine runner World :=
  (taskMachine P line).restrict (fun o _ r ↦ ¬ o.Fails r) fun _ _ ↦ True

theorem smoothMachine_allows {P : Platform} {line : TaskSnapshot → List UInt8} :
    Allows P line (smoothMachine P line) :=
  fun _ _ _ _ h hok _ ↦ ⟨h, hok⟩

/-- The termination record of a kill. -/
def ForceKilled (s : TaskSnapshot) : Prop :=
  ∃ t, s.termination = some t ∧ t.reason = .forceKilled ∧ t.forced = true

/-- The operations a forced stop is made of. -/
def Op.forces : Op → Bool
  | .update .forced _ | .update .descendants _ | .fallible .force => true
  | _ => false

/-- The runner has itself started a forced stop: the termination record says so, or the next
operation is part of it. -/
def Forcing (p : Task Unit) (w : World) : Prop :=
  (∃ t, w.snapshot.termination = some t ∧ t.forced = true) ∨
    ∃ o k, p = .call o k ∧ o.forces = true

/-- The next operation of the program. -/
def At (o : Op) (p : Task Unit) : Prop := ∃ k, p = .call o k

/-- The condition, for a runner that has come to one of the three `select!`s that look at the cell.
The cell still holds the kill, and no other branch is ready: the worker has not exited, the deadline
or the grace period is not over, and in the last of the three the tree is not empty. -/
def KillStands (P : Platform) (p : Task Unit) (w : World) : Prop :=
  w.stop = some .forceKilled ∧
    (At .selectMain p ∧ w.worker = .alive ∧ w.deadline = false ∨
      At .selectGrace p ∧ w.worker = .alive ∧ w.grace = false ∨
      At .selectEmpty p ∧ w.EmptyPending P ∧ w.grace = false)

/-- The runner has entered `force_stop_process` for a kill: the termination record says so, or the
change that sets it is next. -/
def ForcedByKill (P : Platform) (p : Task Unit) (w : World) : Prop :=
  ForceKilled w.visible ∨
    ∃ attempted, At (.update .forced (toForced P .forceKilled attempted)) p

/-! ## The kill in each phase -/

/-- The runner has not looked at the cell since it was last written, if it is not past its main
loop. -/
def CellUnread : Phase → World → Prop
  | .starting, w | .spawned, w | .running, w => w.stopChanged = true
  | _, _ => True

/-- A kill that the runner has read. -/
def Taken : Phase → TaskSnapshot → Prop
  | .stop reason, s | .overdue reason _, s => reason = .forceKilled ∧ s.status.isFinished = false
  | .forced reason _, s | .stopped reason _, s =>
      reason = .forceKilled ∧ s.status = .stopping ∧ ForceKilled s
  | .ending _ reason _, s | .released reason _, s =>
      reason = some .forceKilled ∧ s.status = .stopping ∧ ForceKilled s
  | .published, s | .returned, s | .marking, s | .marked, s | .done, s =>
      s.status = .killed ∧ ForceKilled s
  | _, _ => False

section

variable {P : Platform} {route : ResolvedRoute} {line : TaskSnapshot → List UInt8} {w w' : World}
  {φ ψ : Phase} {o : Op} {r : runner.Resp o} {p : Task Unit}

theorem CellUnread.act (h : CellUnread φ w) (hm : Moves P route φ o r ψ)
    (ha : taskEffect P line o w r w') : CellUnread ψ w' := by
  cases hm with
  | quiet hq =>
    cases hq with
    | persistRunning =>
      obtain rfl : w' = _ := ha
      exact h
    | pipe | cloneReader | currentExe | treeNew | attach | takeStdin | encodeSpec | writeSpec _
    | flushSpec =>
      obtain rfl : w' = w := ha
      exact h
    | _ => exact trivial
  | startReader _ | spawn | armDeadline =>
    obtain rfl : w' = _ := ha
    exact h
  | toRunning =>
    obtain ⟨now, rfl⟩ := ha
    exact h
  | _ => exact trivial

theorem CellUnread.env (h : CellUnread φ w) (he : Surroundings P w w') : CellUnread φ w' := by
  cases φ with
  | starting | spawned | running =>
    cases he with
    | requestStop reason => exact rfl
    | _ => exact h
  | _ => exact trivial

theorem cellUnread_invariant : Invariant (taskMachine P line) (Moves P route) CellUnread where
  env _ _ _ h he := h.env he
  act _ _ _ _ _ _ h ha hm := h.act hm ha

/-- A cell that has just been written is unread in every phase. -/
theorem cellUnread_requestStop (φ : Phase) (reason : StopReason) :
    CellUnread φ (w.requestStop reason) := by
  cases φ <;> first | exact rfl | exact trivial

/-- In a phase with one operation, that operation comes next. -/
theorem Follows.next (hf : Follows (Moves P route) φ p fun _ φ ↦ φ = .done)
    (hφ : φ ≠ .done) : ∃ o k r ψ, p = .call o k ∧ Moves P route φ o r ψ := by
  cases p with
  | ret _ | fail _ => exact absurd hf hφ
  | call o k =>
    obtain ⟨r⟩ : Nonempty (runner.Resp o) := inferInstance
    obtain ⟨ψ, hm, -⟩ := hf r
    exact ⟨o, k, r, ψ, rfl, hm⟩

/-- What a kill that was read looks like from outside. -/
theorem Taken.visible (h : Taken φ w.snapshot)
    (hf : Follows (Moves P route) φ p fun _ φ ↦ φ = .done) :
    ForcedByKill P p w ∧ (w.visible.status.isFinished = true →
      w.visible.status = .killed ∧ ForceKilled w.visible) := by
  have hunfinished : w.snapshot.status.isFinished = false → w.visible.status.isFinished = true →
      w.visible.status = .killed ∧ ForceKilled w.visible := by
    intro hs hfin
    rw [show w.visible.status.isFinished = false from hs] at hfin
    cases hfin
  cases φ with
  | stop _ =>
    obtain ⟨rfl, hs⟩ := h
    obtain ⟨o, k, r, ψ, rfl, hm⟩ := Follows.next hf nofun
    refine ⟨.inr ?_, hunfinished hs⟩
    cases hm with
    | quiet hq | error hq _ _ => cases hq
    | forceNow => exact ⟨false, k, rfl⟩
    | toGraceful hne => exact absurd rfl hne
  | overdue _ _ =>
    obtain ⟨rfl, hs⟩ := h
    obtain ⟨o, k, r, ψ, rfl, hm⟩ := Follows.next hf nofun
    refine ⟨.inr ?_, hunfinished hs⟩
    cases hm with
    | quiet hq | error hq _ _ => cases hq
    | toForced _ _ => exact ⟨true, k, rfl⟩
  | forced _ _ | stopped _ _ | ending _ _ _ | released _ _ =>
    exact ⟨.inl h.2.2, hunfinished (by rw [h.2.1]; rfl)⟩
  | published | returned | marking | marked | done => exact ⟨.inl h.2, fun _ ↦ h⟩
  | _ => exact absurd h id

/-- The runner keeps to the kill, and ends with it. -/
theorem Taken.act (h : Taken φ w.snapshot) (hm : Moves P route φ o r ψ)
    (ha : (smoothMachine P line).act o w r w') : Taken ψ w'.snapshot := by
  obtain ⟨ha, hok⟩ := ha
  obtain ⟨s', hc, hs'⟩ := taskEffect_changes ha
  rw [hs']
  cases hm with
  | forceNow =>
    obtain ⟨now, rfl⟩ := hc
    exact ⟨rfl, rfl, _, rfl, rfl, rfl⟩
  | toGraceful hne => exact absurd h.1 hne
  | toForced reason _ =>
    obtain ⟨now, rfl⟩ := hc
    obtain ⟨rfl, -⟩ := h
    exact ⟨rfl, rfl, _, rfl, rfl, rfl⟩
  | toFinal reason status =>
    obtain ⟨now, rfl⟩ := hc
    obtain ⟨rfl, -, ht⟩ := h
    exact ⟨rfl, ht⟩
  | error _ _ _ | spawnError _ _ | exitedError _ _ | graceError _ _ _ | drainError _ _ _ _
  | childWaitError _ _ _ | forceEmptyError _ _ _ _ | stoppedError _ _ _ _ | lateError _ _ _
  | joinError _ _ _ _ _ _ | joinCrashed _ _ _ _ _ _ | persistFinalError _ _ =>
    exact absurd trivial hok
  | quiet hq =>
    obtain rfl : s' = w.snapshot := hc
    cases hq with
    | persistForced _ _ | force _ _ => exact h
    | _ => exact absurd h id
  | stoppedEmpty _ _ =>
    obtain rfl : s' = w.snapshot := hc
    exact ⟨congrArg some h.1, h.2⟩
  | childWait _ _ | forceEmpty _ _ | dropControl _ _ _ | joined _ _ _ _ | dropPermits _ _
  | persistFinal | leave | markFinished | dropStore =>
    obtain rfl : s' = w.snapshot := hc
    exact h
  | _ => exact absurd h id

theorem taken_invariant :
    Invariant (smoothMachine P line) (Moves P route) fun φ w ↦ Taken φ w.snapshot where
  env _ _ _ h he := by
    rw [he.1.frame.1]
    exact h
  act _ _ _ _ _ _ h ha hm := h.act hm ha

/-! ## Where a kill finds the runner -/

/-- A kill that stands can be read at once, and nothing else can happen at the `select!`. -/
theorem KillStands.read (line : TaskSnapshot → List UInt8) (h : KillStands P p w)
    (hf : Follows (Moves P route) φ p fun _ φ ↦ φ = .done) (hfacts : Facts φ w.snapshot)
    (hunread : CellUnread φ w) :
    ∃ o k, p = .call o k ∧ ¬ o.Suspends ∧ (∃ r v, (smoothMachine P line).act o w r v) ∧
      ∀ r v ψ, (smoothMachine P line).act o w r v → Moves P route φ o r ψ →
        Taken ψ v.snapshot := by
  obtain ⟨hstop, ⟨⟨k, rfl⟩, halive, hdeadline⟩ | ⟨⟨k, rfl⟩, halive, hgrace⟩ |
    ⟨⟨k, rfl⟩, hempty, hgrace⟩⟩ := h
  · obtain ⟨_, hm, -⟩ := hf .deadline
    cases hm
    refine ⟨_, k, rfl, id, ⟨.stop .forceKilled, _, ⟨hunread, hstop, rfl⟩, id⟩, ?_⟩
    rintro r v ψ ⟨ha, hok⟩ hm
    cases hm with
    | exited _ => exact absurd (halive.symm.trans ha.1) nofun
    | exitedError _ _ => exact absurd trivial hok
    | deadline => exact absurd (hdeadline.symm.trans ha.1) nofun
    | stop reason =>
      obtain ⟨-, hreason, rfl⟩ := ha
      exact ⟨(Option.some.inj (hstop.symm.trans hreason)).symm, Active.unfinished none hfacts⟩
  · obtain ⟨_, hm, -⟩ := hf .elapsed
    cases hm
    refine ⟨_, k, rfl, id, ⟨.force, _, ⟨hstop, rfl⟩, id⟩, ?_⟩
    rintro r v ψ ⟨ha, hok⟩ hm
    cases hm with
    | graceExited _ _ => exact absurd (halive.symm.trans ha.1) nofun
    | graceError _ _ _ => exact absurd trivial hok
    | graceElapsed _ => exact absurd (hgrace.symm.trans ha.1) nofun
    | graceForce _ =>
      obtain ⟨-, rfl⟩ := ha
      exact ⟨rfl, Active.unfinished _ hfacts.2⟩
  · obtain ⟨_, hm, -⟩ := hf .elapsed
    cases hm
    refine ⟨_, k, rfl, id, ⟨.force, _, ⟨hstop, rfl⟩, id⟩, ?_⟩
    rintro r v ψ ⟨ha, hok⟩ hm
    cases hm with
    | drained _ _ =>
      obtain ⟨hP | hlive, -⟩ := ha
      · exact absurd (hempty.1.symm.trans hP) nofun
      · exact absurd hempty.2 hlive
    | drainError _ _ _ _ => exact absurd trivial hok
    | drainElapsed _ _ => exact absurd (hgrace.symm.trans ha.1) nofun
    | drainForce _ _ =>
      obtain ⟨-, rfl⟩ := ha
      exact ⟨rfl, Active.unfinished _ hfacts.2⟩

end

/-- **An accepted kill is neither lost nor downgraded** if it stands when the runner is next polled
at a `select!` that looks for it. -/
theorem kill_not_lost (P : Platform) (route : ResolvedRoute) (args : List String)
    (line : TaskSnapshot → List UInt8) (w₀ : World) (hw : Fresh w₀) (p p' : Task Unit)
    (w w' : World) (hr : (smoothMachine P line).Run (startTask P route args, w₀) (p, w))
    (ha : (smoothMachine P line).Run (p, w.requestStop .forceKilled) (p', w'))
    (hk : KillStands P p' w') (c : Task Unit × World)
    (hp : (smoothMachine P line).Poll Op.Suspends (p', w') c) (c' : Task Unit × World)
    (hr' : (smoothMachine P line).Run c c') :
    ForcedByKill P c'.1 c'.2 ∧ (c'.2.visible.status.isFinished = true →
      c'.2.visible.status = .killed ∧ ForceKilled c'.2.visible) := by
  have hstart : Tracked (Moves P route) (fun φ w ↦ Facts φ w.snapshot) (fun _ φ ↦ φ = .done)
      (startTask P route args, w₀) :=
    ⟨.starting, startTask_follows P route args, hw.facts⟩
  obtain ⟨φ, hf, hfacts⟩ := facts_invariant.restrict.run hstart hr
  have haccepted : Tracked (Moves P route) (fun φ w ↦ Facts φ w.snapshot ∧ CellUnread φ w)
      (fun _ φ ↦ φ = .done) (p, w.requestStop .forceKilled) :=
    ⟨φ, hf, hfacts, cellUnread_requestStop φ _⟩
  obtain ⟨φ, hf, hfacts, hunread⟩ :=
    (facts_invariant.and cellUnread_invariant).restrict.run haccepted ha
  obtain ⟨o, k, rfl, hsuspends, hready, htaken⟩ := hk.read line hf hfacts hunread
  obtain ⟨r, v, hact, hp⟩ := hp.answered hsuspends hready
  obtain ⟨ψ, hm, hf⟩ := hf r
  obtain ⟨ψ, hf, ht⟩ := taken_invariant.run ⟨ψ, hf, htaken r v ψ hact hm⟩ (hp.run.trans hr')
  exact ht.visible hf

/-! ## Two executions

A kill is accepted while the runner is suspended in front of an event, and another one while it is
in its main loop. -/

/-- The kill is accepted in front of the event of the running task, and the runner comes to its main
loop. -/
def exampleKillPending : World :=
  { ((exampleWorld.begun exampleRoute "2026-01-01T00:00:01Z").requestStop .forceKilled).persisted
      snapshotCodec.line with
    deadline := false }

/-- The runner reads the kill, and is suspended in front of the event that says so.  Then the tree
is killed and the task ends. -/
theorem poll_exampleKillPending : ∃ q u p v,
    (smoothMachine .unix snapshotCodec.line).Poll Op.Suspends
      (atMainLoop .unix exampleRoute, exampleKillPending) (q, u) ∧
    (smoothMachine .unix snapshotCodec.line).Run (q, u) (p, v) ∧
    v.visible.status.isFinished = true := by
  refine ⟨?q, ?u, ?p, ?v, ?_, ?_, ?_⟩
  rotate_left 4
  · refine .act (S := runner) (o := .selectMain) (r := .stop .forceKilled) ⟨⟨rfl, rfl, rfl⟩, id⟩ ?_
    refine .act (S := runner) (o := .update .forced _) (r := ()) ⟨⟨"", rfl⟩, id⟩ ?_
    refine .suspended (S := runner) (o := .fallible .persist) ?_
    exact trivial
  · refine .head (.act (S := runner) (o := .fallible .persist) (r := .ok ()) ⟨rfl, id⟩) ?_
    refine .head (.act (S := runner) (o := .fallible .force) (r := .ok ()) ⟨rfl, id⟩) ?_
    refine .head (.env ⟨@Surroundings.readerEnds _ _ .stdout (.ok ()) rfl, trivial⟩) ?_
    refine .head (.env ⟨@Surroundings.readerEnds _ _ .stderr (.ok ()) rfl, trivial⟩) ?_
    refine .head (.act (S := runner) (o := .childWait) (r := .ok (.signaled 9))
      ⟨⟨rfl, rfl⟩, id⟩) ?_
    refine .head (.act (S := runner) (o := .waitEmpty) (r := .ok ()) ⟨⟨.inl rfl, rfl⟩, id⟩) ?_
    refine .head (.act (S := runner) (o := .waitEmpty) (r := .ok ()) ⟨⟨.inl rfl, rfl⟩, id⟩) ?_
    refine .head (.act (S := runner) (o := .dropControl) (r := ()) ⟨rfl, id⟩) ?_
    refine .head (.act (S := runner) (o := .joinReader .stdout) (r := .ended (.ok ()))
      ⟨⟨rfl, rfl⟩, id⟩) ?_
    refine .head (.act (S := runner) (o := .joinReader .stderr) (r := .ended (.ok ()))
      ⟨⟨rfl, rfl⟩, id⟩) ?_
    refine .head (.act (S := runner) (o := .dropPermits) (r := ()) ⟨rfl, id⟩) ?_
    refine .head (.act (S := runner) (o := .update .final _) (r := ()) ⟨⟨"", rfl⟩, id⟩) ?_
    exact .refl
  · rfl

/-- The kill stands when the runner is polled in its main loop, and the task ends as killed. -/
theorem kill_not_lost_main :
    ∃ p w c c', (smoothMachine .unix snapshotCodec.line).Run
        (startTask .unix exampleRoute [], exampleWorld) (p, w) ∧ At (.fallible .persist) p ∧
      (smoothMachine .unix snapshotCodec.line).Run (p, w.requestStop .forceKilled)
        (atMainLoop .unix exampleRoute, exampleKillPending) ∧
      (smoothMachine .unix snapshotCodec.line).Poll Op.Suspends
        (atMainLoop .unix exampleRoute, exampleKillPending) c ∧
      (smoothMachine .unix snapshotCodec.line).Run c c' ∧
      c'.2.visible.status = .killed ∧ ForceKilled c'.2.visible := by
  obtain ⟨q, u, p, v, hp, hr', hfinished⟩ := poll_exampleKillPending
  have hr : (smoothMachine .unix snapshotCodec.line).Run
      (startTask .unix exampleRoute [], exampleWorld) (atRunning .unix exampleRoute, _) :=
    run_toRunning smoothMachine_allows "2026-01-01T00:00:01Z" _
  have ha : (smoothMachine .unix snapshotCodec.line).Run
      (atRunning .unix exampleRoute,
        (exampleWorld.begun exampleRoute "2026-01-01T00:00:01Z").requestStop .forceKilled)
      (atMainLoop .unix exampleRoute, exampleKillPending) := by
    refine .head (.act (S := runner) (o := .fallible .persist) (r := .ok ()) ⟨rfl, id⟩) ?_
    exact .single (.act (S := runner) (o := .armDeadline) (r := ()) ⟨rfl, id⟩)
  have hk : KillStands .unix (atMainLoop .unix exampleRoute) exampleKillPending :=
    ⟨rfl, .inl ⟨⟨_, rfl⟩, rfl, rfl⟩⟩
  exact ⟨_, _, _, _, hr, ⟨_, rfl⟩, ha, hp, hr', (kill_not_lost .unix exampleRoute [] _
    exampleWorld exampleWorld_fresh _ _ _ _ hr ha hk _ hp _ hr').2 hfinished⟩

/-- A task in its main loop. -/
def exampleLooping : World :=
  exampleWorld.looping snapshotCodec.line exampleRoute "2026-01-01T00:00:01Z"

theorem run_exampleLooping : (smoothMachine .unix snapshotCodec.line).Run
    (startTask .unix exampleRoute [], exampleWorld)
    (atMainLoop .unix exampleRoute, exampleLooping) :=
  run_mainLoop smoothMachine_allows _ _

theorem exampleLooping_not_forcing :
    ¬ Forcing (atMainLoop .unix exampleRoute) exampleLooping := by
  rintro (⟨t, ht, -⟩ | ⟨o, k, hp, ho⟩)
  · cases ht
  · cases hp
    cases ho

/-- A cancel request comes before the runner is polled. -/
def exampleCancelled : World := (exampleLooping.requestStop .forceKilled).requestStop .cancelled

/-- The runner has asked for a graceful exit, and waits. -/
def exampleGrace : World :=
  { (({ exampleCancelled with stopChanged := false } : World).update
      (toGraceful .unix exampleRoute .cancelled "")).persisted snapshotCodec.line with
    grace := false }

theorem exampleGrace_pending (r : GraceEvent) (v : World) :
    ¬ (smoothMachine .unix snapshotCodec.line).act .selectGrace exampleGrace r v := by
  rintro ⟨h, hok⟩
  match r, h with
  | .exited (.ok _), ⟨h, _⟩ => cases h
  | .exited (.error _), _ => exact hok trivial
  | .elapsed, ⟨h, _⟩ => cases h
  | .force, ⟨h, _⟩ => cases h

/-- The runner reads the cancel request, and goes on until it has to wait. -/
theorem poll_exampleCancelled : ∃ q, (smoothMachine .unix snapshotCodec.line).Poll Op.Suspends
    (atMainLoop .unix exampleRoute, exampleCancelled) (q, exampleGrace) ∧ At .selectGrace q := by
  refine ⟨?q, ?_, ?_⟩
  rotate_left
  · refine .act (S := runner) (o := .selectMain) (r := .stop .cancelled) ⟨⟨rfl, rfl, rfl⟩, id⟩ ?_
    refine .act (S := runner) (o := .update .graceful _) (r := ()) ⟨⟨"", rfl⟩, id⟩ ?_
    refine .act (S := runner) (o := .fallible .persist) (r := .ok ()) ⟨rfl, id⟩ ?_
    refine .act (S := runner) (o := .writeTerminate) (r := ()) ⟨rfl, id⟩ ?_
    refine .act (S := runner) (o := .fallible .graceful) (r := .ok ()) ⟨rfl, id⟩ ?_
    refine .act (S := runner) (o := .armGrace) (r := ()) ⟨rfl, id⟩ ?_
    exact .pending (S := runner) (o := .selectGrace) exampleGrace_pending
  · exact ⟨_, rfl⟩

/-- The kill is overwritten: the next poll waits for the grace period. -/
theorem kill_overwritten :
    ∃ p w w' c, (smoothMachine .unix snapshotCodec.line).Run
        (startTask .unix exampleRoute [], exampleWorld) (p, w) ∧
      w.visible.status.isFinished = false ∧ w.TreeLive ∧ ¬ Forcing p w ∧
      ReflTransGen (Surroundings .unix) (w.requestStop .forceKilled) w' ∧ w'.TreeLive ∧
      (smoothMachine .unix snapshotCodec.line).Poll Op.Suspends (p, w') c ∧ At .selectGrace c.1 ∧
      ¬ ForcedByKill .unix c.1 c.2 := by
  obtain ⟨q, hq, k, rfl⟩ := poll_exampleCancelled
  refine ⟨_, _, exampleCancelled, (_, exampleGrace), run_exampleLooping, rfl, .inl rfl,
    exampleLooping_not_forcing, .single (.requestStop .cancelled), .inl rfl, hq, ⟨k, rfl⟩, ?_⟩
  rintro (⟨t, ht, hreason, -⟩ | ⟨attempted, k', hk'⟩)
  · cases ht
    cases hreason
  · cases hk'

end CommandApi
