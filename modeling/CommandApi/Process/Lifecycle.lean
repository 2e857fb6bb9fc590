import CommandApi.Async.Control
import CommandApi.Process.Phases
import CommandApi.Process.Runs
import CommandApi.Store.Recovery

/-!
# The life of a task

What the snapshot of a task may look like, in every state of every execution of its runner, and how
it may change.

* `Lawful` is what one snapshot has to satisfy: `finished_at` is set exactly in a finished status,
  and a terminal status agrees with the termination record, the exit code and the error.
* `Forward` is how the status may change.

Both are read off one table, `Facts`, of what is known about the snapshot in each phase of the
runner.  `facts_move` carries the table along the control graph; the rest of the file turns that
into statements about executions (`status_forward`, `startedAt_iff`), about the event log
(`exists_visible_of_latest`: whatever the log reads as was visible at some time), and about what
`recover` rebuilds from it.
-/

set_option autoImplicit false

namespace CommandApi

open Async Text Relation

/-! ## Snapshots -/

/-- The termination record names this reason, and is forced if the reason is a kill. -/
def StoppedFor (reason : StopReason) (s : TaskSnapshot) : Prop :=
  ∃ t, s.termination = some t ∧ t.reason = reason ∧ (reason = .forceKilled → t.forced = true)

/-- What holds of every snapshot of a task. -/
structure Lawful (s : TaskSnapshot) : Prop where
  finishedAt : s.finishedAt.isSome = true ↔ s.status.isFinished = true
  cancelled : s.status = .cancelled → ∃ t, s.termination = some t ∧ t.reason = .cancelled
  timedOut : s.status = .timedOut → ∃ t, s.termination = some t ∧ t.reason = .timeout
  killed : s.status = .killed →
    ∃ t, s.termination = some t ∧ t.reason = .forceKilled ∧ t.forced = true
  succeeded : s.status = .succeeded → s.termination = none ∧ s.exitCode = some 0
  failed : s.status = .failed → s.error.isSome = true
  running : s.status = .running → s.startedAt.isSome = true

/-- How a status may change: forward, and not at all once it is finished. -/
def Forward (a b : TaskStatus) : Prop := a.rank ≤ b.rank ∧ (a.isFinished = true → b = a)

theorem Forward.refl (a : TaskStatus) : Forward a a := ⟨le_rfl, fun _ ↦ rfl⟩

theorem Forward.trans {a b c : TaskStatus} (h₁ : Forward a b) (h₂ : Forward b c) : Forward a c := by
  refine ⟨h₁.1.trans h₂.1, fun ha ↦ ?_⟩
  obtain rfl := h₁.2 ha
  exact h₂.2 ha

theorem forward_of_unfinished {a b : TaskStatus} (ha : a.isFinished = false)
    (h : a.rank ≤ b.rank) : Forward a b :=
  ⟨h, fun h ↦ absurd h (by simp [ha])⟩

/-- Every status may turn into a finished one. -/
theorem rank_le_of_isFinished {b : TaskStatus} (hb : b.isFinished = true) (a : TaskStatus) :
    a.rank ≤ b.rank := by
  cases b <;> first | (cases a <;> decide) | cases hb

/-- A task that is not finished. -/
structure Unfinished (a : TaskStatus) (s : TaskSnapshot) : Prop where
  status : s.status = a
  finishedAt : s.finishedAt = none
  error : s.error = none
  startedAt : s.startedAt.isSome = true ↔ a ≠ .starting

theorem Unfinished.lawful {a : TaskStatus} {s : TaskSnapshot} (h : Unfinished a s)
    (ha : a.isFinished = false) : Lawful s := by
  obtain ⟨rfl, hf, -, hst⟩ := h
  refine ⟨by simp [hf, ha], ?_, ?_, ?_, ?_, ?_, fun h ↦ hst.mpr (by simp [h])⟩
  all_goals intro h; exact absurd ha (by simp [h, TaskStatus.isFinished])

/-- The flag of the record is no part of what is known about a snapshot. -/
theorem Unfinished.withFlag {a : TaskStatus} {s : TaskSnapshot} (h : Unfinished a s)
    (truncated : Bool) : Unfinished a { s with outputTruncated := truncated } :=
  ⟨h.status, h.finishedAt, h.error, h.startedAt⟩

theorem Lawful.withFlag {s : TaskSnapshot} (h : Lawful s) (truncated : Bool) :
    Lawful { s with outputTruncated := truncated } :=
  ⟨h.finishedAt, h.cancelled, h.timedOut, h.killed, h.succeeded, h.failed, h.running⟩

/-! ## What is known in each phase -/

/-- What the snapshot satisfies while the task runs, and while it is being stopped. -/
def Active (s : TaskSnapshot) : Option StopReason → Prop
  | none => Unfinished .running s ∧ s.termination = none
  | some reason => Unfinished .stopping s ∧ StoppedFor reason s

/-- What the runner knows about the snapshot in each phase. -/
def Facts : Phase → TaskSnapshot → Prop
  | .starting, s | .spawned, s => Unfinished .starting s ∧ s.termination = none
  | .running, s | .stop _, s | .exited _, s | .late _, s => Active s none
  | .grace reason, s | .waiting reason, s | .drain reason _, s =>
      reason ≠ .forceKilled ∧ Active s (some reason)
  | .overdue _ _, s => Unfinished .stopping s
  | .forced reason _, s | .stopped reason _, s => Active s (some reason)
  | .lateForced _, s => Active s (some .timeout)
  | .ending _ reason _, s | .released reason _, s => Active s reason
  | .published, s | .returned, s | .reported, s | .marking, s | .marked, s | .done, s =>
      Lawful s ∧ s.status.isFinished = true
  | .failed _, s | .crashed _, s => Lawful s

theorem Active.lawful {s : TaskSnapshot} (reason : Option StopReason) (h : Active s reason) :
    Lawful s := by
  cases reason with
  | none => exact h.1.lawful rfl
  | some reason => exact h.1.lawful rfl

theorem Active.unfinished {s : TaskSnapshot} (reason : Option StopReason) (h : Active s reason) :
    s.status.isFinished = false := by
  cases reason with
  | none => rw [h.1.status]; rfl
  | some reason => rw [h.1.status]; rfl

theorem Active.withFlag {s : TaskSnapshot} (reason : Option StopReason) (h : Active s reason)
    (truncated : Bool) : Active { s with outputTruncated := truncated } reason := by
  cases reason with
  | none => exact ⟨h.1.withFlag truncated, h.2⟩
  | some reason => exact ⟨h.1.withFlag truncated, h.2⟩

theorem Facts.lawful {φ : Phase} {s : TaskSnapshot} (h : Facts φ s) : Lawful s := by
  cases φ with
  | starting | spawned => exact h.1.lawful rfl
  | running | stop _ | exited _ | late _ => exact Active.lawful none h
  | grace reason | waiting reason | drain reason _ => exact Active.lawful (some reason) h.2
  | overdue _ _ => exact Unfinished.lawful h rfl
  | forced reason _ | stopped reason _ => exact Active.lawful (some reason) h
  | lateForced _ => exact Active.lawful (some .timeout) h
  | ending _ reason _ | released reason _ => exact Active.lawful reason h
  | published | returned | reported | marking | marked | done => exact h.1
  | failed _ | crashed _ => exact h

theorem Facts.withFlag {φ : Phase} {s : TaskSnapshot} (h : Facts φ s) (truncated : Bool) :
    Facts φ { s with outputTruncated := truncated } := by
  cases φ with
  | starting | spawned => exact ⟨h.1.withFlag truncated, h.2⟩
  | running | stop _ | exited _ | late _ => exact Active.withFlag none h truncated
  | grace reason | waiting reason | drain reason _ =>
    exact ⟨h.1, Active.withFlag (some reason) h.2 truncated⟩
  | overdue _ _ => exact Unfinished.withFlag h truncated
  | forced reason _ | stopped reason _ => exact Active.withFlag (some reason) h truncated
  | lateForced _ => exact Active.withFlag (some .timeout) h truncated
  | ending _ reason _ | released reason _ => exact Active.withFlag reason h truncated
  | published | returned | reported | marking | marked | done =>
    exact ⟨h.1.withFlag truncated, h.2⟩
  | failed _ | crashed _ => exact Lawful.withFlag h truncated

/-! ## The changes of the snapshot -/

section

variable {P : Platform} {route : ResolvedRoute} {s : TaskSnapshot}

theorem toRunning_active (h : Unfinished .starting s ∧ s.termination = none) (now : String) :
    Active (toRunning now s) none :=
  ⟨⟨rfl, h.1.finishedAt, h.1.error, by simp [toRunning]⟩, h.2⟩

/-- A change that sets the status to `Stopping` and the termination record to `t`. -/
theorem active_stopping {a : TaskStatus} (h : Unfinished a s) (ha : a ≠ .starting) {t : Termination}
    (ht : t.reason = .forceKilled → t.forced = true) :
    Active { s with status := .stopping, termination := some t } (some t.reason) :=
  ⟨⟨rfl, h.finishedAt, h.error, by simpa using h.startedAt.mpr ha⟩, t, rfl, rfl, ht⟩

theorem toForced_active {a : TaskStatus} (h : Unfinished a s) (ha : a ≠ .starting)
    (reason : StopReason) (attempted : Bool) (now : String) :
    Active (toForced P reason attempted now s) (some reason) :=
  active_stopping h ha fun _ ↦ rfl

theorem finalStatus_isFinished (reason : Option StopReason) (status : ExitStatus) :
    (finalStatus reason status).isFinished = true := by
  cases reason with
  | none => rw [finalStatus]; split <;> rfl
  | some reason => cases reason <;> rfl

theorem finalStatus_eq_cancelled {reason : Option StopReason} {status : ExitStatus}
    (h : finalStatus reason status = .cancelled) : reason = some .cancelled := by
  cases reason with
  | none => rw [finalStatus] at h; split at h <;> cases h
  | some reason => cases reason <;> first | rfl | cases h

theorem finalStatus_eq_timedOut {reason : Option StopReason} {status : ExitStatus}
    (h : finalStatus reason status = .timedOut) : reason = some .timeout := by
  cases reason with
  | none => rw [finalStatus] at h; split at h <;> cases h
  | some reason => cases reason <;> first | rfl | cases h

theorem finalStatus_eq_killed {reason : Option StopReason} {status : ExitStatus}
    (h : finalStatus reason status = .killed) : reason = some .forceKilled := by
  cases reason with
  | none => rw [finalStatus] at h; split at h <;> cases h
  | some reason => cases reason <;> first | rfl | cases h

theorem finalStatus_eq_succeeded {reason : Option StopReason} {status : ExitStatus}
    (h : finalStatus reason status = .succeeded) : reason = none ∧ status.code = some 0 := by
  cases reason with
  | none =>
    rw [finalStatus] at h
    split at h
    · rename_i hs
      exact ⟨rfl, by simpa [ExitStatus.success] using hs⟩
    · cases h
  | some reason => cases reason <;> cases h

/-- The last transition ends in a lawful snapshot. -/
theorem toFinal_lawful {reason : Option StopReason} (h : Active s reason) (status : ExitStatus)
    (now : String) :
    Lawful (toFinal reason status now s) ∧
      (toFinal reason status now s).status.isFinished = true := by
  have hf := finalStatus_isFinished reason status
  refine ⟨⟨by simp [toFinal, hf], ?_, ?_, ?_, ?_, ?_, ?_⟩, hf⟩
  · intro hs
    obtain rfl := finalStatus_eq_cancelled hs
    obtain ⟨-, t, ht, hr, -⟩ := h
    exact ⟨t, ht, hr⟩
  · intro hs
    obtain rfl := finalStatus_eq_timedOut hs
    obtain ⟨-, t, ht, hr, -⟩ := h
    exact ⟨t, ht, hr⟩
  · intro hs
    obtain rfl := finalStatus_eq_killed hs
    obtain ⟨-, t, ht, hr, hforced⟩ := h
    exact ⟨t, ht, hr, hforced rfl⟩
  · intro hs
    obtain ⟨rfl, hcode⟩ := finalStatus_eq_succeeded hs
    exact ⟨h.2, hcode⟩
  · intro hs
    have herr : s.error = none := by
      cases reason with
      | none => exact h.1.error
      | some reason => exact h.1.error
    rw [toFinal, if_pos ⟨hs, herr⟩]
    rfl
  · intro hs
    exact absurd hf (by simp [show finalStatus reason status = .running from hs,
      TaskStatus.isFinished])

theorem toExecutorError_lawful (h : Lawful s) (error now : String) :
    Lawful (toExecutorError error now s) ∧
      (toExecutorError error now s).status.isFinished = true := by
  rw [toExecutorError]
  split
  · rename_i hf
    exact ⟨h, hf⟩
  · exact ⟨⟨by simp [TaskStatus.isFinished], by simp, by simp, by simp, by simp, by simp,
      by simp⟩, rfl⟩

/-- What `create` has fixed. -/
def TaskSnapshot.origin (s : TaskSnapshot) : Uuid × String × OutputMode × OutputEncoding × String :=
  (s.taskId, s.route, s.outputMode, s.outputEncoding, s.createdAt)

/-- What the operation `o` may make of a snapshot. -/
def Changes : Op → TaskSnapshot → TaskSnapshot → Prop
  | .update _ f, s, s' => ∃ now, s' = f now s
  | _, s, s' => s' = s

/-- **The table is carried along the control graph.** -/
theorem facts_move {φ ψ : Phase} {o : Op} {r : runner.Resp o} {s' : TaskSnapshot}
    (hm : Moves P route φ o r ψ) (hs : Facts φ s) (hc : Changes o s s') : Facts ψ s' := by
  cases hm with
  | toRunning => obtain ⟨now, rfl⟩ := hc; exact toRunning_active hs now
  | forceNow => obtain ⟨now, rfl⟩ := hc; exact toForced_active hs.1 (by decide) _ _ _
  | toGraceful h =>
    obtain ⟨now, rfl⟩ := hc
    exact ⟨h, active_stopping hs.1 (by decide) fun h' ↦ absurd h' h⟩
  | toForced reason status => obtain ⟨now, rfl⟩ := hc; exact toForced_active hs (by decide) _ _ _
  | toLate status => obtain ⟨now, rfl⟩ := hc; exact active_stopping hs.1 (by decide) fun _ ↦ rfl
  | toFinal reason status => obtain ⟨now, rfl⟩ := hc; exact toFinal_lawful hs status now
  | toError error => obtain ⟨now, rfl⟩ := hc; exact toExecutorError_lawful hs error now
  | error h e e' | spawnError e e' | exitedError e e' | graceError _ e e' | drainError _ _ e e'
  | childWaitError _ e e' | forceEmptyError _ _ e e' | stoppedError _ _ e e' | lateError _ e e'
  | joinError _ _ _ _ e e' | joinCrashed _ _ _ _ e e' | persistFinalError e e' =>
    obtain rfl : s' = s := hc
    exact hs.lawful
  | graceElapsed _ | graceForce _ | drainElapsed _ _ | drainForce _ _ =>
    obtain rfl : s' = s := hc
    exact hs.2.1
  | drained _ _ =>
    obtain rfl : s' = s := hc
    exact hs.2
  | _ =>
    obtain rfl : s' = s := hc
    exact hs

/-- One step moves the status forward. -/
theorem forward_move {φ ψ : Phase} {o : Op} {r : runner.Resp o} {s' : TaskSnapshot}
    (hm : Moves P route φ o r ψ) (hs : Facts φ s) (hc : Changes o s s') :
    Forward s.status s'.status := by
  have hfrom : ∀ {a b : TaskStatus}, Unfinished a s → a.isFinished = false → a.rank ≤ b.rank →
      Forward s.status b := by
    intro a b h ha hr
    rw [h.status]
    exact forward_of_unfinished ha hr
  cases hm with
  | toRunning => obtain ⟨now, rfl⟩ := hc; exact hfrom (b := .running) hs.1 rfl (by decide)
  | forceNow | toGraceful _ | toLate _ =>
    obtain ⟨now, rfl⟩ := hc
    exact hfrom (a := .running) (b := .stopping) hs.1 rfl (by decide)
  | toForced _ _ => obtain ⟨now, rfl⟩ := hc; exact hfrom (b := .stopping) hs rfl (by decide)
  | toFinal reason status =>
    obtain ⟨now, rfl⟩ := hc
    have hrank := rank_le_of_isFinished (finalStatus_isFinished reason status)
    cases reason with
    | none => exact hfrom (a := .running) hs.1 rfl (hrank _)
    | some reason => exact hfrom (a := .stopping) hs.1 rfl (hrank _)
  | toError error =>
    obtain ⟨now, rfl⟩ := hc
    rw [toExecutorError]
    split
    · exact .refl _
    · rename_i hf
      exact forward_of_unfinished (by simpa using hf) (rank_le_of_isFinished (b := .failed) rfl _)
  | _ =>
    obtain rfl : s' = s := hc
    exact .refl _

theorem origin_move {φ ψ : Phase} {o : Op} {r : runner.Resp o} {s' : TaskSnapshot}
    (hm : Moves P route φ o r ψ) (hc : Changes o s s') : s'.origin = s.origin := by
  cases hm with
  | toRunning | forceNow | toGraceful _ | toForced _ _ | toLate _ | toFinal _ _ =>
    obtain ⟨now, rfl⟩ := hc
    rfl
  | toError error =>
    obtain ⟨now, rfl⟩ := hc
    rw [toExecutorError]
    split <;> rfl
  | _ => exact congrArg TaskSnapshot.origin hc

/-- A finished snapshot is not changed any more. -/
theorem finished_move {φ ψ : Phase} {o : Op} {r : runner.Resp o} {s' : TaskSnapshot}
    (hm : Moves P route φ o r ψ) (hs : Facts φ s) (hf : s.status.isFinished = true)
    (hc : Changes o s s') : s' = s := by
  have hnot : ∀ {a : TaskStatus}, Unfinished a s → a.isFinished = false → s' = s := by
    intro a h ha
    rw [h.status, ha] at hf
    exact absurd hf (by decide)
  cases hm with
  | toRunning => exact hnot hs.1 rfl
  | forceNow | toGraceful _ | toLate _ => exact hnot (a := .running) hs.1 rfl
  | toForced _ _ => exact hnot hs rfl
  | toFinal reason status =>
    cases reason with
    | none => exact hnot (a := .running) hs.1 rfl
    | some reason => exact hnot (a := .stopping) hs.1 rfl
  | toError error =>
    obtain ⟨now, rfl⟩ := hc
    rw [toExecutorError, if_pos hf]
  | _ => exact hc

/-- One step keeps `started_at`, or sets it with the status `Running`. -/
theorem startedAt_move {φ ψ : Phase} {o : Op} {r : runner.Resp o} {s' : TaskSnapshot}
    (hm : Moves P route φ o r ψ) (hc : Changes o s s') :
    s'.startedAt = s.startedAt ∨ s'.status = .running ∧ s'.startedAt.isSome = true := by
  cases hm with
  | toRunning => obtain ⟨now, rfl⟩ := hc; exact .inr ⟨rfl, rfl⟩
  | forceNow | toGraceful _ | toForced _ _ | toLate _ | toFinal _ _ =>
    obtain ⟨now, rfl⟩ := hc
    exact .inl rfl
  | toError error =>
    obtain ⟨now, rfl⟩ := hc
    rw [toExecutorError]
    split <;> exact .inl rfl
  | _ => exact .inl (congrArg TaskSnapshot.startedAt hc)

/-- Until it is finished a task has no exit code. -/
theorem exitCode_move {φ ψ : Phase} {o : Op} {r : runner.Resp o} {s' : TaskSnapshot}
    (hm : Moves P route φ o r ψ) (hs : Facts φ s) (hc : Changes o s s')
    (h : s.status.isFinished = false → s.exitCode = none) :
    s'.status.isFinished = false → s'.exitCode = none := by
  have hfrom : ∀ {a : TaskStatus}, Unfinished a s → a.isFinished = false → s.exitCode = none := by
    intro a ha hf
    exact h (by rw [ha.status, hf])
  cases hm with
  | toRunning => obtain ⟨now, rfl⟩ := hc; exact fun _ ↦ hfrom hs.1 rfl
  | forceNow | toGraceful _ | toLate _ =>
    obtain ⟨now, rfl⟩ := hc
    exact fun _ ↦ hfrom (a := .running) hs.1 rfl
  | toForced _ _ => obtain ⟨now, rfl⟩ := hc; exact fun _ ↦ hfrom hs rfl
  | toFinal reason status =>
    obtain ⟨now, rfl⟩ := hc
    intro hf
    rw [show (toFinal reason status now s).status.isFinished = true from
      finalStatus_isFinished reason status] at hf
    cases hf
  | toError error =>
    obtain ⟨now, rfl⟩ := hc
    rw [toExecutorError]
    split
    · exact h
    · exact fun hf ↦ nomatch hf
  | _ =>
    obtain rfl : s' = s := hc
    exact h

/-- The identifier of a task is not changed. -/
theorem taskId_move {φ ψ : Phase} {o : Op} {r : runner.Resp o} {s' : TaskSnapshot}
    (hm : Moves P route φ o r ψ) (hc : Changes o s s') : s'.taskId = s.taskId := by
  cases hm with
  | toRunning | forceNow | toGraceful _ | toForced _ _ | toLate _ | toFinal _ _ =>
    obtain ⟨now, rfl⟩ := hc
    rfl
  | toError error =>
    obtain ⟨now, rfl⟩ := hc
    rw [toExecutorError]
    split <;> rfl
  | _ => exact congrArg TaskSnapshot.taskId hc

/-! ## Executions -/

variable {line : TaskSnapshot → List UInt8} {w w' : World}

/-- What an operation does to the snapshot of the world. -/
theorem taskEffect_changes {o : Op} {r : runner.Resp o} (h : taskEffect P line o w r w') :
    ∃ s', Changes o w.snapshot s' ∧
      w'.snapshot = { s' with outputTruncated := w'.snapshot.outputTruncated } := by
  by_cases hu : ∃ site f, o = .update site f
  · obtain ⟨site, f, rfl⟩ := hu
    obtain ⟨now, rfl⟩ := h
    exact ⟨f now w.snapshot, ⟨now, rfl⟩, rfl⟩
  · have hsame : w'.snapshot = w.snapshot :=
      (taskEffect_shape h).snapshot fun site f ho ↦ hu ⟨site, f, ho⟩
    refine ⟨w.snapshot, ?_, by rw [hsame]⟩
    cases o with
    | update site f => exact absurd ⟨site, f, rfl⟩ hu
    | _ => exact rfl

/-- The table holds along every execution. -/
theorem facts_invariant :
    Invariant (taskMachine P line) (Moves P route) fun φ w ↦ Facts φ w.snapshot where
  env φ w w' h he := by rw [he.frame.1]; exact h
  act φ o w r w' ψ h ha hm := by
    obtain ⟨s', hc, hs'⟩ := taskEffect_changes ha
    rw [hs']
    exact (facts_move hm h hc).withFlag _

theorem Fresh.facts (h : Fresh w) : Facts .starting w.snapshot :=
  ⟨⟨h.status, h.finishedAt, h.error, by simp [h.startedAt]⟩, h.termination⟩

end

section

variable {P : Platform} {route : ResolvedRoute} {args : List String}
  {line : TaskSnapshot → List UInt8} {w₀ : World} {c c' : Task Unit × World}

/-- The runner is somewhere in its control graph, and the table says what it knows there. -/
theorem facts_run (hw : Fresh w₀)
    (hr : (taskMachine P line).Run (startTask P route args, w₀) c) :
    Tracked (Moves P route) (fun φ w ↦ Facts φ w.snapshot) (fun _ φ ↦ φ = .done) c :=
  facts_invariant.run ⟨.starting, startTask_follows P route args, hw.facts⟩ hr

/-- **Every visible snapshot is lawful.** -/
theorem visible_lawful (hw : Fresh w₀)
    (hr : (taskMachine P line).Run (startTask P route args, w₀) c) : Lawful c.2.visible := by
  obtain ⟨φ, -, h⟩ := facts_run hw hr
  exact h.lawful.withFlag _

/-- **The visible status only moves forward.** -/
theorem status_forward (hw : Fresh w₀)
    (hr : (taskMachine P line).Run (startTask P route args, w₀) c)
    (hr' : (taskMachine P line).Run c c') :
    Forward c.2.visible.status c'.2.visible.status := by
  refine facts_invariant.run_rel (R := fun w w' ↦ Forward w.snapshot.status w'.snapshot.status)
    (fun w ↦ .refl _) (fun _ _ _ ↦ .trans) ?_ ?_ (facts_run hw hr) hr'
  · intro φ w w' _ he
    rw [he.frame.1]
    exact .refl _
  · intro φ o w r w' ψ h ha hm
    obtain ⟨s', hc, hs'⟩ := taskEffect_changes ha
    have hf := forward_move hm h hc
    rw [hs']
    exact hf

/-- One step of an execution keeps `started_at`, or sets it with the status `Running`. -/
theorem startedAt_step (hc : Tracked (Moves P route) (fun φ w ↦ Facts φ w.snapshot)
      (fun _ φ ↦ φ = .done) c) (hs : (taskMachine P line).Step c c') :
    c'.2.snapshot.startedAt = c.2.snapshot.startedAt ∨
      c'.2.snapshot.status = .running ∧ c'.2.snapshot.startedAt.isSome = true := by
  obtain ⟨φ, hf, -⟩ := hc
  cases hs with
  | env h => exact .inl (by rw [h.frame.1])
  | @act o k w w' r h =>
    obtain ⟨ψ, hm, -⟩ := hf r
    obtain ⟨s', hc, hs'⟩ := taskEffect_changes h
    have hst := startedAt_move hm hc
    rw [hs']
    exact hst

/-- The task has been `Running` by the time of `c`, in the execution that started in `c₀`. -/
def ReachedRunning (P : Platform) (line : TaskSnapshot → List UInt8) (c₀ c : Task Unit × World) :
    Prop :=
  ∃ c', (taskMachine P line).Run c₀ c' ∧ (taskMachine P line).Run c' c ∧
    c'.2.visible.status = .running

/-- **`started_at` is set exactly if `Running` was reached.** -/
theorem startedAt_iff (hw : Fresh w₀)
    (hr : (taskMachine P line).Run (startTask P route args, w₀) c) :
    c.2.visible.startedAt.isSome = true ↔ ReachedRunning P line (startTask P route args, w₀) c := by
  constructor
  · intro h
    induction hr with
    | refl =>
      have := hw.startedAt
      simp [World.visible, this] at h
    | @tail c c' hr hs ih =>
      rcases startedAt_step (facts_run hw hr) hs with heq | ⟨hrun, -⟩
      · obtain ⟨c₁, h₁, h₂, h₃⟩ := ih ((congrArg Option.isSome heq).symm.trans h)
        exact ⟨c₁, h₁, h₂.tail hs, h₃⟩
      · exact ⟨c', hr.tail hs, .refl, hrun⟩
  · rintro ⟨c₁, h₁, h₂, h₃⟩
    have hset := (visible_lawful hw h₁).running h₃
    clear h₃
    induction h₂ with
    | refl => exact hset
    | tail h hs ih =>
      have hr₁ := h₁.trans h
      rcases startedAt_step (facts_run hw hr₁) hs with heq | ⟨-, hsome⟩
      · exact (congrArg Option.isSome heq).trans (ih hr₁)
      · exact hsome

/-! ## The event log -/

/-- One operation leaves the log alone, or appends a part of the line of the visible snapshot. -/
theorem taskEffect_events {o : Op} {r : runner.Resp o} {w w' : World}
    (h : taskEffect P line o w r w') :
    w'.events = w.events ∨ ∃ n, w'.events = w.events ++ (line w.visible).take n := by
  by_cases hp : o = .fallible .persist
  · subst hp
    obtain ⟨n, rfl, -⟩ := persist_effect h
    exact .inr ⟨n, rfl⟩
  · exact .inl ((taskEffect_shape h).events hp)

/-- The log is made of pieces of what has been visible. -/
theorem log_pieces {codec : LineCodec TaskSnapshot} {c₀ : Task Unit × World}
    (hr : (taskMachine P codec.line).Run c₀ c) :
    ∃ ps, c.2.events = c₀.2.events ++ codec.pieces ps ∧
      ∀ p ∈ ps, ∃ c₁, (taskMachine P codec.line).Run c₀ c₁ ∧ (taskMachine P codec.line).Run c₁ c ∧
        p.1 = c₁.2.visible := by
  induction hr with
  | refl => exact ⟨[], by simp [LineCodec.pieces], by simp⟩
  | @tail c c' hr hs ih =>
    obtain ⟨ps, hps, hvis⟩ := ih
    have hlater : ∀ p ∈ ps, ∃ c₁, (taskMachine P codec.line).Run c₀ c₁ ∧
        (taskMachine P codec.line).Run c₁ c' ∧ p.1 = c₁.2.visible := by
      intro p hp
      obtain ⟨c₁, h₁, h₂, h₃⟩ := hvis p hp
      exact ⟨c₁, h₁, h₂.tail hs, h₃⟩
    have hev : c'.2.events = c.2.events ∨
        ∃ n, c'.2.events = c.2.events ++ (codec.line c.2.visible).take n := by
      cases hs with
      | env h => exact .inl h.frame.2
      | act h => exact taskEffect_events h
    rcases hev with hev | ⟨n, hev⟩
    · exact ⟨ps, hev.trans hps, hlater⟩
    · refine ⟨ps ++ [(c.2.visible, n)], ?_, ?_⟩
      · rw [hev, hps, List.append_assoc]
        simp [LineCodec.pieces]
      · intro p hp
        rcases List.mem_append.mp hp with hp | hp
        · exact hlater p hp
        · rw [List.mem_singleton.mp hp]
          exact ⟨c, hr, .single hs, rfl⟩

/-- **Whatever the log reads as was visible at some time.** -/
theorem exists_visible_of_latest {codec : LineCodec TaskSnapshot} {c₀ : Task Unit × World}
    (hlog : c₀.2.events = codec.line c₀.2.visible)
    (hr : (taskMachine P codec.line).Run c₀ c) {s : TaskSnapshot}
    (hs : codec.readLatest c.2.events = .ok (some s)) :
    ∃ c₁, (taskMachine P codec.line).Run c₀ c₁ ∧ (taskMachine P codec.line).Run c₁ c ∧
      s = c₁.2.visible := by
  obtain ⟨ps, hps, hvis⟩ := log_pieces hr
  rw [hps, hlog] at hs
  rcases LineCodec.readLatest_pieces (LineCodec.clean_line _) (LineCodec.readLatest_line _) hs
    with h | ⟨p, hp, h⟩
  · exact ⟨c₀, .refl, hr, Option.some.inj h⟩
  · obtain ⟨c₁, h₁, h₂, h₃⟩ := hvis p hp
    exact ⟨c₁, h₁, h₂, (Option.some.inj h).trans h₃⟩

/-- What `recover` shows of a lawful snapshot is lawful. -/
theorem shown_lawful {s : TaskSnapshot} (h : Lawful s) (now : String) : Lawful (shown now s) := by
  cases hf : s.status.isFinished with
  | true =>
    rw [shown_of_isFinished hf]
    exact h.withFlag false
  | false =>
    have hs : (shown now s).status = .interrupted := interruptUnfinished_status_of_not hf now
    refine ⟨?_, ?_, ?_, ?_, ?_, ?_, ?_⟩
    · simp [shown_finishedAt_of_not hf, hs, TaskStatus.isFinished]
    all_goals intro h'; exact absurd (hs.symm.trans h') (by decide)

theorem shown_startedAt (now : String) (s : TaskSnapshot) :
    (shown now s).startedAt = s.startedAt := by
  rw [shown, interruptUnfinished]
  split <;> rfl

/-- **The life of a task**, while its store is open and when its log is read again.  What is rebuilt
from the log is rebuilt from a snapshot that was visible in some state `c₁`, and its `started_at` is
about the time of `c₁`. -/
theorem task_lifecycle (P : Platform) (route : ResolvedRoute) (args : List String)
    (codec : LineCodec TaskSnapshot) (w₀ : World) (hw : Fresh w₀)
    (hlog : w₀.events = codec.line w₀.visible) (c : Task Unit × World)
    (hr : (taskMachine P codec.line).Run (startTask P route args, w₀) c) :
    (∀ c', (taskMachine P codec.line).Run c c' →
      Forward c.2.visible.status c'.2.visible.status) ∧
    Lawful c.2.visible ∧
    (c.2.visible.startedAt.isSome = true ↔
      ReachedRunning P codec.line (startTask P route args, w₀) c) ∧
    ∀ now output r dir, recoverTask codec now ⟨some c.2.events, output⟩ = .ok (some (r, dir)) →
      Lawful r.visible ∧
      ∃ c₁, (taskMachine P codec.line).Run (startTask P route args, w₀) c₁ ∧
        (taskMachine P codec.line).Run c₁ c ∧ r.visible = shown now c₁.2.visible ∧
        (r.visible.startedAt.isSome = true ↔
          ReachedRunning P codec.line (startTask P route args, w₀) c₁) := by
  refine ⟨fun c' ↦ status_forward hw hr, visible_lawful hw hr, startedAt_iff hw hr, ?_⟩
  intro now output r dir hrec
  obtain ⟨s, hs, rfl, -⟩ := recoverTask_inv hrec
  obtain ⟨c₁, h₁, h₂, rfl⟩ := exists_visible_of_latest hlog hr hs
  rw [recoverRecord_visible]
  refine ⟨shown_lawful (visible_lawful hw h₁) now, c₁, h₁, h₂, rfl, ?_⟩
  rw [shown_startedAt]
  exact startedAt_iff hw h₁

/-- The first moments of a task. -/
def exampleWorld : World := .created snapshotCodec.line exampleTask

theorem exampleWorld_fresh : Fresh exampleWorld := World.created_fresh ..

/-- A task that has just become visible as running. -/
theorem task_lifecycle_running :
    Lawful (exampleWorld.begun exampleRoute "2026-01-01T00:00:01Z").visible :=
  (task_lifecycle .unix exampleRoute [] snapshotCodec exampleWorld exampleWorld_fresh rfl _
    (run_toRunning taskMachine_allows "2026-01-01T00:00:01Z" exampleWorld)).2.1

/-- The service ends between the moment the task becomes visible as running and the writing of the
event that says so: what is rebuilt has no `started_at`, although `Running` was reached. -/
theorem recovered_without_startedAt :
    ∃ c r dir, (taskMachine .unix snapshotCodec.line).Run
        (startTask .unix exampleRoute [], exampleWorld) c ∧
      ReachedRunning .unix snapshotCodec.line (startTask .unix exampleRoute [], exampleWorld) c ∧
      recoverTask snapshotCodec "2026-01-01T00:01:00Z" ⟨some c.2.events, fun _ ↦ some []⟩ =
        .ok (some (r, dir)) ∧
      r.visible.startedAt = none := by
  have hr : (taskMachine .unix snapshotCodec.line).Run
      (startTask .unix exampleRoute [], exampleWorld) _ :=
    run_toRunning taskMachine_allows "2026-01-01T00:00:01Z" exampleWorld
  have hlatest : snapshotCodec.readLatest (snapshotCodec.line exampleTask) =
      .ok (some exampleTask) :=
    LineCodec.readLatest_line exampleTask
  refine ⟨_, _, _, hr, ⟨_, hr, .refl, rfl⟩, recoverTask_of_ok (s := exampleTask) hlatest, ?_⟩
  rw [recoverRecord_visible, shown_startedAt]
  rfl

end

end CommandApi
