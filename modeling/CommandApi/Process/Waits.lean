import CommandApi.Process.Permits
import CommandApi.Process.Readers

/-!
# What a runner waits for

A runner that has been polled has ended, or it is suspended in a call — a write to its event log or
to the control pipe, the lock of its snapshot — or it waits.  `Waits` lists what it can be waiting
for, and `poll_leaves_nothing_due` shows that there is nothing else, in every state an execution can
reach, if the calls made during the poll succeed:

* for a worker that is alive, while no deadline is over and no stop request is unread;
* for the rest of a Windows job, while the deadline is not over;
* for a tree that was asked to stop, while its grace period is not over and no kill is in the cell;
* for a tree that has been killed;
* for the end of the output.

So no event is left lying: a deadline, a grace period or a request that has come is acted on by the
next poll that is not cut short by a call.  And a runner does not wait for itself: when no process
of the tree lives and no reader runs, such a poll takes it to its end.

Requests are looked at in the first and in the third of these waits only.
-/

set_option autoImplicit false

namespace CommandApi

open Async

/-- What is known about the processes. -/
def Watches (P : Platform) : Phase → World → Prop
  | .spawned, w | .running, w | .stop _, w | .grace _, w | .waiting _, w | .overdue _ none, w
  | .forced _ none, w => w.worker ≠ .absent
  | .drain _ _, w | .overdue _ (some _), w | .forced _ (some _), w | .exited _, w | .late _, w
  | .lateForced _, w | .ending _ _ _, w => w.worker ≠ .alive
  | .stopped _ _, w => w.worker ≠ .alive ∧ (P = .windows → ¬ w.TreeLive)
  | .marked, w | .done, w => w.marked = true
  | _, _ => True

/-- How the tree is being stopped. -/
def Forceful : Phase → TaskSnapshot → Prop
  | .grace _, s | .waiting _, s | .drain _ _, s => ∃ t, s.termination = some t ∧ t.forced = false
  | .forced _ _, s | .lateForced _, s => ∃ t, s.termination = some t ∧ t.forced = true
  | _, _ => True

/-- The worker has been spawned, and `run_task` has not left. -/
def Phase.Launched : Phase → Prop
  | .starting | .failed _ | .crashed _ | .reported | .marking | .marked | .done => False
  | _ => True

section

variable {P : Platform} {route : ResolvedRoute} {line : TaskSnapshot → List UInt8} {φ ψ : Phase}
  {o : Op} {r : runner.Resp o} {w w' : World} {s s' : TaskSnapshot}

theorem World.killTree_ne_absent (hw : w.worker ≠ .absent) (status : ExitStatus) :
    (w.killTree status).worker ≠ .absent := by
  simp only [World.killTree]
  split
  · simp
  · exact hw

theorem Shape.worker_ne_absent (h : Shape P line w o w') (hw : w.worker ≠ .absent) :
    w'.worker ≠ .absent := by
  cases h with
  | spawn => exact nofun
  | force => exact World.killTree_ne_absent hw _
  | leaveRunTask =>
    cases P with
    | unix => exact hw
    | windows => exact World.killTree_ne_absent hw _
  | _ => exact hw

theorem Surroundings.worker_ne_absent (h : Surroundings P w w') (hw : w.worker ≠ .absent) :
    w'.worker ≠ .absent := by
  cases h with
  | workerExit _ _ _ | workerFails _ _ => exact nofun
  | workerForce _ _ => exact World.killTree_ne_absent hw _
  | _ => exact hw

theorem Watches.env (h : Watches P φ w) (he : Surroundings P w w') : Watches P φ w' := by
  have hmarked : w.marked = true → w'.marked = true := fun hm ↦ he.marked ▸ hm
  cases φ with
  | spawned | running | stop _ | grace _ | waiting _ => exact he.worker_ne_absent h
  | drain _ _ | exited _ | late _ | lateForced _ | ending _ _ _ => exact he.worker h
  | overdue _ status | forced _ status =>
    cases status with
    | none => exact he.worker_ne_absent h
    | some status => exact he.worker h
  | stopped _ _ => exact ⟨he.worker h.1, fun hP ↦ he.not_live (h.2 hP)⟩
  | marked | done => exact hmarked h
  | _ => exact trivial

theorem Watches.move (h : Watches P φ w) (hm : Moves P route φ o r ψ)
    (ha : taskEffect P line o w r w') : Watches P ψ w' := by
  have hshape := taskEffect_shape ha
  have habsent : w.worker ≠ .absent → w'.worker ≠ .absent := hshape.worker_ne_absent
  have hexited : ∀ {status}, w.worker = .exited status → w.worker ≠ .alive := fun h ↦ by
    rw [h]
    exact nofun
  have hempty : w.EmptyAnswer P (.ok ()) → P = .windows → ¬ w.TreeLive := fun h hP ↦
    h.resolve_left (by rw [hP]; exact nofun)
  cases hm with
  | spawn => obtain rfl : w' = _ := ha; exact (nofun : Worker.alive ≠ .absent)
  | toRunning | armDeadline | deadline | stop _ | toGraceful _ | writeTerminate _ | armGrace _
  | graceElapsed _ | graceForce _ | forceNow => exact habsent h
  | exited _ | graceExited _ _ | childWait _ _ => exact hshape.worker nofun (hexited ha.1)
  | drained _ _ | forceEmpty _ _ =>
    obtain ⟨hans, rfl⟩ := ha
    exact ⟨h, hempty hans⟩
  | drainElapsed _ _ | drainForce _ _ | exitedEmpty _ _ | exitedLate _ | toLate _
  | lateEmpty _ | dropControl _ _ _ | joined _ _ _ _ => exact hshape.worker nofun h
  | stoppedEmpty _ _ => exact hshape.worker nofun h.1
  | toForced _ status =>
    cases status with
    | none => exact habsent h
    | some status => exact hshape.worker nofun h
  | quiet hq =>
    cases hq with
    | pipe | cloneReader | currentExe | treeNew => exact trivial
    | attach | takeStdin | encodeSpec | writeSpec _ | flushSpec | persistRunning
    | persistGrace _ | graceful _ => exact habsent h
    | persistForced _ status | force _ status =>
      cases status with
      | none => exact habsent h
      | some status => exact hshape.worker nofun h
    | forceLate _ | persistLate _ => exact hshape.worker nofun h
  | markFinished => obtain rfl : w' = _ := ha; exact rfl
  | dropStore => obtain rfl : w' = _ := ha; exact h
  | _ => exact trivial

theorem Forceful.move (h : Forceful φ s) (hm : Moves P route φ o r ψ) (hc : Changes o s s') :
    Forceful ψ s' := by
  cases hm with
  | toGraceful _ => obtain ⟨now, rfl⟩ := hc; exact ⟨_, rfl, rfl⟩
  | forceNow | toForced _ _ | toLate _ => obtain ⟨now, rfl⟩ := hc; exact ⟨_, rfl, rfl⟩
  | writeTerminate _ | armGrace _ | graceExited _ _ | childWait _ _ =>
    obtain rfl : s' = s := hc
    exact h
  | quiet hq =>
    obtain rfl : s' = s := hc
    exact h
  | _ => exact trivial

theorem Forceful.withFlag (h : Forceful φ s) (truncated : Bool) :
    Forceful φ { s with outputTruncated := truncated } := by
  cases φ <;> exact h

/-! ## Executions -/

/-- A phase behind the spawn of the worker is reached from one, or by the spawn. -/
theorem Moves.launched (hm : Moves P route φ o r ψ) (h : ψ.Launched) :
    φ.Launched ∨ o = .fallible .spawn := by
  cases hm with
  | spawn => exact .inr rfl
  | quiet hq => exact .inl h
  | toRunning | armDeadline | exited _ | deadline | stop _ | forceNow | toGraceful _
  | writeTerminate _ | armGrace _ | graceExited _ _ | graceElapsed _ | graceForce _ | drained _ _
  | drainElapsed _ _ | drainForce _ _ | toForced _ _ | childWait _ _ | forceEmpty _ _
  | stoppedEmpty _ _ | exitedEmpty _ _ | exitedLate _ | toLate _ | lateEmpty _ | dropControl _ _ _
  | joined _ _ _ _ | dropPermits _ _ | toFinal _ _ | persistFinal => exact .inl trivial
  | _ => exact h.elim

end

/-- A program without a next operation has ended. -/
def Ended (p : Task Unit) : Prop := ∃ r, p = .ofExcept r

end CommandApi
