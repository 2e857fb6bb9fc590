import CommandApi.Async.Control
import CommandApi.Process.Phases
import CommandApi.Process.World

/-!
# A live process tree and its permits

On Unix, `run_task` gives its permits back in two places: with `drop(permits)` behind its two
readers, where the tree is gone, and by returning an error, where it need not be.  `paid_invariant`
follows the tree and the permits along the control graph, for the executions in which `run_task`
returns no error while the tree is alive (`FailsWithoutTree`) and in which the worker does not die
before its children (`WorkerOutlives`).
-/

set_option autoImplicit false

namespace CommandApi

open Async

/-- No step of `run_task` fails while the tree is alive. -/
def FailsWithoutTree (o : Op) (w : World) (r : runner.Resp o) : Prop := o.Fails r → ¬ w.TreeLive

/-- The worker does not end, by an error of its own or by a signal, while something else of its
group is alive. -/
def WorkerOutlives (w w' : World) : Prop :=
  w.worker = .alive → w'.others = true → w'.worker = .alive

/-- The Unix runner, in the executions whose steps all meet the two conditions. -/
def carefulMachine (line : TaskSnapshot → List UInt8) : Machine runner World :=
  (taskMachine .unix line).restrict FailsWithoutTree WorkerOutlives

/-- What is known about the tree and the permits in each phase. -/
def Paid : Phase → World → Prop
  | .starting, w => ¬ w.TreeLive ∧ w.permits = true
  | .spawned, w | .running, w | .stop _, w | .grace _, w | .waiting _, w | .overdue _ none, w
  | .forced _ none, w => w.permits = true
  | _, w => ¬ w.TreeLive

/-- Nothing of the group lives without the worker. -/
def World.Led (w : World) : Prop := w.others = true → w.worker = .alive

section

variable {P : Platform} {route : ResolvedRoute} {line : TaskSnapshot → List UInt8} {w w' : World}
  {φ ψ : Phase} {o : Op} {r : runner.Resp o}

/-- A tree of which the worker has ended is gone. -/
theorem World.Led.not_live (h : w.Led) (hw : w.worker ≠ .alive) : ¬ w.TreeLive := by
  rintro (hl | ho)
  · exact hw hl
  · exact hw (h ho)

theorem World.killTree_not_live (w : World) (status : ExitStatus) :
    ¬ (w.killTree status).TreeLive := by
  rintro (h | h)
  · simp only [World.killTree] at h
    split at h
    · cases h
    · rename_i hw
      exact hw h
  · cases h

/-- Only spawning the worker brings a tree to life. -/
theorem Shape.not_live (h : Shape P line w o w') (ho : o ≠ .fallible .spawn) (hw : ¬ w.TreeLive) :
    ¬ w'.TreeLive := by
  cases h with
  | spawn => exact absurd rfl ho
  | force => exact w.killTree_not_live _
  | leaveRunTask =>
    cases P with
    | unix => exact hw
    | windows => exact w.killTree_not_live _
  | _ => exact hw

/-- Permits are given back in two places. -/
theorem Shape.permits (h : Shape P line w o w') (hd : o ≠ .dropPermits) (hl : o ≠ .leaveRunTask) :
    w'.permits = w.permits := by
  cases h with
  | dropPermits => exact absurd rfl hd
  | leaveRunTask => exact absurd rfl hl
  | _ => rfl

/-- … and never come back. -/
theorem Shape.permits_le (h : Shape P line w o w') (hw : w'.permits = true) : w.permits = true := by
  cases h with
  | dropPermits => cases hw
  | leaveRunTask => cases P <;> cases hw
  | _ => exact hw

theorem Shape.led (h : Shape P line w o w') (hw : w.Led) : w'.Led := by
  cases h with
  | spawn => exact fun _ ↦ rfl
  | force => exact nofun
  | leaveRunTask =>
    cases P with
    | unix => exact hw
    | windows => exact nofun
  | _ => exact hw

/-- The surroundings never bring a tree to life. -/
theorem Surroundings.not_live (he : Surroundings P w w') (hw : ¬ w.TreeLive) : ¬ w'.TreeLive := by
  cases he with
  | fork h => exact absurd h hw
  | othersExit => exact fun h ↦ hw (.inl (h.resolve_right nofun))
  | workerExit status h _ | workerFails status h | workerForce h _ => exact absurd (.inl h) hw
  | _ => exact hw

theorem Surroundings.permits (he : Surroundings P w w') : w'.permits = w.permits := by
  cases he <;> rfl

theorem Surroundings.led (he : Surroundings .unix w w') (ho : WorkerOutlives w w') (hw : w.Led) :
    w'.Led := by
  cases he with
  | fork h => exact fun _ ↦ h.elim id hw
  | othersExit | workerForce _ _ => exact nofun
  | workerExit status h _ | workerFails status h => exact ho h
  | _ => exact hw

theorem Paid.env (h : Paid φ w) (he : Surroundings P w w') : Paid φ w' := by
  have hp := he.permits
  have hl : ¬ w.TreeLive → ¬ w'.TreeLive := he.not_live
  cases φ with
  | starting => exact ⟨hl h.1, hp.trans h.2⟩
  | spawned | running | stop _ | grace _ | waiting _ => exact hp.trans h
  | overdue _ status | forced _ status =>
    cases status with
    | none => exact hp.trans h
    | some _ => exact hl h
  | _ => exact hl h

theorem Paid.act (h : Paid φ w) (hled : w.Led) (hm : Moves .unix route φ o r ψ)
    (ha : taskEffect .unix line o w r w') (hf : FailsWithoutTree o w r) : Paid ψ w' := by
  have hshape := taskEffect_shape ha
  have hl : o ≠ .fallible .spawn → ¬ w.TreeLive → ¬ w'.TreeLive := hshape.not_live
  have hp : o ≠ .dropPermits → o ≠ .leaveRunTask → w'.permits = w.permits := hshape.permits
  cases hm with
  | quiet hq =>
    cases hq with
    | pipe | cloneReader | currentExe | treeNew => exact ⟨hl nofun h.1, (hp nofun nofun).trans h.2⟩
    | persistForced _ status | force _ status =>
      cases status with
      | none => exact (hp nofun nofun).trans h
      | some _ => exact hl nofun h
    | forceLate _ | persistLate _ => exact hl nofun h
    | _ => exact (hp nofun nofun).trans h
  | error hq e e' =>
    refine hl ?_ (hf trivial)
    rintro ⟨⟩
    cases hq
  | startReader _ => exact ⟨hl nofun h.1, (hp nofun nofun).trans h.2⟩
  | spawn => exact (hp nofun nofun).trans h.2
  | spawnError e e' =>
    obtain rfl : w' = w := ha
    exact h.1
  | exited status | graceExited _ status | childWait _ status =>
    refine hl nofun (hled.not_live ?_)
    rw [ha.1]
    exact nofun
  | toForced _ status =>
    cases status with
    | none => exact (hp nofun nofun).trans h
    | some _ => exact hl nofun h
  | exitedError e e' | graceError _ e e' | childWaitError _ e e' =>
    exact hl nofun (hf trivial)
  | _ => first | exact (hp nofun nofun).trans h | exact hl nofun h

theorem paid_invariant :
    Invariant (carefulMachine line) (Moves .unix route) fun φ w ↦ w.Led ∧ Paid φ w where
  env _ _ _ h he := ⟨he.1.led he.2 h.1, h.2.env he.1⟩
  act _ _ _ _ _ _ h ha hm := ⟨(taskEffect_shape ha.1).led h.1, h.2.act h.1 hm ha.1 ha.2⟩

/-- In every phase, what lives is paid for. -/
theorem Paid.permits (h : Paid φ w) (hw : w.TreeLive) : w.permits = true := by
  cases φ with
  | starting => exact h.2
  | spawned | running | stop _ | grace _ | waiting _ => exact h
  | overdue _ status | forced _ status =>
    cases status with
    | none => exact h
    | some _ => exact absurd hw h
  | _ => exact absurd hw h

end

end CommandApi
