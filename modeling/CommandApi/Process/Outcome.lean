import CommandApi.Process.Lifecycle

/-!
# The outcome of a script

The exit status of a script reaches the snapshot of its task through two processes: `run_worker`
turns it into an `i32`, `main` clamps that into the `u8` the worker exits with, and `run_task` reads
the exit code of the worker.  On Unix a code is a byte already.  On Windows it is any `i32`, and the
clamp takes every negative one — which is what a crash looks like there — to the code of success.

`outcome_faithful_iff` says that a task ends as its script did exactly if the code of the script, if
it has one, is a byte.
-/

set_option autoImplicit false

namespace CommandApi

open Async Relation

/-! ## From the script to the worker -/

/-- How a process can end: on Unix with a byte or by a signal, on Windows with any code. -/
def ExitStatus.PossibleOn : Platform → ExitStatus → Prop
  | .unix, .exited code => 0 ≤ code.toInt ∧ code.toInt ≤ 255
  | .unix, .signaled _ => True
  | .windows, .exited _ => True
  | .windows, .signaled _ => False

/-- What `run_worker` returns for the exit status of the script. -/
def runWorkerCode (script : ExitStatus) : Int32 := script.code.getD 1

def workerMain : Except String Int32 → Int32
  | .ok code => code
  | .error _ => 127

/-- `code.clamp(0, 255) as u8`. -/
def mainExitCode (code : Int32) : UInt8 := UInt8.ofNat (min (max code.toInt 0) 255).toNat

/-- The exit status of a worker whose `run_worker` returned this. -/
def workerStatus (result : Except String Int32) : ExitStatus :=
  .exited (Int32.ofNat (mainExitCode (workerMain result)).toNat)

/-- The exit status of a worker that did not fail itself. -/
def reportedStatus (script : ExitStatus) : ExitStatus := workerStatus (.ok (runWorkerCode script))

theorem toInt_mainExitCode (code : Int32) :
    (Int32.ofNat (mainExitCode code).toNat).toInt = min (max code.toInt 0) 255 := by
  have hle : (min (max code.toInt 0) 255).toNat < 256 := by omega
  rw [mainExitCode, UInt8.toNat_ofNat', Nat.mod_eq_of_lt hle, Int32.toInt_ofNat_of_lt (by omega)]
  omega

/-- A byte gets through, and nothing else does. -/
theorem mainExitCode_eq_iff (code : Int32) :
    Int32.ofNat (mainExitCode code).toNat = code ↔ 0 ≤ code.toInt ∧ code.toInt ≤ 255 := by
  rw [← Int32.toInt_inj, toInt_mainExitCode]
  omega

theorem mainExitCode_eq_zero_iff (code : Int32) :
    Int32.ofNat (mainExitCode code).toNat = 0 ↔ code.toInt ≤ 0 := by
  rw [← Int32.toInt_inj, toInt_mainExitCode, Int32.toInt_zero]
  omega

/-- What a snapshot says about the script. -/
def Faithful (script : ExitStatus) (s : TaskSnapshot) : Prop :=
  (s.status = .succeeded ↔ script.success = true) ∧
    ∀ code, script.code = some code → s.exitCode = some code

/-- The mapping of `run_task`, when the task was not stopped. -/
def Reports (script : ExitStatus) (s : TaskSnapshot) : Prop :=
  s.status = finalStatus none (reportedStatus script) ∧ s.exitCode = (reportedStatus script).code

theorem Reports.withFlag {script : ExitStatus} {s : TaskSnapshot} (h : Reports script s)
    (truncated : Bool) : Reports script { s with outputTruncated := truncated } := h

theorem Reports.isFinished {script : ExitStatus} {s : TaskSnapshot} (h : Reports script s) :
    s.status.isFinished = true := by
  rw [h.1]
  exact finalStatus_isFinished none _

theorem Reports.succeeded_iff {script : ExitStatus} {s : TaskSnapshot} (h : Reports script s) :
    s.status = .succeeded ↔ (runWorkerCode script).toInt ≤ 0 := by
  rw [h.1, finalStatus, reportedStatus, workerStatus, workerMain, ← mainExitCode_eq_zero_iff]
  split
  · rename_i hs
    simpa [ExitStatus.success, ExitStatus.code] using hs
  · rename_i hs
    simpa [ExitStatus.success, ExitStatus.code] using hs

/-- The mapping is faithful for bytes alone. -/
theorem Reports.faithful_iff {script : ExitStatus} {s : TaskSnapshot} (h : Reports script s) :
    Faithful script s ↔ ∀ code, script.code = some code → 0 ≤ code.toInt ∧ code.toInt ≤ 255 := by
  rw [Faithful, h.succeeded_iff, h.2, reportedStatus, workerStatus, workerMain]
  cases script with
  | signaled n => simp [runWorkerCode, ExitStatus.code, ExitStatus.success]
  | exited code =>
    have hzero : code = 0 ↔ code.toInt = 0 := by rw [← Int32.toInt_inj, Int32.toInt_zero]
    simp only [runWorkerCode, ExitStatus.code, ExitStatus.success, Option.getD_some,
      Option.some.injEq, forall_eq', mainExitCode_eq_iff, beq_iff_eq, hzero]
    omega

/-! ## From the worker to the snapshot -/

/-- `run_task` returns no error before its last transition. -/
def FailsFinished (o : Op) (w : World) (r : runner.Resp o) : Prop :=
  o.Fails r → w.snapshot.status.isFinished = true

/-- Nobody asks the task to stop, its deadline does not pass, and its worker ends with what the
script ended with. -/
def Undisturbed (script : ExitStatus) (w w' : World) : Prop :=
  w'.stop = w.stop ∧ w'.deadline = w.deadline ∧
    ∀ status, w'.worker = .exited status → w.worker = .exited status ∨
      status = reportedStatus script

/-- The runner of a task that is left alone. -/
def undisturbedMachine (P : Platform) (line : TaskSnapshot → List UInt8) (script : ExitStatus) :
    Machine runner World :=
  (taskMachine P line).restrict FailsFinished (Undisturbed script)

/-- What is known in each phase.  Those in which the task is being stopped are not reached. -/
def Outcome (script : ExitStatus) : Phase → World → Prop
  | .starting, w | .spawned, w | .running, w => w.stop = none ∧ w.deadline = false ∧
      ∀ status, w.worker = .exited status → status = reportedStatus script
  | .exited status, w => w.deadline = false ∧ status = reportedStatus script
  | .ending _ reason status, _ | .released reason status, _ =>
      reason = none ∧ status = reportedStatus script
  | .published, w | .returned, w | .failed _, w | .crashed _, w | .reported, w | .marking, w
  | .marked, w | .done, w => Reports script w.snapshot
  | _, _ => False

section

variable {P : Platform} {route : ResolvedRoute} {line : TaskSnapshot → List UInt8}
  {script : ExitStatus} {w w' : World} {φ ψ : Phase} {o : Op} {r : runner.Resp o}

theorem Outcome.env (h : Outcome script φ w) (he : Surroundings P w w')
    (hu : Undisturbed script w w') : Outcome script φ w' := by
  have hs := he.frame.1
  obtain ⟨hstop, hdeadline, hworker⟩ := hu
  cases φ with
  | starting | spawned | running =>
    refine ⟨hstop.trans h.1, hdeadline.trans h.2.1, fun status hw ↦ ?_⟩
    exact (hworker status hw).elim (h.2.2 status) id
  | exited _ => exact ⟨hdeadline.trans h.1, h.2⟩
  | ending _ _ _ | released _ _ => exact h
  | published | returned | failed _ | crashed _ | reported | marking | marked | done =>
    exact (congrArg (Reports script) hs).mpr h
  | _ => exact h.elim

/-- Where the status is finished, the outcome is known. -/
theorem Outcome.reports (h : Outcome script φ w) (hf : Facts φ w.snapshot)
    (hfin : w.snapshot.status.isFinished = true) : Reports script w.snapshot := by
  have hnot : w.snapshot.status.isFinished ≠ false := by simp [hfin]
  cases φ with
  | starting | spawned => exact absurd (by rw [hf.1.status]; rfl) hnot
  | running | exited _ => exact absurd (by rw [hf.1.status]; rfl) hnot
  | ending _ reason _ | released reason _ =>
    cases reason with
    | none => exact absurd (by rw [hf.1.status]; rfl) hnot
    | some reason => exact absurd (by rw [hf.1.status]; rfl) hnot
  | published | returned | failed _ | crashed _ | reported | marking | marked | done => exact h
  | _ => exact h.elim

theorem Outcome.act (h : Outcome script φ w) (hf : Facts φ w.snapshot)
    (hm : Moves P route φ o r ψ) (ha : taskEffect P line o w r w') (hfail : FailsFinished o w r) :
    Outcome script ψ w' := by
  have hshape := taskEffect_shape ha
  have hsame : (∀ site f, o ≠ .update site f) → w'.snapshot = w.snapshot := hshape.snapshot
  cases hm with
  | error _ e e' | spawnError e e' | exitedError e e' | joinError _ _ _ _ e e'
  | joinCrashed _ _ _ _ e e' | persistFinalError e e' =>
    have := h.reports hf (hfail trivial)
    exact (congrArg (Reports script) (hsame (by simp))).mpr this
  | quiet hq => cases hq <;> first | exact h.elim | (obtain rfl : w' = _ := ha; exact h)
  | startReader _ | armDeadline =>
    obtain rfl : w' = _ := ha
    first | exact h | exact ⟨h.1, rfl, h.2.2⟩
  | spawn =>
    obtain rfl : w' = _ := ha
    exact ⟨h.1, h.2.1, by simp⟩
  | toRunning =>
    obtain ⟨now, rfl⟩ := ha
    exact h
  | exited status =>
    obtain ⟨hw, rfl⟩ := ha
    exact ⟨h.2.1, h.2.2 status hw⟩
  | deadline => exact absurd (ha.1.symm.trans h.2.1) (by decide)
  | stop reason => exact absurd (h.1.symm.trans ha.2.1) (by simp)
  | exitedEmpty status result => exact ⟨rfl, h.2⟩
  | exitedLate status => exact absurd (ha.1.symm.trans h.1) (by decide)
  | dropControl _ _ _ | joined _ _ _ _ | dropPermits _ _ => exact h
  | toFinal reason status =>
    obtain ⟨now, rfl⟩ := ha
    obtain ⟨rfl, rfl⟩ := h
    exact ⟨rfl, rfl⟩
  | toError error =>
    obtain ⟨now, rfl⟩ := ha
    have hkeep : toExecutorError error now w.snapshot = w.snapshot := by
      rw [toExecutorError, if_pos (Reports.isFinished h)]
    have hupdate : (w.update (toExecutorError error now)).snapshot =
        { w.snapshot with outputTruncated := w.outputTruncated } := by
      rw [World.update, hkeep]
    exact (congrArg (Reports script) hupdate).mpr (Reports.withFlag h _)
  | persistFinal | leave | leaveError _ | persistError _ | markFinished | dropStore =>
    exact (congrArg (Reports script) (hsame (by simp))).mpr h
  | _ => exact h.elim

theorem outcome_invariant :
    Invariant (undisturbedMachine P line script) (Moves P route)
      fun φ w ↦ Facts φ w.snapshot ∧ Outcome script φ w where
  env φ w w' h he :=
    ⟨by rw [he.1.frame.1]; exact h.1, h.2.env he.1 he.2⟩
  act φ o w r w' ψ h ha hm :=
    ⟨facts_invariant.act φ o w r w' ψ h.1 ha.1 hm, h.2.act h.1 hm ha.1 ha.2⟩

end

/-- The world in which `start_task` spawns the runner of a task of this route. -/
def startedWorld (line : TaskSnapshot → List UInt8) (route : ResolvedRoute) (id : Uuid)
    (now : String) : World :=
  .created line (.created id route.path route.outputMode route.outputEncoding now)

/-- In every execution, a task that is visible as finished reports what its worker ended with. -/
theorem reports_run {P : Platform} {route : ResolvedRoute} {args : List String}
    {line : TaskSnapshot → List UInt8} {script : ExitStatus} {id : Uuid} {now : String}
    {c : Task Unit × World}
    (hr : (undisturbedMachine P line script).Run
      (startTask P route args, startedWorld line route id now) c)
    (hfin : c.2.visible.status.isFinished = true) : Reports script c.2.visible := by
  have hstart : Tracked (Moves P route) (fun φ w ↦ Facts φ w.snapshot ∧ Outcome script φ w)
      (fun _ φ ↦ φ = .done) (startTask P route args, startedWorld line route id now) :=
    ⟨.starting, startTask_follows P route args, (World.created_fresh ..).facts, rfl, rfl,
      fun status h ↦ by cases h⟩
  obtain ⟨φ, -, hf, ho⟩ := outcome_invariant.run hstart hr
  exact (ho.reports hf hfin).withFlag _

/-- **The outcome of the script is reported faithfully**, exactly if its exit code is a byte. -/
theorem outcome_faithful_iff (P : Platform) (route : ResolvedRoute) (args : List String)
    (line : TaskSnapshot → List UInt8) (script : ExitStatus) (hp : script.PossibleOn P) (id : Uuid)
    (now : String) (c : Task Unit × World)
    (hr : (undisturbedMachine P line script).Run
      (startTask P route args, startedWorld line route id now) c)
    (hfin : c.2.visible.status.isFinished = true) :
    Faithful script c.2.visible ↔ (P = .windows →
      ∀ code, script.code = some code → 0 ≤ code.toInt ∧ code.toInt ≤ 255) := by
  rw [(reports_run hr hfin).faithful_iff]
  cases P with
  | windows => simp
  | unix =>
    cases script with
    | exited code =>
      have hbyte : 0 ≤ code.toInt ∧ code.toInt ≤ 255 := hp
      simpa [ExitStatus.code] using hbyte
    | signaled n => simp [ExitStatus.code]

/-! ## Two executions -/

theorem undisturbedMachine_allows {P : Platform} {line : TaskSnapshot → List UInt8}
    {script : ExitStatus} : Allows P line (undisturbedMachine P line script) :=
  fun _ _ _ _ h hok _ ↦ ⟨h, fun hfails ↦ absurd hfails hok⟩

/-- The script ends, then its output, and the runner goes on to its last transition. -/
theorem exists_outcome (P : Platform) (script : ExitStatus) :
    ∃ c, (undisturbedMachine P snapshotCodec.line script).Run
        (startTask P exampleRoute [],
          startedWorld snapshotCodec.line exampleRoute 1 "2026-01-01T00:00:00Z") c ∧
      c.2.visible.status.isFinished = true := by
  let M := undisturbedMachine P snapshotCodec.line script
  let status := reportedStatus script
  let w := (startedWorld snapshotCodec.line exampleRoute 1 "2026-01-01T00:00:00Z").looping
    snapshotCodec.line exampleRoute "2026-01-01T00:00:01Z"
  let v : World := { w with worker := .exited status }
  let u := (v.setReader .stdout (.ended (.ok ()))).setReader .stderr (.ended (.ok ()))
  let z := World.update { u with permits := false } (toFinal none status "2026-01-01T00:00:02Z")
  have hexit : M.env w v := by
    refine ⟨.workerExit status rfl fun _ ↦ rfl, rfl, rfl, fun s hs ↦ .inr ?_⟩
    cases hs
    rfl
  have hempty : v.EmptyAnswer P (.ok ()) := by
    refine .inr ?_
    rintro (h | h)
    · cases h
    · cases h
  have hout : M.env v (v.setReader .stdout (.ended (.ok ()))) :=
    ⟨.readerEnds (.ok ()) rfl, rfl, rfl, fun _ hs ↦ .inl hs⟩
  have herr : M.env (v.setReader .stdout (.ended (.ok ()))) u :=
    ⟨.readerEnds (.ok ()) rfl, rfl, rfl, fun _ hs ↦ .inl hs⟩
  have hpermits : M.act .dropPermits u () { u with permits := false } := ⟨rfl, fun h ↦ h.elim⟩
  have hfinal : M.act (.update .final (toFinal none status)) { u with permits := false } () z :=
    ⟨⟨_, rfl⟩, fun h ↦ h.elim⟩
  have hstart : M.Run (startTask P exampleRoute [], _) (atMainLoop P exampleRoute, w) :=
    run_mainLoop undisturbedMachine_allows _ _
  refine ⟨((attemptCall .persist).attempt >>= handleResult, z), hstart.trans ?_,
    finalStatus_isFinished none status⟩
  refine .head (.env hexit) ?_
  refine .head (.act (S := runner) (o := .selectMain) (r := .exited (.ok status)) (v := v)
    ⟨⟨rfl, rfl⟩, fun h ↦ h.elim⟩) ?_
  refine .head (.act (S := runner) (o := .waitEmptyUntilDeadline) (r := some (.ok ())) (v := v)
    ⟨⟨hempty, rfl⟩, fun h ↦ h.elim⟩) ?_
  refine .head (.act (S := runner) (o := .dropControl) (r := ()) (v := v)
    ⟨rfl, fun h ↦ h.elim⟩) ?_
  refine .head (.env hout) (.head (.env herr) ?_)
  refine .head (.act (S := runner) (o := .joinReader .stdout) (r := .ended (.ok ())) (v := u)
    ⟨⟨rfl, rfl⟩, fun h ↦ h.elim⟩) ?_
  refine .head (.act (S := runner) (o := .joinReader .stderr) (r := .ended (.ok ())) (v := u)
    ⟨⟨rfl, rfl⟩, fun h ↦ h.elim⟩) ?_
  exact .head (.act hpermits) (.single (.act hfinal))

/-- A script that exits with code 3 on Unix. -/
theorem outcome_faithful_three :
    ∃ c, (undisturbedMachine .unix snapshotCodec.line (.exited 3)).Run
        (startTask .unix exampleRoute [],
          startedWorld snapshotCodec.line exampleRoute 1 "2026-01-01T00:00:00Z") c ∧
      c.2.visible.status.isFinished = true ∧ Faithful (.exited 3) c.2.visible := by
  obtain ⟨c, hr, hfin⟩ := exists_outcome .unix (.exited 3)
  have hthree : ExitStatus.PossibleOn .unix (.exited 3) := ⟨by decide, by decide⟩
  exact ⟨c, hr, hfin, (outcome_faithful_iff .unix _ _ _ _ hthree _ _ c hr hfin).mpr
    (fun h ↦ by cases h)⟩

/-- A script that crashes on Windows, with an access violation (0xC0000005): the task has
succeeded. -/
theorem crash_reported_as_success :
    ExitStatus.PossibleOn .windows (.exited (-1073741819)) ∧
    ∃ c, (undisturbedMachine .windows snapshotCodec.line (.exited (-1073741819))).Run
        (startTask .windows exampleRoute [],
          startedWorld snapshotCodec.line exampleRoute 1 "2026-01-01T00:00:00Z") c ∧
      c.2.visible.status = .succeeded ∧ c.2.visible.exitCode = some 0 ∧
      ¬ Faithful (.exited (-1073741819)) c.2.visible := by
  obtain ⟨c, hr, hfin⟩ := exists_outcome .windows (.exited (-1073741819))
  have hreports := reports_run hr hfin
  refine ⟨trivial, c, hr, hreports.1, hreports.2, fun h ↦ ?_⟩
  exact absurd (hreports.faithful_iff.mp h (-1073741819) rfl) (by decide)

end CommandApi
