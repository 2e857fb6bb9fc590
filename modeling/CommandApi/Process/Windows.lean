import CommandApi.Process.Outcome
import CommandApi.Process.Unix
import CommandApi.Windows.Job

/-!
# The processes of a Windows task

`CommandApi.Process.World` knows of a tree only whether the worker lives and whether something else
of its job does.  Here are the processes themselves, in a `Windows.System`: the worker is process
`0`, and what it starts comes after it.  `JobStep` is what the processes may do, and
`windows_refines` says that none of it is news to `taskMachine`.

`run_task` makes the job before it spawns the worker, but it can assign the worker only afterwards,
and in between the worker is outside.  That does no harm because of an order in the source: the
worker starts nothing before it has read its first message, and the message is sent behind `attach`.
`JobMoves` is that order, and `script_in_job` what follows from it: in every state of every
execution, whatever fails, a process that is not in the job is the worker, and it has nothing to
start.

A job dies with its handle, so the runner cannot lose a tree: `windows_tree_paid` and `job_empty`
say that its processes have their permits and that none is left in the end.  There is one exception,
an error that `run_task` drops: `tokio::time::timeout(..).await.is_err()` is about the time only,
and the error of a query that answers in time counts as an empty job.  `job_outlived` is such an
execution.
-/

set_option autoImplicit false

namespace CommandApi

open Async Windows

/-- The limits `ProcessTree::new` sets. -/
def jobLimits : Limits := ⟨true, false, false⟩

/-- The processes of a task, and what the worker knows. -/
structure JobTree where
  system : System
  /-- The first message is on its way to the worker. -/
  told : Bool

/-- The world of a Windows task with its processes. -/
abbrev WindowsWorld := World × JobTree

/-- What the operations of the runner do to the processes.  A write that fails may have written the
whole message. -/
def JobAfter : (o : Op) → runner.Resp o → JobTree → JobTree → Prop
  | .fallible .treeNew, .ok (), t, t' => t' = { t with system := t.system.create jobLimits }
  | .fallible .spawn, .ok (), t, t' => t' = { t with system := t.system.add false }
  | .fallible .attach, .ok (), t, t' => t' = { t with system := t.system.assign 0 }
  | .fallible (.writeSpec _), .ok (), t, t' => t' = { t with told := true }
  | .fallible (.writeSpec _), .error _, t, t' => t' = t ∨ t' = { t with told := true }
  | .fallible .force, .ok (), t, t' => t' = { t with system := t.system.terminate }
  | .leaveRunTask, _, t, t' => t' = { t with system := t.system.close }
  | _, _, t, t' => t' = t

/-- The world agrees with the system about the processes the worker has started. -/
def OthersAgree (w : World) (s : System) : Prop :=
  w.others = true ↔ ∃ pid, pid ≠ 0 ∧ s.procs pid = some true

/-- The worker ends.  For a runner that has left it has ended before. -/
def World.workerEnds (w : World) (status : ExitStatus) : World :=
  if w.worker = .alive then { w with worker := .exited status } else w

/-- What happens around the runner. -/
inductive JobStep : WindowsWorld → WindowsWorld → Prop
  | base {w w' : World} {t : JobTree} (h : Surroundings .windows w w')
      (hw : w'.worker = w.worker) (ho : w'.others = w.others) : JobStep (w, t) (w', t)
  /-- The worker has read its first message and starts the script. -/
  | script {w : World} {t : JobTree} {member child : Bool} (others : Bool)
      (hp : t.system.procs 0 = some member) (htold : t.told = true)
      (hb : t.system.limits.birth member false = some child)
      (ho : OthersAgree { w with others } (t.system.add child)) :
      JobStep (w, t) ({ w with others }, { t with system := t.system.add child })
  /-- Another process of the task starts one. -/
  | child {w : World} {t : JobTree} {pid : ℕ} {member child : Bool} (others breakaway : Bool)
      (hpid : pid ≠ 0) (hp : t.system.procs pid = some member)
      (hb : t.system.limits.birth member breakaway = some child)
      (ho : OthersAgree { w with others } (t.system.add child)) :
      JobStep (w, t) ({ w with others }, { t with system := t.system.add child })
  | exit {w : World} {t : JobTree} {pid : ℕ} {member : Bool} (others : Bool) (hpid : pid ≠ 0)
      (hp : t.system.procs pid = some member)
      (ho : OthersAgree { w with others } (t.system.remove pid)) :
      JobStep (w, t) ({ w with others }, { t with system := t.system.remove pid })
  /-- The worker ends.  It does not wait for what it has started. -/
  | workerExit {w : World} {t : JobTree} {member : Bool} (status : ExitStatus)
      (hp : t.system.procs 0 = some member) :
      JobStep (w, t) (w.workerEnds status, { t with system := t.system.remove 0 })

/-- The runner of a Windows task next to its processes. -/
def windowsMachine (line : TaskSnapshot → List UInt8) : Machine runner WindowsWorld where
  act o u r u' := taskEffect .windows line o u.1 r u'.1 ∧ JobAfter o r u.2 u'.2
  env := JobStep

/-! ## The order of the launch -/

/-- How far the job is. -/
inductive JobPhase
  | unmade
  | made
  /-- The worker exists, and is not in the job. -/
  | spawned
  /-- The worker is in the job. -/
  | held
  /-- … and has been told what to do. -/
  | briefed
  /-- `run_task` has dropped its `ProcessTree`. -/
  | closed

/-- The calls that have nothing to do with the job. -/
def Fallible.apart : Fallible → Bool
  | .pipe | .cloneReader | .currentExe => true
  | _ => false

/-- What `start_task` does when `run_task` has returned. -/
def Op.reports : Op → Bool
  | .update .executorError _ | .fallible .persist | .markFinished | .dropStore => true
  | _ => false

/-- The order in which `run_task` makes the job, spawns the worker, puts it into the job and tells
it what to do. -/
inductive JobMoves : ControlGraph runner JobPhase
  | apart {φ : JobPhase} {c : Fallible} (h : c.apart = true) (r : Except String Unit) :
      JobMoves φ (.fallible c) r φ
  | startReader {φ : JobPhase} (s : OutputStream) : JobMoves φ (.startReader s) () φ
  | treeNew : JobMoves .unmade (.fallible .treeNew) (.ok ()) .made
  | treeNewError (e : String) : JobMoves .unmade (.fallible .treeNew) (.error e) .unmade
  | spawn : JobMoves .made (.fallible .spawn) (.ok ()) .spawned
  | spawnError (e : String) : JobMoves .made (.fallible .spawn) (.error e) .made
  | attach : JobMoves .spawned (.fallible .attach) (.ok ()) .held
  | attachError (e : String) : JobMoves .spawned (.fallible .attach) (.error e) .spawned
  | takeStdin (r : Except String Unit) : JobMoves .held (.fallible .takeStdin) r .held
  | encodeSpec (r : Except String Unit) : JobMoves .held (.fallible .encodeSpec) r .held
  | writeSpec (spec : WorkerSpec) : JobMoves .held (.fallible (.writeSpec spec)) (.ok ()) .briefed
  | writeSpecError (spec : WorkerSpec) (e : String) :
      JobMoves .held (.fallible (.writeSpec spec)) (.error e) .held
  | flushSpec (r : Except String Unit) : JobMoves .briefed (.fallible .flushSpec) r .briefed
  | supervises {o : Op} (h : o.supervises = true) (r : runner.Resp o) :
      JobMoves .briefed o r .briefed
  | leave {φ : JobPhase} : JobMoves φ .leaveRunTask () .closed
  | reports {o : Op} (h : o.reports = true) (r : runner.Resp o) : JobMoves .closed o r .closed

section

variable {route : ResolvedRoute} {streams : List OutputStream} {φ : JobPhase}

theorem startReaders_jobMoves : Follows JobMoves φ (startReaders streams) fun _ ψ ↦ ψ = φ := by
  have honly : (startReaders streams).Only fun o : Op ↦
      (∃ s, o = .startReader s) ∨ o = .fallible .cloneReader :=
    only_startReaders streams (.inr rfl) fun s ↦ .inl ⟨s, rfl⟩
  refine Follows.of_only honly ?_
  rintro o r (⟨s, rfl⟩ | rfl)
  · exact .startReader s
  · exact .apart rfl r

/-- A program that returns leaves a worker in the job that knows what to do. -/
private def ReturnsBriefed (r : Except String Unit) (φ : JobPhase) : Prop :=
  ∀ u, r = .ok u → φ = .briefed

/-- A call, in front of a program that follows the graph from where the call leads. -/
private theorem call_jobMoves {φ ψ : JobPhase} {c : Fallible} {f : Unit → Task Unit}
    (hok : JobMoves φ (.fallible c) (.ok ()) ψ)
    (herr : ∀ e, ∃ χ, JobMoves φ (.fallible c) (.error e) χ)
    (hf : Follows JobMoves ψ (f ()) ReturnsBriefed) :
    Follows JobMoves φ (attemptCall c >>= f) ReturnsBriefed := by
  intro r
  cases r with
  | ok u => exact ⟨ψ, hok, hf⟩
  | error e =>
    obtain ⟨χ, hχ⟩ := herr e
    exact ⟨χ, hχ, nofun⟩

/-- … with a context for its error. -/
private theorem call_context_jobMoves {φ ψ : JobPhase} {c : Fallible} (text : String)
    {f : Unit → Task Unit} (hok : JobMoves φ (.fallible c) (.ok ()) ψ)
    (herr : ∀ e, ∃ χ, JobMoves φ (.fallible c) (.error e) χ)
    (hf : Follows JobMoves ψ (f ()) ReturnsBriefed) :
    Follows JobMoves φ ((attemptCall c).context text >>= f) ReturnsBriefed := by
  intro r
  cases r with
  | ok u => exact ⟨ψ, hok, hf⟩
  | error e =>
    obtain ⟨χ, hχ⟩ := herr e
    exact ⟨χ, hχ, nofun⟩

theorem launch_jobMoves (spec : WorkerSpec) :
    Follows JobMoves .unmade (launch streams spec) ReturnsBriefed := by
  refine call_jobMoves (.apart rfl _) (fun e ↦ ⟨_, .apart rfl _⟩) ?_
  refine Follows.bind (B := fun _ ψ ↦ ψ = .unmade) (startReaders_jobMoves.mono fun r ψ h ↦ ?_) ?_
  · cases r with
    | ok u => exact h
    | error e => exact nofun
  rintro _ ψ rfl
  refine call_context_jobMoves _ (.apart rfl _) (fun e ↦ ⟨_, .apart rfl _⟩) ?_
  refine call_jobMoves .treeNew (fun e ↦ ⟨_, .treeNewError e⟩) ?_
  refine call_context_jobMoves _ .spawn (fun e ↦ ⟨_, .spawnError e⟩) ?_
  refine call_jobMoves .attach (fun e ↦ ⟨_, .attachError e⟩) ?_
  refine call_context_jobMoves _ (.takeStdin _) (fun e ↦ ⟨_, .takeStdin _⟩) ?_
  refine call_jobMoves (.encodeSpec _) (fun e ↦ ⟨_, .encodeSpec _⟩) ?_
  refine call_context_jobMoves _ (.writeSpec spec) (fun e ↦ ⟨_, .writeSpecError spec e⟩) ?_
  intro r
  refine ⟨.briefed, .flushSpec r, ?_⟩
  cases r with
  | ok u => exact fun _ _ ↦ rfl
  | error e => exact nofun

theorem runTask_jobMoves (args : List String) :
    Follows JobMoves .unmade (runTask .windows route args) fun _ _ ↦ True := by
  rw [runTask_eq]
  refine Follows.bind (B := fun _ ψ ↦ ψ = .briefed) ((launch_jobMoves _).mono fun r ψ h ↦ ?_) ?_
  · cases r with
    | ok u => exact h u rfl
    | error e => trivial
  · rintro _ ψ rfl
    refine (Follows.of_only supervises_supervise fun _ r h ↦ .supervises h r).mono ?_
    exact fun _ _ _ ↦ trivial

/-- The runner keeps to the order. -/
theorem startTask_jobMoves (args : List String) :
    Follows JobMoves .unmade (startTask .windows route args) fun _ _ ↦ True := by
  refine Follows.bind (B := fun _ _ ↦ True) (Follows.attempt ?_) fun result φ _ ↦ ?_
  · exact runTask_jobMoves args
  refine fun _ ↦ ⟨.closed, .leave, ?_⟩
  have hreport : (reportError result).Only fun o : Op ↦ o.reports = true :=
    only_reportError result (fun _ ↦ rfl) rfl
  refine (Follows.of_only (hreport.bind fun _ ↦ ?_) fun _ r h ↦ .reports h r).mono ?_
  · exact ⟨rfl, fun _ ↦ ⟨rfl, fun _ ↦ trivial⟩⟩
  · exact fun _ _ _ ↦ trivial

end

/-! ## What is known of the processes -/

/-- The worker has not been spawned. -/
structure Unspawned (u : WindowsWorld) : Prop where
  procs : ∀ pid, u.2.system.procs pid = none
  next : u.2.system.next = 0
  told : u.2.told = false
  worker : u.1.worker = .absent
  others : u.1.others = false

/-- The job exists, and nobody can leave it. -/
structure Jailed (s : System) : Prop where
  handle : s.handle = true
  limits : s.limits = jobLimits

/-- The worker is outside and has nothing to start. -/
structure Idling (u : WindowsWorld) : Prop where
  jailed : Jailed u.2.system
  alone : ∀ pid m, u.2.system.procs pid = some m → pid = 0
  told : u.2.told = false
  worker : u.1.worker = .alive ↔ ∃ m, u.2.system.procs 0 = some m
  others : u.1.others = false

/-- Everything is in the job. -/
structure Confined (u : WindowsWorld) : Prop where
  jailed : Jailed u.2.system
  members : ∀ pid m, u.2.system.procs pid = some m → m = true
  worker : u.1.worker = .alive ↔ ∃ m, u.2.system.procs 0 = some m
  others : OthersAgree u.1 u.2.system

/-- The job is closed.  A worker that never was in it may be left, and has nothing to start. -/
structure Dissolved (u : WindowsWorld) : Prop where
  stray : ∀ pid m, u.2.system.procs pid = some m → pid = 0 ∧ m = false ∧ u.2.told = false
  worker : u.1.worker ≠ .alive
  others : u.1.others = false

/-- What is known in each phase. -/
def Custody : JobPhase → WindowsWorld → Prop
  | .unmade, u => Unspawned u
  | .made, u => Unspawned u ∧ Jailed u.2.system
  | .spawned, u => Idling u
  | .held, u => Confined u
  | .briefed, u => Confined u ∧ u.2.told = true
  | .closed, u => Dissolved u

section

variable {line : TaskSnapshot → List UInt8} {φ ψ : JobPhase} {o : Op} {r : runner.Resp o}
  {w w' : World} {t t' : JobTree} {u u' : WindowsWorld}

theorem jobLimits_tight : jobLimits.Tight := ⟨rfl, rfl⟩

theorem World.workerEnds_worker (w : World) (status : ExitStatus) :
    (w.workerEnds status).worker ≠ .alive := by
  rw [workerEnds]
  split
  · exact nofun
  · assumption

@[simp] theorem World.workerEnds_others (w : World) (status : ExitStatus) :
    (w.workerEnds status).others = w.others := by
  rw [workerEnds]
  split <;> rfl

/-- The worker ends, and the others go on. -/
theorem OthersAgree.remove_worker {s : System} (h : OthersAgree w s) (ho : w'.others = w.others) :
    OthersAgree w' (s.remove 0) := by
  have hw : w.others = true ↔ _ := h
  rw [OthersAgree, ho, hw]
  refine exists_congr fun pid ↦ and_congr_right fun hpid ↦ ?_
  rw [System.procs_remove_of_ne hpid]

theorem Confined.frame (h : Confined (w, t)) (hw : w'.worker = w.worker)
    (ho : w'.others = w.others) : Confined (w', t) := by
  refine ⟨h.jailed, h.members, by rw [hw]; exact h.worker, ?_⟩
  rw [OthersAgree, ho]
  exact h.others

/-- A child of a member is a member. -/
theorem Confined.birth {pid : ℕ} {member child others breakaway : Bool} (h : Confined (w, t))
    (hp : t.system.procs pid = some member)
    (hb : t.system.limits.birth member breakaway = some child)
    (ho : OthersAgree { w with others } (t.system.add child)) :
    Confined ({ w with others }, { t with system := t.system.add child }) := by
  obtain rfl := h.members pid member hp
  refine ⟨⟨h.jailed.handle, h.jailed.limits⟩, fun q m hm ↦ ?_, h.worker.trans ?_, ho⟩
  · rcases System.procs_add hm with ⟨-, rfl⟩ | hm
    · exact Limits.birth_member jobLimits_tight (h.jailed.limits ▸ hb)
    · exact h.members q m hm
  · refine ⟨fun ⟨m, hm⟩ ↦ ⟨m, System.procs_add_of_some hm⟩, fun ⟨m, hm⟩ ↦ ?_⟩
    rcases System.procs_add hm with ⟨hnext, -⟩ | hm
    · have hlt := System.lt_next hp
      omega
    · exact ⟨m, hm⟩

theorem worker_iff_of_remove (w : World) (status : ExitStatus) (s : System) :
    (w.workerEnds status).worker = .alive ↔ ∃ m, (s.remove 0).procs 0 = some m := by
  refine ⟨fun ha ↦ absurd ha (w.workerEnds_worker status), fun ⟨m, hm⟩ ↦ ?_⟩
  exact absurd rfl (System.procs_remove hm).1

theorem Confined.env (h : Confined u) (hs : JobStep u u') : Confined u' := by
  cases hs with
  | base _ hw ho => exact h.frame hw ho
  | script others hp _ hb ho => exact h.birth hp hb ho
  | child others breakaway _ hp hb ho => exact h.birth hp hb ho
  | @exit w t pid member others hpid hp ho =>
    refine ⟨⟨h.jailed.handle, h.jailed.limits⟩, fun q m hm ↦ ?_, ?_, ho⟩
    · exact h.members q m (System.procs_remove hm).2
    · rw [show ({ t with system := t.system.remove pid } : JobTree).system.procs 0 = _ from
        System.procs_remove_of_ne hpid.symm]
      exact h.worker
  | @workerExit w t member status hp =>
    refine ⟨⟨h.jailed.handle, h.jailed.limits⟩, fun pid m hm ↦ ?_,
      worker_iff_of_remove w status t.system, ?_⟩
    · exact h.members pid m (System.procs_remove hm).2
    · exact h.others.remove_worker (w.workerEnds_others status)

theorem Unspawned.env (h : Unspawned u) (hs : JobStep u u') :
    Unspawned u' ∧ u'.2.system = u.2.system := by
  have hnone : ∀ {pid m}, u.2.system.procs pid ≠ some m := by
    intro pid m hp
    cases (h.procs pid).symm.trans hp
  cases hs with
  | base _ hw ho => exact ⟨⟨h.procs, h.next, h.told, hw.trans h.worker, ho.trans h.others⟩, rfl⟩
  | script _ hp _ _ _ => exact absurd hp hnone
  | child _ _ _ hp _ _ => exact absurd hp hnone
  | exit _ _ hp _ => exact absurd hp hnone
  | workerExit _ hp => exact absurd hp hnone

theorem Idling.env (h : Idling u) (hs : JobStep u u') : Idling u' := by
  cases hs with
  | base _ hw ho =>
    exact ⟨h.jailed, h.alone, h.told, by rw [hw]; exact h.worker, ho.trans h.others⟩
  | script _ _ htold _ _ => cases h.told.symm.trans htold
  | child _ _ hpid hp _ _ => exact absurd (h.alone _ _ hp) hpid
  | exit _ hpid hp _ => exact absurd (h.alone _ _ hp) hpid
  | @workerExit w t member status hp =>
    refine ⟨⟨h.jailed.handle, h.jailed.limits⟩, fun pid m hm ↦ ?_, h.told,
      worker_iff_of_remove w status t.system, (w.workerEnds_others status).trans h.others⟩
    exact h.alone pid m (System.procs_remove hm).2

theorem Dissolved.env (h : Dissolved u) (hs : JobStep u u') : Dissolved u' := by
  cases hs with
  | base _ hw ho => exact ⟨h.stray, by rw [hw]; exact h.worker, ho.trans h.others⟩
  | script _ hp htold _ _ => cases (h.stray _ _ hp).2.2.symm.trans htold
  | child _ _ hpid hp _ _ => exact absurd (h.stray _ _ hp).1 hpid
  | exit _ hpid hp _ => exact absurd (h.stray _ _ hp).1 hpid
  | @workerExit w t member status hp =>
    exact ⟨fun pid m hm ↦ h.stray pid m (System.procs_remove hm).2,
      w.workerEnds_worker status, (w.workerEnds_others status).trans h.others⟩

/-- What has been sent to the worker is not taken back. -/
theorem JobStep.told (hs : JobStep u u') : u'.2.told = u.2.told := by cases hs <;> rfl

theorem Custody.env (h : Custody φ u) (hs : JobStep u u') : Custody φ u' := by
  cases φ with
  | unmade => exact (Unspawned.env h hs).1
  | made =>
    obtain ⟨hu, hsystem⟩ := Unspawned.env h.1 hs
    exact ⟨hu, hsystem ▸ h.2⟩
  | spawned => exact Idling.env h hs
  | held => exact Confined.env h hs
  | briefed => exact ⟨Confined.env h.1 hs, hs.told.trans h.2⟩
  | closed => exact Dissolved.env h hs

/-- The operations that have to do with the job. -/
def Op.joined : Op → Bool
  | .fallible .treeNew | .fallible .spawn | .fallible .attach | .fallible (.writeSpec _)
  | .fallible .force | .leaveRunTask => true
  | _ => false

theorem JobAfter.same (h : JobAfter o r t t') (ho : o.joined = false) : t' = t := by
  match o, r, h with
  | .fallible .pipe, _, h | .fallible .cloneReader, _, h | .fallible .currentExe, _, h
  | .fallible .takeStdin, _, h | .fallible .encodeSpec, _, h | .fallible .flushSpec, _, h
  | .fallible .persist, _, h | .fallible .graceful, _, h | .startReader _, _, h
  | .update _ _, _, h | .armDeadline, _, h | .selectMain, _, h | .writeTerminate, _, h
  | .armGrace, _, h | .selectGrace, _, h | .selectEmpty, _, h | .childWait, _, h
  | .waitEmpty, _, h | .waitEmptyUntilDeadline, _, h | .dropControl, _, h | .joinReader _, _, h
  | .dropPermits, _, h | .markFinished, _, h | .dropStore, _, h => exact h

/-- An operation that has nothing to do with the job keeps what is known. -/
theorem Custody.same (h : Custody φ u) (ha : (windowsMachine line).act o u r u')
    (ho : o.joined = false) : Custody φ u' := by
  obtain ⟨w, t⟩ := u
  obtain ⟨w', t'⟩ := u'
  obtain ⟨ha, hj⟩ : taskEffect .windows line o w r w' ∧ JobAfter o r t t' := ha
  obtain rfl := hj.same ho
  obtain ⟨hw, ho⟩ := (taskEffect_shape ha).tree (by rintro rfl; cases ho)
    (by rintro rfl; cases ho) (by rintro rfl; cases ho)
  cases φ with
  | unmade => exact ⟨h.procs, h.next, h.told, hw.trans h.worker, ho.trans h.others⟩
  | made =>
    obtain ⟨h, hj⟩ := h
    exact ⟨⟨h.procs, h.next, h.told, hw.trans h.worker, ho.trans h.others⟩, hj⟩
  | spawned => exact ⟨h.jailed, h.alone, h.told, by rw [hw]; exact h.worker, ho.trans h.others⟩
  | held => exact Confined.frame h hw ho
  | briefed => exact ⟨Confined.frame h.1 hw ho, h.2⟩
  | closed => exact ⟨h.stray, by rw [hw]; exact h.worker, ho.trans h.others⟩

/-- The job is terminated, and everything was in it. -/
theorem Confined.terminate (h : Confined (w, t)) (status : ExitStatus) :
    Confined (w.killTree status, { t with system := t.system.terminate }) := by
  have hnone : ∀ pid m, t.system.terminate.procs pid ≠ some m := by
    intro pid m hm
    obtain ⟨hp, rfl⟩ := System.procs_terminate hm
    cases h.members pid false hp
  refine ⟨⟨h.jailed.handle, h.jailed.limits⟩, fun pid m hm ↦ absurd hm (hnone pid m), ?_, ?_⟩
  · exact ⟨fun ha ↦ absurd ha (w.killTree_worker status), fun ⟨m, hm⟩ ↦ absurd hm (hnone 0 m)⟩
  · exact ⟨nofun, fun ⟨pid, _, hm⟩ ↦ absurd hm (hnone pid true)⟩

theorem Confined.close (h : Confined (w, t)) (pid : ℕ) (m : Bool) :
    t.system.close.procs pid ≠ some m := by
  intro hm
  obtain ⟨hp, rfl⟩ := System.procs_close h.jailed.handle (by rw [h.jailed.limits]; rfl) hm
  cases h.members pid false hp

/-- What a closed job leaves behind. -/
theorem Custody.close (h : Custody φ (w, t)) :
    Dissolved (w.left .windows, { t with system := t.system.close }) := by
  refine ⟨fun pid m hm ↦ ?_, w.killTree_worker _, rfl⟩
  have hp := System.procs_of_close hm
  cases φ with
  | unmade => cases (h.procs pid).symm.trans hp
  | made => cases (h.1.procs pid).symm.trans hp
  | spawned =>
    have hclosed := System.procs_close h.jailed.handle (by rw [h.jailed.limits]; rfl) hm
    exact ⟨h.alone pid m hp, hclosed.2, h.told⟩
  | held => exact absurd hm (Confined.close h pid m)
  | briefed => exact absurd hm (Confined.close h.1 pid m)
  | closed => exact h.stray pid m hp

theorem Custody.act (h : Custody φ u) (hm : JobMoves φ o r ψ)
    (ha : (windowsMachine line).act o u r u') : Custody ψ u' := by
  have hsame : o.joined = false → Custody φ u' := h.same ha
  obtain ⟨w, t⟩ := u
  obtain ⟨w', t'⟩ := u'
  obtain ⟨ha, hj⟩ : taskEffect .windows line o w r w' ∧ JobAfter o r t t' := ha
  cases hm with
  | @apart _ c hc r =>
    refine hsame ?_
    cases c with
    | pipe | cloneReader | currentExe => rfl
    | _ => cases hc
  | startReader s => exact hsame rfl
  | treeNew =>
    obtain rfl : w' = w := ha
    obtain rfl : t' = _ := hj
    exact ⟨⟨h.procs, h.next, h.told, h.worker, h.others⟩, ⟨rfl, rfl⟩⟩
  | spawn =>
    obtain rfl : w' = _ := ha
    obtain rfl : t' = _ := hj
    obtain ⟨h, hjailed⟩ := h
    have hzero : (t.system.add false).procs 0 = some false := by
      have hadd := t.system.procs_add_next false
      rwa [h.next] at hadd
    refine ⟨⟨hjailed.handle, hjailed.limits⟩, fun pid m hm ↦ ?_, h.told,
      ⟨fun _ ↦ ⟨false, hzero⟩, fun _ ↦ rfl⟩, h.others⟩
    rcases System.procs_add hm with ⟨hpid, -⟩ | hm
    · exact hpid.trans h.next
    · cases (h.procs pid).symm.trans hm
  | attach =>
    obtain rfl : w' = w := ha
    obtain rfl : t' = _ := hj
    refine ⟨⟨h.jailed.handle, h.jailed.limits⟩, fun pid m hm ↦ ?_, h.worker.trans ?_, ?_⟩
    · rcases System.procs_assign hm with ⟨-, hmember⟩ | ⟨hpid, hm⟩
      · exact hmember
      · exact absurd (h.alone pid m hm) hpid
    · rw [← Option.ne_none_iff_exists', ← Option.ne_none_iff_exists']
      exact not_congr System.procs_assign_eq_none.symm
    · refine ⟨fun hothers ↦ ?_, fun ⟨pid, hpid, hm⟩ ↦ ?_⟩
      · cases h.others.symm.trans hothers
      · rcases System.procs_assign hm with ⟨hzero, -⟩ | ⟨-, hm⟩
        · exact absurd hzero hpid
        · exact absurd (h.alone pid true hm) hpid
  | treeNewError e | spawnError e | attachError e =>
    obtain rfl : w' = w := ha
    obtain rfl : t' = t := hj
    exact h
  | takeStdin r | encodeSpec r | flushSpec r => exact hsame rfl
  | writeSpec spec =>
    obtain rfl : w' = w := ha
    obtain rfl : t' = _ := hj
    exact ⟨⟨h.jailed, h.members, h.worker, h.others⟩, rfl⟩
  | writeSpecError spec e =>
    obtain rfl : w' = w := ha
    rcases (hj : t' = t ∨ t' = _) with rfl | rfl
    · exact h
    · exact ⟨h.jailed, h.members, h.worker, h.others⟩
  | supervises ho r =>
    match o, ho, r with
    | .fallible .force, _, .ok () =>
      obtain rfl : w' = _ := ha
      obtain rfl : t' = _ := hj
      exact ⟨h.1.terminate _, h.2⟩
    | .fallible .force, _, .error e =>
      obtain rfl : w' = w := ha
      obtain rfl : t' = t := hj
      exact h
    | .fallible .persist, _, _ | .fallible .graceful, _, _ | .update _ _, _, _
    | .armDeadline, _, _ | .selectMain, _, _ | .writeTerminate, _, _ | .armGrace, _, _
    | .selectGrace, _, _ | .selectEmpty, _, _ | .childWait, _, _ | .waitEmpty, _, _
    | .waitEmptyUntilDeadline, _, _ | .dropControl, _, _ | .joinReader _, _, _
    | .dropPermits, _, _ => exact hsame rfl
  | leave =>
    obtain rfl : w' = _ := ha
    obtain rfl : t' = _ := hj
    exact h.close
  | reports ho r =>
    refine hsame ?_
    match o, ho with
    | .update .executorError _, _ | .fallible .persist, _ | .markFinished, _ | .dropStore, _ => rfl

theorem custody_invariant : Invariant (windowsMachine line) JobMoves Custody where
  env _ _ _ h hs := h.env hs
  act _ _ _ _ _ _ h ha hm := h.act hm ha

/-! ## The processes and the task -/

/-- No process yet, and no job. -/
def JobTree.new : JobTree := ⟨.empty, false⟩

theorem Fresh.unspawned (h : Fresh w) : Unspawned (w, .new) :=
  ⟨fun _ ↦ rfl, rfl, rfl, h.worker, h.others⟩

/-- While the task has its job, `wait_empty` answers exactly when the job has no active process. -/
theorem Confined.active_iff (h : Confined (w, t)) :
    w.EmptyAnswer .windows (.ok ()) ↔ t.system.active = 0 := by
  rw [System.active_eq_zero_iff]
  have hlive : w.TreeLive ↔ ∃ pid, t.system.procs pid = some true := by
    constructor
    · rintro (ha | ho)
      · obtain ⟨m, hm⟩ := h.worker.mp ha
        exact ⟨0, h.members 0 m hm ▸ hm⟩
      · obtain ⟨pid, -, hp⟩ := h.others.mp ho
        exact ⟨pid, hp⟩
    · rintro ⟨pid, hp⟩
      by_cases hpid : pid = 0
      · exact .inl (h.worker.mpr ⟨true, hpid ▸ hp⟩)
      · exact .inr (h.others.mpr ⟨pid, hpid, hp⟩)
  rw [← not_exists, ← hlive]
  exact or_iff_right nofun

/-- What the processes do is, to the task, a step of its surroundings or nothing. -/
theorem JobStep.surroundings (h : Custody φ u) (hs : JobStep u u') :
    u'.1 = u.1 ∨ Surroundings .windows u.1 u'.1 := by
  have hset : ∀ {w : World} (others : Bool), (others = true → w.TreeLive) →
      Surroundings .windows w { w with others } := by
    intro w others h
    cases others with
    | false => exact .othersExit
    | true => exact .fork (h rfl)
  have hconfined : ∀ pid m, u.2.system.procs pid = some m → pid ≠ 0 ∨ u.2.told = true →
      Confined u := by
    intro pid m hp hne
    cases φ with
    | unmade => cases (h.procs pid).symm.trans hp
    | made => cases (h.1.procs pid).symm.trans hp
    | spawned =>
      rcases hne with hne | htold
      · exact absurd (h.alone pid m hp) hne
      · cases h.told.symm.trans htold
    | held => exact h
    | briefed => exact h.1
    | closed =>
      obtain ⟨hzero, -, htold⟩ := h.stray pid m hp
      rcases hne with hne | htold'
      · exact absurd hzero hne
      · cases htold.symm.trans htold'
  cases hs with
  | base hs _ _ => exact .inr hs
  | script others hp htold hb ho =>
    refine .inr (hset others fun _ ↦ .inl ?_)
    exact (hconfined _ _ hp (.inr htold)).worker.mpr ⟨_, hp⟩
  | child others breakaway hpid hp hb ho =>
    have hc := hconfined _ _ hp (.inl hpid)
    refine .inr (hset others fun _ ↦ .inr (hc.others.mpr ⟨_, hpid, ?_⟩))
    rw [hp, hc.members _ _ hp]
  | exit others hpid hp ho =>
    have hc := hconfined _ _ hp (.inl hpid)
    refine .inr (hset others fun hothers ↦ .inr ?_)
    obtain ⟨q, hq, hm⟩ := ho.mp hothers
    exact hc.others.mpr ⟨q, hq, (System.procs_remove hm).2⟩
  | @workerExit w t member status hp =>
    by_cases ha : w.worker = .alive
    · rw [show (w.workerEnds status, _).1 = _ from if_pos ha]
      exact .inr (.workerExit status ha nofun)
    · exact .inl (if_neg ha)

theorem custody_run {route : ResolvedRoute} {args : List String} (hw : Fresh w)
    {c : Task Unit × WindowsWorld}
    (hr : (windowsMachine line).Run (startTask .windows route args, (w, .new)) c) :
    Tracked JobMoves Custody (fun _ _ ↦ True) c := by
  have hstart : Custody .unmade (w, .new) := hw.unspawned
  exact custody_invariant.run ⟨.unmade, startTask_jobMoves args, hstart⟩ hr

/-- **An execution with its processes is an execution of the task**, for which a tree is a worker
and a job. -/
theorem windows_refines {route : ResolvedRoute} {args : List String} (hw : Fresh w)
    {c : Task Unit × WindowsWorld}
    (hr : (windowsMachine line).Run (startTask .windows route args, (w, .new)) c) :
    (taskMachine .windows line).Run (startTask .windows route args, w) (c.1, c.2.1) := by
  induction hr with
  | refl => exact .refl
  | tail hr hs ih =>
    obtain ⟨φ, -, hu⟩ := custody_run hw hr
    cases hs with
    | act ha => exact ih.tail (.act ha.1)
    | env hs =>
      rcases hs.surroundings hu with hsame | hsurr
      · rw [show _ = _ from hsame]
        exact ih
      · exact ih.tail (.env hsurr)

/-! ## When the job is empty -/

/-- The error of a query that `run_task` takes for an empty job. -/
def Unheeded : (o : Op) → runner.Resp o → Prop
  | .waitEmptyUntilDeadline, some (.error _) => True
  | _, _ => False

/-- The executions in which there is no such error. -/
def heedingMachine (line : TaskSnapshot → List UInt8) : Machine runner WindowsWorld :=
  (windowsMachine line).restrict (fun o _ r ↦ ¬ Unheeded o r) fun _ _ ↦ True

/-- What is known of the tree and the permits in each phase. -/
def Vacant : Phase → World → Prop
  | .stopped _ _, w | .ending _ _ _, w | .released _ _, w | .published, w | .returned, w
  | .crashed _, w | .reported, w | .marking, w | .marked, w | .done, w => ¬ w.TreeLive
  | .failed _, w => w.TreeLive → w.permits = true
  | _, w => w.permits = true

variable {route : ResolvedRoute} {χ χ' : Phase}

theorem Vacant.paid (h : Vacant χ w) (hlive : w.TreeLive) : w.permits = true := by
  cases χ with
  | stopped _ _ | ending _ _ _ | released _ _ | published | returned | crashed _ | reported
  | marking | marked | done => exact absurd hlive h
  | failed _ => exact h hlive
  | _ => exact h

theorem Vacant.env (h : Vacant χ w) (hs : Surroundings .windows w w') : Vacant χ w' := by
  cases χ with
  | stopped _ _ | ending _ _ _ | released _ _ | published | returned | crashed _ | reported
  | marking | marked | done => exact hs.not_live h
  | failed _ =>
    intro hlive
    rw [hs.permits]
    exact h (by_contra fun hn ↦ hs.not_live hn hlive)
  | _ => exact hs.permits.trans h

theorem Vacant.act (h : Vacant χ w) (hm : Moves .windows route χ o r χ')
    (ha : taskEffect .windows line o w r w') (hheeded : ¬ Unheeded o r) : Vacant χ' w' := by
  have hshape := taskEffect_shape ha
  have hl : o ≠ .fallible .spawn → ¬ w.TreeLive → ¬ w'.TreeLive := hshape.not_live
  have hp : o ≠ .dropPermits → o ≠ .leaveRunTask → w'.permits = w.permits := hshape.permits
  have hempty : ∀ {w : World}, w.EmptyAnswer .windows (.ok ()) → ¬ w.TreeLive :=
    fun h ↦ h.resolve_left nofun
  cases hm with
  | quiet hq =>
    cases hq <;> exact (hp nofun nofun).trans h
  | error hq e e' =>
    refine fun _ ↦ (hp nofun nofun).trans ?_
    cases hq <;> exact h
  | spawnError e e' | exitedError e e' | graceError _ e e' | drainError _ _ e e'
  | childWaitError _ e e' | forceEmptyError _ _ e e' | lateError _ e e' =>
    exact fun _ ↦ (hp nofun nofun).trans h
  | stoppedError _ _ e e' | joinError _ _ _ _ e e' | joinCrashed _ _ _ _ e e'
  | persistFinalError e e' => exact fun hlive ↦ absurd hlive (hl nofun h)
  | drained _ _ | forceEmpty _ _ | lateEmpty _ =>
    obtain ⟨hans, rfl⟩ := ha
    exact hempty hans
  | exitedEmpty _ result =>
    obtain ⟨hans, rfl⟩ := ha
    cases result with
    | ok u => exact hempty hans
    | error e => exact absurd trivial hheeded
  | leave | leaveError _ =>
    obtain rfl : w' = _ := ha
    exact w.killTree_not_live _
  | stoppedEmpty _ _ | dropControl _ _ _ | joined _ _ _ _ | dropPermits _ _ | toFinal _ _
  | persistFinal | toError _ | persistError _ | markFinished | dropStore => exact hl nofun h
  | _ => exact (hp nofun nofun).trans h

theorem vacant_invariant : Invariant (heedingMachine line) ((Moves .windows route).prod JobMoves)
    fun φ u ↦ Vacant φ.1 u.1 ∧ Custody φ.2 u where
  env φ u u' h he := by
    refine ⟨?_, h.2.env he.1⟩
    rcases JobStep.surroundings h.2 he.1 with hsame | hs
    · exact hsame ▸ h.1
    · exact h.1.env hs
  act φ o u r u' ψ h ha hm := ⟨h.1.act hm.1 ha.1.1 ha.2, h.2.act hm.2 ha.1⟩

theorem vacant_run {args : List String} (hw : Fresh w) {c : Task Unit × WindowsWorld}
    (hr : (heedingMachine line).Run (startTask .windows route args, (w, .new)) c) :
    Tracked ((Moves .windows route).prod JobMoves) (fun φ u ↦ Vacant φ.1 u.1 ∧ Custody φ.2 u)
      (fun _ χ ↦ χ.1 = .done ∧ True) c := by
  have hstart : Vacant .starting w ∧ Custody .unmade (w, .new) := ⟨hw.permits, hw.unspawned⟩
  have hfollows := (startTask_follows .windows route args).prod (startTask_jobMoves args)
  exact vacant_invariant.run ⟨(.starting, .unmade), hfollows, hstart⟩ hr

end

/-! ## A task with a script -/

section

variable {line : TaskSnapshot → List UInt8} {o : Op} {r : runner.Resp o} {w w' : World}
  {t t' : JobTree}

private theorem heeded {k : runner.Resp o → Task Unit} (ha : taskEffect .windows line o w r w')
    (hj : JobAfter o r t t') (hu : ¬ Unheeded o r) :
    (heedingMachine line).Step (.call o k, (w, t)) (k r, (w', t')) :=
  .act ⟨⟨ha, hj⟩, hu⟩

end

/-- The worker is in the job, and knows what to do. -/
def exampleBriefed : JobTree := ⟨((System.empty.create jobLimits).add false).assign 0, true⟩

/-- … and it has started the script. -/
def exampleScripted : WindowsWorld :=
  ({ exampleWorld.looping snapshotCodec.line exampleRoute "2026-01-01T00:00:01Z" with
      others := true }, { exampleBriefed with system := exampleBriefed.system.add true })

theorem run_exampleScripted : (heedingMachine snapshotCodec.line).Run
    (startTask .windows exampleRoute [], (exampleWorld, .new))
    (atMainLoop .windows exampleRoute, exampleScripted) := by
  refine .head (heeded (o := .fallible .pipe) (r := .ok ()) rfl rfl id) ?_
  refine .head (heeded (o := .fallible .cloneReader) (r := .ok ()) rfl rfl id) ?_
  refine .head (heeded (o := .startReader .stdout) (r := ()) rfl rfl id) ?_
  refine .head (heeded (o := .fallible .cloneReader) (r := .ok ()) rfl rfl id) ?_
  refine .head (heeded (o := .startReader .stderr) (r := ()) rfl rfl id) ?_
  refine .head (heeded (o := .fallible .currentExe) (r := .ok ()) rfl rfl id) ?_
  refine .head (heeded (o := .fallible .treeNew) (r := .ok ()) rfl rfl id) ?_
  refine .head (heeded (o := .fallible .spawn) (r := .ok ()) rfl rfl id) ?_
  refine .head (heeded (o := .fallible .attach) (r := .ok ()) rfl rfl id) ?_
  refine .head (heeded (o := .fallible .takeStdin) (r := .ok ()) rfl rfl id) ?_
  refine .head (heeded (o := .fallible .encodeSpec) (r := .ok ()) rfl rfl id) ?_
  refine .head (heeded (o := .fallible (.writeSpec _)) (r := .ok ()) rfl rfl id) ?_
  refine .head (heeded (o := .fallible .flushSpec) (r := .ok ()) rfl rfl id) ?_
  refine .head (heeded (o := .update .running _) (r := ()) ⟨"2026-01-01T00:00:01Z", rfl⟩ rfl id) ?_
  refine .head (heeded (o := .fallible .persist) (r := .ok ()) rfl rfl id) ?_
  refine .head (heeded (o := .armDeadline) (r := ()) rfl rfl id) ?_
  refine .single (.env ⟨.script true (t := exampleBriefed) rfl rfl rfl ?_, trivial⟩)
  exact ⟨fun _ ↦ ⟨1, Nat.one_ne_zero, rfl⟩, fun _ ↦ rfl⟩

/-- **Nothing that a task starts is ever outside its job.**  A live process is in the job, or it is
the worker and has not been told what to start. -/
theorem script_in_job (line : TaskSnapshot → List UInt8) (route : ResolvedRoute)
    (args : List String) (w : World) (hw : Fresh w) (c : Task Unit × WindowsWorld)
    (hr : (windowsMachine line).Run (startTask .windows route args, (w, .new)) c) (pid : ℕ)
    (m : Bool) (hp : c.2.2.system.procs pid = some m) :
    m = true ∨ pid = 0 ∧ c.2.2.told = false := by
  obtain ⟨φ, -, h⟩ := custody_run hw hr
  cases φ with
  | unmade => cases (h.procs pid).symm.trans hp
  | made => cases (h.1.procs pid).symm.trans hp
  | spawned => exact .inr ⟨h.alone pid m hp, h.told⟩
  | held => exact .inl (h.members pid m hp)
  | briefed => exact .inl (h.1.members pid m hp)
  | closed =>
    obtain ⟨hpid, -, htold⟩ := h.stray pid m hp
    exact .inr ⟨hpid, htold⟩

/-- The script is in the job. -/
theorem script_in_job_started :
    ∃ c, (windowsMachine snapshotCodec.line).Run
        (startTask .windows exampleRoute [], (exampleWorld, .new)) c ∧
      ∃ m, c.2.2.system.procs 1 = some m ∧ m = true := by
  have hr := run_exampleScripted.of_restrict
  have h := script_in_job _ exampleRoute [] exampleWorld exampleWorld_fresh _ hr 1 true rfl
  exact ⟨_, hr, true, rfl, h.resolve_right nofun⟩

/-- **A live process of a Windows task has the permits of the task**, apart from a worker that never
got into the job and has nothing to start. -/
theorem windows_tree_paid (line : TaskSnapshot → List UInt8) (route : ResolvedRoute)
    (args : List String) (w : World) (hw : Fresh w) (c : Task Unit × WindowsWorld)
    (hr : (heedingMachine line).Run (startTask .windows route args, (w, .new)) c) (pid : ℕ)
    (m : Bool) (hp : c.2.2.system.procs pid = some m) :
    c.2.1.permits = true ∨ pid = 0 ∧ m = false ∧ c.2.2.told = false := by
  obtain ⟨⟨φ, χ⟩, -, hv, h⟩ := vacant_run hw hr
  -- a process that the world knows of is paid for
  have hpaid : Confined c.2 → c.2.1.permits = true := by
    intro hc
    refine hv.paid ?_
    by_cases hpid : pid = 0
    · exact .inl (hc.worker.mpr ⟨m, hpid ▸ hp⟩)
    · exact .inr (hc.others.mpr ⟨pid, hpid, hc.members pid m hp ▸ hp⟩)
  cases χ with
  | unmade => cases (h.procs pid).symm.trans hp
  | made => cases (h.1.procs pid).symm.trans hp
  | spawned =>
    refine .inl (hv.paid (.inl ((Idling.worker h).mpr ⟨m, ?_⟩)))
    exact h.alone pid m hp ▸ hp
  | held => exact .inl (hpaid h)
  | briefed => exact .inl (hpaid h.1)
  | closed => exact .inr (h.stray pid m hp)

/-- The script has the permits of its task. -/
theorem windows_tree_paid_script :
    ∃ c, (heedingMachine snapshotCodec.line).Run
        (startTask .windows exampleRoute [], (exampleWorld, .new)) c ∧
      (∃ m, c.2.2.system.procs 1 = some m) ∧ c.2.1.permits = true := by
  have hr := run_exampleScripted
  have h := windows_tree_paid _ exampleRoute [] exampleWorld exampleWorld_fresh _ hr 1 true rfl
  exact ⟨_, hr, ⟨true, rfl⟩, h.resolve_right nofun⟩

/-- **A finished Windows task leaves no process behind**: when the last transition of `run_task` is
about to be made there is none, neither in the job nor outside. -/
theorem job_empty (line : TaskSnapshot → List UInt8) (route : ResolvedRoute) (args : List String)
    (w : World) (hw : Fresh w) (f : String → TaskSnapshot → TaskSnapshot) (k : Unit → Task Unit)
    (u : WindowsWorld)
    (hr : (heedingMachine line).Run (startTask .windows route args, (w, .new))
      (.call (.update .final f) k, u)) (pid : ℕ) : u.2.system.procs pid = none := by
  obtain ⟨⟨φ, χ⟩, hf, hv, h⟩ := vacant_run hw hr
  obtain ⟨⟨ψ, ψ'⟩, ⟨hm, hj⟩, -⟩ := hf ()
  have hlive : ¬ u.1.TreeLive := by
    cases hm with
    | toFinal reason status => exact hv
  have hconfined : Confined u := by
    cases hj with
    | supervises _ _ => exact h.1
    | reports ho _ => cases ho
  have hactive : u.2.system.active = 0 := (Confined.active_iff hconfined).mp (.inr hlive)
  rw [System.active_eq_zero_iff] at hactive
  cases hp : u.2.system.procs pid with
  | none => rfl
  | some m => exact absurd (hconfined.members pid m hp ▸ hp) (hactive pid)

/-- The runner in front of its last transition. -/
def exampleFinal : Task Unit :=
  (transition .final (toFinal none (.exited 0))).attempt >>= handleResult

/-- The worker has exited and the readers have seen the end of the output: the runner goes on to
its last transition, with any answer about the job. -/
theorem run_exampleFinal {line : TaskSnapshot → List UInt8}
    {C : (o : Op) → WindowsWorld → runner.Resp o → Prop} {w : World} (t : JobTree)
    (result : Except String Unit) (hworker : w.worker = .exited (.exited 0))
    (hout : w.readers .stdout = .ended (.ok ())) (herr : w.readers .stderr = .ended (.ok ()))
    (hans : w.EmptyAnswer .windows result)
    (hC : ∀ o u r, ¬ Unheeded o r → C o u r)
    (hresult : C .waitEmptyUntilDeadline (w, t) (some result)) :
    ((windowsMachine line).restrict C fun _ _ ↦ True).Run (atMainLoop .windows exampleRoute, (w, t))
      (exampleFinal, ({ w with permits := false }, t)) := by
  refine .head (.act (S := runner) (o := .selectMain) (r := .exited (.ok (.exited 0))) (v := (_, _))
    ⟨⟨⟨hworker, rfl⟩, rfl⟩, hC _ _ _ id⟩) ?_
  refine .head (.act (S := runner) (o := .waitEmptyUntilDeadline) (r := some result) (v := (_, _))
    ⟨⟨⟨hans, rfl⟩, rfl⟩, hresult⟩) ?_
  refine .head (.act (S := runner) (o := .dropControl) (r := ()) (v := (_, _))
    ⟨⟨rfl, rfl⟩, hC _ _ _ id⟩) ?_
  refine .head (.act (S := runner) (o := .joinReader .stdout) (r := .ended (.ok ())) (v := (_, _))
    ⟨⟨⟨hout, rfl⟩, rfl⟩, hC _ _ _ id⟩) ?_
  refine .head (.act (S := runner) (o := .joinReader .stderr) (r := .ended (.ok ())) (v := (_, _))
    ⟨⟨⟨herr, rfl⟩, rfl⟩, hC _ _ _ id⟩) ?_
  exact .single (.act (S := runner) (o := .dropPermits) (r := ()) (v := (_, _))
    ⟨⟨rfl, rfl⟩, hC _ _ _ id⟩)

/-- The worker has exited, and the readers have seen the end of the output. -/
def World.wound (w : World) : World :=
  ((w.workerEnds (.exited 0)).setReader .stdout (.ended (.ok ()))).setReader .stderr
    (.ended (.ok ()))

theorem run_exampleWound : (heedingMachine snapshotCodec.line).Run
    (startTask .windows exampleRoute [], (exampleWorld, .new))
    (atMainLoop .windows exampleRoute, (exampleScripted.1.wound,
      { exampleScripted.2 with system := exampleScripted.2.system.remove 0 })) := by
  refine run_exampleScripted.trans ?_
  have hends : ∀ {w : World} {t : JobTree} (s : OutputStream), w.readers s = .running →
      JobStep (w, t) (w.setReader s (.ended (.ok ())), t) :=
    fun s hs ↦ .base (.readerEnds (.ok ()) hs) rfl rfl
  refine .head (.env ⟨.workerExit (.exited 0) rfl, trivial⟩) ?_
  refine .head (.env ⟨hends .stdout rfl, trivial⟩) ?_
  exact .single (.env ⟨hends .stderr rfl, trivial⟩)

/-- The script ends as well, and nothing is left. -/
theorem job_empty_ended :
    ∃ f k u, (heedingMachine snapshotCodec.line).Run
        (startTask .windows exampleRoute [], (exampleWorld, .new))
        (.call (.update .final f) k, u) ∧
      ∀ pid, u.2.system.procs pid = none := by
  let t : JobTree := { exampleScripted.2 with
    system := (exampleScripted.2.system.remove 0).remove 1 }
  have hnone : ∀ pid m, t.system.procs pid ≠ some m := by
    intro pid m hp
    obtain ⟨hone, hp⟩ := System.procs_remove hp
    obtain ⟨hzero, hp⟩ := System.procs_remove hp
    have hlt : pid < 2 := System.lt_next hp
    omega
  have hagree : OthersAgree { exampleScripted.1.wound with others := false } t.system :=
    ⟨nofun, fun ⟨pid, _, hp⟩ ↦ absurd hp (hnone pid true)⟩
  have hexit : JobStep (exampleScripted.1.wound, { exampleScripted.2 with
      system := exampleScripted.2.system.remove 0 })
      ({ exampleScripted.1.wound with others := false }, t) :=
    .exit false Nat.one_ne_zero rfl hagree
  have hdead : ¬ ({ exampleScripted.1.wound with others := false } : World).TreeLive := by
    rintro (h | h) <;> cases h
  have hr := (run_exampleWound.tail (.env ⟨hexit, trivial⟩)).trans
    (run_exampleFinal t (.ok ()) rfl rfl rfl (.inr hdead) (fun _ _ _ h ↦ h) id)
  exact ⟨_, _, _, hr, job_empty _ exampleRoute [] exampleWorld exampleWorld_fresh _ _ _ hr⟩

/-- The query for the job fails.  The terminal status is about to be published while the script is
alive. -/
theorem job_outlived :
    ∃ f k u, (windowsMachine snapshotCodec.line).Run
        (startTask .windows exampleRoute [], (exampleWorld, .new))
        (.call (.update .final f) k, u) ∧
      u.2.system.procs 1 = some true := by
  have hfinal : ((windowsMachine snapshotCodec.line).restrict (fun _ _ _ ↦ True)
      fun _ _ ↦ True).Run _ (exampleFinal, _) :=
    run_exampleFinal (w := exampleScripted.1.wound)
      { exampleScripted.2 with system := exampleScripted.2.system.remove 0 }
      (.error "查询 Windows Job Object 状态失败") rfl rfl rfl rfl (fun _ _ _ _ ↦ trivial) trivial
  exact ⟨_, _, _, run_exampleWound.of_restrict.trans hfinal.of_restrict, rfl⟩

end CommandApi
