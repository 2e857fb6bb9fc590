import CommandApi.Process.Lifecycle
import CommandApi.Process.Permits
import CommandApi.Unix.Forest

/-!
# The processes of a Unix task

`CommandApi.Process.World` knows of a tree only whether the worker lives and whether something else
of its group does.  Here are the processes themselves: the descendants of the worker as a
`Unix.Forest`, with the ends of the output pipes they have open.  `UnixStep` is what the worker and
its descendants may do, and `unix_refines` says that none of it is news to `taskMachine`.

The runner knows that nothing is left in two ways.  A worker that returns has waited until it has no
children, and with a subreaper that means no descendants.  A forced stop kills the process group
and `wait_empty` returns at once; a descendant that has left the group survives, and the runner
waits for it only because it waits for the end of the output, which comes when the last process that
could write has gone.  A descendant that has left the group *and* closed the output is waited for by
nobody: `process_left_behind` is such an execution, and `no_process_left` says that there is no
other kind.
-/

set_option autoImplicit false

namespace CommandApi

open Async Unix

/-- The descendants of the worker, and the pipes between them and the server. -/
structure Descendants where
  forest : Forest OutputStream
  /-- The server has write ends of the pipes itself: it has made them for the worker and has not
  dropped its `Command` yet. -/
  server : Bool

/-- The world of a Unix task with its processes. -/
abbrev UnixWorld := World × Descendants

/-- What the operations of the runner do to the descendants. -/
def descendantsAfter : (o : Op) → runner.Resp o → Descendants → Descendants
  | .fallible .spawn, .ok (), d => { d with server := false }
  | .fallible .force, .ok (), d => { d with forest := d.forest.killGroup }
  | .leaveRunTask, _, d => { d with server := false }
  | _, _, d => d

/-- The events around the runner. -/
inductive UnixEvent
  /-- Something that has nothing to do with the processes. -/
  | base
  /-- A reader sees the end of its pipe. -/
  | eof (stream : OutputStream)
  /-- The worker starts the script. -/
  | script
  | fork (pid : ℕ)
  /-- `setsid`, `setpgid`, and closing, duplicating or handing over a descriptor. -/
  | change (pid : ℕ) (p : Proc OutputStream)
  /-- A descendant ends, by itself or by a signal. -/
  | exit (pid reaper : ℕ)
  /-- The worker returns. -/
  | workerExit (status : ExitStatus)
  /-- The worker returns an error, or is killed by a signal. -/
  | workerFails (status : ExitStatus)
  /-- The worker kills its group. -/
  | workerForce

/-- The world agrees with the forest about the group. -/
def GroupAgrees (w : World) (f : Forest OutputStream) : Prop := w.others = true ↔ f.GroupLive

/-- What happens around the runner.  The output goes to the pipes in `streams`. -/
inductive UnixStep (streams : List OutputStream) : UnixEvent → UnixWorld → UnixWorld → Prop
  | base {w w' : World} {d : Descendants} (h : Surroundings .unix w w')
      (hw : w'.worker = w.worker) (ho : w'.others = w.others)
      (hr : ∀ s, w'.readers s = .ended (.ok ()) → w.readers s = .ended (.ok ())) :
      UnixStep streams .base (w, d) (w', d)
  /-- The last process that could write has closed its end. -/
  | eof {w : World} {d : Descendants} {s : OutputStream} (hr : w.readers s = .running)
      (hs : d.server = false) (hw : w.worker ≠ .alive)
      (hp : ∀ pid p, d.forest.procs pid = some p → p.descriptors s = false) :
      UnixStep streams (.eof s) (w, d) (w.setReader s (.ended (.ok ())), d)
  | script {w : World} {d : Descendants} (h : w.worker = .alive) :
      UnixStep streams .script (w, d) ({ w with others := true },
        { d with forest := d.forest.add ⟨0, true, fun s ↦ decide (s ∈ streams)⟩ })
  /-- A child is in the group of its parent and has what its parent had open. -/
  | fork {w : World} {d : Descendants} {pid : ℕ} {p : Proc OutputStream}
      (hp : d.forest.procs pid = some p) :
      UnixStep streams (.fork pid) (w, d)
        (w, { d with forest := d.forest.add { p with parent := pid } })
  /-- A group can be joined while it has members, and a descriptor comes from a process that has
  it. -/
  | change {w : World} {d : Descendants} {pid : ℕ} {p p' : Proc OutputStream} (others : Bool)
      (hp : d.forest.procs pid = some p) (hparent : p'.parent = p.parent)
      (hd : ∀ s, p'.descriptors s = true →
        ∃ q r, d.forest.procs q = some r ∧ r.descriptors s = true)
      (hg : p'.inGroup = true → w.TreeLive)
      (ho : GroupAgrees { w with others } (d.forest.set pid p')) :
      UnixStep streams (.change pid p') (w, d)
        ({ w with others }, { d with forest := d.forest.set pid p' })
  | exit {w : World} {d : Descendants} {pid reaper : ℕ} {p : Proc OutputStream} (others : Bool)
      (hp : d.forest.procs pid = some p) (hr : d.forest.Elder reaper pid)
      (ho : GroupAgrees { w with others } (d.forest.orphan pid reaper)) :
      UnixStep streams (.exit pid reaper) (w, d)
        ({ w with others }, { d with forest := d.forest.orphan pid reaper })
  /-- `waitpid` has answered `ECHILD`: no live process has the worker as its parent. -/
  | workerExit {w : World} {d : Descendants} (status : ExitStatus) (h : w.worker = .alive)
      (hc : ∀ pid p, d.forest.procs pid = some p → p.parent ≠ 0) :
      UnixStep streams (.workerExit status) (w, d) ({ w with worker := .exited status }, d)
  | workerFails {w : World} {d : Descendants} (status : ExitStatus) (h : w.worker = .alive) :
      UnixStep streams (.workerFails status) (w, d) ({ w with worker := .exited status }, d)
  | workerForce {w : World} {d : Descendants} (h : w.worker = .alive) :
      UnixStep streams .workerForce (w, d)
        (w.killTree Platform.unix.killStatus, { d with forest := d.forest.killGroup })

/-- The runner of a Unix task next to its surroundings, in the executions whose events all satisfy
`C`. -/
def unixMachine (line : TaskSnapshot → List UInt8) (streams : List OutputStream)
    (C : UnixEvent → UnixWorld → Prop) : Machine runner UnixWorld where
  act o u r u' := taskEffect .unix line o u.1 r u'.1 ∧ u'.2 = descendantsAfter o r u.2
  env u u' := ∃ e, C e u ∧ UnixStep streams e u u'

/-! ## When the processes are waited for -/

/-- The process could still write output. -/
def HasOutput (streams : List OutputStream) (p : Proc OutputStream) : Prop :=
  ∃ s ∈ streams, p.descriptors s = true

/-- All descendants outside the group are of the kind `H`. -/
def Outside (H : Proc OutputStream → Prop) (f : Forest OutputStream) : Prop :=
  ∀ pid p, f.procs pid = some p → p.inGroup = false → H p

/-- A group is killed only when every descendant outside it is of the kind `H`, the worker dies
before its descendants only when they all are, and after that none becomes another kind. -/
def Reaches (H : Proc OutputStream → Prop) : UnixEvent → UnixWorld → Prop
  | .workerForce, u => Outside H u.2.forest
  | .workerFails _, u => ∀ pid p, u.2.forest.procs pid = some p → H p
  | .change _ p, u => u.1.worker ≠ .alive → H p
  | _, _ => True

/-- The runner kills the group only when every descendant outside it is of the kind `H`. -/
def ForceReaches (H : Proc OutputStream → Prop) (o : Op) (u : UnixWorld) (_ : runner.Resp o) :
    Prop := o = .fallible .force → Outside H u.2.forest

/-- The executions in which only processes of the kind `H` outlive a kill. -/
def reachingMachine (line : TaskSnapshot → List UInt8) (streams : List OutputStream)
    (H : Proc OutputStream → Prop) : Machine runner UnixWorld :=
  (unixMachine line streams (Reaches H)).restrict (ForceReaches H) fun _ _ ↦ True

/-! ## What is known of the processes -/

/-- The worker has ended. -/
def World.Gone (w : World) : Prop := ∃ status, w.worker = .exited status

/-- No descendant can write to the stream. -/
def Closed (f : Forest OutputStream) (s : OutputStream) : Prop :=
  ∀ pid p, f.procs pid = some p → p.descriptors s = false

/-- What holds of the processes in every execution. -/
structure Grown (u : UnixWorld) : Prop where
  absent : u.1.worker = .absent → u.2.forest = .empty
  rooted : u.1.worker = .alive → u.2.forest.Rooted
  agrees : GroupAgrees u.1 u.2.forest
  ended : ∀ s, u.1.readers s = .ended (.ok ()) →
    u.2.server = false ∧ u.1.worker ≠ .alive ∧ Closed u.2.forest s

/-- The descendants that have lost the worker are waited for. -/
def WaitedFor (streams : List OutputStream) (u : UnixWorld) : Prop :=
  u.1.Gone → ∀ pid p, u.2.forest.procs pid = some p → HasOutput streams p

/-- What is known of the worker and the readers in each phase. -/
def Arrived (streams : List OutputStream) : Phase → UnixWorld → Prop
  | .starting, u => u.1.worker = .absent ∧ u.2.server = true
  | .drain _ _, u | .overdue _ (some _), u | .forced _ (some _), u | .stopped _ _, u
  | .exited _, u | .late _, u | .lateForced _, u => u.1.Gone
  | .ending todo _ _, u =>
      u.1.Gone ∧ ∀ s ∈ streams, s ∉ todo → u.1.readers s = .ended (.ok ())
  | .released _ _, u => u.1.Gone ∧ ∀ s ∈ streams, u.1.readers s = .ended (.ok ())
  | _, _ => True

section

variable {route : ResolvedRoute} {line : TaskSnapshot → List UInt8} {streams : List OutputStream}
  {C : UnixEvent → UnixWorld → Prop} {w w' : World} {d d' : Descendants} {u u' : UnixWorld}
  {φ ψ : Phase} {o : Op} {r : runner.Resp o} {e : UnixEvent}

/-! ### One step -/

theorem Grown.frame (h : Grown (w, d)) (hw : w'.worker = w.worker) (ho : w'.others = w.others)
    (hr : ∀ s, w'.readers s = .ended (.ok ()) → w.readers s = .ended (.ok ()))
    (hf : d'.forest = d.forest) (hs : d.server = false → d'.server = false) : Grown (w', d') := by
  refine ⟨fun ha ↦ ?_, fun ha ↦ ?_, ?_, fun s he ↦ ?_⟩
  · exact hf.trans (h.absent (hw ▸ ha))
  · exact hf ▸ h.rooted (hw ▸ ha)
  · show w'.others = true ↔ d'.forest.GroupLive
    rw [ho, hf]
    exact h.agrees
  · obtain ⟨hserver, hworker, hclosed⟩ := h.ended s (hr s he)
    exact ⟨hs hserver, hw ▸ hworker, hf ▸ hclosed⟩

theorem World.killTree_worker (w : World) (status : ExitStatus) :
    (w.killTree status).worker ≠ .alive := fun h ↦ w.killTree_not_live status (.inl h)

theorem World.killTree_worker_of_ne (w : World) (status : ExitStatus) (h : w.worker ≠ .alive) :
    (w.killTree status).worker = w.worker := if_neg h

theorem Grown.kill (h : Grown (w, d)) (status : ExitStatus) :
    Grown (w.killTree status, { d with forest := d.forest.killGroup }) := by
  refine ⟨fun ha ↦ ?_, fun ha ↦ absurd ha (w.killTree_worker status), ?_, fun s he ↦ ?_⟩
  · have habsent : w.worker = .absent := by
      simp only [World.killTree] at ha
      split at ha
      · cases ha
      · exact ha
    have hempty : d.forest = .empty := h.absent habsent
    show d.forest.killGroup = .empty
    rw [hempty]
    rfl
  · refine ⟨fun ho ↦ ?_, fun hg ↦ absurd hg d.forest.not_groupLive_killGroup⟩
    cases ho
  · obtain ⟨hserver, -, hclosed⟩ := h.ended s he
    exact ⟨hserver, w.killTree_worker status,
      fun pid p hp ↦ hclosed pid p (Forest.procs_killGroup hp).1⟩

theorem Grown.env (h : Grown u) (hs : UnixStep streams e u u') : Grown u' := by
  -- a live descendant is a descendant of a worker that has been spawned
  have hsome : ∀ {pid p}, u.2.forest.procs pid = some p → u.1.worker ≠ .absent := by
    intro pid p hp ha
    rw [h.absent ha] at hp
    cases hp
  cases hs with
  | base _ hw ho hr => exact h.frame hw ho hr rfl id
  | @eof w d s hr hserver hw hp =>
    refine ⟨h.absent, h.rooted, h.agrees, fun s' he ↦ ?_⟩
    by_cases hss : s' = s
    · subst hss
      exact ⟨hserver, hw, hp⟩
    · simp only [World.setReader, if_neg hss] at he
      exact h.ended s' he
  | @script w d hw =>
    refine ⟨fun ha ↦ ?_, fun _ ↦ ?_, ⟨fun _ ↦ ?_, fun _ ↦ rfl⟩, fun s he ↦ ?_⟩
    · cases hw.symm.trans ha
    · exact (h.rooted hw).add ⟨d.forest.pos, .inl rfl⟩
    · exact ⟨_, _, d.forest.procs_add_next _, rfl⟩
    · exact absurd hw (h.ended s he).2.1
  | @fork w d pid p hp =>
    refine ⟨fun ha ↦ absurd ha (hsome hp), fun ha ↦ ?_, ?_, fun s he ↦ ?_⟩
    · exact (h.rooted ha).add ⟨Forest.lt_next hp, .inr ⟨p, hp⟩⟩
    · have hgroup : (d.forest.add { p with parent := pid }).GroupLive ↔ d.forest.GroupLive :=
        Forest.groupLive_fork hp rfl
      exact h.agrees.trans hgroup.symm
    · obtain ⟨hserver, hworker, hclosed⟩ := h.ended s he
      refine ⟨hserver, hworker, fun q r hr ↦ ?_⟩
      rcases Forest.procs_add hr with ⟨-, rfl⟩ | hr
      · exact hclosed pid p hp
      · exact hclosed q r hr
  | @change w d pid p p' others hp hparent hd hg ho =>
    refine ⟨fun ha ↦ absurd ha (hsome hp), fun ha ↦ ?_, ho, fun s he ↦ ?_⟩
    · exact (h.rooted ha).set hp hparent
    · obtain ⟨hserver, hworker, hclosed⟩ := h.ended s he
      refine ⟨hserver, hworker, fun q r hr ↦ ?_⟩
      rcases Forest.procs_set hr with ⟨-, rfl⟩ | ⟨-, hr⟩
      · by_contra hne
        obtain ⟨q', r', hr', hd'⟩ := hd s (by simpa using hne)
        rw [hclosed q' r' hr'] at hd'
        cases hd'
      · exact hclosed q r hr
  | @exit w d pid reaper p others hp hr ho =>
    refine ⟨fun ha ↦ absurd ha (hsome hp), fun ha ↦ ?_, ho, fun s he ↦ ?_⟩
    · exact (h.rooted ha).orphan hr
    · obtain ⟨hserver, hworker, hclosed⟩ := h.ended s he
      refine ⟨hserver, hworker, fun q r hr ↦ ?_⟩
      obtain ⟨-, r', hr', rfl⟩ := Forest.procs_orphan hr
      rw [← hclosed q r' hr']
      split <;> rfl
  | workerExit status hw _ | workerFails status hw =>
    exact ⟨nofun, nofun, h.agrees, fun s he ↦ absurd hw (h.ended s he).2.1⟩
  | workerForce hw => exact h.kill _

theorem descendantsAfter_of_ne (hspawn : o ≠ .fallible .spawn) (hforce : o ≠ .fallible .force)
    (hleave : o ≠ .leaveRunTask) (d : Descendants) : descendantsAfter o r d = d := by
  match o, r with
  | .fallible .spawn, _ => exact absurd rfl hspawn
  | .fallible .force, _ => exact absurd rfl hforce
  | .leaveRunTask, _ => exact absurd rfl hleave
  | .fallible .pipe, _ | .fallible .cloneReader, _ | .fallible .currentExe, _
  | .fallible .treeNew, _ | .fallible .attach, _ | .fallible .takeStdin, _
  | .fallible .encodeSpec, _ | .fallible (.writeSpec _), _ | .fallible .flushSpec, _
  | .fallible .persist, _ | .fallible .graceful, _ => rfl
  | .startReader _, _ | .update _ _, _ | .armDeadline, _ | .selectMain, _ | .writeTerminate, _
  | .armGrace, _ | .selectGrace, _ | .selectEmpty, _ | .childWait, _ | .waitEmpty, _
  | .waitEmptyUntilDeadline, _ | .dropControl, _ | .joinReader _, _ | .dropPermits, _
  | .markFinished, _ | .dropStore, _ => rfl

/-- Three operations touch the processes. -/
theorem Shape.tree {P : Platform} (h : Shape P line w o w') (hspawn : o ≠ .fallible .spawn)
    (hforce : o ≠ .fallible .force) (hleave : o ≠ .leaveRunTask) :
    w'.worker = w.worker ∧ w'.others = w.others := by
  cases h with
  | spawn => exact absurd rfl hspawn
  | force => exact absurd rfl hforce
  | leaveRunTask => exact absurd rfl hleave
  | _ => exact ⟨rfl, rfl⟩

/-- No operation ends a reader. -/
theorem Shape.ended {P : Platform} {s : OutputStream} {result : Except String Unit}
    (h : Shape P line w o w') (he : w'.readers s = .ended result) :
    w.readers s = .ended result := by
  cases h with
  | startReader stream =>
    simp only [World.setReader] at he
    split at he
    · cases he
    · exact he
  | leaveRunTask => exact World.left_readers ▸ he
  | _ => exact he

/-- An operation spawns the worker, kills the group, or leaves the processes alone. -/
theorem unix_act_cases (ha : (unixMachine line streams C).act o u r u') :
    (o = .fallible .spawn ∧ u' = ({ u.1 with worker := .alive }, { u.2 with server := false })) ∨
    (o = .fallible .force ∧
      u' = (u.1.killTree Platform.unix.killStatus, { u.2 with forest := u.2.forest.killGroup })) ∨
    (u'.1.worker = u.1.worker ∧ u'.1.others = u.1.others ∧ u'.2.forest = u.2.forest ∧
      (u.2.server = false → u'.2.server = false)) := by
  obtain ⟨w, d⟩ := u
  obtain ⟨w', d'⟩ := u'
  obtain ⟨ha, rfl⟩ : taskEffect .unix line o w r w' ∧ d' = descendantsAfter o r d := ha
  by_cases hspawn : o = .fallible .spawn
  · subst hspawn
    cases r with
    | error e => obtain rfl : w' = w := ha; exact .inr (.inr ⟨rfl, rfl, rfl, id⟩)
    | ok x => obtain rfl : w' = _ := ha; exact .inl ⟨rfl, rfl⟩
  by_cases hforce : o = .fallible .force
  · subst hforce
    cases r with
    | error e => obtain rfl : w' = w := ha; exact .inr (.inr ⟨rfl, rfl, rfl, id⟩)
    | ok x => obtain rfl : w' = _ := ha; exact .inr (.inl ⟨rfl, rfl⟩)
  by_cases hleave : o = .leaveRunTask
  · subst hleave
    obtain rfl : w' = _ := ha
    exact .inr (.inr ⟨rfl, rfl, rfl, fun _ ↦ rfl⟩)
  · obtain ⟨hworker, hothers⟩ := (taskEffect_shape ha).tree hspawn hforce hleave
    rw [descendantsAfter_of_ne hspawn hforce hleave]
    exact .inr (.inr ⟨hworker, hothers, rfl, id⟩)

theorem Grown.act (h : Grown u) (hφ : Arrived streams φ u) (hm : Moves .unix route φ o r ψ)
    (ha : (unixMachine line streams C).act o u r u') : Grown u' := by
  have hended : ∀ s, u'.1.readers s = .ended (.ok ()) → u.1.readers s = .ended (.ok ()) :=
    fun s ↦ (taskEffect_shape ha.1).ended
  obtain ⟨rfl, rfl⟩ | ⟨-, rfl⟩ | ⟨hworker, hothers, hforest, hserver⟩ := unix_act_cases ha
  · obtain rfl : φ = .starting := by
      cases hm with
      | quiet hq | error hq => cases hq
      | spawn | spawnError => rfl
    -- the server still had the pipes, so no reader has seen their end
    obtain ⟨habsent, hserver⟩ := hφ
    refine ⟨nofun, fun _ ↦ ?_, h.agrees, fun s he ↦ ?_⟩
    · show u.2.forest.Rooted
      rw [h.absent habsent]
      exact Forest.rooted_empty
    · cases hserver.symm.trans (h.ended s he).1
  · exact h.kill _
  · exact h.frame hworker hothers hended hforest hserver

theorem WaitedFor.env (h : WaitedFor streams u) (hu : Grown u)
    (hc : Reaches (HasOutput streams) e u) (hs : UnixStep streams e u u') :
    WaitedFor streams u' := by
  cases hs with
  | base _ hw _ _ => exact fun ⟨status, hg⟩ ↦ h ⟨status, hw ▸ hg⟩
  | eof _ _ _ _ => exact h
  | script hw =>
    rintro ⟨status, hg⟩
    cases hw.symm.trans hg
  | @fork w d pid p hp =>
    intro hg q r hr
    rcases Forest.procs_add hr with ⟨-, rfl⟩ | hr
    · exact h hg pid p hp
    · exact h hg q r hr
  | @change w d pid p p' others hp hparent hd hgroup ho =>
    rintro ⟨status, hg⟩ q r hr
    rcases Forest.procs_set hr with ⟨-, rfl⟩ | ⟨-, hr⟩
    · refine hc ?_
      rw [show w.worker = .exited status from hg]
      exact nofun
    · exact h ⟨status, hg⟩ q r hr
  | @exit w d pid reaper p others hp hr ho =>
    intro hg q r hr
    obtain ⟨-, r', hr', rfl⟩ := Forest.procs_orphan hr
    obtain ⟨s, hs, hd⟩ := h hg q r' hr'
    refine ⟨s, hs, ?_⟩
    rw [← hd]
    split <;> rfl
  | @workerExit w d status hw hchild =>
    intro _ pid p hp
    rw [(hu.rooted hw).empty hchild pid] at hp
    cases hp
  | workerFails status hw => exact fun _ ↦ hc
  | workerForce hw =>
    intro _ pid p hp
    obtain ⟨hp, hgroup⟩ := Forest.procs_killGroup hp
    exact hc pid p hp hgroup

theorem WaitedFor.act (h : WaitedFor streams u) (hc : ForceReaches (HasOutput streams) o u r)
    (ha : (unixMachine line streams C).act o u r u') : WaitedFor streams u' := by
  obtain ⟨-, rfl⟩ | ⟨ho, rfl⟩ | ⟨hworker, -, hforest, -⟩ := unix_act_cases ha
  · rintro ⟨status, hg⟩
    cases hg
  · intro _ pid p hp
    obtain ⟨hp, hgroup⟩ := Forest.procs_killGroup hp
    exact hc ho pid p hp hgroup
  · rintro ⟨status, hg⟩
    rw [hforest]
    exact h ⟨status, hworker ▸ hg⟩

/-! ### The phases -/

theorem World.Gone.env (hs : UnixStep streams e u u') (h : u.1.Gone) : u'.1.Gone := by
  obtain ⟨status, hg⟩ := h
  cases hs with
  | base _ hw _ _ => exact ⟨status, hw.trans hg⟩
  | workerExit _ hw _ | workerFails _ hw | workerForce hw => cases hw.symm.trans hg
  | _ => exact ⟨status, hg⟩

theorem World.Gone.act (ha : (unixMachine line streams C).act o u r u')
    (ho : o ≠ .fallible .spawn) (h : u.1.Gone) : u'.1.Gone := by
  obtain ⟨status, hg⟩ := h
  obtain ⟨hspawn, -⟩ | ⟨-, rfl⟩ | ⟨hworker, -⟩ := unix_act_cases ha
  · exact absurd hspawn ho
  · exact ⟨status, (u.1.killTree_worker_of_ne _ (by rw [hg]; exact nofun)).trans hg⟩
  · exact ⟨status, hworker.trans hg⟩

/-- A reader that has ended stays ended. -/
theorem UnixStep.ended {s : OutputStream} {result : Except String Unit}
    (hs : UnixStep streams e u u') (h : u.1.readers s = .ended result) :
    u'.1.readers s = .ended result := by
  have hset : ∀ {w : World} {stream : OutputStream} (reader : Reader),
      w.readers s = .ended result → w.readers stream = .running →
        (w.setReader stream reader).readers s = .ended result := by
    intro w stream reader hw hrunning
    have hne : s ≠ stream := by
      rintro rfl
      cases hw.symm.trans hrunning
    simpa [World.setReader, hne] using hw
  cases hs with
  | base he _ _ _ =>
    cases he with
    | readerEnds _ hr | readerCrashes _ hr => exact hset _ h hr
    | _ => exact h
  | eof hr _ _ _ => exact hset _ h hr
  | _ => exact h

theorem Arrived.env (h : Arrived streams φ u) (hs : UnixStep streams e u u') :
    Arrived streams φ u' := by
  have hg : u.1.Gone → u'.1.Gone := World.Gone.env hs
  cases φ with
  | starting =>
    obtain ⟨habsent, hserver⟩ := h
    cases hs with
    | base _ hw _ _ => exact ⟨hw.trans habsent, hserver⟩
    | script hw | workerExit _ hw _ | workerFails _ hw | workerForce hw =>
      cases hw.symm.trans habsent
    | _ => exact ⟨habsent, hserver⟩
  | drain _ _ | stopped _ _ | exited _ | late _ | lateForced _ => exact hg h
  | overdue _ status | forced _ status =>
    cases status with
    | none => trivial
    | some _ => exact hg h
  | ending todo _ _ => exact ⟨hg h.1, fun s hs' hn ↦ hs.ended (h.2 s hs' hn)⟩
  | released _ _ => exact ⟨hg h.1, fun s hs' ↦ hs.ended (h.2 s hs')⟩
  | _ => trivial

theorem Arrived.act (h : Arrived route.outputMode.streams φ u) (hm : Moves .unix route φ o r ψ)
    (ha : (unixMachine line route.outputMode.streams C).act o u r u') :
    Arrived route.outputMode.streams ψ u' := by
  have hg : o ≠ .fallible .spawn → u.1.Gone → u'.1.Gone := World.Gone.act ha
  have hreaders : (∀ s, o ≠ .startReader s) → u'.1.readers = u.1.readers :=
    (taskEffect_shape ha.1).readers
  obtain ⟨w, d⟩ := u
  obtain ⟨w', d'⟩ := u'
  obtain ⟨ha, hd⟩ : taskEffect .unix line o w r w' ∧ d' = descendantsAfter o r d := ha
  cases hm with
  | quiet hq =>
    cases hq with
    | pipe | cloneReader | currentExe | treeNew =>
      obtain rfl : w' = w := ha
      obtain rfl : d' = d := hd
      exact h
    | persistForced _ status | force _ status =>
      cases status with
      | none => trivial
      | some _ => exact hg nofun h
    | forceLate _ | persistLate _ => exact hg nofun h
    | _ => trivial
  | startReader _ =>
    obtain rfl : w' = _ := ha
    obtain rfl : d' = d := hd
    exact h
  | exited status | graceExited _ status | childWait _ status => exact hg nofun ⟨status, ha.1⟩
  | toForced _ status =>
    cases status with
    | none => trivial
    | some _ => exact hg nofun h
  | drained | drainElapsed | drainForce | forceEmpty | exitedLate | toLate => exact hg nofun h
  | stoppedEmpty | exitedEmpty | lateEmpty => exact ⟨hg nofun h, fun s hs hn ↦ absurd hs hn⟩
  | dropControl todo =>
    refine ⟨hg nofun h.1, fun s hs hn ↦ ?_⟩
    rw [hreaders nofun]
    exact h.2 s hs hn
  | joined stream todo =>
    refine ⟨hg nofun h.1, fun s hs hn ↦ ?_⟩
    rw [hreaders nofun]
    by_cases heq : s = stream
    · rw [heq]
      exact ha.1
    · exact h.2 s hs fun hmem ↦ (List.mem_cons.mp hmem).elim heq hn
  | dropPermits =>
    refine ⟨hg nofun h.1, fun s hs ↦ ?_⟩
    rw [hreaders nofun]
    exact h.2 s hs List.not_mem_nil
  | _ => trivial

/-! ## Executions -/

/-- The pipes have been made for a worker that does not exist yet. -/
def Descendants.new : Descendants := ⟨.empty, true⟩

theorem Fresh.grown (h : Fresh w) : Grown (w, .new) where
  absent _ := rfl
  rooted ha := by cases h.worker.symm.trans ha
  agrees := by
    constructor
    · intro ho
      cases h.others.symm.trans ho
    · rintro ⟨pid, p, hp, -⟩
      cases hp
  ended s he := by cases (h.readers s).symm.trans he

theorem grown_invariant :
    Invariant (unixMachine line route.outputMode.streams C) (Moves .unix route)
      fun φ u ↦ Grown u ∧ Arrived route.outputMode.streams φ u where
  env _ _ _ h he := by
    obtain ⟨e, -, hs⟩ := he
    exact ⟨h.1.env hs, h.2.env hs⟩
  act _ _ _ _ _ _ h ha hm := ⟨h.1.act h.2 hm ha, h.2.act hm ha⟩

theorem waitedFor_invariant :
    Invariant (reachingMachine line route.outputMode.streams (HasOutput route.outputMode.streams))
      (Moves .unix route) fun φ u ↦
        (Grown u ∧ Arrived route.outputMode.streams φ u) ∧
          WaitedFor route.outputMode.streams u where
  env φ u u' h he := by
    obtain ⟨⟨e, hc, hs⟩, -⟩ := he
    exact ⟨⟨h.1.1.env hs, h.1.2.env hs⟩, h.2.env h.1.1 hc hs⟩
  act φ o u r u' ψ h ha hm :=
    ⟨⟨h.1.1.act h.1.2 hm ha.1, h.1.2.act hm ha.1⟩, h.2.act ha.2 ha.1⟩

/-- What the processes do is, to the task, a step of its surroundings or nothing. -/
theorem UnixStep.surroundings (hu : Grown u) (hs : UnixStep streams e u u') :
    u'.1 = u.1 ∨ Surroundings .unix u.1 u'.1 := by
  have hset : ∀ {w : World} (others : Bool), (others = true → w.TreeLive) →
      Surroundings .unix w { w with others } := by
    intro w others h
    cases others with
    | false => exact .othersExit
    | true => exact .fork (h rfl)
  cases hs with
  | base he _ _ _ => exact .inr he
  | eof hr _ _ _ => exact .inr (.readerEnds _ hr)
  | script hw => exact .inr (.fork (.inl hw))
  | fork _ => exact .inl rfl
  | @change w d pid p p' others hp hparent hd hg ho =>
    refine .inr (hset others fun hothers ↦ ?_)
    obtain ⟨q, r, hr, hgroup⟩ := ho.mp hothers
    rcases Forest.procs_set hr with ⟨-, rfl⟩ | ⟨-, hr⟩
    · exact hg hgroup
    · exact .inr (hu.agrees.mpr ⟨q, r, hr, hgroup⟩)
  | exit others hp hr ho =>
    exact .inr (hset others fun hothers ↦
      .inr (hu.agrees.mpr (Forest.groupLive_of_orphan (ho.mp hothers))))
  | @workerExit w d status hw hchild =>
    refine .inr (.workerExit status hw fun _ ↦ ?_)
    by_contra hothers
    obtain ⟨pid, p, hp, -⟩ := hu.agrees.mp (by simpa using hothers)
    rw [(hu.rooted hw).empty hchild pid] at hp
    cases hp
  | workerFails status hw => exact .inr (.workerFails status hw)
  | workerForce hw => exact .inr (.workerForce hw rfl)

/-- **An execution with its processes is an execution of the task**, for which a tree is a worker
and a group. -/
theorem unix_refines {args : List String} (hw : Fresh w) {c : Task Unit × UnixWorld}
    (hr : (unixMachine line route.outputMode.streams C).Run
      (startTask .unix route args, (w, .new)) c) :
    (taskMachine .unix line).Run (startTask .unix route args, w) (c.1, c.2.1) := by
  induction hr with
  | refl => exact .refl
  | tail hr hs ih =>
    obtain ⟨φ, -, hu, -⟩ := grown_invariant.run
      ⟨.starting, startTask_follows .unix route args, hw.grown, hw.worker, rfl⟩ hr
    cases hs with
    | act ha => exact ih.tail (.act ha.1)
    | env he =>
      obtain ⟨e, -, hs⟩ := he
      rcases hs.surroundings hu with hsame | hsurr
      · rw [show _ = _ from hsame]
        exact ih
      · exact ih.tail (.env hsurr)

end

/-- **A finished task leaves no process behind**, in the executions in which whatever outlives a
kill of the group still has the output open: when the last transition of `run_task` is about to
be made, the worker is not alive, and neither is any of its descendants. -/
theorem no_process_left (line : TaskSnapshot → List UInt8) (route : ResolvedRoute)
    (args : List String) (w : World) (hw : Fresh w) (f : String → TaskSnapshot → TaskSnapshot)
    (k : Unit → Task Unit) (u : UnixWorld)
    (hr : (reachingMachine line route.outputMode.streams
        (HasOutput route.outputMode.streams)).Run
      (startTask .unix route args, (w, .new)) (.call (.update .final f) k, u)) :
    u.1.worker ≠ .alive ∧ ∀ pid, u.2.forest.procs pid = none := by
  have hstart : WaitedFor route.outputMode.streams (w, .new) := by
    rintro ⟨status, hg⟩
    cases hw.worker.symm.trans hg
  obtain ⟨φ, hf, ⟨hu, hφ⟩, hwait⟩ := waitedFor_invariant.run
    ⟨.starting, startTask_follows .unix route args, ⟨hw.grown, hw.worker, rfl⟩, hstart⟩ hr
  obtain ⟨ψ, hm, -⟩ := hf ()
  cases hm with
  | toFinal reason status =>
    obtain ⟨⟨st, hg⟩, hended⟩ := hφ
    refine ⟨by rw [hg]; exact nofun, fun pid ↦ ?_⟩
    -- a survivor would have the output open, and then a reader would not have ended
    cases hp : u.2.forest.procs pid with
    | none => rfl
    | some p =>
      obtain ⟨s, hs, hd⟩ := hwait ⟨st, hg⟩ pid p hp
      cases hd.symm.trans ((hu.ended s (hended s hs)).2.2 pid p hp)

/-! ## Two executions

The script starts a process that leaves the group, and then the task is killed. -/

section

variable {route : ResolvedRoute} {line : TaskSnapshot → List UInt8} {streams : List OutputStream}
  {H : Proc OutputStream → Prop}

/-- A task that goes well up to its main loop, before the worker has started the script. -/
theorem run_unix_mainLoop (args : List String) (now : String) (w : World)
    (hw : w.worker = .absent) :
    (reachingMachine line streams H).Run (startTask .unix route args, (w, .new))
      (atMainLoop .unix route, (w.looping line route now, ⟨.empty, false⟩)) := by
  let M : Machine runner World := (taskMachine .unix line).restrict (fun _ _ _ ↦ True)
    fun _ _ ↦ False
  let R (w : World) (u : UnixWorld) : Prop :=
    u.1 = w ∧ u.2.forest = .empty ∧ (w.worker = .absent ∨ u.2.server = false)
  have hact : ∀ o w r w' u, R w u → M.act o w r w' →
      ∃ u', (reachingMachine line streams H).act o u r u' ∧ R w' u' := by
    rintro o w r w' ⟨w, d⟩ ⟨rfl, hempty, hserver⟩ ⟨ha, -⟩
    have hu : (unixMachine line streams (Reaches H)).act o (w, d) r
        (w', descendantsAfter o r d) := ⟨ha, rfl⟩
    refine ⟨_, ⟨hu, fun _ pid p hp ↦ ?_⟩, rfl, ?_⟩
    · rw [hempty] at hp
      cases hp
    · obtain ⟨-, heq⟩ | ⟨-, heq⟩ | ⟨hworker, -, hforest, hs⟩ := unix_act_cases hu
      · rw [Prod.mk.injEq] at heq
        rw [heq.2]
        exact ⟨hempty, .inr rfl⟩
      · rw [Prod.mk.injEq] at heq
        rw [heq.1, heq.2, hempty]
        refine ⟨rfl, hserver.imp (fun h ↦ ?_) id⟩
        have hne : w.worker ≠ .alive := by
          rw [show w.worker = .absent from h]
          exact nofun
        exact (w.killTree_worker_of_ne _ hne).trans h
      · exact ⟨hforest.trans hempty, hserver.imp hworker.trans hs⟩
  have hM : Allows .unix line M := fun _ _ _ _ h _ _ ↦ ⟨h, trivial⟩
  obtain ⟨⟨w', ⟨forest, server⟩⟩, hrun', rfl, hempty, hserver⟩ :=
    Machine.Run.simulate (N := reachingMachine line streams H) hact
      (fun _ _ _ _ h ↦ h.2.elim) (run_mainLoop hM now w) (v := (w, .new)) ⟨rfl, rfl, .inl hw⟩
  obtain rfl : forest = .empty := hempty
  obtain rfl : server = false := hserver.resolve_left nofun
  exact hrun'

/-- The task has been killed on request, and the runner has killed the group. -/
def World.groupKilled (line : TaskSnapshot → List UInt8) (w : World) : World :=
  ((({ w.requestStop .forceKilled with stopChanged := false } : World).update
    (toForced .unix .forceKilled false "")).persisted line).killTree Platform.unix.killStatus

/-- What the runner of a killed task does in the end. -/
def publish : Task Unit := transition .final (toFinal (some .forceKilled) Platform.unix.killStatus)

/-- The runner of a killed task in front of its readers. -/
def joining (streams : List OutputStream) : Task Unit :=
  (joinReaders streams >>= fun _ ↦ do
    perform .dropPermits
    publish).attempt >>= handleResult

/-- The runner of a killed task in front of its last transition. -/
def publishing : Task Unit := publish.attempt >>= handleResult

theorem run_event {u u' : UnixWorld} {e : UnixEvent} (p : Task Unit)
    (hs : UnixStep streams e u u') (hc : Reaches H e u) :
    (reachingMachine line streams H).Run (p, u) (p, u') :=
  .single (.env ⟨⟨e, hc, hs⟩, trivial⟩)

/-- The conditions only forbid executions. -/
theorem run_of_reaching {c c' : Task Unit × UnixWorld}
    (h : (reachingMachine line streams H).Run c c') :
    (unixMachine line streams fun _ _ ↦ True).Run c c' := by
  refine Relation.ReflTransGen.mono (fun c c' hs ↦ ?_) _ _ h
  cases hs with
  | act h => exact .act h.1
  | env h =>
    obtain ⟨⟨e, -, hs⟩, -⟩ := h
    exact .env ⟨e, trivial, hs⟩

theorem run_groupKilled {w : World} {d : Descendants} (hw : w.worker = .alive)
    (hH : Outside H d.forest) :
    (reachingMachine line streams H).Run (atMainLoop .unix route, (w, d))
      (joining route.outputMode.streams,
        (w.groupKilled line, { d with forest := d.forest.killGroup })) := by
  have hkill : UnixStep streams .base (w, d) (w.requestStop .forceKilled, d) :=
    .base (.requestStop _) rfl rfl fun _ ↦ id
  refine (run_event _ hkill trivial).trans ?_
  refine .head (.act (S := runner) (o := .selectMain) (r := .stop .forceKilled) (v := (_, _))
    ⟨⟨⟨rfl, rfl, rfl⟩, rfl⟩, nofun⟩) ?_
  refine .head (.act (S := runner) (o := .update .forced _) (r := ()) (v := (_, _))
    ⟨⟨⟨"", rfl⟩, rfl⟩, nofun⟩) ?_
  refine .head (.act (S := runner) (o := .fallible .persist) (r := .ok ()) (v := (_, _))
    ⟨⟨rfl, rfl⟩, nofun⟩) ?_
  refine .head (.act (S := runner) (o := .fallible .force) (r := .ok ()) (v := (_, _))
    ⟨⟨rfl, rfl⟩, fun _ ↦ hH⟩) ?_
  refine .head (.act (S := runner) (o := .childWait) (r := .ok (.signaled 9)) (v := (_, _))
    ⟨⟨⟨if_pos hw, rfl⟩, rfl⟩, nofun⟩) ?_
  refine .head (.act (S := runner) (o := .waitEmpty) (r := .ok ()) (v := (_, _))
    ⟨⟨⟨.inl rfl, rfl⟩, rfl⟩, nofun⟩) ?_
  refine .head (.act (S := runner) (o := .waitEmpty) (r := .ok ()) (v := (_, _))
    ⟨⟨⟨.inl rfl, rfl⟩, rfl⟩, nofun⟩) ?_
  exact .single (.act (S := runner) (o := .dropControl) (r := ()) (v := (_, _))
    ⟨⟨rfl, rfl⟩, nofun⟩)

/-- The readers see the end of the output, and the runner joins them. -/
theorem run_joining {w : World} {d : Descendants} (hw : w.worker ≠ .alive)
    (hs : d.server = false) (hout : w.readers .stdout = .running)
    (herr : w.readers .stderr = .running) (hclosed : ∀ s, Closed d.forest s) :
    ∃ w', (reachingMachine line streams H).Run (joining [.stdout, .stderr], (w, d))
      (publishing, (w', d)) := by
  let w' : World := (w.setReader .stdout (.ended (.ok ()))).setReader .stderr (.ended (.ok ()))
  have heof : UnixStep streams (.eof .stdout) (w, d)
      (w.setReader .stdout (.ended (.ok ())), d) := .eof hout hs hw (hclosed _)
  have heof' : UnixStep streams (.eof .stderr) (w.setReader .stdout (.ended (.ok ())), d)
      (w', d) := .eof herr hs hw (hclosed _)
  refine ⟨{ w' with permits := false },
    (run_event _ heof trivial).trans ((run_event _ heof' trivial).trans ?_)⟩
  refine .head (.act (S := runner) (o := .joinReader .stdout) (r := .ended (.ok ())) (v := (_, _))
    ⟨⟨⟨rfl, rfl⟩, rfl⟩, nofun⟩) ?_
  refine .head (.act (S := runner) (o := .joinReader .stderr) (r := .ended (.ok ())) (v := (_, _))
    ⟨⟨⟨rfl, rfl⟩, rfl⟩, nofun⟩) ?_
  exact .single (.act (S := runner) (o := .dropPermits) (r := ()) (v := (_, _))
    ⟨⟨rfl, rfl⟩, nofun⟩)

end

/-- The script of `exampleRoute`. -/
def exampleScript : Proc OutputStream :=
  ⟨0, true, fun s ↦ decide (s ∈ exampleRoute.outputMode.streams)⟩

/-- A child of the script that has left the group, and has kept or closed the output. -/
def exampleDaemon (output : Bool) : Proc OutputStream :=
  ⟨1, false, fun s ↦ output && exampleScript.descriptors s⟩

def exampleForest (output : Bool) : Forest OutputStream :=
  ((Forest.empty.add exampleScript).add { exampleScript with parent := 1 }).set 2
    (exampleDaemon output)

/-- The world in which the script and its child are running. -/
def exampleBusy : World :=
  { exampleWorld.looping snapshotCodec.line exampleRoute "2026-01-01T00:00:01Z" with
    others := true }

/-- The machine of the executions below. -/
abbrev exampleMachine (H : Proc OutputStream → Prop) : Machine runner UnixWorld :=
  reachingMachine snapshotCodec.line exampleRoute.outputMode.streams H

theorem run_exampleBusy (H : Proc OutputStream → Prop) (output : Bool) :
    (exampleMachine H).Run (startTask .unix exampleRoute [], (exampleWorld, .new))
      (atMainLoop .unix exampleRoute, (exampleBusy, ⟨exampleForest output, false⟩)) := by
  have hscript : UnixStep exampleRoute.outputMode.streams .script
      (exampleWorld.looping snapshotCodec.line exampleRoute "2026-01-01T00:00:01Z",
        ⟨.empty, false⟩)
      (exampleBusy, ⟨Forest.empty.add exampleScript, false⟩) := .script rfl
  have hfork : UnixStep exampleRoute.outputMode.streams (.fork 1)
      (exampleBusy, ⟨Forest.empty.add exampleScript, false⟩)
      (exampleBusy,
        ⟨(Forest.empty.add exampleScript).add { exampleScript with parent := 1 }, false⟩) :=
    .fork rfl
  have hleave : UnixStep exampleRoute.outputMode.streams (.change 2 (exampleDaemon output))
      (exampleBusy,
        ⟨(Forest.empty.add exampleScript).add { exampleScript with parent := 1 }, false⟩)
      (exampleBusy, ⟨exampleForest output, false⟩) := by
    refine .change true rfl rfl (fun s hs ↦ ?_) nofun ?_
    · exact ⟨1, exampleScript, rfl, (Bool.and_eq_true _ _ ▸ hs).2⟩
    · exact ⟨fun _ ↦ ⟨1, exampleScript, rfl, rfl⟩, fun _ ↦ rfl⟩
  have hstart : (exampleMachine H).Run _ (atMainLoop .unix exampleRoute, _) :=
    run_unix_mainLoop [] "2026-01-01T00:00:01Z" exampleWorld rfl
  exact ((hstart.trans (run_event _ hscript trivial)).trans (run_event _ hfork trivial)).trans
    (run_event _ hleave fun h ↦ absurd rfl h)

theorem exampleForest_killed {output : Bool} {pid : ℕ} {p : Proc OutputStream}
    (h : (exampleForest output).killGroup.procs pid = some p) :
    pid = 2 ∧ p = exampleDaemon output := by
  obtain ⟨hp, hgroup⟩ := Forest.procs_killGroup h
  rcases Forest.procs_set hp with hdaemon | ⟨-, hp⟩
  · exact hdaemon
  · rcases Forest.procs_add hp with ⟨-, rfl⟩ | hp
    · cases hgroup
    · rcases Forest.procs_add hp with ⟨-, rfl⟩ | hp
      · cases hgroup
      · cases hp

/-- The task is killed next to a process that has left the group. -/
theorem run_exampleKilled (H : Proc OutputStream → Prop) (output : Bool)
    (hH : H (exampleDaemon output)) :
    (exampleMachine H).Run (startTask .unix exampleRoute [], (exampleWorld, .new))
      (joining [.stdout, .stderr], (exampleBusy.groupKilled snapshotCodec.line,
        ⟨(exampleForest output).killGroup, false⟩)) := by
  refine (run_exampleBusy H output).trans (run_groupKilled rfl fun pid p hp hgroup ↦ ?_)
  have hkilled : (exampleForest output).killGroup.procs pid = some p :=
    Option.filter_eq_some_iff.mpr ⟨hp, by rw [hgroup]; rfl⟩
  rw [(exampleForest_killed hkilled).2]
  exact hH

/-- The process has kept the output.  It is waited for, and nothing is left in the end. -/
theorem no_process_left_output :
    ∃ f k u, (exampleMachine (HasOutput exampleRoute.outputMode.streams)).Run
        (startTask .unix exampleRoute [], (exampleWorld, .new)) (.call (.update .final f) k, u) ∧
      u.1.worker ≠ .alive ∧ ∀ pid, u.2.forest.procs pid = none := by
  let f : Forest OutputStream := (exampleForest true).killGroup.orphan 2 0
  have hnone : ∀ pid p, f.procs pid ≠ some p := by
    intro pid p hp
    obtain ⟨hne, p', hp', -⟩ := Forest.procs_orphan hp
    exact hne (exampleForest_killed hp').1
  have hkill := run_exampleKilled (HasOutput exampleRoute.outputMode.streams) true
    ⟨.stdout, List.mem_cons_self, rfl⟩
  have hexit : UnixStep exampleRoute.outputMode.streams (.exit 2 0)
      (exampleBusy.groupKilled snapshotCodec.line, ⟨(exampleForest true).killGroup, false⟩)
      (exampleBusy.groupKilled snapshotCodec.line, ⟨f, false⟩) := by
    refine .exit false (p := exampleDaemon true) rfl ⟨Nat.two_pos, .inl rfl⟩
      ⟨nofun, ?_⟩
    rintro ⟨pid, p, hp, -⟩
    exact absurd hp (hnone pid p)
  have hclosed : ∀ s, Closed f s := fun s pid p hp ↦ absurd hp (hnone pid p)
  obtain ⟨w, hend⟩ : ∃ w, (exampleMachine _).Run
      (_, (exampleBusy.groupKilled snapshotCodec.line, ⟨f, false⟩)) (publishing, (w, _)) :=
    run_joining (World.killTree_worker _ _) rfl rfl rfl hclosed
  have hrun := (hkill.trans (run_event _ hexit trivial)).trans hend
  exact ⟨_, _, _, hrun,
    no_process_left _ exampleRoute [] exampleWorld exampleWorld_fresh _ _ _ hrun⟩

/-- The process has closed the output.  The group is killed, the readers see the end of the output,
and the terminal status is about to be published while the process is alive. -/
theorem process_left_behind :
    ∃ f k u, (unixMachine snapshotCodec.line exampleRoute.outputMode.streams fun _ _ ↦ True).Run
        (startTask .unix exampleRoute [], (exampleWorld, .new)) (.call (.update .final f) k, u) ∧
      ∃ pid p, u.2.forest.procs pid = some p := by
  have hkill := run_exampleKilled (fun _ ↦ True) false trivial
  let f : Forest OutputStream := (exampleForest false).killGroup
  have hclosed : ∀ s, Closed f s := by
    intro s pid p hp
    rw [(exampleForest_killed hp).2]
    rfl
  obtain ⟨w, hend⟩ : ∃ w, (exampleMachine fun _ ↦ True).Run
      (_, (exampleBusy.groupKilled snapshotCodec.line, ⟨f, false⟩)) (publishing, (w, _)) :=
    run_joining (World.killTree_worker _ _) rfl rfl rfl hclosed
  exact ⟨_, _, _, run_of_reaching (hkill.trans hend), 2, exampleDaemon false, rfl⟩

end CommandApi
