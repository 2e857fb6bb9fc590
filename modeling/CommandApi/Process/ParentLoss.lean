import CommandApi.Async.Clock
import CommandApi.Process.Outcome
import CommandApi.Process.Unix
import CommandApi.Process.Worker

/-!
# A worker that has lost its parent

The two waiting loops of `run_worker` on Unix, in `src/process/mod.rs` and
`src/process/platform.rs`.  The first polls the script and, once the control pipe has ended or said
`terminate`, sends `SIGTERM` to the process group and after the grace period `SIGKILL`; the second
is `worker_wait_for_descendants`, which waits until the worker has no children.

What goes on around the worker (`WorkerEvent`) happens between any two things it looks at, so an
iteration is a function of what it has seen (`pollScript`, `waitForDescendants`) and `Iterates` says
what it can see.

The second loop looks neither at `stop_requested` nor at the clock, and the first leaves for it
before it looks at the clock.  `forceKills_iff` says of every iteration of every run that this is
the only way in which the group of a lost worker is not killed; `group_left_alive` is a daemon for
which both loops wait for ever.
-/

set_option autoImplicit false

namespace CommandApi

open Async Unix Relation

/-! ## Around the worker -/

structure WorkerWorld where
  /-- What has arrived on the control pipe. -/
  control : List UInt8
  /-- The pipe has ended, or cannot be read. -/
  ended : Bool
  stopRequested : Bool
  forest : Forest OutputStream
  now : Instant

inductive WorkerEvent : WorkerWorld → WorkerWorld → Prop
  | write {s : WorkerWorld} (bytes : List UInt8) (h : s.ended = false) :
      WorkerEvent s { s with control := s.control ++ bytes }
  | close {s : WorkerWorld} : WorkerEvent s { s with ended := true }
  /-- The control thread has come to `terminate` or to the end. -/
  | report {s : WorkerWorld} (h : stopRequested s.ended s.control = true) :
      WorkerEvent s { s with stopRequested := true }
  | fork {s : WorkerWorld} {pid : ℕ} {p : Proc OutputStream} (hp : s.forest.procs pid = some p) :
      WorkerEvent s { s with forest := s.forest.add { p with parent := pid } }
  /-- `setsid`, `setpgid`, and closing, duplicating or handing over a descriptor. -/
  | change {s : WorkerWorld} {pid : ℕ} {p p' : Proc OutputStream}
      (hp : s.forest.procs pid = some p) (hparent : p'.parent = p.parent)
      (hd : ∀ o, p'.descriptors o = true →
        ∃ q r, s.forest.procs q = some r ∧ r.descriptors o = true) :
      WorkerEvent s { s with forest := s.forest.set pid p' }
  | exit {s : WorkerWorld} {pid reaper : ℕ} {p : Proc OutputStream}
      (hp : s.forest.procs pid = some p) (hr : s.forest.Elder reaper pid) :
      WorkerEvent s { s with forest := s.forest.orphan pid reaper }
  | clock {s : WorkerWorld} {now : Instant} (h : s.now ≤ now) : WorkerEvent s { s with now }

abbrev WorkerEvents : WorkerWorld → WorkerWorld → Prop := ReflTransGen WorkerEvent

/-- The script is the first child of the worker: the runs begin when it has been spawned. -/
def scriptPid : ℕ := 1

/-! ## The loops -/

inductive Signal
  | term
  | kill
  deriving DecidableEq, Repr

inductive WorkerPhase
  /-- The loop of `run_worker`. -/
  | script
  /-- `worker_wait_for_descendants`. -/
  | descendants (exitStatus : ExitStatus)
  | returned (code : Int32)
  | aborted
  deriving DecidableEq, Repr

structure WorkerLoop where
  phase : WorkerPhase
  gracefulSentAt : Option Instant
  /-- What the worker has sent to its process group. -/
  signals : List Signal
  deriving DecidableEq

def WorkerLoop.start : WorkerLoop := ⟨.script, none, []⟩

/-- What an iteration of the first loop sees: `stop_requested`, the clock after `SIGTERM`,
`try_wait`, which does not fail for a child that nobody else waits for, and the clock again. -/
structure ScriptView where
  stopRequested : Bool
  sentAt : Instant
  exitStatus : Option ExitStatus
  checkedAt : Instant

/-- The answers of `waitpid`.  Its other errors are about arguments that are not used here. -/
inductive WaitAnswer
  | stillAlive
  | reaped
  | echild
  | eintr
  deriving DecidableEq, Repr

/-- `started.elapsed() >= Duration::from_secs(spec.graceful_shutdown_seconds)`. -/
def GraceOver (spec : WorkerMessage) (started now : Instant) : Prop :=
  spec.gracefulShutdownSeconds.toNat * nanosPerSecond ≤ now.durationSince started

instance (spec : WorkerMessage) (started now : Instant) : Decidable (GraceOver spec started now) :=
  inferInstanceAs (Decidable (_ ≤ _))

/-- The first statement of the loop. -/
def WorkerLoop.notice (v : ScriptView) (l : WorkerLoop) : WorkerLoop :=
  if v.stopRequested && l.gracefulSentAt.isNone then
    -- `killpg` reaches at least the worker itself, so that `worker_graceful` has no error
    { l with gracefulSentAt := some v.sentAt, signals := l.signals ++ [.term] }
  else l

/-- The rest of the loop. -/
def WorkerLoop.check (spec : WorkerMessage) (v : ScriptView) (l : WorkerLoop) : WorkerLoop :=
  match v.exitStatus with
  | some status => { l with phase := .descendants status }
  | none =>
    if l.gracefulSentAt.any fun started ↦ GraceOver spec started v.checkedAt then
      { l with phase := .aborted, signals := l.signals ++ [.kill] }
    else l

/-- One iteration of the loop of `run_worker`. -/
def pollScript (spec : WorkerMessage) (v : ScriptView) (l : WorkerLoop) : WorkerLoop :=
  (l.notice v).check spec v

/-- One iteration of `worker_wait_for_descendants`. -/
def waitForDescendants (exitStatus : ExitStatus) (answer : WaitAnswer) (l : WorkerLoop) :
    WorkerLoop :=
  match answer with
  | .stillAlive => l
  | .reaped => l
  | .echild => { l with phase := .returned (runWorkerCode exitStatus) }
  | .eintr => l

/-- `ECHILD` means that the worker has no children.  A child that has ended is not in the forest,
and `waitpid` may find one at any time. -/
def WaitAnswer.Possible (f : Forest OutputStream) : WaitAnswer → Prop
  | stillAlive => ∃ pid p, f.procs pid = some p ∧ p.parent = 0
  | echild => ∀ pid p, f.procs pid = some p → p.parent ≠ 0
  | reaped => True
  | eintr => True

inductive View
  | script (v : ScriptView)
  | descendants (answer : WaitAnswer)

/-- `SIGKILL` takes the group with the worker. -/
def WorkerLoop.leaves (l : WorkerLoop) (s : WorkerWorld) : WorkerWorld :=
  if l.phase = .aborted then { s with forest := s.forest.killGroup } else s

/-- One polling iteration, with what it sees.  The world goes on between one look and the next. -/
inductive Iterates (spec : WorkerMessage) :
    WorkerWorld × WorkerLoop → View → WorkerWorld × WorkerLoop → Prop
  | script {s s₁ s₂ s₃ s₄ : WorkerWorld} {l : WorkerLoop} {exitStatus : Option ExitStatus}
      {v : ScriptView} (hphase : l.phase = .script) (h₁ : WorkerEvents s s₁)
      (h₂ : WorkerEvents s₁ s₂) (h₃ : WorkerEvents s₂ s₃) (h₄ : WorkerEvents s₃ s₄)
      (hexit : exitStatus = none ↔ ∃ p, s₃.forest.procs scriptPid = some p)
      (hv : v = ⟨s₁.stopRequested, s₂.now, exitStatus, s₄.now⟩) :
      Iterates spec (s, l) (.script v) ((pollScript spec v l).leaves s₄, pollScript spec v l)
  | descendants {s s₁ : WorkerWorld} {l : WorkerLoop} {exitStatus : ExitStatus}
      {answer : WaitAnswer} (hphase : l.phase = .descendants exitStatus) (h : WorkerEvents s s₁)
      (ha : answer.Possible s₁.forest) :
      Iterates spec (s, l) (.descendants answer) (s₁, waitForDescendants exitStatus answer l)

inductive WorkerStep (spec : WorkerMessage) :
    WorkerWorld × WorkerLoop → WorkerWorld × WorkerLoop → Prop
  | event {s s' : WorkerWorld} {l : WorkerLoop} (h : WorkerEvent s s') :
      WorkerStep spec (s, l) (s', l)
  | iteration {c c' : WorkerWorld × WorkerLoop} {view : View} (h : Iterates spec c view c') :
      WorkerStep spec c c'

abbrev WorkerRun (spec : WorkerMessage) :
    WorkerWorld × WorkerLoop → WorkerWorld × WorkerLoop → Prop := ReflTransGen (WorkerStep spec)

/-! ## What is wanted, and when it is so -/

/-- The grace period is over since the worker has noticed the loss, and some of its group lives. -/
def Overdue (spec : WorkerMessage) (c : WorkerWorld × WorkerLoop) : Prop :=
  (∃ started, c.2.gracefulSentAt = some started ∧ GraceOver spec started c.1.now) ∧
    c.1.forest.GroupLive

/-- The worker has killed its group. -/
structure GroupKilled (c : WorkerWorld × WorkerLoop) : Prop where
  sent : .kill ∈ c.2.signals
  aborted : c.2.phase = .aborted
  group : ¬ c.1.forest.GroupLive

/-- The iteration is one of the first loop, and finds the script running. -/
def View.ScriptRuns : View → Prop
  | script v => v.exitStatus = none
  | descendants _ => False

/-- An iteration that finds the group overdue finds the script running, and the second loop is
entered and waits only as long as there is no stop request that the first has not noticed. -/
structure Attended (spec : WorkerMessage) (c : WorkerWorld × WorkerLoop) (view : View) : Prop where
  force : Overdue spec c → view.ScriptRuns
  term : c.1.stopRequested = true → c.2.phase = .script ∨ c.2.gracefulSentAt.isSome = true

/-! ## One iteration -/

section

variable {spec : WorkerMessage} {s s' : WorkerWorld} {l l' : WorkerLoop} {v : ScriptView}
  {c c' : WorkerWorld × WorkerLoop} {view : View}

theorem WorkerEvents.stopRequested (h : WorkerEvents s s') (hs : s.stopRequested = true) :
    s'.stopRequested = true := by
  induction h with
  | refl => exact hs
  | tail _ he ih =>
    cases he with
    | report => rfl
    | _ => exact ih

theorem WorkerEvents.now_le (h : WorkerEvents s s') : s.now ≤ s'.now := by
  induction h with
  | refl => exact le_rfl
  | tail _ he ih =>
    cases he with
    | clock hnow => exact ih.trans hnow
    | _ => exact ih

theorem GraceOver.mono {started now now' : Instant} (h : GraceOver spec started now)
    (hnow : now ≤ now') : GraceOver spec started now' := by
  refine h.trans ?_
  have hnanos : now.nanos ≤ now'.nanos := hnow
  simp only [Instant.durationSince]
  omega

/-- `graceful_sent_at` is set exactly when `SIGTERM` has been sent. -/
def WorkerLoop.Signalled (l : WorkerLoop) : Prop :=
  .term ∈ l.signals ↔ l.gracefulSentAt.isSome = true

theorem WorkerLoop.signalled_start : start.Signalled := by simp [Signalled, start]

theorem WorkerLoop.Signalled.notice (h : l.Signalled) : (l.notice v).Signalled := by
  unfold WorkerLoop.notice
  split
  · simp [WorkerLoop.Signalled]
  · exact h

theorem WorkerLoop.notice_isSome (hv : v.stopRequested = true) :
    (l.notice v).gracefulSentAt.isSome = true := by
  unfold WorkerLoop.notice
  rw [hv, Bool.true_and]
  split
  · rfl
  · rename_i hsent
    rw [← Option.not_isNone, Bool.not_eq_true']
    exact Bool.eq_false_of_not_eq_true hsent

/-- `SIGTERM` is sent once. -/
theorem WorkerLoop.notice_of_sent {started : Instant} (h : l.gracefulSentAt = some started) :
    l.notice v = l := by
  rw [notice, h, Option.isNone_some, Bool.and_false]
  rfl

theorem WorkerLoop.phase_notice : (l.notice v).phase = l.phase := by
  unfold notice
  split <;> rfl

theorem WorkerLoop.gracefulSentAt_check : (l.check spec v).gracefulSentAt = l.gracefulSentAt := by
  unfold check
  split
  · rfl
  · split <;> rfl

theorem WorkerLoop.term_mem_check : .term ∈ (l.check spec v).signals ↔ .term ∈ l.signals := by
  unfold check
  split
  · rfl
  · split
    · simp
    · rfl

theorem WorkerLoop.Signalled.check (h : l.Signalled) : (l.check spec v).Signalled := by
  rw [WorkerLoop.Signalled, WorkerLoop.term_mem_check, WorkerLoop.gracefulSentAt_check]
  exact h

theorem waitForDescendants_frame (exitStatus : ExitStatus) (answer : WaitAnswer) (l : WorkerLoop) :
    (waitForDescendants exitStatus answer l).gracefulSentAt = l.gracefulSentAt ∧
      (waitForDescendants exitStatus answer l).signals = l.signals := by
  cases answer <;> exact ⟨rfl, rfl⟩

theorem waitForDescendants_phase {exitStatus : ExitStatus} {answer : WaitAnswer}
    (h : l.phase = .descendants exitStatus) :
    (waitForDescendants exitStatus answer l).phase ≠ .aborted := by
  cases answer <;> simp [waitForDescendants, h]

/-- The first loop kills the group when it finds the script running and the grace period over. -/
theorem pollScript_force {started : Instant} (hsent : l.gracefulSentAt = some started)
    (hover : GraceOver spec started v.checkedAt) (hexit : v.exitStatus = none) :
    pollScript spec v l = { l with phase := .aborted, signals := l.signals ++ [.kill] } := by
  have hany : l.gracefulSentAt.any (fun started ↦ GraceOver spec started v.checkedAt) = true := by
    rw [hsent, Option.any_some]
    exact decide_eq_true hover
  rw [pollScript, WorkerLoop.notice_of_sent hsent, WorkerLoop.check, hexit]
  exact if_pos hany

/-- When it finds that the script has ended, it leaves. -/
theorem pollScript_phase {exitStatus : ExitStatus} (h : v.exitStatus = some exitStatus) :
    (pollScript spec v l).phase = .descendants exitStatus := by
  rw [pollScript, WorkerLoop.check, h]

theorem Iterates.signalled (h : Iterates spec c view c') (hc : c.2.Signalled) :
    c'.2.Signalled := by
  cases h with
  | script => exact hc.notice.check
  | @descendants _ _ l exitStatus answer =>
    obtain ⟨hsent, hsignals⟩ := waitForDescendants_frame exitStatus answer l
    rw [WorkerLoop.Signalled, hsent, hsignals]
    exact hc

/-- **When an overdue group is killed.** -/
theorem Iterates.groupKilled_iff (h : Iterates spec c view c') (hc : Overdue spec c) :
    GroupKilled c' ↔ view.ScriptRuns := by
  obtain ⟨⟨started, hsent, hover⟩, -⟩ := hc
  cases h with
  | @script s s₁ s₂ s₃ s₄ l exitStatus v hphase h₁ h₂ h₃ h₄ hexit hv =>
    constructor
    · intro hforced
      by_contra hends
      obtain ⟨status, hstatus⟩ := Option.ne_none_iff_exists'.mp hends
      cases (pollScript_phase hstatus).symm.trans hforced.aborted
    · intro hruns
      have hnow : s.now ≤ s₄.now := WorkerEvents.now_le ((h₁.trans h₂).trans (h₃.trans h₄))
      have hover' : GraceOver spec started v.checkedAt := hover.mono (hv ▸ hnow)
      have hpoll := pollScript_force hsent hover' hruns
      rw [hpoll]
      refine ⟨List.mem_append_right _ (List.mem_singleton_self _), rfl, ?_⟩
      exact s₄.forest.not_groupLive_killGroup
  | descendants hphase =>
    exact ⟨fun hforced ↦ waitForDescendants_phase hphase hforced.aborted, False.elim⟩

/-- **When a stop request is passed on.** -/
theorem Iterates.term_iff (h : Iterates spec c view c') (hc : c.2.Signalled)
    (hstop : c.1.stopRequested = true) :
    .term ∈ c'.2.signals ↔ c.2.phase = .script ∨ c.2.gracefulSentAt.isSome = true := by
  have hc' : .term ∈ c'.2.signals ↔ c'.2.gracefulSentAt.isSome = true := h.signalled hc
  rw [hc']
  cases h with
  | @script s s₁ s₂ s₃ s₄ l exitStatus v hphase h₁ h₂ h₃ h₄ hexit hv =>
    have hnoticed : v.stopRequested = true :=
      hv ▸ WorkerEvents.stopRequested h₁ hstop
    refine ⟨fun _ ↦ .inl hphase, fun _ ↦ ?_⟩
    rw [pollScript, WorkerLoop.gracefulSentAt_check]
    exact WorkerLoop.notice_isSome hnoticed
  | @descendants _ _ l exitStatus answer hphase =>
    rw [(waitForDescendants_frame exitStatus answer l).1]
    exact ⟨.inr, Or.rec (fun hscript ↦ absurd (hphase.symm.trans hscript) nofun) id⟩

/-! ## Runs -/

theorem WorkerEvents.run (h : WorkerEvents s s') : WorkerRun spec (s, l) (s', l) := by
  induction h with
  | refl => exact .refl
  | tail _ he ih => exact ih.tail (.event he)

theorem WorkerStep.signalled (h : WorkerStep spec c c') (hc : c.2.Signalled) : c'.2.Signalled := by
  cases h with
  | event => exact hc
  | iteration hit => exact hit.signalled hc

theorem WorkerRun.signalled (h : WorkerRun spec (s, .start) c) : c.2.Signalled := by
  induction h with
  | refl => exact WorkerLoop.signalled_start
  | tail _ hs ih => exact hs.signalled ih

/-- **The group of a worker that has lost its parent**, in every state that any run reaches and for
every next iteration: an overdue group is killed and a stop request is passed on, exactly when the
iteration is attended. -/
theorem forceKills_iff (hrun : WorkerRun spec (s, .start) c) (hit : Iterates spec c view c') :
    ((Overdue spec c → GroupKilled c') ∧ (c.1.stopRequested = true → .term ∈ c'.2.signals)) ↔
      Attended spec c view := by
  have hsignalled : c.2.Signalled := WorkerRun.signalled hrun
  constructor
  · rintro ⟨hforce, hterm⟩
    refine ⟨fun hover ↦ ?_, fun hstop ↦ ?_⟩
    · exact (hit.groupKilled_iff hover).mp (hforce hover)
    · exact (hit.term_iff hsignalled hstop).mp (hterm hstop)
  · intro hattended
    refine ⟨fun hover ↦ ?_, fun hstop ↦ ?_⟩
    · exact (hit.groupKilled_iff hover).mpr (hattended.force hover)
    · exact (hit.term_iff hsignalled hstop).mpr (hattended.term hstop)

/-! ## The same worker from outside

`UnixStep` of `CommandApi.Process.Unix` lets a worker return when it has no children and kill its
group at any time.  This is where that comes from. -/

/-- What the runner sees of a worker in this phase. -/
def WorkerPhase.worker : WorkerPhase → Worker
  | script => .alive
  | descendants _ => .alive
  | returned code => .exited (workerStatus (.ok code))
  | aborted => .exited Platform.unix.killStatus

/-- The worker and its descendants, as the runner has them. -/
structure Hosts (c : WorkerWorld × WorkerLoop) (u : UnixWorld) : Prop where
  forest : u.2.forest = c.1.forest
  group : GroupAgrees u.1 u.2.forest
  worker : u.1.worker = c.2.phase.worker

abbrev UnixSteps (streams : List OutputStream) : UnixWorld → UnixWorld → Prop :=
  ReflTransGen fun u u' ↦ ∃ e, UnixStep streams e u u'

variable {streams : List OutputStream} {u : UnixWorld}

open Classical in
theorem groupAgrees_decide (w : World) (f : Forest OutputStream) :
    GroupAgrees { w with others := decide f.GroupLive } f := decide_eq_true_iff

theorem WorkerEvent.unix (h : WorkerEvent s s') (hl : l.phase.worker = .alive)
    (hu : Hosts (s, l) u) : ∃ u', UnixSteps streams u u' ∧ Hosts (s', l) u' := by
  classical
  obtain ⟨w, d⟩ := u
  obtain ⟨hforest, hgroup, hworker⟩ := hu
  replace hforest : d.forest = s.forest := hforest
  have hlive : w.TreeLive := .inl (hworker.trans hl)
  cases h with
  | write | close | report | clock => exact ⟨(w, d), .refl, hforest, hgroup, hworker⟩
  | @fork pid p hp =>
    rw [← hforest] at hp
    have hadd : (d.forest.add { p with parent := pid }).GroupLive ↔ d.forest.GroupLive :=
      Forest.groupLive_fork hp rfl
    refine ⟨_, .single ⟨_, .fork hp⟩, congrArg (Forest.add · _) hforest, ?_, hworker⟩
    exact hgroup.trans hadd.symm
  | @change pid p p' hp hparent hd =>
    rw [← hforest] at hp hd
    have hstep : UnixStep streams _ (w, d) _ := .change (decide (d.forest.set pid p').GroupLive) hp
      hparent hd (fun _ ↦ hlive) (groupAgrees_decide w _)
    refine ⟨_, .single ⟨_, hstep⟩, congrArg (Forest.set · pid p') hforest, ?_, hworker⟩
    exact groupAgrees_decide w _
  | @exit pid reaper p hp hr =>
    rw [← hforest] at hp hr
    have hstep : UnixStep streams _ (w, d) _ :=
      .exit (decide (d.forest.orphan pid reaper).GroupLive) hp hr (groupAgrees_decide w _)
    refine ⟨_, .single ⟨_, hstep⟩, congrArg (Forest.orphan · pid reaper) hforest, ?_, hworker⟩
    exact groupAgrees_decide w _

theorem WorkerEvents.unix (h : WorkerEvents s s') (hl : l.phase.worker = .alive)
    (hu : Hosts (s, l) u) : ∃ u', UnixSteps streams u u' ∧ Hosts (s', l) u' := by
  induction h with
  | refl => exact ⟨u, .refl, hu⟩
  | tail _ he ih =>
    obtain ⟨v, hv, hhosts⟩ := ih
    obtain ⟨u', hu', hhosts'⟩ := he.unix hl hhosts
    exact ⟨u', hv.trans hu', hhosts'⟩

theorem worker_pollScript (hl : l.phase.worker = .alive)
    (h : (pollScript spec v l).phase ≠ .aborted) :
    (pollScript spec v l).phase.worker = .alive := by
  cases hexit : v.exitStatus with
  | some exitStatus =>
    rw [pollScript_phase hexit]
    rfl
  | none =>
    rw [pollScript, WorkerLoop.check, hexit] at h ⊢
    dsimp only at h ⊢
    split
    · rename_i hover
      rw [if_pos hover] at h
      exact absurd rfl h
    · rw [WorkerLoop.phase_notice]
      exact hl

/-- What the runner sees changes with an iteration only when the worker ends. -/
theorem Iterates.unix (h : Iterates spec c view c') (hu : Hosts c u) :
    ∃ u', UnixSteps streams u u' ∧ Hosts c' u' := by
  cases h with
  | @script s s₁ s₂ s₃ s₄ l exitStatus v hphase h₁ h₂ h₃ h₄ hexit hv =>
    have hl : l.phase.worker = .alive := by rw [hphase]; rfl
    have hevents : WorkerEvents s s₄ := (h₁.trans h₂).trans (h₃.trans h₄)
    obtain ⟨⟨w, d⟩, hsteps, hforest, hgroup, hworker⟩ := WorkerEvents.unix hevents hl hu
    by_cases haborted : (pollScript spec v l).phase = .aborted
    · have hforce : UnixStep streams .workerForce (w, d) _ := .workerForce (hworker.trans hl)
      refine ⟨_, hsteps.tail ⟨_, hforce⟩, ?_, ?_, ?_⟩
      · rw [WorkerLoop.leaves, if_pos haborted]
        exact congrArg Forest.killGroup hforest
      · exact ⟨nofun, fun hg ↦ absurd hg d.forest.not_groupLive_killGroup⟩
      · rw [haborted]
        exact if_pos (hworker.trans hl)
    · refine ⟨_, hsteps, ?_, hgroup, ?_⟩
      · rw [WorkerLoop.leaves, if_neg haborted]
        exact hforest
      · exact hworker.trans (hl.trans (worker_pollScript hl haborted).symm)
  | @descendants s s₁ l exitStatus answer hphase hevents ha =>
    have hl : l.phase.worker = .alive := by rw [hphase]; rfl
    obtain ⟨⟨w, d⟩, hsteps, hforest, hgroup, hworker⟩ := WorkerEvents.unix hevents hl hu
    cases answer with
    | stillAlive | reaped | eintr => exact ⟨_, hsteps, hforest, hgroup, hworker⟩
    | echild =>
      replace hforest : d.forest = s₁.forest := hforest
      have hexit : UnixStep streams (.workerExit (reportedStatus exitStatus)) (w, d) _ :=
        .workerExit _ (hworker.trans hl) (hforest ▸ ha)
      exact ⟨_, hsteps.tail ⟨_, hexit⟩, hforest, hgroup, rfl⟩

theorem Iterates.worker (h : Iterates spec c view c') : c.2.phase.worker = .alive := by
  cases h with
  | script hphase => rw [hphase]; rfl
  | descendants hphase => rw [hphase]; rfl

/-- **The loops are a worker of `CommandApi.Process.Unix`**: as long as it lives, and in the
iteration that ends it. -/
theorem WorkerRun.unix (hrun : WorkerRun spec (s, .start) c) (hc : c.2.phase.worker = .alive)
    (hu : Hosts (s, .start) u) :
    (∃ u', UnixSteps streams u u' ∧ Hosts c u') ∧
      ∀ c' view, Iterates spec c view c' → ∃ u', UnixSteps streams u u' ∧ Hosts c' u' := by
  have hlive : ∃ u', UnixSteps streams u u' ∧ Hosts c u' := by
    induction hrun with
    | refl => exact ⟨u, .refl, hu⟩
    | tail _ hs ih =>
      cases hs with
      | event he =>
        obtain ⟨v, hv, hhosts⟩ := ih hc
        obtain ⟨u', hu', hhosts'⟩ := he.unix hc hhosts
        exact ⟨u', hv.trans hu', hhosts'⟩
      | iteration hit =>
        obtain ⟨v, hv, hhosts⟩ := ih hit.worker
        obtain ⟨u', hu', hhosts'⟩ := hit.unix hhosts
        exact ⟨u', hv.trans hu', hhosts'⟩
  refine ⟨hlive, fun c' view hit ↦ ?_⟩
  obtain ⟨v, hv, hhosts⟩ := hlive
  obtain ⟨u', hu', hhosts'⟩ := hit.unix hhosts
  exact ⟨u', hv.trans hu', hhosts'⟩

end

/-! ## A script that leaves a daemon behind -/

def daemonSpec : WorkerMessage where
  executor := .sh
  program := "/bin/sh"
  script := "/srv/app/job.sh"
  fixedArgs := []
  requestArgs := []
  workingDirectory := "/srv/app"
  env := ∅
  gracefulShutdownSeconds := 5

def daemonScript : Proc OutputStream := ⟨0, true, fun o ↦ decide (o ∈ [.stdout, .stderr])⟩

def scriptForest : Forest OutputStream := Forest.empty.add daemonScript

/-- The script has forked and is gone; its child, now the worker's, is in the group. -/
def daemonForest : Forest OutputStream :=
  (scriptForest.add { daemonScript with parent := scriptPid }).orphan scriptPid 0

def daemonLate : Instant := ⟨5000000000, by decide, by decide⟩

/-- The control pipe is open and has been silent, or it has ended and that has been reported. -/
def daemonWorld (lost : Bool) (f : Forest OutputStream) (now : Instant) : WorkerWorld :=
  ⟨[], lost, lost, f, now⟩

theorem events_lost (lost : Bool) (f : Forest OutputStream) (now : Instant) :
    WorkerEvents (daemonWorld false f now) (daemonWorld lost f now) := by
  cases lost with
  | false => exact .refl
  | true =>
    have hend : stopRequested true [] = true := by decide
    exact (ReflTransGen.single .close).tail (.report hend)

theorem events_daemon (lost : Bool) (now : Instant) :
    WorkerEvents (daemonWorld lost scriptForest now) (daemonWorld lost daemonForest now) := by
  have hscript : scriptForest.procs scriptPid = some daemonScript := rfl
  have hboth : (scriptForest.add { daemonScript with parent := scriptPid }).procs scriptPid =
      some daemonScript := rfl
  exact (ReflTransGen.single (.fork hscript)).tail (.exit hboth ⟨by decide, .inl rfl⟩)

theorem daemonForest_procs : daemonForest.procs 2 = some { daemonScript with parent := 0 } := rfl

/-- The loop after an iteration that has found the script gone. -/
def daemonLoop (lost : Bool) : WorkerLoop :=
  if lost then ⟨.descendants (.exited 0), some .zero, [.term]⟩
  else ⟨.descendants (.exited 0), none, []⟩

/-- The pipe may end before the only iteration of the first loop. -/
theorem run_daemon (lost : Bool) :
    WorkerRun daemonSpec (daemonWorld false scriptForest .zero, .start)
      (daemonWorld lost daemonForest .zero, daemonLoop lost) := by
  have hexit : some (ExitStatus.exited 0) = none ↔
      ∃ p, (daemonWorld lost daemonForest .zero).forest.procs scriptPid = some p :=
    ⟨nofun, fun ⟨_, hp⟩ ↦ nomatch hp⟩
  have hit : Iterates daemonSpec (daemonWorld false scriptForest .zero, .start) _ _ :=
    .script rfl (events_lost lost scriptForest .zero) .refl (events_daemon lost .zero)
      .refl hexit rfl
  cases lost with
  | false => exact .single (.iteration hit)
  | true => exact .single (.iteration hit)

/-- The first loop, as long as the script runs. -/
theorem iterates_script (now : Instant) {l : WorkerLoop} (hl : l.phase = .script) :
    Iterates daemonSpec (daemonWorld true scriptForest now, l) (.script ⟨true, now, none, now⟩)
      ((pollScript daemonSpec ⟨true, now, none, now⟩ l).leaves (daemonWorld true scriptForest now),
        pollScript daemonSpec ⟨true, now, none, now⟩ l) :=
  .script hl .refl .refl .refl .refl ⟨fun _ ↦ ⟨daemonScript, rfl⟩, fun _ ↦ rfl⟩ rfl

/-- A script that does not end on `SIGTERM` is killed after the grace period. -/
theorem forceKills_iff_overdue :
    Overdue daemonSpec (daemonWorld true scriptForest daemonLate,
        ⟨.script, some .zero, [.term]⟩) ∧
      GroupKilled ((⟨.aborted, some .zero, [.term, .kill]⟩ : WorkerLoop).leaves
        (daemonWorld true scriptForest daemonLate), ⟨.aborted, some .zero, [.term, .kill]⟩) := by
  have hover : Overdue daemonSpec (daemonWorld true scriptForest daemonLate,
      ⟨.script, some .zero, [.term]⟩) :=
    ⟨⟨.zero, rfl, by decide⟩, scriptPid, daemonScript, rfl, rfl⟩
  have hclock : WorkerEvent (daemonWorld true scriptForest .zero)
      (daemonWorld true scriptForest daemonLate) := .clock (by decide)
  have hrun : WorkerRun daemonSpec (daemonWorld true scriptForest .zero, .start)
      (daemonWorld true scriptForest daemonLate, ⟨.script, some .zero, [.term]⟩) :=
    (ReflTransGen.single (.iteration (iterates_script .zero rfl))).tail (.event hclock)
  have hattended := (forceKills_iff hrun (iterates_script daemonLate rfl)).mpr
    ⟨fun _ ↦ rfl, fun _ ↦ .inl rfl⟩
  exact ⟨hover, hattended.1 hover⟩

/-- The second loop waits. -/
theorem iterates_daemon (lost : Bool) (now : Instant) {l : WorkerLoop} {exitStatus : ExitStatus}
    (hl : l.phase = .descendants exitStatus) :
    Iterates daemonSpec (daemonWorld lost daemonForest now, l) (.descendants .stillAlive)
      (daemonWorld lost daemonForest now, l) :=
  .descendants hl .refl ⟨2, _, daemonForest_procs, rfl⟩

/-- **A group that is left alive.**  The pipe ends and `SIGTERM` is sent, the script ends with it
and its child does not, the grace period passes: the worker waits for the child.  The same when the
pipe ends after the script: then not even `SIGTERM` is sent. -/
theorem group_left_alive :
    (∃ c view c', WorkerRun daemonSpec (daemonWorld false scriptForest .zero, .start) c ∧
        Iterates daemonSpec c view c' ∧ Overdue daemonSpec c ∧ ¬ GroupKilled c') ∧
      ∃ c view c', WorkerRun daemonSpec (daemonWorld false scriptForest .zero, .start) c ∧
        Iterates daemonSpec c view c' ∧ c.1.stopRequested = true ∧ .term ∉ c'.2.signals := by
  constructor
  · have hclock : WorkerEvent (daemonWorld true daemonForest .zero)
        (daemonWorld true daemonForest daemonLate) := .clock (by decide)
    refine ⟨_, _, _, (run_daemon true).tail (.event hclock), iterates_daemon true daemonLate rfl,
      ⟨⟨.zero, rfl, by decide⟩, 2, _, daemonForest_procs, rfl⟩, fun h ↦ ?_⟩
    cases h.aborted
  · have hlost : WorkerRun daemonSpec (daemonWorld false daemonForest .zero, daemonLoop false)
        (daemonWorld true daemonForest .zero, daemonLoop false) :=
      WorkerEvents.run (events_lost true daemonForest .zero)
    refine ⟨_, _, _, (run_daemon false).trans hlost, iterates_daemon true .zero rfl, rfl, ?_⟩
    decide

end CommandApi
