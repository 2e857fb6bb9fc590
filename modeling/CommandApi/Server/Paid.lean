import CommandApi.Process.Clocked
import CommandApi.Server.Execute

/-!
# Every live process tree is paid for

`live_trees_paid`: on Unix, as long as `run_task` neither returns an error nor panics while its tree
is alive and no worker dies before its children, a task whose tree is alive holds its two permits,
so that there are never more live trees than the configuration allows, in total and on each route.

Without the first condition this fails: `live_trees_exceed_limit` has two live trees under a limit
of one, because the event of the first task could not be written.
-/

set_option autoImplicit false

namespace CommandApi

open Async Relation

/-! ## Runners that panic -/

/-- The next operation of the runner may panic, for some reading of the clock. -/
def Job.MayPanic (j : Job) : Prop :=
  ∃ o k t, j.program = .call o k ∧ Clock.Armed j.route t ∧ o.Panics j.route j.world t

/-- A runner that has panicked. -/
def Job.unwound (j : Job) : Job :=
  ⟨j.route, .fail "overflow when adding duration to instant", j.world.unwound⟩

/-- A step of the server, in which a runner may also panic: the permits it owned are free then.
`A` says in which worlds it may. -/
inductive PanickingStep (line : TaskSnapshot → List UInt8) (M : Machine runner World)
    (routes : List ResolvedRoute) (A : World → Prop) : Server → Server → Prop
  | step {s s' : Server} (h : ServerStep .unix line M routes s s') :
      PanickingStep line M routes A s s'
  | panics {free : Sem → ℕ} {pre post : List Owner} {j : Job} (h : j.MayPanic) (hA : A j.world) :
      PanickingStep line M routes A ⟨free, pre ++ .job j :: post⟩
        ⟨fun k ↦ free k + (Owner.holds (.job j) k - Owner.holds (.job j.unwound) k),
          pre ++ .job j.unwound :: post⟩

section

variable {line : TaskSnapshot → List UInt8} {M : Machine runner World} {max : ℕ}
  {routes : List ResolvedRoute} {A : World → Prop} {s : Server}

/-- No permit is lost by a panic. -/
theorem conserved_panicking (hM : GivesBack M)
    (hr : ReflTransGen (PanickingStep line M routes A) (.built max routes) s) :
    Conserved max routes s := by
  induction hr with
  | refl => exact fun k ↦ rfl
  | tail _ hs ih =>
    cases hs with
    | step hs => exact ih.step hM hs
    | panics _ _ => exact ih.replace nofun

/-- A run in which no runner panics. -/
theorem panicking_run {s' : Server} (h : ReflTransGen (ServerStep .unix line M routes) s s') :
    ReflTransGen (PanickingStep line M routes A) s s' :=
  ReflTransGen.mono (fun _ _ hs ↦ .step hs) _ _ h

/-- What is known of a runner: the tree is paid for, or the runner has panicked and there is no
tree. -/
def Job.IsPaid (j : Job) : Prop :=
  Tracked (Moves .unix j.route) (fun φ w ↦ w.Led ∧ Paid φ w) (fun _ φ ↦ φ = .done)
      (j.program, j.world) ∨
    ¬ j.world.TreeLive ∧ ∃ e, j.program = .fail e

theorem startTask_isPaid (line : TaskSnapshot → List UInt8) (route : ResolvedRoute)
    (args : List String) (id : Uuid) (now : String) :
    Job.IsPaid ⟨route, startTask .unix route args, route.world line id now⟩ := by
  have hlive : ¬ (route.world line id now).TreeLive := by
    rintro (h | h)
    · cases h
    · cases h
  have hpaid : Paid .starting (route.world line id now) := ⟨hlive, rfl⟩
  exact .inl ⟨.starting, startTask_follows .unix route args, nofun, hpaid⟩

/-- A step of a runner keeps that. -/
theorem Job.IsPaid.run {route : ResolvedRoute} {p q : Task Unit} {w v : World}
    (h : Job.IsPaid ⟨route, p, w⟩) (hs : (carefulMachine line).Step (p, w) (q, v)) :
    Job.IsPaid ⟨route, q, v⟩ := by
  rcases h with htracked | ⟨hlive, e, rfl⟩
  · exact .inl (paid_invariant.step htracked hs)
  · cases hs with
    | env henv => exact .inr ⟨henv.1.not_live hlive, e, rfl⟩

theorem jobs_isPaid (hr : ReflTransGen
      (PanickingStep line (carefulMachine line) routes fun w ↦ ¬ w.TreeLive)
      (.built max routes) s) : ∀ j, .job j ∈ s.owners → j.IsPaid := by
  induction hr with
  | refl => exact fun j hj ↦ absurd hj List.not_mem_nil
  | tail _ hs ih =>
    cases hs with
    | step hs => exact jobs_step (startTask_isPaid line) (fun _ _ _ _ _ h hs ↦ h.run hs) hs ih
    | panics _ hdead => exact jobs_replace ih (.inr ⟨hdead, _, rfl⟩)

/-- A runner with a live tree holds both its permits. -/
theorem Job.IsPaid.permits {j : Job} (h : j.IsPaid) (hlive : j.world.TreeLive) :
    j.world.permits = true := by
  rcases h with ⟨φ, -, -, hpaid⟩ | ⟨hdead, -⟩
  · exact hpaid.permits hlive
  · exact absurd hlive hdead

end

/-- **Every live process tree is paid for.** -/
theorem live_trees_paid (line : TaskSnapshot → List UInt8) (max : ℕ) (routes : List ResolvedRoute)
    (s : Server) (hr : ReflTransGen
      (PanickingStep line (carefulMachine line) routes fun w ↦ ¬ w.TreeLive)
      (.built max routes) s) :
    (∀ j, .job j ∈ s.owners → j.world.TreeLive →
      Owner.holds (.job j) .global = 1 ∧ Owner.holds (.job j) (.route j.route.path) = 1) ∧
    s.owners.countP Owner.live ≤ max ∧
    ∀ path, s.owners.countP (Owner.liveOn path) ≤ (Sem.route path).size max routes := by
  have hcons := conserved_panicking taskMachine_givesBack.restrict hr
  have hpaid : ∀ j, .job j ∈ s.owners → j.world.TreeLive →
      Owner.holds (.job j) .global = 1 ∧ Owner.holds (.job j) (.route j.route.path) = 1 := by
    intro j hj hlive
    simp [Owner.holds, Owner.both, (jobs_isPaid hr j hj).permits hlive]
  refine ⟨hpaid, hcons.countP_le (k := .global) fun o ho hlive ↦ ?_,
    fun path ↦ hcons.countP_le fun o ho hlive ↦ ?_⟩
  · cases o with
    | job j => exact (hpaid j ho (of_decide_eq_true hlive)).1.ge
    | _ => cases hlive
  · cases o with
    | job j =>
      obtain ⟨hlive, hpath⟩ : j.world.TreeLive ∧ j.route.path = path := by
        simpa [Owner.liveOn] using hlive
      rw [← hpath]
      exact (hpaid j ho hlive).2.ge
    | _ => cases hlive

/-! ## Two executions

One route, with a limit of one on the route and in total. -/

theorem carefulMachine_allows {line : TaskSnapshot → List UInt8} :
    Allows .unix line (carefulMachine line) :=
  fun _ _ _ _ h hok _ ↦ ⟨h, fun hfails ↦ absurd hfails hok⟩

theorem routeRuntime_example : routeRuntime [exampleRoute] exampleRoute.path = some exampleRoute :=
  rfl

/-- A runner that has just made its task visible as running. -/
def exampleJob (id : Uuid) : Job where
  route := exampleRoute
  program := atRunning .unix exampleRoute
  world := (exampleRoute.world snapshotCodec.line id "2026-01-01T00:00:00Z").begun exampleRoute
    "2026-01-01T00:00:01Z"

theorem exampleJob_live (id : Uuid) : Owner.live (.job (exampleJob id)) = true := rfl

/-- A request that finds free permits gets as far as a running task. -/
theorem exists_exampleJob {M : Machine runner World} (hM : Allows .unix snapshotCodec.line M)
    {s : Server} (hg : 0 < s.free .global) (hr : 0 < s.free (.route exampleRoute.path))
    (id : Uuid) :
    ∃ s', ReflTransGen (ServerStep .unix snapshotCodec.line M [exampleRoute]) s s' ∧
      s'.owners = .job (exampleJob id) :: s.owners := by
  obtain ⟨s₁, h₁, ho₁⟩ := exists_execute routeRuntime_example hg hr [] id "2026-01-01T00:00:00Z"
  have hrun : M.Run (startTask .unix exampleRoute [],
      exampleRoute.world snapshotCodec.line id "2026-01-01T00:00:00Z")
      ((exampleJob id).program, (exampleJob id).world) := run_toRunning hM _ _
  obtain ⟨s₂, h₂, ho₂⟩ := exists_run_job hrun
    (show s₁.owners = [] ++ .job ⟨exampleRoute, _, _⟩ :: s.owners from ho₁)
  exact ⟨s₂, h₁.trans h₂, ho₂⟩

/-- One task, running. -/
theorem live_trees_paid_one :
    ∃ s, ReflTransGen (PanickingStep snapshotCodec.line (carefulMachine snapshotCodec.line)
        [exampleRoute] fun w ↦ ¬ w.TreeLive) (.built 1 [exampleRoute]) s ∧
      s.owners.countP Owner.live = 1 ∧ s.owners.countP Owner.live ≤ 1 := by
  obtain ⟨s, hr, ho⟩ := exists_exampleJob (s := .built 1 [exampleRoute]) carefulMachine_allows
    (by decide) (by decide) 1
  refine ⟨s, panicking_run hr, ?_, (live_trees_paid _ 1 [exampleRoute] s (panicking_run hr)).2.1⟩
  rw [ho, List.countP_cons, exampleJob_live]
  rfl

/-- The same runner, when the event of the running task could not be written and `run_task` has
returned. -/
def exampleDropped (id : Uuid) : Job where
  route := exampleRoute
  program := afterLeave (.error "No space left on device (os error 28)")
  world := ((exampleJob id).world.torn snapshotCodec.line 0).left .unix

theorem run_exampleDropped (id : Uuid) : (taskMachine .unix snapshotCodec.line).Run
    ((exampleJob id).program, (exampleJob id).world)
    ((exampleDropped id).program, (exampleDropped id).world) := by
  have hfail : (taskMachine .unix snapshotCodec.line).Step
      ((exampleJob id).program, (exampleJob id).world)
      (handleResult (.error "No space left on device (os error 28)"),
        (exampleJob id).world.torn snapshotCodec.line 0) :=
    .act (S := runner) (o := .fallible .persist) (r := .error _) ⟨0, rfl⟩
  exact (ReflTransGen.single hfail).tail (.act (S := runner) (o := .leaveRunTask) (r := ()) rfl)

/-- The event of a running task cannot be written: `run_task` returns with the worker alive, and its
permits go to the next request. -/
theorem live_trees_exceed_limit :
    ∃ s j, ReflTransGen (PanickingStep snapshotCodec.line (taskMachine .unix snapshotCodec.line)
        [exampleRoute] fun _ ↦ True) (.built 1 [exampleRoute]) s ∧
      .job j ∈ s.owners ∧ j.world.TreeLive ∧ Owner.holds (.job j) .global = 0 ∧
      s.owners.countP Owner.live = 2 := by
  obtain ⟨s₁, h₁, ho₁⟩ := exists_exampleJob (s := .built 1 [exampleRoute])
    (taskMachine_allows (P := .unix)) (by decide) (by decide) 1
  obtain ⟨s₂, h₂, ho₂⟩ := exists_run_job (run_exampleDropped 1)
    (show s₁.owners = [] ++ .job ⟨exampleRoute, _, _⟩ :: [] from ho₁)
  -- nobody owns a permit now
  have hfree : ∀ k, s₂.free k = k.size 1 [exampleRoute] := by
    intro k
    have hk := conserved_run taskMachine_givesBack (h₁.trans h₂) k
    rw [ho₂] at hk
    exact hk
  obtain ⟨s₃, h₃, ho₃⟩ := exists_exampleJob (s := s₂) (taskMachine_allows (P := .unix))
    (by rw [hfree]; decide) (by rw [hfree]; decide) 2
  rw [ho₂] at ho₃
  refine ⟨s₃, exampleDropped 1, panicking_run ((h₁.trans h₂).trans h₃), ?_, .inl rfl, rfl, ?_⟩
  · rw [ho₃]
    exact List.mem_cons_of_mem _ List.mem_cons_self
  · rw [ho₃]
    rfl

end CommandApi
