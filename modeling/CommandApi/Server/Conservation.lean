import CommandApi.Server.Paid

/-!
# A finished task holds no permit

Every permit is free, or belongs to a handler on its way, or to a task that is not visible as
finished (`permits_conserved`).  `run_task` gives its permits back in two places, with
`drop(permits)` in front of its last transition and by returning; the error handler of `start_task`
runs behind the second.  So no status is published while the permits are held, on any path.

A client remembers which tasks it has seen finish.  What it has seen stays true, because a finished
snapshot is not changed any more and a directory, once made, keeps its identifier: `create` fails if
the directory exists.
-/

set_option autoImplicit false

namespace CommandApi

open Async Relation

/-! ## The permits of one runner -/

/-- Where the permits are known to be given back. -/
def Settled : Phase → World → Prop
  | .released _ _, w | .published, w | .returned, w | .crashed _, w | .reported, w | .marking, w
  | .marked, w | .done, w => w.permits = false
  | .failed _, w => w.snapshot.status.isFinished = true → w.permits = false
  | _, _ => True

section

variable {P : Platform} {route : ResolvedRoute} {line : TaskSnapshot → List UInt8} {w w' : World}
  {φ ψ : Phase} {o : Op} {r : runner.Resp o}

theorem World.left_permits (P : Platform) (w : World) : (w.left P).permits = false := by
  cases P <;> rfl

/-- A task whose status is finished is known to hold nothing. -/
theorem Settled.permits (h : Settled φ w) (hf : Facts φ w.snapshot)
    (hfin : w.snapshot.status.isFinished = true) : w.permits = false := by
  have hnot : w.snapshot.status.isFinished ≠ false := by simp [hfin]
  cases φ with
  | starting | spawned => exact absurd (by rw [hf.1.status]; rfl) hnot
  | running | stop _ | exited _ | late _ => exact absurd (Active.unfinished none hf) hnot
  | grace reason | waiting reason | drain reason _ =>
    exact absurd (Active.unfinished (some reason) hf.2) hnot
  | overdue _ _ => exact absurd (by rw [Unfinished.status hf]; rfl) hnot
  | forced reason _ | stopped reason _ => exact absurd (Active.unfinished (some reason) hf) hnot
  | lateForced _ => exact absurd (Active.unfinished (some .timeout) hf) hnot
  | ending _ reason _ => exact absurd (Active.unfinished reason hf) hnot
  | failed _ => exact h hfin
  | _ => exact h

theorem Settled.env (h : Settled φ w) (he : Surroundings P w w') : Settled φ w' := by
  have hp := he.permits
  have hs := he.frame.1
  cases φ with
  | released _ _ | published | returned | crashed _ | reported | marking | marked | done =>
    exact hp.trans h
  | failed _ =>
    intro hfin
    rw [hp]
    exact h (by rwa [hs] at hfin)
  | _ => trivial

/-- A call that fails leaves the permits of a finished task where they were. -/
theorem Settled.fails (h : Settled φ w) (hf : Facts φ w.snapshot) (hshape : Shape P line w o w')
    (hu : ∀ site f, o ≠ .update site f) (hd : o ≠ .dropPermits) (hl : o ≠ .leaveRunTask) :
    w'.snapshot.status.isFinished = true → w'.permits = false := by
  intro hfin
  rw [hshape.snapshot hu] at hfin
  rw [hshape.permits hd hl]
  exact h.permits hf hfin

theorem Settled.act (h : Settled φ w) (hf : Facts φ w.snapshot) (hm : Moves P route φ o r ψ)
    (ha : taskEffect P line o w r w') : Settled ψ w' := by
  have hshape := taskEffect_shape ha
  have hp : o ≠ .dropPermits → o ≠ .leaveRunTask → w'.permits = w.permits := hshape.permits
  cases hm with
  | error _ e e' | spawnError e e' | exitedError e e' | graceError _ e e' | drainError _ _ e e'
  | childWaitError _ e e' | forceEmptyError _ _ e e' | stoppedError _ _ e e' | lateError _ e e'
  | joinError _ _ _ _ e e' | joinCrashed _ _ _ _ e e' | persistFinalError e e' =>
    exact h.fails hf hshape (by simp) (by simp) (by simp)
  | dropPermits _ _ =>
    obtain rfl : w' = _ := ha
    rfl
  | leave | leaveError _ =>
    obtain rfl : w' = _ := ha
    exact w.left_permits P
  | toFinal _ _ | persistFinal | toError _ | persistError _ | markFinished | dropStore =>
    exact (hp (by simp) (by simp)).trans h
  | quiet hq => cases hq <;> trivial
  | _ => trivial

theorem settled_invariant :
    Invariant (taskMachine P line) (Moves P route) fun φ w ↦ Facts φ w.snapshot ∧ Settled φ w where
  env φ w w' h he := ⟨by rw [he.frame.1]; exact h.1, h.2.env he⟩
  act φ o w r w' ψ h ha hm := ⟨facts_invariant.act φ o w r w' ψ h.1 ha hm, h.2.act h.1 hm ha⟩

/-- A runner somewhere on its way. -/
def Job.OnTrack (P : Platform) (j : Job) : Prop :=
  Tracked (Moves P j.route) (fun φ w ↦ Facts φ w.snapshot ∧ Settled φ w) (fun _ φ ↦ φ = .done)
    (j.program, j.world)

theorem Job.OnTrack.permits {j : Job} (h : j.OnTrack P)
    (hfin : j.world.snapshot.status.isFinished = true) : j.world.permits = false := by
  obtain ⟨φ, -, hf, hs⟩ := h
  exact hs.permits hf hfin

/-- A step of a runner keeps the identifier of its task, and a finished status. -/
theorem Job.OnTrack.step {p q : Task Unit} (h : Job.OnTrack P ⟨route, p, w⟩)
    (hs : (taskMachine P line).Step (p, w) (q, w')) :
    Job.OnTrack P ⟨route, q, w'⟩ ∧ w'.snapshot.taskId = w.snapshot.taskId ∧
      (w.snapshot.status.isFinished = true → w'.snapshot.status.isFinished = true) := by
  refine ⟨settled_invariant.step h hs, ?_⟩
  obtain ⟨φ, hf, hfacts, -⟩ := h
  cases hs with
  | env he => rw [he.frame.1]; exact ⟨rfl, id⟩
  | @act o k _ _ r ha =>
    obtain ⟨ψ, hm, -⟩ := hf r
    obtain ⟨s', hc, hs'⟩ := taskEffect_changes ha
    have hid := taskId_move hm hc
    have hforward := forward_move hm hfacts hc
    rw [hs']
    exact ⟨hid, fun hfin ↦ by rw [hforward.2 hfin]; exact hfin⟩

end

/-! ## The client -/

/-- The runner, if the owner is one. -/
def Owner.job? : Owner → Option Job
  | job j => some j
  | _ => none

/-- The runners of a server. -/
def Server.jobs (s : Server) : List Job := s.owners.filterMap Owner.job?

theorem Server.mem_jobs {s : Server} {j : Job} : j ∈ s.jobs ↔ .job j ∈ s.owners := by
  rw [jobs, List.mem_filterMap]
  constructor
  · rintro ⟨o, ho, h⟩
    cases o with
    | job j' =>
      cases h
      exact ho
    | _ => cases h
  · exact fun h ↦ ⟨.job j, h, rfl⟩

/-- The identifier of a task. -/
def Job.taskId (j : Job) : Uuid := j.world.visible.taskId

/-- A server, and a client that looks at tasks and remembers which of them it has seen finish.  No
two tasks have the same identifier: `create` fails if the directory exists. -/
inductive ClientStep (P : Platform) (line : TaskSnapshot → List UInt8)
    (routes : List ResolvedRoute) : Server × List Uuid → Server × List Uuid → Prop
  | server {s s' : Server} {seen : List Uuid}
      (h : ServerStep P line (taskMachine P line) routes s s')
      (hids : (s'.jobs.map Job.taskId).Nodup) : ClientStep P line routes (s, seen) (s', seen)
  | see {s : Server} {seen : List Uuid} {j : Job} (hj : .job j ∈ s.owners)
      (hfin : j.world.visible.status.isFinished = true) :
      ClientStep P line routes (s, seen) (s, j.taskId :: seen)

/-- A task the client has seen finish. -/
def Owner.isSeen (seen : List Uuid) : Owner → Bool
  | job j => decide (j.taskId ∈ seen)
  | _ => false

section

variable {P : Platform} {line : TaskSnapshot → List UInt8} {max : ℕ}
  {routes : List ResolvedRoute} {s s' : Server} {c c' : Server × List Uuid}

/-- The server goes its own way. -/
theorem server_run (hr : ReflTransGen (ClientStep P line routes) c c') :
    ReflTransGen (ServerStep P line (taskMachine P line) routes) c.1 c'.1 := by
  induction hr with
  | refl => exact .refl
  | tail _ hs ih =>
    cases hs with
    | server h _ => exact ih.tail h
    | see _ _ => exact ih

theorem onTrack_run
    (hr : ReflTransGen (ServerStep P line (taskMachine P line) routes) (.built max routes) s) :
    ∀ j, .job j ∈ s.owners → j.OnTrack P := by
  refine jobs_run (Q := Job.OnTrack P) ?_ ?_ hr
  · intro route args id now
    exact ⟨.starting, startTask_follows P route args, (World.created_fresh ..).facts, trivial⟩
  · intro route p q w v h hs
    exact (h.step hs).1

/-- What the client has seen. -/
theorem seen_finished (hr : ReflTransGen (ClientStep P line routes) (.built max routes, []) c) :
    ∀ id ∈ c.2, ∃ j, .job j ∈ c.1.owners ∧ j.taskId = id ∧
      j.world.snapshot.status.isFinished = true := by
  induction hr with
  | refl => simp
  | tail hr hs ih =>
    cases hs with
    | see hj hfin =>
      intro id hid
      rcases List.mem_cons.mp hid with rfl | hid
      · exact ⟨_, hj, rfl, hfin⟩
      · exact ih id hid
    | server h _ =>
      intro id hid
      obtain ⟨j, hj, hjid, hfin⟩ := ih id hid
      obtain ⟨j', hj', -, rfl | hstep⟩ := job_step h hj
      · exact ⟨_, hj', hjid, hfin⟩
      · obtain ⟨-, htask, hstays⟩ := (onTrack_run (server_run hr) j hj).step hstep
        exact ⟨j', hj', htask.trans hjid, hstays hfin⟩

theorem taskIds_nodup (hr : ReflTransGen (ClientStep P line routes) (.built max routes, []) c) :
    (c.1.jobs.map Job.taskId).Nodup := by
  induction hr with
  | refl => exact List.nodup_nil
  | tail _ hs ih =>
    cases hs with
    | server _ hids => exact hids
    | see _ _ => exact ih

/-- A task the client has seen finish is finished. -/
theorem finished_of_seen (hr : ReflTransGen (ClientStep P line routes) (.built max routes, []) c)
    {j : Job} (hj : .job j ∈ c.1.owners) (hseen : j.taskId ∈ c.2) :
    j.world.snapshot.status.isFinished = true := by
  obtain ⟨j', hj', hid, hfin⟩ := seen_finished hr _ hseen
  have := List.inj_on_of_nodup_map (taskIds_nodup hr) (Server.mem_jobs.mpr hj')
    (Server.mem_jobs.mpr hj) hid
  rwa [← this]

end

/-- **Permits are conserved**, and a task that is visible as finished has none of them. -/
theorem permits_conserved (P : Platform) (line : TaskSnapshot → List UInt8) (max : ℕ)
    (routes : List ResolvedRoute) (s : Server) (seen : List Uuid)
    (hr : ReflTransGen (ClientStep P line routes) (.built max routes, []) (s, seen)) :
    (∀ k, s.free k + held Owner.holds s.owners k = k.size max routes) ∧
    (∀ o ∈ s.owners, ∀ k, 0 < o.holds k → o.isHandler = true ∨
      ∃ j, o = .job j ∧ j.world.visible.status.isFinished = false) ∧
    (∀ j, .job j ∈ s.owners → j.world.visible.status.isFinished = true →
      ∀ k, Owner.holds (.job j) k = 0) ∧
    ((∀ o ∈ s.owners, o.isSeen seen = true) → ∀ k, s.free k = k.size max routes) ∧
    ∀ k, s.free k = 0 →
      held Owner.holds (s.owners.filter fun o ↦ !o.isSeen seen) k = k.size max routes := by
  have htrack := onTrack_run (server_run hr)
  have hcons := conserved_run taskMachine_givesBack (server_run hr)
  have hnone : ∀ j, .job j ∈ s.owners → j.world.visible.status.isFinished = true →
      ∀ k, Owner.holds (.job j) k = 0 := by
    intro j hj hfin k
    simp [Owner.holds, (htrack j hj).permits hfin]
  have hseen : ∀ o ∈ s.owners, o.isSeen seen = true → ∀ k, o.holds k = 0 := by
    intro o ho hs
    cases o with
    | job j => exact hnone j ho (finished_of_seen hr ho (of_decide_eq_true hs))
    | _ => cases hs
  have hfilter : ∀ k, held Owner.holds (s.owners.filter fun o ↦ !o.isSeen seen) k =
      held Owner.holds s.owners k := by
    intro k
    exact held_filter fun o ho hs ↦ hseen o ho (by simpa using hs) k
  refine ⟨hcons, fun o ho k hk ↦ ?_, hnone, fun hall k ↦ ?_, fun k hk ↦ ?_⟩
  · cases o with
    | job j =>
      refine .inr ⟨j, rfl, ?_⟩
      by_contra hfin
      exact absurd (hnone j ho (by simpa using hfin) k) hk.ne'
    | _ => exact .inl rfl
  · have hk := hcons k
    have hnil : s.owners.filter (fun o ↦ !o.isSeen seen) = [] := by
      simpa using hall
    rw [← hfilter k, hnil] at hk
    exact hk
  · have hk' := hcons k
    rw [hfilter k]
    simpa [hk] using hk'

/-! ## One execution

A request becomes a task, whose first event cannot be written; a client sees it fail. -/

section

variable {P : Platform} {line : TaskSnapshot → List UInt8} {max : ℕ}
  {routes : List ResolvedRoute} {s s' : Server}

/-- Identifiers are given out one at a time, and kept. -/
theorem taskIds_step (h : ∀ j, .job j ∈ s.owners → j.OnTrack P)
    (hs : ServerStep P line (taskMachine P line) routes s s') :
    (s.jobs.map Job.taskId).Sublist (s'.jobs.map Job.taskId) := by
  cases hs with
  | request args _ => exact .refl _
  | acquireGlobal _ | acquireRoute _ => simp [Server.jobs, Owner.job?, List.filterMap_cons]
  | @giveUp free pre post o ho =>
    cases o with
    | job j => cases ho
    | _ => simp [Server.jobs, Owner.job?, List.filterMap_cons]
  | start id now => simp [Server.jobs, Owner.job?, List.filterMap_cons]
  | @run free pre post route p q w v hstep =>
    have hid : v.snapshot.taskId = w.snapshot.taskId :=
      ((h ⟨route, p, w⟩ (List.mem_append_right _ List.mem_cons_self)).step hstep).2.1
    have hsame : Job.taskId ⟨route, q, v⟩ = Job.taskId ⟨route, p, w⟩ := hid
    simp [Server.jobs, Owner.job?, hsame]

/-- An execution of the server that gives no identifier twice, with a client that does not look. -/
theorem client_run {s₀ : Server}
    (hr₀ : ReflTransGen (ServerStep P line (taskMachine P line) routes) (.built max routes) s₀)
    (hr : ReflTransGen (ServerStep P line (taskMachine P line) routes) s₀ s)
    (hids : (s.jobs.map Job.taskId).Nodup) (seen : List Uuid) :
    ReflTransGen (ClientStep P line routes) (s₀, seen) (s, seen) := by
  induction hr with
  | refl => exact .refl
  | tail hr hs ih =>
    have hbefore := hids.sublist (taskIds_step (onTrack_run (hr₀.trans hr)) hs)
    exact (ih hbefore).tail (.server hs hids)

end

/-- The runner of `exampleDropped`, when the error handler has made its change. -/
def failedJob (id : Uuid) : Job where
  route := exampleRoute
  program := afterReport
  world := ((exampleJob id).world.torn snapshotCodec.line 0).reported .unix
    "No space left on device (os error 28)" "2026-01-01T00:00:02Z"

/-- The limit is one, and it is free again. -/
theorem permits_conserved_failed :
    ∃ s, ReflTransGen (ClientStep .unix snapshotCodec.line [exampleRoute])
        (.built 1 [exampleRoute], []) (s, [1]) ∧
      s.owners = [.job (failedJob 1)] ∧ s.free .global = 1 := by
  obtain ⟨s₁, h₁, ho₁⟩ := exists_exampleJob (s := .built 1 [exampleRoute])
    (taskMachine_allows (P := .unix)) (by decide) (by decide) 1
  have hrun : (taskMachine .unix snapshotCodec.line).Run
      ((exampleJob 1).program, (exampleJob 1).world)
      ((failedJob 1).program, (failedJob 1).world) := by
    refine (run_exampleDropped 1).tail ?_
    exact .act (S := runner) (o := .update .executorError _) (r := ()) ⟨"2026-01-01T00:00:02Z", rfl⟩
  obtain ⟨s₂, h₂, ho₂⟩ := exists_run_job hrun
    (show s₁.owners = [] ++ .job ⟨exampleRoute, _, _⟩ :: [] from ho₁)
  have hids : (s₂.jobs.map Job.taskId).Nodup := by
    rw [Server.jobs, ho₂]
    exact List.nodup_singleton _
  have hclient := client_run .refl (h₁.trans h₂) hids []
  have hsee : ClientStep .unix snapshotCodec.line [exampleRoute] (s₂, []) (s₂, [1]) :=
    .see (j := failedJob 1) (by rw [ho₂]; exact List.mem_singleton_self _) rfl
  have hr := hclient.tail hsee
  refine ⟨s₂, hr, ho₂, ?_⟩
  refine (permits_conserved .unix _ 1 [exampleRoute] s₂ [1] hr).2.2.2.1 (fun o ho ↦ ?_) .global
  rw [ho₂] at ho
  rw [List.mem_singleton.mp ho]
  rfl

end CommandApi
