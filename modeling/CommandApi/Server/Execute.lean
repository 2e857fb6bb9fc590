import CommandApi.Async.Permits
import CommandApi.Process.Permits
import CommandApi.Process.Lifecycle

/-!
# Executing requests

The semaphores of `app::build`, the handler `execute` that takes a permit from each of them, and the
runners it starts.  A server has any number of handlers and runners at a time; each of them owns
permits, and whatever an owner gives up goes back to its semaphore.

A handler holds nothing, then a global permit, then also a permit of its route, and then it hands
both to a runner.  It can end early at any point: refused at a limit, because the task cannot be
created, or because its connection is dropped.
-/

set_option autoImplicit false

namespace CommandApi

open Async Relation

/-- The semaphores of the service. -/
inductive Sem
  | global
  | route (path : String)
  deriving DecidableEq, Repr

/-- The map of `build`: a later route of the same path replaces an earlier one. -/
def routeRuntime (routes : List ResolvedRoute) (path : String) : Option ResolvedRoute :=
  routes.reverse.find? (·.path = path)

/-- The permits the semaphores are made with. -/
def Sem.size (max : ℕ) (routes : List ResolvedRoute) : Sem → ℕ
  | .global => max
  | .route path => match routeRuntime routes path with
    | some found => found.maxConcurrency
    | none => 0

/-- A runner, where it is in its program, and its world. -/
structure Job where
  route : ResolvedRoute
  program : Task Unit
  world : World

/-- A handler on its way, or a runner. -/
inductive Owner
  /-- The arguments are valid. -/
  | entered (route : ResolvedRoute) (args : List String)
  /-- … and there is a global permit. -/
  | admitted (route : ResolvedRoute) (args : List String)
  /-- … and a permit of the route; the record is being created. -/
  | creating (route : ResolvedRoute) (args : List String)
  | job (j : Job)

namespace Owner

/-- One permit of either kind. -/
def both (route : ResolvedRoute) : Sem → ℕ
  | .global => 1
  | .route path => if path = route.path then 1 else 0

/-- The permits an owner has. -/
def holds : Owner → Sem → ℕ
  | entered _ _, _ => 0
  | admitted _ _, .global => 1
  | admitted _ _, .route _ => 0
  | creating route _, k => both route k
  | job j, k => if j.world.permits then both j.route k else 0

/-- A runner whose process tree is alive. -/
def live : Owner → Bool
  | job j => decide j.world.TreeLive
  | _ => false

/-- … of this route. -/
def liveOn (path : String) : Owner → Bool
  | job j => decide j.world.TreeLive && decide (j.route.path = path)
  | _ => false

/-- A handler, not a runner. -/
def isHandler : Owner → Bool
  | job _ => false
  | _ => true

end Owner

structure Server where
  /-- The free permits. -/
  free : Sem → ℕ
  owners : List Owner

/-- The server `build` makes. -/
def Server.built (max : ℕ) (routes : List ResolvedRoute) : Server := ⟨Sem.size max routes, []⟩

/-- The world in which the runner of a new task starts. -/
def ResolvedRoute.world (route : ResolvedRoute) (line : TaskSnapshot → List UInt8) (id : Uuid)
    (now : String) : World :=
  .created line (.created id route.path route.outputMode route.outputEncoding now)

/-- One step of a handler or a runner.  `M` says how runners may go on. -/
inductive ServerStep (P : Platform) (line : TaskSnapshot → List UInt8) (M : Machine runner World)
    (routes : List ResolvedRoute) : Server → Server → Prop
  | request {s : Server} {path : String} {route : ResolvedRoute} (args : List String)
      (h : routeRuntime routes path = some route) :
      ServerStep P line M routes s { s with owners := .entered route args :: s.owners }
  | acquireGlobal {free : Sem → ℕ} {pre post : List Owner} {route : ResolvedRoute}
      {args : List String} (h : 0 < free .global) :
      ServerStep P line M routes ⟨free, pre ++ .entered route args :: post⟩
        ⟨Function.update free .global (free .global - 1), pre ++ .admitted route args :: post⟩
  | acquireRoute {free : Sem → ℕ} {pre post : List Owner} {route : ResolvedRoute}
      {args : List String} (h : 0 < free (.route route.path)) :
      ServerStep P line M routes ⟨free, pre ++ .admitted route args :: post⟩
        ⟨Function.update free (.route route.path) (free (.route route.path) - 1),
          pre ++ .creating route args :: post⟩
  /-- A handler ends without a task, and drops its permits. -/
  | giveUp {free : Sem → ℕ} {pre post : List Owner} {o : Owner} (h : o.isHandler = true) :
      ServerStep P line M routes ⟨free, pre ++ o :: post⟩
        ⟨fun k ↦ free k + o.holds k, pre ++ post⟩
  | start {free : Sem → ℕ} {pre post : List Owner} {route : ResolvedRoute} {args : List String}
      (id : Uuid) (now : String) :
      ServerStep P line M routes ⟨free, pre ++ .creating route args :: post⟩
        ⟨free, pre ++ .job ⟨route, startTask P route args, route.world line id now⟩ :: post⟩
  /-- A runner or something around it makes a step, and what it no longer owns is free. -/
  | run {free : Sem → ℕ} {pre post : List Owner} {route : ResolvedRoute} {p q : Task Unit}
      {w v : World} (h : M.Step (p, w) (q, v)) :
      ServerStep P line M routes ⟨free, pre ++ .job ⟨route, p, w⟩ :: post⟩
        ⟨fun k ↦ free k + (Owner.holds (.job ⟨route, p, w⟩) k - Owner.holds (.job ⟨route, q, v⟩) k),
          pre ++ .job ⟨route, q, v⟩ :: post⟩

section

variable {P : Platform} {line : TaskSnapshot → List UInt8} {M : Machine runner World}
  {max : ℕ} {routes : List ResolvedRoute} {s s' : Server}

/-! ## No permit is lost -/

/-- Every permit is free or owned. -/
def Conserved (max : ℕ) (routes : List ResolvedRoute) (s : Server) : Prop :=
  ∀ k, s.free k + held Owner.holds s.owners k = k.size max routes

/-- Runners do not make permits. -/
def GivesBack (M : Machine runner World) : Prop :=
  ∀ (p q : Task Unit) (w v : World), M.Step (p, w) (q, v) → v.permits = true → w.permits = true

theorem holds_job_le {route : ResolvedRoute} {p q : Task Unit} {w v : World}
    (h : v.permits = true → w.permits = true) (k : Sem) :
    Owner.holds (.job ⟨route, q, v⟩) k ≤ Owner.holds (.job ⟨route, p, w⟩) k := by
  simp only [Owner.holds]
  split
  · rename_i hv
    rw [if_pos (h hv)]
  · exact Nat.zero_le _

/-- A runner changes, and what it no longer owns is free. -/
theorem Conserved.replace {free : Sem → ℕ} {pre post : List Owner} {route : ResolvedRoute}
    {p q : Task Unit} {w v : World}
    (h : Conserved max routes ⟨free, pre ++ .job ⟨route, p, w⟩ :: post⟩)
    (hv : v.permits = true → w.permits = true) :
    Conserved max routes
      ⟨fun k ↦ free k + (Owner.holds (.job ⟨route, p, w⟩) k - Owner.holds (.job ⟨route, q, v⟩) k),
        pre ++ .job ⟨route, q, v⟩ :: post⟩ := by
  intro k
  have hk := h k
  have hle : Owner.holds (.job ⟨route, q, v⟩) k ≤ Owner.holds (.job ⟨route, p, w⟩) k :=
    holds_job_le hv k
  simp only [held_append, held_cons] at hk ⊢
  omega

theorem Conserved.step (hM : GivesBack M) (h : Conserved max routes s)
    (hs : ServerStep P line M routes s s') : Conserved max routes s' := by
  cases hs with
  | request args _ =>
    intro k
    rw [held_cons]
    simpa [Owner.holds] using h k
  | @acquireGlobal free pre post route args hfree =>
    intro k
    have hk := h k
    simp only [held_append, held_cons, Owner.holds] at hk ⊢
    by_cases hg : k = .global
    · subst hg
      simp only [Function.update_self]
      omega
    · rw [Function.update_of_ne hg]
      cases k with
      | global => exact absurd rfl hg
      | route path => simpa [Owner.holds] using hk
  | @acquireRoute free pre post route args hfree =>
    intro k
    have hk := h k
    simp only [held_append, held_cons] at hk ⊢
    by_cases hg : k = .route route.path
    · subst hg
      simp only [Function.update_self, Owner.holds, Owner.both, if_pos] at hk ⊢
      omega
    · rw [Function.update_of_ne hg]
      cases k with
      | global => simpa [Owner.holds, Owner.both] using hk
      | route path =>
        have hpath : path ≠ route.path := fun h ↦ hg (h ▸ rfl)
        simpa [Owner.holds, Owner.both, hpath] using hk
  | giveUp _ =>
    intro k
    have hk := h k
    simp only [held_append, held_cons] at hk ⊢
    omega
  | start id now =>
    intro k
    have hk := h k
    simp only [held_append, held_cons] at hk ⊢
    exact hk
  | @run free pre post route p q w v hstep => exact h.replace (hM p q w v hstep)

theorem conserved_run (hM : GivesBack M)
    (hr : ReflTransGen (ServerStep P line M routes) (.built max routes) s) :
    Conserved max routes s := by
  induction hr with
  | refl => exact fun k ↦ rfl
  | tail _ hs ih => exact ih.step hM hs

/-- Owners that each have a permit are at most as many as there were in the beginning. -/
theorem Conserved.countP_le (h : Conserved max routes s) {k : Sem} {p : Owner → Bool}
    (hp : ∀ o ∈ s.owners, p o = true → 1 ≤ o.holds k) : s.owners.countP p ≤ k.size max routes :=
  (countP_le_held hp).trans ((Nat.le_add_left _ _).trans (h k).le)

theorem taskMachine_givesBack : GivesBack (taskMachine P line) := by
  intro p q w v hs hv
  cases hs with
  | act h => exact (taskEffect_shape h).permits_le hv
  | env h => rwa [← h.permits]

theorem GivesBack.restrict (h : GivesBack M) {A : (o : Op) → World → runner.Resp o → Prop}
    {E : World → World → Prop} : GivesBack (M.restrict A E) :=
  fun p q w v hs ↦ h p q w v hs.of_restrict

/-! ## What holds of every runner -/

/-- A fact about runners, when one of them changes. -/
theorem jobs_replace {Q : Job → Prop} {pre post : List Owner} {o : Owner} {j : Job}
    (hall : ∀ j', Owner.job j' ∈ pre ++ o :: post → Q j') (hj : Q j) :
    ∀ j', Owner.job j' ∈ pre ++ .job j :: post → Q j' := by
  intro j' hj'
  rcases List.mem_append.mp hj' with hj' | hj'
  · exact hall j' (List.mem_append_left _ hj')
  · rcases List.mem_cons.mp hj' with hj' | hj'
    · cases hj'
      exact hj
    · exact hall j' (List.mem_append_right _ (List.mem_cons_of_mem _ hj'))

/-- A fact about runners that holds when they start, and that their steps keep, is kept by a step
of the server. -/
theorem jobs_step {Q : Job → Prop}
    (hstart : ∀ route args id now, Q ⟨route, startTask P route args, route.world line id now⟩)
    (hrun : ∀ route p q w v, Q ⟨route, p, w⟩ → M.Step (p, w) (q, v) → Q ⟨route, q, v⟩)
    (hs : ServerStep P line M routes s s') (h : ∀ j, Owner.job j ∈ s.owners → Q j) :
    ∀ j, Owner.job j ∈ s'.owners → Q j := by
  cases hs with
  | request args _ => exact fun j hj ↦ h j ((List.mem_cons.mp hj).resolve_left nofun)
  | giveUp _ =>
    refine fun j hj ↦ h j (List.mem_append.mpr ?_)
    exact (List.mem_append.mp hj).imp id (List.mem_cons_of_mem _)
  | acquireGlobal _ | acquireRoute _ =>
    refine fun j hj ↦ h j (List.mem_append.mpr ?_)
    rcases List.mem_append.mp hj with hj | hj
    · exact .inl hj
    · exact .inr (List.mem_cons_of_mem _ ((List.mem_cons.mp hj).resolve_left nofun))
  | start id now => exact jobs_replace h (hstart _ _ id now)
  | @run free pre post route p q w v hstep =>
    exact jobs_replace h
      (hrun route p q w v (h _ (List.mem_append_right _ List.mem_cons_self)) hstep)

/-- … and so holds of all. -/
theorem jobs_run {Q : Job → Prop}
    (hstart : ∀ route args id now, Q ⟨route, startTask P route args, route.world line id now⟩)
    (hrun : ∀ route p q w v, Q ⟨route, p, w⟩ → M.Step (p, w) (q, v) → Q ⟨route, q, v⟩)
    (hr : ReflTransGen (ServerStep P line M routes) (.built max routes) s) :
    ∀ j, Owner.job j ∈ s.owners → Q j := by
  induction hr with
  | refl => exact fun j hj ↦ absurd hj (List.not_mem_nil)
  | tail _ hs ih => exact jobs_step hstart hrun hs ih

/-- A runner stays, and makes at most one step at a time. -/
theorem job_step (hs : ServerStep P line M routes s s') {j : Job} (hj : .job j ∈ s.owners) :
    ∃ j', .job j' ∈ s'.owners ∧ j'.route = j.route ∧
      (j' = j ∨ M.Step (j.program, j.world) (j'.program, j'.world)) := by
  cases hs with
  | request args _ => exact ⟨j, List.mem_cons_of_mem _ hj, rfl, .inl rfl⟩
  | acquireGlobal _ | acquireRoute _ | start _ _ =>
    refine ⟨j, List.mem_append.mpr ?_, rfl, .inl rfl⟩
    rcases List.mem_append.mp hj with hj | hj
    · exact .inl hj
    · exact .inr (List.mem_cons_of_mem _ ((List.mem_cons.mp hj).resolve_left (by simp)))
  | @giveUp free pre post o ho =>
    refine ⟨j, List.mem_append.mpr ?_, rfl, .inl rfl⟩
    rcases List.mem_append.mp hj with hj | hj
    · exact .inl hj
    · rcases List.mem_cons.mp hj with rfl | hj
      · cases ho
      · exact .inr hj
  | @run free pre post route p q w v hstep =>
    rcases List.mem_append.mp hj with hj | hj
    · exact ⟨j, List.mem_append_left _ hj, rfl, .inl rfl⟩
    · rcases List.mem_cons.mp hj with hj | hj
      · cases hj
        exact ⟨_, List.mem_append_right _ List.mem_cons_self, rfl, .inr hstep⟩
      · exact ⟨j, List.mem_append_right _ (List.mem_cons_of_mem _ hj), rfl, .inl rfl⟩

/-! ## Executions that exist -/

/-- A request that finds a free permit of either kind becomes a runner. -/
theorem exists_execute {route : ResolvedRoute}
    (hroute : routeRuntime routes route.path = some route)
    (hg : 0 < s.free .global) (hr : 0 < s.free (.route route.path)) (args : List String) (id : Uuid)
    (now : String) :
    ∃ s', ReflTransGen (ServerStep P line M routes) s s' ∧
      s'.owners = .job ⟨route, startTask P route args, route.world line id now⟩ :: s.owners := by
  obtain ⟨free, owners⟩ := s
  let free₁ : Sem → ℕ := Function.update free .global (free .global - 1)
  let free₂ : Sem → ℕ :=
    Function.update free₁ (.route route.path) (free₁ (.route route.path) - 1)
  have hne : Sem.route route.path ≠ .global := nofun
  have hr' : 0 < free₁ (.route route.path) := by
    rwa [show free₁ (.route route.path) = free (.route route.path) from
      Function.update_of_ne hne _ _]
  have henter : ServerStep P line M routes ⟨free, owners⟩
      ⟨free, [] ++ .entered route args :: owners⟩ := .request args hroute
  have hglobal : ServerStep P line M routes ⟨free, [] ++ .entered route args :: owners⟩
      ⟨free₁, [] ++ .admitted route args :: owners⟩ := .acquireGlobal hg
  have hboth : ServerStep P line M routes ⟨free₁, [] ++ .admitted route args :: owners⟩
      ⟨free₂, [] ++ .creating route args :: owners⟩ :=
    .acquireRoute hr'
  exact ⟨_, (((ReflTransGen.single henter).tail hglobal).tail hboth).tail (.start id now), rfl⟩

/-- An execution of one runner is one of the server. -/
theorem exists_run_job {pre post : List Owner} {route : ResolvedRoute} {c c' : Task Unit × World}
    (hr : M.Run c c') (h : s.owners = pre ++ .job ⟨route, c.1, c.2⟩ :: post) :
    ∃ s', ReflTransGen (ServerStep P line M routes) s s' ∧
      s'.owners = pre ++ .job ⟨route, c'.1, c'.2⟩ :: post := by
  induction hr with
  | refl => exact ⟨s, .refl, h⟩
  | tail _ hs ih =>
    obtain ⟨⟨free, owners⟩, hrun, rfl⟩ := ih
    exact ⟨_, hrun.tail (.run hs), rfl⟩

end

end CommandApi
