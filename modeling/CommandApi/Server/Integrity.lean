import CommandApi.Config.Arguments
import CommandApi.Process.Pipe
import CommandApi.Server.Execute
import CommandApi.Server.Start

/-!
# Arguments, from the request to the script

The handler `execute` of `src/app.rs` as one function, and what is promised of the arguments of a
task it starts: they satisfy the policy of the route, and the script gets them as they are, behind
the arguments that the configuration has.  In between are `validate_request_args`, the runner, a
pipe and the worker at its other end.

The body of a request is read by `serde_json` (`fromSlice`), behind a layer that admits 64 KiB.  A
text is not longer than its JSON, so no sum of sizes saturates.
-/

set_option autoImplicit false

namespace CommandApi

open Async Relation Text Std

/-! ## The handler -/

structure ExecuteRequest where
  args : List String
  deriving DecidableEq, Repr

/-- `RequestBodyLimitLayer::new(64 * 1024)`. -/
def bodyLimit : ℕ := 64 * 1024

/-- What is in front of `execute`: the layer, and the extractor. -/
def extract (fromSlice : List UInt8 → Except String ExecuteRequest) (body : List UInt8) :
    Except String ExecuteRequest :=
  if bodyLimit < body.length then .error "length limit exceeded" else fromSlice body

/-- The answer 202. -/
structure AcceptedTask where
  success : Bool
  taskId : Uuid
  status : TaskStatus
  statusUrl : String
  deriving DecidableEq, Repr

/-- `execute`.  `global` and `limit` say whether the semaphores gave a permit, and `created` is what
`TaskStore::create` returned.  The second result is the future that is spawned. -/
def execute (usizeBits : ℕ) (isMatch : Regex → String → Bool) (P : Platform)
    (route : ResolvedRoute) (request : ExecuteRequest) (global limit : Bool)
    (created : Except String Uuid) : Except ApiError (AcceptedTask × Task Unit) := do
  (validateRequestArgs usizeBits isMatch route request.args).mapError fun error ↦
    ⟨400, "invalid_arguments", error⟩
  if global = false then
    .error ⟨429, "global_concurrency_limit", "已达到全局并发上限"⟩
  else if limit = false then
    .error ⟨429, "route_concurrency_limit",
      s!"路由 {route.path} 已达到并发上限 {route.maxConcurrency}"⟩
  else do
    let id ← created.mapError fun error ↦ ⟨500, "task_create_failed", error⟩
    pure (⟨true, id, .starting, s!"/tasks/{id.text}"⟩, startTask P route request.args)

section

variable {usizeBits : ℕ} {isMatch : Regex → String → Bool} {P : Platform} {route : ResolvedRoute}
  {request : ExecuteRequest} {global limit : Bool} {created : Except String Uuid}
  {accepted : AcceptedTask} {task : Task Unit}

/-- A task that is started is the runner, with arguments that passed the validator. -/
theorem execute_eq_ok (h : execute usizeBits isMatch P route request global limit created =
    .ok (accepted, task)) :
    validateRequestArgs usizeBits isMatch route request.args = .ok () ∧ global = true ∧
      limit = true ∧ created = .ok accepted.taskId ∧ task = startTask P route request.args := by
  simp only [execute, bind_eq_ok, mapError_eq_ok] at h
  obtain ⟨u, hvalid, h⟩ := h
  split at h
  · cases h
  · rename_i hglobal
    split at h
    · cases h
    · rename_i hlimit
      simp only [bind_eq_ok, mapError_eq_ok] at h
      obtain ⟨id, hid, h⟩ := h
      cases h
      exact ⟨hvalid, eq_true_of_ne_false hglobal, eq_true_of_ne_false hlimit, hid, rfl⟩

end

/-! ## The contract -/

/-- What is promised of a task that was started on a route with these arguments. -/
structure ArgsIntact (isMatch : Regex → String → Bool) (account : WindowsServiceAccount)
    (route : ResolvedRoute) (args : List String) (task : Task Unit) : Prop where
  allowed : ArgsAllowed isMatch route.requestArgs args
  /-- `LocalSystem` gets nothing that is not on a list. -/
  listed : account = .localSystem → ∀ arg ∈ args, arg ∈ route.requestArgs.allowedValues ∨
    ∃ pattern ∈ route.requestArgs.allowedPatterns, isMatch ⟨pattern⟩ arg = true
  /-- In every execution, whatever part of the pipe has arrived at the worker, it can only be read
  as the specification that the route and the arguments give. -/
  delivered : ∀ (W : Type) (M : Machine runner W) (spelling : Spelling) (w v : W) (p : Task Unit)
    (pipe : Pipe), (pipedMachine M spelling).Run (task, w, ⟨[], false⟩) (p, v, pipe) →
      ∀ seen ended, seen <+: pipe.bytes →
        Delivered ((workerSpec route args).message spelling) ended seen
  /-- The script is started with the arguments of the executor, its own path, and the arguments of
  the configuration in front of those of the request; everything else is the configuration's. -/
  command : ∀ spelling : Spelling,
    buildScriptCommand ((workerSpec route args).message spelling) =
      { program := spelling.program route.program
        args := route.executor.launcherArgs ++ [spelling.script route.script] ++ route.fixedArgs ++
          args
        currentDir := spelling.workingDirectory route.workingDirectory
        envs := (ExtTreeMap.ofList route.env compare).toList
        stdin := .null
        stdout := .inherit
        stderr := .inherit }

theorem exists_of_forall₂ {α β : Type} {R : α → β → Prop} {l : List α} {l' : List β}
    (h : List.Forall₂ R l l') {b : β} (hb : b ∈ l') : ∃ a, R a b := by
  induction h with
  | nil => cases hb
  | cons hab _ ih =>
    rcases List.mem_cons.mp hb with rfl | hb
    · exact ⟨_, hab⟩
    · exact ih hb

section

variable {F : Type} {host : Host F} {fs fs' : F} {config : Config} {sourcePath : Path}
  {r : ResolvedConfig} {route : ResolvedRoute}

/-- A route is one of the configuration file. -/
theorem Admitted.exists_route (h : Admitted host fs config sourcePath r fs')
    (hroute : route ∈ r.routes) :
    ∃ base c, RouteAdmitted host fs' base r.windowsService.account c route := by
  obtain ⟨base, -, -, -, -, hroutes⟩ := h.routes
  obtain ⟨c, hc⟩ := exists_of_forall₂ (resolveRoutes_ok hroutes).1 hroute
  have haccount : r.windowsService = config.windowsService := by rw [h.carried]
  exact ⟨base, c, haccount ▸ hc⟩

/-- … and the one its path leads to. -/
theorem Admitted.routeRuntime_eq (h : Admitted host fs config sourcePath r fs')
    (hroute : route ∈ r.routes) : routeRuntime r.routes route.path = some route := by
  have hinj := List.inj_on_of_nodup_map (List.nodup_append.mp h.paths_nodup).2.1
  have hsome : (routeRuntime r.routes route.path).isSome = true :=
    List.find?_isSome.mpr ⟨route, List.mem_reverse.mpr hroute, by simp⟩
  obtain ⟨x, hx⟩ := Option.isSome_iff_exists.mp hsome
  have hmem : x ∈ r.routes := List.mem_reverse.mp (List.mem_of_find?_eq_some hx)
  have hpath : x.path = route.path := by simpa using List.find?_some hx
  rw [hx, hinj hmem hroute hpath]

variable {usizeBits : ℕ} {isMatch : Regex → String → Bool} {P : Platform} {body : List UInt8}
  {fromSlice : List UInt8 → Except String ExecuteRequest} {request : ExecuteRequest}
  {global limit : Bool} {created : Except String Uuid} {accepted : AcceptedTask} {task : Task Unit}

/-- Next to all others, a task that is started is a runner of the server. -/
theorem execute_run {line : TaskSnapshot → List UInt8} {M : Machine runner World} {s : Server}
    (h : Admitted host fs config sourcePath r fs') (hroute : route ∈ r.routes)
    (hexecute : execute usizeBits isMatch P route request global limit created =
      .ok (accepted, task))
    (hglobal : global = true → 0 < s.free .global)
    (hlimit : limit = true → 0 < s.free (.route route.path)) (now : String) :
    ∃ s', ReflTransGen (ServerStep P line M r.routes) s s' ∧
      s'.owners = .job ⟨route, task, route.world line accepted.taskId now⟩ :: s.owners := by
  obtain ⟨-, hg, hl, -, rfl⟩ := execute_eq_ok hexecute
  exact exists_execute (h.routeRuntime_eq hroute) (hglobal hg) (hlimit hl) request.args
    accepted.taskId now

/-- The arguments of a request fit into a `usize` together. -/
theorem totalBytes_lt (hbits : bodyLimit < 2 ^ usizeBits)
    (hsize : ∀ body request, fromSlice body = .ok request → totalBytes request.args ≤ body.length)
    (hbody : extract fromSlice body = .ok request) : totalBytes request.args < 2 ^ usizeBits := by
  rw [extract] at hbody
  split at hbody
  · cases hbody
  · have := hsize body request hbody
    omega

/-- **Arguments arrive as they were admitted.** -/
theorem argument_integrity (hresolve : resolve host fs config sourcePath = .ok (r, fs'))
    (hroute : route ∈ r.routes) (hbits : bodyLimit < 2 ^ usizeBits)
    (hsize : ∀ body request, fromSlice body = .ok request → totalBytes request.args ≤ body.length)
    (hbody : extract fromSlice body = .ok request)
    (hexecute : execute usizeBits isMatch P route request global limit created =
      .ok (accepted, task)) :
    ArgsIntact isMatch r.windowsService.account route request.args task := by
  obtain ⟨base, c, hadmitted⟩ := (resolve_ok hresolve).exists_route hroute
  obtain ⟨hvalid, -, -, -, rfl⟩ := execute_eq_ok hexecute
  have hallowed : ArgsAllowed isMatch route.requestArgs request.args :=
    (validateRequestArgs_eq_ok hadmitted.patterns (totalBytes_lt hbits hsize hbody)).mp hvalid
  refine ⟨hallowed, ?_, ?_, fun _ ↦ rfl⟩
  · intro haccount arg harg
    have hlist := hadmitted.listed haccount (List.ne_nil_of_mem harg) hallowed
    exact hallowed.listed hlist arg harg
  · intro W M spelling w v p pipe hrun seen ended hseen
    exact delivered_of_part ended (hseen.trans (pipe_run hrun))

end

/-! ## An argument with line breaks

`LocalSystem` runs a script with an argument that looks like a message to the worker. -/

def guardedArgs : RequestArgsConfig where
  enabled := true
  allowedValues := ["\"quoted\"\nterminate\n"]

def guardedConfig : Config :=
  { exampleConfig 16 with
    windowsService := { account := .localSystem }
    routes := (exampleConfig 16).routes.map fun route ↦
      { route with fixedArgs := ["--fixed"], requestArgs := guardedArgs } }

def guardedRoute : ResolvedRoute where
  path := "/jobs/nightly"
  executor := .bash
  program := ⟨false, ["bash"]⟩
  script := ⟨true, ["srv", "nightly.sh"]⟩
  fixedArgs := ["--fixed"]
  requestArgs := guardedArgs
  requestArgPatterns := []
  workingDirectory := ⟨true, ["srv"]⟩
  env := []
  maxConcurrency := 1
  maxExecutionSeconds := 60
  gracefulShutdownSeconds := 10
  mergeStdoutStderr := false
  outputEncoding := .utf8

def guardedRequest : ExecuteRequest := ⟨["\"quoted\"\nterminate\n"]⟩

def guardedBody : List UInt8 :=
  encodeUtf8 (Json.obj [("args", .arr [.str "\"quoted\"\nterminate\n"])]).print

/-- `serde_json` on this body. -/
def guardedFromSlice (body : List UInt8) : Except String ExecuteRequest :=
  if body = guardedBody then .ok guardedRequest
  else .error "EOF while parsing a value at line 1 column 0"

theorem argument_integrity_guarded :
    ∃ r fs' accepted task, resolve exampleHost "" guardedConfig ⟨true, ["srv", "config.yaml"]⟩ =
        .ok (r, fs') ∧ r.windowsService.account = .localSystem ∧
      execute 64 (fun _ _ ↦ false) .unix guardedRoute guardedRequest true true (.ok 1) =
        .ok (accepted, task) ∧
      ArgsIntact (fun _ _ ↦ false) r.windowsService.account guardedRoute guardedRequest.args task ∧
      ∀ spelling, ∃ w p v pipe,
        (pipedMachine (taskMachine .unix snapshotCodec.line) spelling).Run
          (task, w, ⟨[], false⟩) (p, v, pipe) ∧
        runWorker false pipe.bytes =
          .started ((workerSpec guardedRoute guardedRequest.args).message spelling) [] := by
  have hresolve : resolve exampleHost "" guardedConfig ⟨true, ["srv", "config.yaml"]⟩ =
      .ok ({ exampleResolved 16 with
        windowsService := { account := .localSystem }, routes := [guardedRoute] }, "") := by
    decide +kernel
  have hsize : ∀ body request, guardedFromSlice body = .ok request →
      totalBytes request.args ≤ body.length := by
    intro body request h
    obtain ⟨rfl, rfl⟩ := guard_eq_ok.mp h
    decide +kernel
  have hexecute : execute 64 (fun _ _ ↦ false) .unix guardedRoute guardedRequest true true (.ok 1) =
      .ok (_, startTask .unix guardedRoute guardedRequest.args) := rfl
  have hintact := argument_integrity hresolve List.mem_cons_self (by decide) hsize
    (show extract guardedFromSlice guardedBody = .ok guardedRequest by decide +kernel) hexecute
  refine ⟨_, _, _, _, hresolve, rfl, hexecute, hintact, fun spelling ↦ ?_⟩
  obtain ⟨p, v, pipe, hrun, hbytes⟩ := exists_run_specLine .unix snapshotCodec.line spelling
    guardedRoute guardedRequest.args (guardedRoute.world snapshotCodec.line 1 "")
  refine ⟨_, p, v, pipe, hrun, ?_⟩
  rw [hbytes, specLine, ← List.append_nil (workerCodec.line _), runWorker_line]

end CommandApi
