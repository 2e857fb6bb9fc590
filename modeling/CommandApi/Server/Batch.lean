import CommandApi.Server.Integrity

/-!
# Dynamic arguments and batch interpreters

`cmd` parses the arguments of a batch file a second time, so `validate_route` refuses a route with
dynamic arguments whose executor, program or script is one of `cmd`.  The check reads the paths of
the configuration file; the worker gets the paths that `resolve` makes of them.

The program keeps its file name on the way (`programIsCmd_programOf`).  The script does not: it is
canonicalised, and a link whose name says nothing about `cmd` may lead to a batch file.  That is
the only way past the check.
-/

set_option autoImplicit false

namespace CommandApi

/-! ## The program -/

/-- Joining keeps the file name. -/
theorem Path.fileName_join {base value : Path} (h : value.parts.filter (· ≠ ".") ≠ []) :
    (base.join value).fileName = value.fileName := by
  unfold Path.join
  split
  · rfl
  · split
    · rfl
    · rw [fileName, fileName, List.filter_append, List.filter_filter,
        List.getLast?_append_of_ne_nil _ (by simpa using h)]
      simp

theorem fileName_absoluteFrom {base value : Path} (h : value.parts.filter (· ≠ ".") ≠ []) :
    (absoluteFrom base value).fileName = value.fileName := by
  unfold absoluteFrom
  split
  · rfl
  · exact Path.fileName_join h

/-- A path that is only made absolute keeps its file name: one without a name is left alone. -/
theorem fileName_absoluteIfPathLike (base value : Path) :
    (absoluteIfPathLike base value).fileName = value.fileName := by
  unfold absoluteIfPathLike
  split
  · rename_i h
    by_cases habs : value.absolute = true
    · rw [absoluteFrom, if_pos habs]
    · refine fileName_absoluteFrom fun hnil ↦ ?_
      have hcount := h.resolve_left habs
      rw [Path.componentCount, hnil, List.length_nil] at hcount
      split at hcount <;> omega
  · rfl

theorem programIsCmd_defaultProgram {P : Platform} {executor : Executor} (h : executor ≠ .cmd) :
    programIsCmd (some ⟨false, [executor.defaultProgram P]⟩) = false := by
  cases executor with
  | cmd => exact absurd rfl h
  | sh | bash | zsh | pwsh => cases P <;> decide
  | powershell => cases P <;> decide

section

variable {F : Type} {host : Host F} {fs fs' : F}

/-- The program of a route is `cmd` exactly when the configuration says so. -/
theorem programIsCmd_programOf {base : Path} {executor : Executor} {program : Option Path}
    (hexecutor : executor ≠ .cmd) (h : programIsCmd program = false) :
    programIsCmd (some (programOf host base executor program)) = false := by
  cases program with
  | none => exact programIsCmd_defaultProgram hexecutor
  | some value =>
    rw [← h]
    unfold programIsCmd
    rw [programOf, Option.bind_some, Option.bind_some, fileName_absoluteIfPathLike]

/-! ## Routes -/

/-- Nothing of a route is interpreted by `cmd`: not by the executor, not by the name of the file
that is handed to the interpreter, and not by the name of the interpreter. -/
structure BatchFree (route : ResolvedRoute) : Prop where
  executor : route.executor ≠ .cmd
  script : scriptIsBatch route.script = false
  program : programIsCmd (some route.program) = false

theorem validateRoute_enabled {route : RouteConfig} (h : validateRoute route = .ok ())
    (henabled : route.requestArgs.enabled = true) :
    route.executor ≠ .cmd ∧ scriptIsBatch route.script = false ∧
      programIsCmd route.program = false := by
  simp only [validateRoute, henabled, if_true, bind_eq_ok, bailIf_eq_ok] at h
  obtain ⟨-, -, -, -, -, -, -, -, -, -, -, -, -, hbatch, -⟩ := h
  simpa [not_or] using hbatch

/-- A route with dynamic arguments is free of `cmd` as soon as its script is. -/
theorem RouteAdmitted.batchFree_iff {base : Path} {account : WindowsServiceAccount}
    {c : RouteConfig} {route : ResolvedRoute} (h : RouteAdmitted host fs base account c route)
    (henabled : c.requestArgs.enabled = true) :
    BatchFree route ↔ scriptIsBatch route.script = false := by
  refine ⟨fun hfree ↦ hfree.script, fun hscript ↦ ?_⟩
  obtain ⟨hexecutor, -, hprogram⟩ := validateRoute_enabled h.valid henabled
  refine ⟨?_, hscript, ?_⟩
  · rw [h.carried]
    exact hexecutor
  · rw [h.program]
    exact programIsCmd_programOf hexecutor hprogram

/-! ## Configurations -/

/-- The file a script's path leads to is a batch file. -/
def LeadsToBatch (host : Host F) (fs : F) (base script : Path) : Prop :=
  ∃ path, host.canonicalize fs (absoluteFrom base script) = .ok path ∧ scriptIsBatch path = true

theorem RouteAdmitted.leadsToBatch_iff {base : Path} {account : WindowsServiceAccount}
    {c : RouteConfig} {route : ResolvedRoute} (h : RouteAdmitted host fs base account c route) :
    LeadsToBatch host fs base c.script ↔ scriptIsBatch route.script = true := by
  constructor
  · rintro ⟨path, hpath, hbatch⟩
    rw [h.script] at hpath
    cases hpath
    exact hbatch
  · exact fun hbatch ↦ ⟨route.script, h.script, hbatch⟩

theorem RouteAdmitted.enabled_batchFree_iff {base : Path} {account : WindowsServiceAccount}
    {c : RouteConfig} {route : ResolvedRoute} (h : RouteAdmitted host fs base account c route) :
    (route.requestArgs.enabled = true → BatchFree route) ↔
      (c.requestArgs.enabled = true → ¬ LeadsToBatch host fs base c.script) := by
  have hargs : route.requestArgs = c.requestArgs := by rw [h.carried]
  rw [hargs]
  refine imp_congr_right fun henabled ↦ ?_
  rw [h.batchFree_iff henabled, h.leadsToBatch_iff, Bool.not_eq_true]

theorem forall_mem_iff_of_forall₂ {α β : Type} {R : α → β → Prop} {p : α → Prop} {q : β → Prop}
    (hpq : ∀ a b, R a b → (q b ↔ p a)) {l : List α} {l' : List β} (h : List.Forall₂ R l l') :
    (∀ b ∈ l', q b) ↔ ∀ a ∈ l, p a := by
  induction h with
  | nil => simp
  | cons hab _ ih => rw [List.forall_mem_cons, List.forall_mem_cons, hpq _ _ hab, ih]

/-- The file system in which the routes are resolved is the one with the directory of the tasks. -/
theorem resolve_createDirAll {config : Config} {sourcePath base : Path} {r : ResolvedConfig}
    (h : resolve host fs config sourcePath = .ok (r, fs')) (hbase : sourcePath.parent = some base) :
    host.createDirAll fs ((absoluteFrom base config.logging.directory).join ⟨false, ["tasks"]⟩) =
      .ok fs' := by
  simp only [resolve, bind_eq_ok, withContext_eq_ok] at h
  obtain ⟨_, _, _, _, _, _, _, _, base', hbase', _, _, _, _, fs₁, hcreate, _, _, _, _, hr⟩ := h
  rw [baseOf_eq_ok hbase', Option.some.injEq] at hbase
  cases hr
  rwa [← hbase]

/-- **Dynamic arguments stay away from `cmd` exactly when no link leads to a batch file.**  For a
configuration that is accepted: each of its routes with dynamic arguments has another executor, a
script whose resolved name is not that of a batch file and a program that is not `cmd` if and only
if no script of such a route leads to a batch file in the file system it is looked up in. -/
theorem dynamic_args_batchFree_iff {config : Config} {sourcePath : Path} {r : ResolvedConfig}
    (h : resolve host fs config sourcePath = .ok (r, fs')) :
    (∀ route ∈ r.routes, route.requestArgs.enabled = true → BatchFree route) ↔
      ∀ base fs₁, sourcePath.parent = some base →
        host.createDirAll fs
          ((absoluteFrom base config.logging.directory).join ⟨false, ["tasks"]⟩) = .ok fs₁ →
        ∀ c ∈ config.routes, c.requestArgs.enabled = true →
          ¬ LeadsToBatch host fs₁ base c.script := by
  obtain ⟨base, hbase, -, -, -, hroutes⟩ := (resolve_ok h).routes
  have hcreate := resolve_createDirAll h hbase
  have hiff := forall_mem_iff_of_forall₂ (fun _ _ hc ↦ RouteAdmitted.enabled_batchFree_iff hc)
    (resolveRoutes_ok hroutes).1
  rw [hiff]
  constructor
  · intro hfree base' fs₁ hbase' hcreate'
    rw [hbase, Option.some.injEq] at hbase'
    subst hbase'
    rw [hcreate, Except.ok.injEq] at hcreate'
    exact hcreate' ▸ hfree
  · exact fun hfree ↦ hfree base fs' hbase hcreate

end

theorem dynamic_args_batchFree_guarded :
    ∃ r fs', resolve exampleHost "" guardedConfig ⟨true, ["srv", "config.yaml"]⟩ = .ok (r, fs') ∧
      (∃ route ∈ r.routes, route.requestArgs.enabled = true) ∧
      ∀ route ∈ r.routes, route.requestArgs.enabled = true → BatchFree route := by
  have hresolve : resolve exampleHost "" guardedConfig ⟨true, ["srv", "config.yaml"]⟩ =
      .ok ({ exampleResolved 16 with
        windowsService := { account := .localSystem }, routes := [guardedRoute] }, "") := by
    decide +kernel
  refine ⟨_, _, hresolve, ⟨guardedRoute, List.mem_cons_self, rfl⟩,
    (dynamic_args_batchFree_iff hresolve).mpr ?_⟩
  rintro base fs₁ hbase - c hc - ⟨path, hpath, hbatch⟩
  cases hbase
  rw [show guardedConfig.routes = [{ (exampleConfig 16).routes.head (by decide) with
    fixedArgs := ["--fixed"], requestArgs := guardedArgs }] from rfl, List.mem_singleton] at hc
  subst hc
  have hpath' : exampleHost.canonicalize fs₁ ⟨true, ["srv", "nightly.sh"]⟩ = .ok path := hpath
  cases hpath'
  revert hbatch
  decide

/-! ## A link

On a Windows host the script of the configuration is a link to a batch file beside it. -/

def linkedHost : Host String :=
  { exampleHost with
    platform := .windows
    canonicalize := fun text path ↦
      if path = ⟨true, ["srv", "nightly.sh"]⟩ then .ok ⟨true, ["srv", "nightly.bat"]⟩
      else exampleHost.canonicalize text path
    isFile := fun _ path ↦ path = ⟨true, ["srv", "nightly.bat"]⟩ }

/-- The configuration is accepted, and the arguments of a request go to `nightly.bat`. -/
theorem dynamic_args_reach_batch :
    ∃ r fs', resolve linkedHost "" guardedConfig ⟨true, ["srv", "config.yaml"]⟩ = .ok (r, fs') ∧
      ∃ route ∈ r.routes, route.requestArgs.enabled = true ∧ ¬ BatchFree route := by
  refine ⟨_, _, show resolve linkedHost "" guardedConfig ⟨true, ["srv", "config.yaml"]⟩ =
    .ok ({ exampleResolved 16 with
      windowsService := { account := .localSystem }
      routes := [{ guardedRoute with script := ⟨true, ["srv", "nightly.bat"]⟩ }] }, "") by
    decide +kernel, _, List.mem_cons_self, rfl, fun hfree ↦ ?_⟩
  exact absurd hfree.script (by decide)

end CommandApi
