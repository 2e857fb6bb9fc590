import Mathlib
import CommandApi.Config.Types
import CommandApi.Text.Utf8

/-!
# Loading a configuration

`Config::load` and `Config::resolve` of `src/config.rs`, and what they use of `src/secret.rs`: the
checks in their order, with the texts they fail with, and the resolution of the paths, the token and
the patterns.

What lies outside the program is a `Host`: the file system, whose state is an `F`, the environment,
and the crates that parse YAML, patterns and password hashes or talk to DPAPI.  `resolve` changes
the file system in one place, where it creates the log directory, so it returns the new state.

`resolve_ok` is what later stages may rely on: what the checks have established, and which parts of
the configuration are passed on as they are.
-/

set_option autoImplicit false

namespace CommandApi

open Text

/-! ## Errors -/

/-- A check that ends in `bail!`. -/
def bailIf (c : Prop) [Decidable c] (text : String) : Except String Unit :=
  if c then .error text else .ok ()

/-- `with_context`, as `{error:#}` prints it. -/
def withContext {α : Type} (text : String) (x : Except String α) : Except String α :=
  x.mapError fun error ↦ s!"{text}: {error}"

section

variable {ε α β : Type} {x : Except String α} {text : String}

@[simp] theorem bailIf_eq_ok {c : Prop} [Decidable c] {u : Unit} :
    bailIf c text = .ok u ↔ ¬ c := by
  rw [bailIf]
  split <;> simp_all

@[simp] theorem mapError_eq_ok {δ : Type} {f : ε → δ} {y : Except ε α} {a : α} :
    y.mapError f = .ok a ↔ y = .ok a := by
  cases y <;> simp [Except.mapError]

@[simp] theorem withContext_eq_ok {a : α} : withContext text x = .ok a ↔ x = .ok a :=
  mapError_eq_ok

theorem guard_eq_ok {c : Prop} [Decidable c] {a b : α} {e : ε} :
    (if c then .ok a else .error e : Except ε α) = .ok b ↔ c ∧ a = b := by
  split
  · rename_i hc
    rw [Except.ok.injEq, and_iff_right hc]
  · rename_i hc
    exact ⟨nofun, fun h ↦ absurd h.1 hc⟩

/-- A sequence of steps succeeds when each of them does. -/
@[simp] theorem bind_eq_ok {y : Except ε α} {f : α → Except ε β} {b : β} :
    y >>= f = .ok b ↔ ∃ a, y = .ok a ∧ f a = .ok b := by
  cases y with
  | error e => simp [bind, Except.bind]
  | ok a => simp [bind, Except.bind]

theorem mapM_eq_ok {f : α → Except ε β} {l : List α} {l' : List β} :
    l.mapM f = .ok l' ↔ List.Forall₂ (fun a b ↦ f a = .ok b) l l' := by
  induction l generalizing l' with
  | nil =>
    rw [List.mapM_nil, List.forall₂_nil_left_iff]
    exact ⟨fun h ↦ by cases h; rfl, fun h ↦ by rw [h]; rfl⟩
  | cons a l ih =>
    simp only [List.mapM_cons, bind_eq_ok, ih, List.forall₂_cons_left_iff]
    constructor
    · rintro ⟨b, hb, bs, hbs, h⟩
      cases h
      exact ⟨b, bs, hb, hbs, rfl⟩
    · rintro ⟨b, bs, hb, hbs, rfl⟩
      exact ⟨b, hb, bs, hbs, rfl⟩

/-- … and a step that only checks is a check of every element. -/
theorem mapM_check_eq_ok {f : α → Except ε β} {C : α → Prop} {g : α → β}
    (hf : ∀ a b, f a = .ok b ↔ C a ∧ g a = b) {l : List α} {l' : List β} :
    l.mapM f = .ok l' ↔ (∀ a ∈ l, C a) ∧ l.map g = l' := by
  simp only [mapM_eq_ok, hf]
  rw [List.forall₂_and_left, ← List.forall₂_map_left_iff, List.forall₂_eq_eq_eq]

end

/-! ## The host -/

/-- What the `pbkdf2` crate reads from a PHC string. -/
structure Phc where
  algorithm : String
  salt : Bool
  hash : Bool
  /-- The length of the output and the number of rounds. -/
  params : Except String (ℕ × ℕ)

/-- Everything `load` meets outside the program.  `F` is the state of the file system. -/
structure Host (F : Type) where
  platform : Platform
  canonicalize : F → Path → Except String Path
  readToString : F → Path → Except String String
  read : F → Path → Except String (List UInt8)
  isFile : F → Path → Bool
  isDir : F → Path → Bool
  createDirAll : F → Path → Except String F
  /-- `std::env::var`. -/
  var : String → Except String String
  /-- `serde_yaml::from_str`. -/
  fromYaml : String → Except String Config
  /-- `Regex::new`; a pattern that is accepted is known by its text. -/
  regexNew : String → Except String Unit
  /-- `PasswordHash::new`. -/
  passwordHash : String → Except String Phc
  /-- `CryptUnprotectData`. -/
  cryptUnprotectData : List UInt8 → Except String (List UInt8)
  /-- The text of a `FromUtf8Error`. -/
  utf8Error : List UInt8 → String
  sha256 : List UInt8 → List UInt8

section

variable {F : Type} (host : Host F) (fs : F)

/-! ## Tokens -/

def maxPbkdf2Sha256Rounds : ℕ := 1000000

def validateToken (token : String) : Except String Unit := do
  bailIf (token.utf8ByteSize < 32) "Token 至少需要 32 字节"
  bailIf (4096 < token.utf8ByteSize) "Token 不能超过 4096 字节"
  bailIf ('\r' ∈ token.toList ∨ '\n' ∈ token.toList ∨ '\x00' ∈ token.toList)
    "Token 不能包含换行符或 NUL 字符"

/-- A text without a line break and without NUL. -/
def SingleLine (token : String) : Prop :=
  '\r' ∉ token.toList ∧ '\n' ∉ token.toList ∧ '\x00' ∉ token.toList

instance (token : String) : Decidable (SingleLine token) := inferInstanceAs (Decidable (_ ∧ _))

theorem validateToken_eq_ok {token : String} :
    validateToken token = .ok () ↔
      32 ≤ token.utf8ByteSize ∧ token.utf8ByteSize ≤ 4096 ∧ SingleLine token := by
  simp [validateToken, SingleLine, not_or]

def tokenFingerprint (token : String) : List UInt8 := host.sha256 (encodeUtf8 token.toList)

/-- `TokenVerifier::from_token`. -/
def TokenVerifier.fromToken (token : String) : TokenVerifier :=
  .sha256 (tokenFingerprint host token)

def validatePbkdf2Sha256 (phc : String) : Except String Unit := do
  let hash ← (host.passwordHash phc).mapError fun error ↦
    s!"auth.token.hash 不是有效 PHC 字符串: {error}"
  bailIf (hash.algorithm ≠ "pbkdf2-sha256") "auth.token.hash 必须使用 pbkdf2-sha256 算法"
  bailIf (hash.salt = false ∨ hash.hash = false) "auth.token.hash 必须包含 salt 和摘要"
  let params ← hash.params.mapError fun error ↦ s!"auth.token.hash 的 PBKDF2 参数无效: {error}"
  bailIf (params.1 ≠ 32) "auth.token.hash 的摘要长度必须为 32 字节"
  bailIf (maxPbkdf2Sha256Rounds < params.2)
    s!"auth.token.hash 的 PBKDF2 迭代次数不能超过 {maxPbkdf2Sha256Rounds}"

/-- `TokenVerifier::from_pbkdf2_sha256`. -/
def TokenVerifier.fromPbkdf2Sha256 (phc : String) : Except String TokenVerifier := do
  validatePbkdf2Sha256 host phc
  pure (.pbkdf2Sha256 phc)

/-- `dpapi::unprotect`. -/
def unprotect (bytes : List UInt8) : Except String (List UInt8) :=
  match host.platform with
  | .unix => .error "Windows DPAPI 密钥仅支持 Windows"
  | .windows => host.cryptUnprotectData bytes

/-- `String::from_utf8`. -/
def fromUtf8 (bytes : List UInt8) : Except String String :=
  match decodeUtf8 bytes with
  | some cs => .ok (String.ofList cs)
  | none => .error (host.utf8Error bytes)

def unprotectFromFile (path : Path) : Except String String := do
  let bytes ← withContext s!"无法读取 DPAPI 密钥文件 {path.display}" (host.read fs path)
  let plaintext ← unprotect host bytes
  let token ← withContext "DPAPI 密钥解密结果不是 UTF-8" (fromUtf8 host plaintext)
  validateToken token
  pure token

/-- The characters `str::trim` removes. -/
def whiteSpace (c : Char) : Bool :=
  let n := c.toNat
  (9 ≤ n && n ≤ 13) || n = 0x20 || n = 0x85 || n = 0xa0 || n = 0x1680 ||
    (0x2000 ≤ n && n ≤ 0x200a) || n = 0x2028 || n = 0x2029 || n = 0x202f || n = 0x205f || n = 0x3000

/-! ## Paths -/

def absoluteFrom (base value : Path) : Path := if value.absolute then value else base.join value

def absoluteIfPathLike (base value : Path) : Path :=
  if value.absolute ∨ 1 < value.componentCount then absoluteFrom base value else value

def canonicalFile (base value : Path) (label : String) : Except String Path := do
  let path := absoluteFrom base value
  let path ← withContext s!"{label}不存在: {path.display}" (host.canonicalize fs path)
  bailIf (host.isFile fs path = false) s!"{label}不是文件: {path.display}"
  pure path

def resolveToken (base : Path) : TokenSource → Except String TokenVerifier
  | .environment name => do
    bailIf (name.toList.all whiteSpace = true ∨ '=' ∈ name.toList ∨ '\x00' ∈ name.toList)
      "auth.token.variable 非法"
    let token ← withContext s!"环境变量 {name} 未设置或不是 UTF-8" (host.var name)
    validateToken token
    pure (.fromToken host token)
  | .windowsDpapi file => do
    let path := absoluteFrom base file
    let path ← withContext s!"DPAPI 密钥文件不存在: {path.display}" (host.canonicalize fs path)
    let token ← unprotectFromFile host fs path
    validateToken token
    pure (.fromToken host token)
  | .pbkdf2Sha256 hash => TokenVerifier.fromPbkdf2Sha256 host hash

def resolveTls (base : Path) : Option TlsConfig → Except String (Option TlsConfig)
  | none => pure none
  | some tls => do
    let certificate ← canonicalFile host fs base tls.certificate "TLS 服务器证书"
    let privateKey ← canonicalFile host fs base tls.privateKey "TLS 服务器私钥"
    let clientCaCertificate ← canonicalFile host fs base tls.clientCaCertificate "TLS 客户端 CA 证书"
    pure (some ⟨certificate, privateKey, clientCaCertificate⟩)

/-! ## Listeners, access and the service -/

/-- The loop over the listeners; `seen` is what the set holds. -/
def checkUnique (seen : List ListenerConfig) : List ListenerConfig → Except String Unit
  | [] => pure ()
  | listener :: rest => do
    bailIf (listener ∈ seen)
      s!"server 包含重复监听端点: {listener.host.display}:{listener.port.toNat}"
    checkUnique (listener :: seen) rest

def validateListeners (listeners : List ListenerConfig) : Except String Unit := do
  bailIf (listeners = []) "server 至少需要一个监听端点"
  checkUnique [] listeners

def defaultHosts : List IpAddr := [.v4 0x7f000001]

def defaultPort : UInt16 := 27415

/-- The listeners of either form of the configuration. -/
def listenersOf (server : ServerConfig) : Except String (List ListenerConfig) :=
  if server.listeners = [] then
    pure ((server.hosts.getD defaultHosts).map fun h ↦ ⟨h, server.port.getD defaultPort⟩)
  else do
    bailIf (server.hosts.isSome ∨ server.port.isSome)
      "server.listeners 不能与 server.host/server.hosts/server.port 同时配置"
    pure server.listeners

def resolveServer (server : ServerConfig) : Except String (List ListenerConfig) := do
  let listeners ← listenersOf server
  validateListeners listeners
  pure listeners

def validateAccess (access : AccessConfig) : Except String Unit := do
  bailIf (access.allowedCidrs = []) "access.allowed_cidrs 至少需要一个 CIDR"
  bailIf (access.tokenFailureCooldown.enabled ∧
      (access.tokenFailureCooldown.seconds = 0 ∨ access.tokenFailureCooldown.maxTrackedIps = 0))
    "启用 token_failure_cooldown 时 seconds 和 max_tracked_ips 必须大于 0"

def validateServiceName (name : String) : Except String Unit :=
  bailIf (name = "" ∨ 128 < name.utf8ByteSize ∨ '/' ∈ name.toList ∨ '\\' ∈ name.toList)
    s!"windows_service.name 非法: {name}"

/-! ## Routes -/

def validateArgs (path : String) (args : List String) : Except String Unit :=
  bailIf (∃ arg ∈ args, '\x00' ∈ arg.toList) s!"路由 {path} 的固定参数不能包含 NUL 字符"

/-- A text without the case of its ASCII letters. -/
def asciiLower (s : String) : List Char := s.toList.map Char.toLower

/-- The script is a batch file by its name. -/
def scriptIsBatch (script : Path) : Bool :=
  match script.extension with
  | some extension => asciiLower extension = "bat".toList || asciiLower extension = "cmd".toList
  | none => false

/-- The program is `cmd` by its name. -/
def programIsCmd (program : Option Path) : Bool :=
  match program.bind Path.fileName with
  | some name => asciiLower name = "cmd".toList || asciiLower name = "cmd.exe".toList
  | none => false

def validateRoute (route : RouteConfig) : Except String Unit := do
  let path := route.path
  let cs := path.toList
  bailIf (cs.head? ≠ some '/' ∨ path.utf8ByteSize < 2 ∨ cs.getLast? = some '/')
    s!"路由路径必须以 / 开头且不能以 / 结尾: {path}"
  bailIf ('?' ∈ cs ∨ '#' ∈ cs ∨ ['.', '.'] ∈ cs.splitOn '/') s!"路由路径包含非法内容: {path}"
  bailIf (path = "/" ∨ path = "/healthz" ∨ path = "/tasks" ∨ "/tasks/".toList <+: cs ∨
      path = "/system" ∨ "/system/".toList <+: cs)
    s!"路由路径与系统接口冲突: {path}"
  bailIf (route.maxConcurrency = 0) s!"路由 {path} 的 max_concurrency 必须大于 0"
  bailIf (route.maxExecutionSeconds = 0) s!"路由 {path} 的 max_execution_seconds 必须大于 0"
  bailIf (route.gracefulShutdownSeconds = 0) s!"路由 {path} 的 graceful_shutdown_seconds 必须大于 0"
  if route.requestArgs.enabled then
    bailIf (route.executor = .cmd ∨ scriptIsBatch route.script ∨ programIsCmd route.program)
      s!"路由 {path} 使用 cmd/.bat/.cmd 时禁止启用动态请求参数"
    bailIf (route.requestArgs.maxCount = 0 ∨ route.requestArgs.maxItemBytes = 0 ∨
        route.requestArgs.maxTotalBytes = 0)
      s!"路由 {path} 的动态参数限制必须大于 0"
  validateArgs path route.fixedArgs

/-- The working directory a route asks for, or the directory of its script. -/
def directoryOf (base script : Path) : Option Path → Except String Path
  | some directory => .ok (absoluteFrom base directory)
  | none => match script.parent with
    | some directory => .ok directory
    | none => .error "脚本没有父目录"

/-- The program a route asks for, or the default one. -/
def programOf (base : Path) (executor : Executor) : Option Path → Path
  | some program => absoluteIfPathLike base program
  | none => ⟨false, [executor.defaultProgram host.platform]⟩

/-- A pattern of a route is compiled. -/
def compile (path pattern : String) : Except String Regex := do
  withContext s!"路由 {path} 的动态参数正则无效: {pattern}" (host.regexNew pattern)
  pure ⟨pattern⟩

/-- One turn of the loop over the routes; `paths` is what the set holds. -/
def resolveRoute (base : Path) (account : WindowsServiceAccount) (paths : List String)
    (route : RouteConfig) : Except String ResolvedRoute := do
  validateRoute route
  bailIf (account = .localSystem ∧ route.requestArgs.enabled ∧
      route.requestArgs.allowedValues = [] ∧ route.requestArgs.allowedPatterns = [])
    s!"LocalSystem 路由 {route.path} 启用动态参数时必须配置 allowed_values 或 allowed_patterns"
  bailIf (route.path ∈ paths) s!"路由 {route.path} 重复配置"
  let script := absoluteFrom base route.script
  let script ← withContext s!"路由 {route.path} 的脚本不存在: {script.display}"
    (host.canonicalize fs script)
  bailIf (host.isFile fs script = false) s!"路由 {route.path} 的脚本不是文件: {script.display}"
  let workingDirectory ← directoryOf base script route.workingDirectory
  let workingDirectory ←
    withContext s!"路由 {route.path} 的工作目录不存在: {workingDirectory.display}"
      (host.canonicalize fs workingDirectory)
  bailIf (host.isDir fs workingDirectory = false)
    s!"路由 {route.path} 的工作目录不是目录: {workingDirectory.display}"
  let requestArgPatterns ← route.requestArgs.allowedPatterns.mapM (compile host route.path)
  pure
    { path := route.path
      executor := route.executor
      program := programOf host base route.executor route.program
      script
      fixedArgs := route.fixedArgs
      requestArgs := route.requestArgs
      requestArgPatterns
      workingDirectory
      env := route.env
      maxConcurrency := route.maxConcurrency
      maxExecutionSeconds := route.maxExecutionSeconds
      gracefulShutdownSeconds := route.gracefulShutdownSeconds
      mergeStdoutStderr := route.mergeStdoutStderr
      outputEncoding := route.outputEncoding }

def resolveRoutes (base : Path) (account : WindowsServiceAccount) :
    List String → List RouteConfig → Except String (List ResolvedRoute)
  | _, [] => pure []
  | paths, route :: rest => do
    let resolved ← resolveRoute host fs base account paths route
    let routes ← resolveRoutes base account (route.path :: paths) rest
    pure (resolved :: routes)

/-! ## The whole configuration -/

/-- The checks that look at the file alone. -/
def validateNumbers (config : Config) : Except String Unit := do
  bailIf (config.execution.maxTotalConcurrency = 0) "execution.max_total_concurrency 必须大于 0"
  bailIf (config.execution.shutdownTimeoutSeconds = 0) "execution.shutdown_timeout_seconds 必须大于 0"
  bailIf (config.logging.retentionSeconds = 0) "logging.retention_seconds 必须大于 0"
  bailIf (config.logging.maxOutputBytesPerTask = 0) "logging.max_output_bytes_per_task 必须大于 0"
  bailIf (config.routes = []) "routes 至少需要配置一条路由"

/-- `Path::parent` of the configuration file, or the error. -/
def baseOf (sourcePath : Path) : Except String Path :=
  match sourcePath.parent with
  | some base => .ok base
  | none => .error "配置文件没有父目录"

def resolve (config : Config) (sourcePath : Path) : Except String (ResolvedConfig × F) := do
  let listeners ← resolveServer config.server
  validateAccess config.access
  validateNumbers config
  validateServiceName config.windowsService.name
  let base ← baseOf sourcePath
  let token ← resolveToken host fs base config.token
  let tls ← resolveTls host fs base config.tls
  let logDirectory := absoluteFrom base config.logging.directory
  let fs ← withContext s!"无法创建日志目录 {logDirectory.display}"
    (host.createDirAll fs (logDirectory.join ⟨false, ["tasks"]⟩))
  let logDirectory ← withContext s!"无法访问日志目录 {logDirectory.display}"
    (host.canonicalize fs logDirectory)
  let routes ← resolveRoutes host fs base config.windowsService.account [] config.routes
  pure
    ({ sourcePath
       listeners
       access := config.access
       tls
       token
       logging := { config.logging with directory := logDirectory }
       execution := config.execution
       windowsService := config.windowsService
       routes }, fs)

/-- What the configuration file says, and the file's own path. -/
def readConfig (path : Path) : Except String (Path × Config) := do
  let sourcePath ← withContext s!"无法读取配置文件 {path.display}" (host.canonicalize fs path)
  let content ← withContext s!"无法读取配置文件 {sourcePath.display}"
    (host.readToString fs sourcePath)
  let config ← withContext s!"无法解析 YAML 配置 {sourcePath.display}" (host.fromYaml content)
  pure (sourcePath, config)

/-- `Config::load`. -/
def load (path : Path) : Except String (ResolvedConfig × F) := do
  let (sourcePath, config) ← readConfig host fs path
  resolve host fs config sourcePath

/-! ## What is known of a configuration that was accepted -/

/-- A route as the file has it, and as it was resolved. -/
structure RouteAdmitted (base : Path) (account : WindowsServiceAccount) (route : RouteConfig)
    (r : ResolvedRoute) : Prop where
  valid : validateRoute route = .ok ()
  guarded : account = .localSystem → route.requestArgs.enabled = true →
    route.requestArgs.allowedValues = [] → route.requestArgs.allowedPatterns ≠ []
  script : host.canonicalize fs (absoluteFrom base route.script) = .ok r.script
  isFile : host.isFile fs r.script = true
  workingDirectory : ∃ directory,
    directoryOf base r.script route.workingDirectory = .ok directory ∧
      host.canonicalize fs directory = .ok r.workingDirectory
  isDir : host.isDir fs r.workingDirectory = true
  program : r.program = programOf host base route.executor route.program
  /-- Everything else is passed on as it is. -/
  carried : r = ⟨route.path, route.executor, r.program, r.script, route.fixedArgs,
    route.requestArgs, route.requestArgs.allowedPatterns.map Regex.mk, r.workingDirectory,
    route.env, route.maxConcurrency, route.maxExecutionSeconds, route.gracefulShutdownSeconds,
    route.mergeStdoutStderr, route.outputEncoding⟩

variable {host fs}

theorem compile_eq_ok {path pattern : String} {r : Regex} :
    compile host path pattern = .ok r ↔ host.regexNew pattern = .ok () ∧ ⟨pattern⟩ = r := by
  simp only [compile, bind_eq_ok, withContext_eq_ok]
  constructor
  · rintro ⟨u, hu, h⟩
    cases h
    exact ⟨hu, rfl⟩
  · rintro ⟨hu, rfl⟩
    exact ⟨_, hu, rfl⟩

theorem resolveRoute_ok {base : Path} {account : WindowsServiceAccount} {paths : List String}
    {route : RouteConfig} {r : ResolvedRoute}
    (h : resolveRoute host fs base account paths route = .ok r) :
    RouteAdmitted host fs base account route r ∧ route.path ∉ paths := by
  simp only [resolveRoute, bind_eq_ok, bailIf_eq_ok, withContext_eq_ok] at h
  obtain ⟨u, hvalid, u, hguard, u, hpath, script, hscript, u, hfile, dir₀, hdir₀, dir, hdir, u,
    hisDir, patterns, hpatterns, hr⟩ := h
  cases hr
  refine ⟨⟨hvalid, ?_, hscript, by simpa using hfile, ⟨dir₀, hdir₀, hdir⟩, by simpa using hisDir,
    rfl, ?_⟩, hpath⟩
  · exact fun ha he hv hp ↦ hguard ⟨ha, he, hv, hp⟩
  · rw [((mapM_check_eq_ok fun _ _ ↦ compile_eq_ok).mp hpatterns).2]

/-- **The routes are resolved one by one**, and no path comes twice. -/
theorem resolveRoutes_ok {base : Path} {account : WindowsServiceAccount} {paths : List String}
    {routes : List RouteConfig} {rs : List ResolvedRoute}
    (h : resolveRoutes host fs base account paths routes = .ok rs) :
    List.Forall₂ (RouteAdmitted host fs base account) routes rs ∧
      (routes.map (·.path)).Nodup ∧ ∀ path ∈ routes.map (·.path), path ∉ paths := by
  induction routes generalizing paths rs with
  | nil =>
    cases h
    exact ⟨.nil, .nil, nofun⟩
  | cons route routes ih =>
    simp only [resolveRoutes, bind_eq_ok] at h
    obtain ⟨r, hr, rs', hrs, heq⟩ := h
    cases heq
    obtain ⟨hacc, hpath⟩ := resolveRoute_ok hr
    obtain ⟨hrest, hnodup, hfresh⟩ := ih hrs
    refine ⟨.cons hacc hrest, ?_, ?_⟩
    · rw [List.map_cons, List.nodup_cons]
      exact ⟨fun hmem ↦ hfresh _ hmem List.mem_cons_self, hnodup⟩
    · intro path hmem
      rcases List.mem_cons.mp hmem with rfl | hmem
      · exact hpath
      · exact fun hp ↦ hfresh path hmem (List.mem_cons_of_mem _ hp)

/-- A configuration as the file has it, and as it was resolved. -/
structure Admitted (host : Host F) (fs : F) (config : Config) (sourcePath : Path)
    (r : ResolvedConfig) (fs' : F) : Prop where
  server : resolveServer config.server = .ok r.listeners
  access : validateAccess config.access = .ok ()
  numbers : validateNumbers config = .ok ()
  serviceName : validateServiceName config.windowsService.name = .ok ()
  routes : ∃ base, sourcePath.parent = some base ∧
    resolveToken host fs base config.token = .ok r.token ∧
    resolveTls host fs base config.tls = .ok r.tls ∧
    host.canonicalize fs' (absoluteFrom base config.logging.directory) = .ok r.logging.directory ∧
    resolveRoutes host fs' base config.windowsService.account [] config.routes = .ok r.routes
  /-- Everything else is passed on as it is. -/
  carried : r = ⟨sourcePath, r.listeners, config.access, r.tls, r.token,
    { config.logging with directory := r.logging.directory }, config.execution,
    config.windowsService, r.routes⟩

theorem baseOf_eq_ok {sourcePath base : Path} (h : baseOf sourcePath = .ok base) :
    sourcePath.parent = some base := by
  rw [baseOf] at h
  split at h
  · rename_i hparent
    cases h
    exact hparent
  · cases h

theorem resolve_ok {config : Config} {sourcePath : Path} {r : ResolvedConfig} {fs' : F}
    (h : resolve host fs config sourcePath = .ok (r, fs')) :
    Admitted host fs config sourcePath r fs' := by
  simp only [resolve, bind_eq_ok, withContext_eq_ok] at h
  obtain ⟨listeners, hserver, u, haccess, u, hnumbers, u, hname, base, hbase, token, htoken, tls,
    htls, fs₁, -, directory, hdirectory, routes, hroutes, hr⟩ := h
  cases hr
  exact ⟨hserver, haccess, hnumbers, hname,
    ⟨base, baseOf_eq_ok hbase, htoken, htls, hdirectory, hroutes⟩, rfl⟩

theorem load_ok {path : Path} {r : ResolvedConfig} {fs' : F}
    (h : load host fs path = .ok (r, fs')) :
    ∃ sourcePath config, readConfig host fs path = .ok (sourcePath, config) ∧
      Admitted host fs config sourcePath r fs' := by
  rw [load, bind_eq_ok] at h
  obtain ⟨⟨sourcePath, config⟩, hread, hresolve⟩ := h
  exact ⟨sourcePath, config, hread, resolve_ok hresolve⟩

end

end CommandApi
