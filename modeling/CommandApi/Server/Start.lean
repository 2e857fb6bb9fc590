import CommandApi.Config.Resolve

/-!
# Starting a generation of the service

`app::build`, `load_tls_config` and the part of `runtime::run` up to where the listeners are bound,
and `restart_service`, which decides whether there will be a next generation.

`restart_service` loads the new configuration while the old generation is still serving, so that a
configuration that cannot be used is answered with 409 and nothing is lost.  But `resolve` does not
look at everything the start looks at: tokio limits the permits of a semaphore, axum refuses paths
and pairs of paths, rustls reads the files whose existence alone was checked, and the host refuses
addresses and pairs of addresses.  `accepted_restart_starts_iff` says when an accepted restart
starts again, and `accepted_restart_panics` is one that does not.
-/

set_option autoImplicit false

namespace CommandApi

/-! ## What the crates do -/

/-- `Semaphore::MAX_PERMITS`, for a width of `usize`. -/
def maxPermits (usizeBits : ℕ) : ℕ := (2 ^ usizeBits - 1) >>> 3

/-- The calls of `build` that can panic. -/
inductive Panic
  | semaphore (permits : ℕ)
  | route (path : String)
  deriving DecidableEq, Repr

/-- `Semaphore::new`. -/
def semaphoreNew (usizeBits permits : ℕ) : Except Panic ℕ :=
  if permits ≤ maxPermits usizeBits then .ok permits else .error (.semaphore permits)

/-- The paths `build` adds itself. -/
def systemRoutes : List String :=
  ["/", "/healthz", "/tasks/\x7btask_id\x7d", "/tasks/\x7btask_id\x7d/output",
    "/tasks/\x7btask_id\x7d/cancel", "/tasks/\x7btask_id\x7d/kill", "/system/stop",
    "/system/restart"]

/-- What can be added to a table one after the other: each for itself, and each next to the
others. -/
def Compatible {α : Type} (valid : α → Bool) (conflict : α → α → Bool) (l : List α) : Prop :=
  (∀ a ∈ l, valid a = true) ∧ l.Pairwise fun a b ↦ conflict a b = false

instance {α : Type} (valid : α → Bool) (conflict : α → α → Bool) (l : List α) :
    Decidable (Compatible valid conflict l) := inferInstanceAs (Decidable (_ ∧ _))

/-- One addition to the table. -/
def addCompatible {α ε : Type} (valid : α → Bool) (conflict : α → α → Bool) (error : α → ε)
    (l : List α) (a : α) : Except ε (List α) :=
  if valid a = true ∧ ∀ b ∈ l, conflict b a = false then .ok (l ++ [a]) else .error (error a)

/-- axum's `Router::route`, as far as `build` depends on it.  It panics at a path that is not
`valid` and at a path that is in `conflict` with one that was added before. -/
structure Axum where
  valid : String → Bool
  conflict : String → String → Bool
  comm : ∀ p q, conflict p q = conflict q p
  system : Compatible valid conflict systemRoutes

/-- `Router::route`.  `resolve` admits no path twice and none of the system's, so the case of a path
that is there already does not arise. -/
def Axum.route (axum : Axum) : List String → String → Except Panic (List String) :=
  addCompatible axum.valid axum.conflict .route

/-- `TcpListener::bind`, as far as `run` depends on it.  It fails for an address and port that are
not `available` to the service, and next to a bound one it is in `conflict` with, such as another
address of the host next to the unspecified one. -/
structure Sockets where
  available : ListenerConfig → Bool
  conflict : ListenerConfig → ListenerConfig → Bool
  comm : ∀ p q, conflict p q = conflict q p
  /-- What the host answers then. -/
  error : ListenerConfig → String

/-- `axum_server::bind` next to what is bound already. -/
def Sockets.bind (sockets : Sockets) :
    List ListenerConfig → ListenerConfig → Except String (List ListenerConfig) :=
  addCompatible sockets.available sockets.conflict sockets.error

/-- The calls of `rustls` and `rustls_pemfile` in `load_tls_config`, on bytes. -/
structure Rustls where
  certs : List UInt8 → List (Except String (List UInt8))
  privateKey : List UInt8 → Except String (Option (List UInt8))
  /-- `RootCertStore::add`. -/
  add : List UInt8 → Except String Unit
  /-- `WebPkiClientVerifier::builder(…).build()`. -/
  clientVerifier : List (List UInt8) → Except String Unit
  /-- `with_single_cert`. -/
  withSingleCert : List (List UInt8) → List UInt8 → Except String Unit

/-- The order in which a `HashMap` gives its values, or in which tasks that were spawned together
get their turn. -/
structure ValuesOrder (α : Type) where
  values : List α → List α
  perm : ∀ l, (values l).Perm l

/-! ## `app::build` -/

/-- `RouteRuntime`, with the permits its semaphore was made with. -/
structure RouteRuntime where
  config : ResolvedRoute
  limit : ℕ
  deriving DecidableEq, Repr

/-- `AppState` and the router around it. -/
structure App where
  token : TokenVerifier
  allowedCidrs : List IpNet
  tokenFailureCooldown : TokenFailureCooldownConfig
  globalLimit : ℕ
  routes : List RouteRuntime
  configPath : Path
  loggingDirectory : Path
  router : List String
  deriving DecidableEq, Repr

section

variable (usizeBits : ℕ) (axum : Axum)

def routeRuntimeNew (route : ResolvedRoute) : Except Panic RouteRuntime := do
  let limit ← semaphoreNew usizeBits route.maxConcurrency
  pure ⟨route, limit⟩

def build (order : ValuesOrder RouteRuntime) (config : ResolvedConfig) : Except Panic App := do
  let routes ← config.routes.mapM (routeRuntimeNew usizeBits)
  let globalLimit ← semaphoreNew usizeBits config.execution.maxTotalConcurrency
  let router ← systemRoutes.foldlM axum.route []
  let router ← ((order.values routes).map (·.config.path)).foldlM axum.route router
  pure
    { token := config.token
      allowedCidrs := config.access.allowedCidrs
      tokenFailureCooldown := config.access.tokenFailureCooldown
      globalLimit
      routes
      configPath := config.sourcePath
      loggingDirectory := config.logging.directory
      router }

end

/-! ## `load_tls_config` -/

structure RustlsConfig where
  certificates : List (List UInt8)
  privateKey : List UInt8
  clientRoots : List (List UInt8)
  alpnProtocols : List String
  deriving DecidableEq, Repr

/-- `Option::context`. -/
def present {α : Type} (text : String) : Option α → Except String α
  | some a => .ok a
  | none => .error text

section

variable {F : Type} (host : Host F) (rustls : Rustls) (fs : F)

/-- One turn of the loop over the certificates of the client CA. -/
def addRoot (certificate : Except String (List UInt8)) : Except String (List UInt8) := do
  let certificate ← withContext "无法解析 TLS 客户端 CA" certificate
  rustls.add certificate
  pure certificate

def loadTlsConfig (config : TlsConfig) : Except String RustlsConfig := do
  let pem ← withContext s!"无法读取 TLS 服务器证书 {config.certificate.display}"
    (host.read fs config.certificate)
  let certificates ← withContext "无法解析 TLS 服务器证书" ((rustls.certs pem).mapM id)
  bailIf (certificates = []) "TLS 服务器证书为空"
  let pem ← withContext s!"无法读取 TLS 服务器私钥 {config.privateKey.display}"
    (host.read fs config.privateKey)
  let key ← withContext "无法解析 TLS 服务器私钥" (rustls.privateKey pem)
  let privateKey ← present "TLS 服务器私钥为空" key
  let pem ← withContext s!"无法读取 TLS 客户端 CA {config.clientCaCertificate.display}"
    (host.read fs config.clientCaCertificate)
  let clientRoots ← (rustls.certs pem).mapM (addRoot rustls)
  bailIf (clientRoots = []) "TLS 客户端 CA 证书为空"
  rustls.clientVerifier clientRoots
  withContext "TLS 服务器证书与私钥不匹配" (rustls.withSingleCert certificates privateKey)
  pure ⟨certificates, privateKey, clientRoots, ["h2", "http/1.1"]⟩

/-- `config.tls.as_ref().map(load_tls_config).transpose()`. -/
def loadTls : Option TlsConfig → Except String (Option RustlsConfig)
  | none => pure none
  | some tls => do
    let config ← loadTlsConfig host rustls fs tls
    pure (some config)

end

/-! ## A generation -/

/-- How the start of a generation can fail. -/
inductive StartError
  | loggingDirectory (text : String)
  /-- `TaskStore::open`. -/
  | store (text : String)
  | panic (p : Panic)
  | tls (text : String)
  /-- A listener cannot be bound. -/
  | server (text : String)
  deriving DecidableEq, Repr

/-- The configuration is to blame. -/
def StartError.FromConfig : StartError → Prop
  | .store _ => False
  | .loggingDirectory _ | .panic _ | .tls _ | .server _ => True

/-- A generation that is listening. -/
structure Started where
  app : App
  tls : Option RustlsConfig
  listeners : List ListenerConfig
  deriving DecidableEq, Repr

section

variable {F : Type} (usizeBits : ℕ) (host : Host F) (axum : Axum) (rustls : Rustls)
  (sockets : Sockets)

/-- One turn of the loop of `run`, up to where it is listening.  `store` is what `TaskStore::open`
answers, `loggingDirectory` is the directory `run` began with, and `turns` is the order in which the
tasks of the listeners bind them: the first that fails ends the server. -/
def startGeneration (fs : F) (loggingDirectory : Path) (config : ResolvedConfig)
    (store : Except String Unit) (order : ValuesOrder RouteRuntime)
    (turns : ValuesOrder ListenerConfig) : Except StartError Started := do
  if config.logging.directory ≠ loggingDirectory then
    .error (.loggingDirectory "运行时重启不允许修改 logging.directory；请停止服务后再启动")
  else
    store.mapError .store
    let app ← (build usizeBits axum order config).mapError .panic
    let tls ← (loadTls host rustls fs config.tls).mapError .tls
    let bound := (turns.values config.listeners).foldlM sockets.bind []
    let listeners ← (withContext "HTTP 服务异常退出" bound).mapError .server
    pure ⟨app, tls, listeners⟩

end

/-! ## `restart_service` -/

structure ApiError where
  status : ℕ
  code : String
  message : String
  deriving DecidableEq, Repr

inductive ManagementAction
  | stop
  | restart (config : ResolvedConfig)
  deriving DecidableEq, Repr

/-- `lifecycle_state`, and the channel to the watcher: it has room for one action. -/
structure Management where
  lifecycleState : UInt8
  pending : Option ManagementAction
  receiver : Bool
  deriving DecidableEq, Repr

def requestManagementAction (m : Management) (action : ManagementAction) :
    Except ApiError Management :=
  if m.lifecycleState ≠ 0 then
    .error ⟨409, "service_transition_in_progress", "服务停止或重启操作已经开始"⟩
  else if m.pending.isSome ∨ m.receiver = false then
    .error ⟨503, "service_control_unavailable", "服务管理通道不可用"⟩
  else .ok { m with lifecycleState := 1, pending := some action }

/-- `restart_service`.  An answer that is not an error is 202. -/
def restartService {F : Type} (host : Host F) (fs : F) (app : App) (m : Management) :
    Except ApiError (Management × F) := do
  let (config, fs) ← (load host fs app.configPath).mapError fun error ↦
    ⟨409, "restart_config_invalid", s!"重新加载配置失败，服务保持运行: {error}"⟩
  if config.logging.directory ≠ app.loggingDirectory then
    .error ⟨409, "restart_log_directory_changed",
      "运行时重启不允许修改 logging.directory；请先停止服务，再通过外部管理器启动"⟩
  else
    let m ← requestManagementAction m (.restart config)
    pure (m, fs)

/-! ## When `build` panics -/

section

variable {usizeBits : ℕ} {axum : Axum}

theorem semaphoreNew_eq_ok {permits n : ℕ} :
    semaphoreNew usizeBits permits = .ok n ↔ permits ≤ maxPermits usizeBits ∧ permits = n :=
  guard_eq_ok

theorem routeRuntimeNew_eq_ok {r : ResolvedRoute} {x : RouteRuntime} :
    routeRuntimeNew usizeBits r = .ok x ↔
      r.maxConcurrency ≤ maxPermits usizeBits ∧ ⟨r, r.maxConcurrency⟩ = x := by
  simp only [routeRuntimeNew, bind_eq_ok, semaphoreNew_eq_ok]
  constructor
  · rintro ⟨n, ⟨hle, rfl⟩, h⟩
    cases h
    exact ⟨hle, rfl⟩
  · rintro ⟨hle, rfl⟩
    exact ⟨_, ⟨hle, rfl⟩, rfl⟩

end

section

variable {α ε : Type} {valid : α → Bool} {conflict : α → α → Bool} {error : α → ε}

theorem addCompatible_eq_ok {l l' : List α} {a : α} :
    addCompatible valid conflict error l a = .ok l' ↔
      (valid a = true ∧ ∀ b ∈ l, conflict b a = false) ∧ l ++ [a] = l' :=
  guard_eq_ok

/-- Adding things one by one works when each is valid and in conflict with none before it. -/
theorem foldlM_addCompatible {l l' added : List α} :
    added.foldlM (addCompatible valid conflict error) l = .ok l' ↔
      (Compatible valid conflict added ∧ ∀ b ∈ l, ∀ a ∈ added, conflict b a = false) ∧
        l ++ added = l' := by
  induction added generalizing l with
  | nil =>
    simp only [List.foldlM_nil, List.append_nil]
    constructor
    · intro h
      cases h
      exact ⟨⟨⟨nofun, .nil⟩, fun _ _ ↦ nofun⟩, rfl⟩
    · rintro ⟨-, rfl⟩
      rfl
  | cons a added ih =>
    simp only [List.foldlM_cons, bind_eq_ok, addCompatible_eq_ok, ih, Compatible,
      List.forall_mem_cons, List.pairwise_cons]
    constructor
    · rintro ⟨l, ⟨⟨hvalid, hnew⟩, rfl⟩, ⟨⟨hvalids, hpair⟩, hold⟩, rfl⟩
      refine ⟨⟨⟨⟨hvalid, hvalids⟩, fun c hc ↦ ?_, hpair⟩,
        fun b hb ↦ ⟨hnew b hb, fun c hc ↦ ?_⟩⟩, ?_⟩
      · exact hold a (List.mem_append_right _ List.mem_cons_self) c hc
      · exact hold b (List.mem_append_left _ hb) c hc
      · rw [List.append_assoc, List.singleton_append]
    · rintro ⟨⟨⟨⟨hvalid, hvalids⟩, hhead, hpair⟩, hold⟩, rfl⟩
      refine ⟨_, ⟨⟨hvalid, fun b hb ↦ (hold b hb).1⟩, rfl⟩, ⟨⟨hvalids, hpair⟩, ?_⟩, ?_⟩
      · intro b hb c hc
        rcases List.mem_append.mp hb with hb | hb
        · exact (hold b hb).2 c hc
        · rw [List.mem_singleton.mp hb]
          exact hhead c hc
      · rw [List.append_assoc, List.singleton_append]

/-- The order does not matter. -/
theorem Compatible.perm (comm : ∀ a b, conflict a b = conflict b a) {l l' : List α}
    (h : l.Perm l') : Compatible valid conflict l ↔ Compatible valid conflict l' := by
  have hsymm : ∀ a b, conflict a b = false → conflict b a = false :=
    fun a b hab ↦ (comm b a).trans hab
  rw [Compatible, Compatible, h.pairwise_iff fun hab ↦ hsymm _ _ hab]
  exact and_congr_left' ⟨fun hv a ha ↦ hv a (h.mem_iff.mpr ha),
    fun hv a ha ↦ hv a (h.mem_iff.mp ha)⟩

end

section

variable {usizeBits : ℕ} {axum : Axum}

/-- The paths of a configuration can be mounted next to the system's. -/
def Axum.Admits (axum : Axum) (paths : List String) : Prop :=
  Compatible axum.valid axum.conflict paths ∧
    ∀ p ∈ systemRoutes, ∀ q ∈ paths, axum.conflict p q = false

theorem Axum.Admits.perm {paths paths' : List String} (h : paths.Perm paths') :
    axum.Admits paths ↔ axum.Admits paths' := by
  rw [Axum.Admits, Axum.Admits, Compatible.perm axum.comm h]
  exact and_congr_right' ⟨fun hc p hp q hq ↦ hc p hp q (h.mem_iff.mpr hq),
    fun hc p hp q hq ↦ hc p hp q (h.mem_iff.mp hq)⟩

/-- **When `build` returns**, whatever the order of the map. -/
theorem exists_build (order : ValuesOrder RouteRuntime) (config : ResolvedConfig) :
    (∃ app, build usizeBits axum order config = .ok app) ↔
      (∀ r ∈ config.routes, r.maxConcurrency ≤ maxPermits usizeBits) ∧
        config.execution.maxTotalConcurrency ≤ maxPermits usizeBits ∧
        axum.Admits (config.routes.map (·.path)) := by
  have hpaths : ((order.values (config.routes.map fun r ↦ ⟨r, r.maxConcurrency⟩)).map
      (·.config.path)).Perm (config.routes.map (·.path)) := by
    refine ((order.perm _).map _).trans ?_
    rw [List.map_map]
    rfl
  simp only [build, bind_eq_ok, mapM_check_eq_ok fun _ _ ↦ routeRuntimeNew_eq_ok,
    semaphoreNew_eq_ok, Axum.route, foldlM_addCompatible]
  constructor
  · rintro ⟨app, _, ⟨hroutes, rfl⟩, _, ⟨htotal, rfl⟩, _, ⟨-, rfl⟩, _, ⟨hmount, rfl⟩, -⟩
    exact ⟨hroutes, htotal, (Axum.Admits.perm hpaths).mp hmount⟩
  · rintro ⟨hroutes, htotal, hmount⟩
    refine ⟨_, _, ⟨hroutes, rfl⟩, _, ⟨htotal, rfl⟩, _, ⟨⟨axum.system, ?_⟩, rfl⟩, _,
      ⟨(Axum.Admits.perm hpaths).mpr hmount, rfl⟩, rfl⟩
    exact fun p hp ↦ absurd hp List.not_mem_nil

end

/-! ## When `load_tls_config` fails -/

section

variable {F : Type} (host : Host F) (rustls : Rustls) (fs : F)

/-- The three files hold what rustls needs: certificates and a key that belongs to them, and roots
for the certificates of the clients. -/
def TlsUsable (tls : TlsConfig) : Prop :=
  ∃ certificates privateKey clientRoots,
    (∃ pem, host.read fs tls.certificate = .ok pem ∧ rustls.certs pem = certificates.map .ok) ∧
    certificates ≠ [] ∧
    (∃ pem, host.read fs tls.privateKey = .ok pem ∧ rustls.privateKey pem = .ok (some privateKey)) ∧
    (∃ pem, host.read fs tls.clientCaCertificate = .ok pem ∧
      rustls.certs pem = clientRoots.map .ok) ∧
    (∀ c ∈ clientRoots, rustls.add c = .ok ()) ∧ clientRoots ≠ [] ∧
    rustls.clientVerifier clientRoots = .ok () ∧
    rustls.withSingleCert certificates privateKey = .ok ()

variable {host rustls fs}

theorem mapM_id_eq_ok {l : List (Except String (List UInt8))} {l' : List (List UInt8)} :
    l.mapM id = .ok l' ↔ l = l'.map .ok := by
  rw [mapM_eq_ok, ← List.forall₂_eq_eq_eq, List.forall₂_map_right_iff]
  rfl

theorem addRoot_eq_ok {x : Except String (List UInt8)} {c : List UInt8} :
    addRoot rustls x = .ok c ↔ x = .ok c ∧ rustls.add c = .ok () := by
  simp only [addRoot, bind_eq_ok, withContext_eq_ok]
  constructor
  · rintro ⟨c', hx, u, hadd, h⟩
    cases h
    exact ⟨hx, hadd⟩
  · rintro ⟨hx, hadd⟩
    exact ⟨c, hx, (), hadd, rfl⟩

theorem mapM_addRoot_eq_ok {l : List (Except String (List UInt8))} {l' : List (List UInt8)} :
    l.mapM (addRoot rustls) = .ok l' ↔ l = l'.map .ok ∧ ∀ c ∈ l', rustls.add c = .ok () := by
  simp only [mapM_eq_ok, addRoot_eq_ok]
  constructor
  · intro h
    induction h with
    | nil => exact ⟨rfl, nofun⟩
    | cons hc _ ih =>
      rw [hc.1, ih.1, List.map_cons]
      exact ⟨rfl, List.forall_mem_cons.mpr ⟨hc.2, ih.2⟩⟩
  · rintro ⟨rfl, hadd⟩
    rw [List.forall₂_map_left_iff, List.forall₂_same]
    exact fun c hc ↦ ⟨rfl, hadd c hc⟩

theorem present_eq_ok {α : Type} {text : String} {x : Option α} {a : α} :
    present text x = .ok a ↔ x = some a := by
  cases x <;> simp [present]

theorem exists_loadTlsConfig (tls : TlsConfig) :
    (∃ r, loadTlsConfig host rustls fs tls = .ok r) ↔ TlsUsable host rustls fs tls := by
  simp only [loadTlsConfig, bind_eq_ok, withContext_eq_ok, bailIf_eq_ok, mapM_id_eq_ok,
    mapM_addRoot_eq_ok, present_eq_ok]
  constructor
  · rintro ⟨r, pem, hpem, certificates, hcerts, _, hne, pem', hpem', key, hkey, privateKey, rfl,
      pem'', hpem'', roots, ⟨hroots, hadd⟩, _, hne', _, hverifier, _, hmatch, -⟩
    exact ⟨certificates, privateKey, roots, ⟨pem, hpem, hcerts⟩, hne, ⟨pem', hpem', hkey⟩,
      ⟨pem'', hpem'', hroots⟩, hadd, hne', hverifier, hmatch⟩
  · rintro ⟨certificates, privateKey, roots, ⟨pem, hpem, hcerts⟩, hne, ⟨pem', hpem', hkey⟩,
      ⟨pem'', hpem'', hroots⟩, hadd, hne', hverifier, hmatch⟩
    exact ⟨_, pem, hpem, certificates, hcerts, (), hne, pem', hpem', _, hkey, privateKey, rfl,
      pem'', hpem'', roots, ⟨hroots, hadd⟩, (), hne', (), hverifier, (), hmatch, rfl⟩

theorem exists_loadTls (tls : Option TlsConfig) :
    (∃ r, loadTls host rustls fs tls = .ok r) ↔ ∀ t, tls = some t → TlsUsable host rustls fs t := by
  cases tls with
  | none =>
    refine ⟨fun _ t ht ↦ ?_, fun _ ↦ ⟨none, rfl⟩⟩
    cases ht
  | some t =>
    simp only [loadTls, bind_eq_ok, Option.some.injEq, forall_eq', ← exists_loadTlsConfig]
    constructor
    · rintro ⟨-, r, hr, -⟩
      exact ⟨r, hr⟩
    · rintro ⟨r, hr⟩
      exact ⟨_, r, hr, rfl⟩

end

/-! ## When an accepted restart starts -/

section

variable {F : Type} {usizeBits : ℕ} {host : Host F} {axum : Axum} {rustls : Rustls}
  {sockets : Sockets}

/-- **When the listeners can be bound**, in whatever order their tasks do it. -/
theorem exists_bind (turns : ValuesOrder ListenerConfig) (listeners : List ListenerConfig) :
    (∃ bound, (turns.values listeners).foldlM sockets.bind [] = .ok bound) ↔
      Compatible sockets.available sockets.conflict listeners := by
  simp only [Sockets.bind, foldlM_addCompatible,
    Compatible.perm sockets.comm (turns.perm listeners)]
  constructor
  · rintro ⟨bound, ⟨h, -⟩, -⟩
    exact h
  · intro h
    exact ⟨_, ⟨h, fun b hb ↦ absurd hb List.not_mem_nil⟩, rfl⟩

/-- A generation keeps the directory `run` began with. -/
theorem startGeneration_directory {fs : F} {directory : Path} {config : ResolvedConfig}
    {store : Except String Unit} {order : ValuesOrder RouteRuntime}
    {turns : ValuesOrder ListenerConfig} {g : Started}
    (h : startGeneration usizeBits host axum rustls sockets fs directory config store order turns =
      .ok g) : g.app.loggingDirectory = directory := by
  rw [startGeneration] at h
  split at h
  · cases h
  · rename_i hdirectory
    simp only [bind_eq_ok, mapError_eq_ok] at h
    obtain ⟨_, -, app, happ, tls, -, bound, -, hg⟩ := h
    cases hg
    simp only [build, bind_eq_ok] at happ
    obtain ⟨_, -, _, -, _, -, _, -, happ⟩ := happ
    cases happ
    exact not_not.mp hdirectory

/-- No start of a generation with this configuration fails because of it. -/
def StartsCleanly (usizeBits : ℕ) (host : Host F) (axum : Axum) (rustls : Rustls)
    (sockets : Sockets) (fs : F) (directory : Path) (config : ResolvedConfig) : Prop :=
  ∀ store order turns e,
    startGeneration usizeBits host axum rustls sockets fs directory config store order turns =
      .error e → ¬ e.FromConfig

theorem startsCleanly_iff {fs : F} {directory : Path} {config : ResolvedConfig}
    (hdirectory : config.logging.directory = directory) :
    StartsCleanly usizeBits host axum rustls sockets fs directory config ↔
      (∀ order, ∃ app, build usizeBits axum order config = .ok app) ∧
        (∃ tls, loadTls host rustls fs config.tls = .ok tls) ∧
        ∀ turns : ValuesOrder ListenerConfig,
          ∃ bound, (turns.values config.listeners).foldlM sockets.bind [] = .ok bound := by
  have hstart : ∀ store order turns,
      startGeneration usizeBits host axum rustls sockets fs directory config store order turns =
        (do
          store.mapError .store
          let app ← (build usizeBits axum order config).mapError .panic
          let tls ← (loadTls host rustls fs config.tls).mapError .tls
          let bound := (turns.values config.listeners).foldlM sockets.bind []
          let listeners ← (withContext "HTTP 服务异常退出" bound).mapError .server
          pure ⟨app, tls, listeners⟩) :=
    fun store order turns ↦ if_neg (not_not.mpr hdirectory)
  -- any order of the map, and any of the tasks
  let anyOrder : ValuesOrder RouteRuntime := ⟨id, fun _ ↦ .refl _⟩
  let anyTurns : ValuesOrder ListenerConfig := ⟨id, fun _ ↦ .refl _⟩
  constructor
  · intro h
    have hbuild : ∀ order, ∃ app, build usizeBits axum order config = .ok app := by
      intro order
      cases hb : build usizeBits axum order config with
      | ok app => exact ⟨app, rfl⟩
      | error p =>
        refine absurd trivial (h (.ok ()) order anyTurns (.panic p) ?_)
        rw [hstart, hb]
        rfl
    have htls : ∃ tls, loadTls host rustls fs config.tls = .ok tls := by
      cases ht : loadTls host rustls fs config.tls with
      | ok tls => exact ⟨tls, rfl⟩
      | error text =>
        obtain ⟨app, happ⟩ := hbuild anyOrder
        refine absurd trivial (h (.ok ()) anyOrder anyTurns (.tls text) ?_)
        rw [hstart, happ, ht]
        rfl
    refine ⟨hbuild, htls, fun turns ↦ ?_⟩
    cases hb : (turns.values config.listeners).foldlM sockets.bind [] with
    | ok bound => exact ⟨bound, rfl⟩
    | error text =>
      obtain ⟨app, happ⟩ := hbuild anyOrder
      obtain ⟨tls, htls⟩ := htls
      refine absurd trivial
        (h (.ok ()) anyOrder turns (.server ("HTTP 服务异常退出" ++ ": " ++ text)) ?_)
      rw [hstart, happ, htls, hb]
      rfl
  · rintro ⟨hbuild, ⟨tls, htls⟩, hbind⟩ store order turns e he
    obtain ⟨app, happ⟩ := hbuild order
    obtain ⟨bound, hbound⟩ := hbind turns
    rw [hstart, happ, htls, hbound] at he
    cases store with
    | ok u => cases he
    | error text =>
      cases he
      exact id

/-- What a configuration has to be like for the service to start with it, beyond what `resolve`
checks.  `fs` is the file system `resolve` saw, and `fs'` the one it left. -/
structure Startable (usizeBits : ℕ) (host : Host F) (axum : Axum) (rustls : Rustls)
    (sockets : Sockets) (fs fs' : F) (sourcePath : Path) (config : Config) : Prop where
  total : config.execution.maxTotalConcurrency ≤ maxPermits usizeBits
  routes : ∀ route ∈ config.routes, route.maxConcurrency ≤ maxPermits usizeBits
  paths : axum.Admits (config.routes.map (·.path))
  tls : ∀ base tls, sourcePath.parent = some base →
    resolveTls host fs base config.tls = .ok (some tls) → TlsUsable host rustls fs' tls
  listeners : ∀ listeners, resolveServer config.server = .ok listeners →
    Compatible sockets.available sockets.conflict listeners

/-- What `restart_service` has made sure of when it answers 202. -/
theorem restartService_ok {fs fs' : F} {app : App} {m m' : Management}
    (h : restartService host fs app m = .ok (m', fs')) :
    ∃ config, load host fs app.configPath = .ok (config, fs') ∧
      config.logging.directory = app.loggingDirectory ∧ m'.pending = some (.restart config) := by
  simp only [restartService, bind_eq_ok, mapError_eq_ok] at h
  obtain ⟨⟨config, fs₁⟩, hload, h⟩ := h
  split at h
  · cases h
  · rename_i hdirectory
    obtain ⟨m₁, hm, h⟩ := bind_eq_ok.mp h
    cases h
    refine ⟨config, hload, not_not.mp hdirectory, ?_⟩
    rw [requestManagementAction] at hm
    split at hm
    · cases hm
    · split at hm
      · cases hm
      · cases hm
        rfl

/-- The routes keep what is passed on as it is. -/
theorem Admitted.map_routes {α : Type} {fs fs' : F} {config : Config} {sourcePath : Path}
    {r : ResolvedConfig} (h : Admitted host fs config sourcePath r fs') {f : RouteConfig → α}
    {g : ResolvedRoute → α}
    (hfg : ∀ base account route x, RouteAdmitted host fs' base account route x → g x = f route) :
    r.routes.map g = config.routes.map f := by
  obtain ⟨base, -, -, -, -, hroutes⟩ := h.routes
  obtain ⟨hall, -⟩ := resolveRoutes_ok hroutes
  rw [← List.forall₂_eq_eq_eq, List.forall₂_map_left_iff, List.forall₂_map_right_iff]
  exact (hall.imp fun route x hx ↦ hfg _ _ _ _ hx).flip

/-- A path that passes is none of the system's. -/
theorem validateRoute_not_system {route : RouteConfig} {u : Unit}
    (h : validateRoute route = .ok u) : route.path ∉ systemRoutes := by
  simp only [validateRoute, bind_eq_ok, bailIf_eq_ok] at h
  obtain ⟨_, -, _, -, _, hsystem, -⟩ := h
  intro hmem
  apply hsystem
  simp only [systemRoutes, List.mem_cons, List.not_mem_nil, or_false] at hmem
  rcases hmem with h | h | h | h | h | h | h | h <;> rw [h] <;> decide

/-- **No path is added to the router twice**: neither one of the configuration's own, nor one of the
system's. -/
theorem Admitted.paths_nodup {fs fs' : F} {config : Config} {sourcePath : Path} {r : ResolvedConfig}
    (h : Admitted host fs config sourcePath r fs') :
    (systemRoutes ++ r.routes.map (·.path)).Nodup := by
  rw [h.map_routes (f := (·.path)) fun _ _ _ _ hx ↦ by rw [hx.carried]]
  obtain ⟨base, -, -, -, -, hroutes⟩ := h.routes
  obtain ⟨hall, hnodup, -⟩ := resolveRoutes_ok hroutes
  have hvalid : ∀ route ∈ config.routes, validateRoute route = .ok () :=
    ((List.forall₂_and_left (R := fun _ _ ↦ True) _ _).mp
      (hall.imp fun _ _ hx ↦ ⟨hx.valid, trivial⟩)).1
  refine List.nodup_append.mpr ⟨by decide, hnodup, fun p hp q hq ↦ ?_⟩
  obtain ⟨route, hmem, rfl⟩ := List.mem_map.mp hq
  rintro rfl
  exact validateRoute_not_system (hvalid route hmem) hp

/-- **When an accepted restart starts again.**  The service is running; `restart_service` has
answered 202 for a configuration file that says `config`, and has passed the resolved configuration
`r` on.  No start with it fails because of the configuration if and only if the numbers of permits
are ones tokio allows, the paths are ones axum accepts, the files of the TLS part are ones rustls
can use, and the listeners are ones the host can bind together. -/
theorem accepted_restart_starts_iff {F : Type} (usizeBits : ℕ) (host : Host F) (axum : Axum)
    (rustls : Rustls) (sockets : Sockets) (directory : Path) (fs₀ : F) (config₀ : ResolvedConfig)
    (store : Except String Unit) (order : ValuesOrder RouteRuntime)
    (turns : ValuesOrder ListenerConfig) (g : Started)
    (hg : startGeneration usizeBits host axum rustls sockets fs₀ directory config₀ store order
      turns = .ok g)
    (fs fs' : F) (m m' : Management) (h : restartService host fs g.app m = .ok (m', fs'))
    (sourcePath : Path) (config : Config)
    (hread : readConfig host fs g.app.configPath = .ok (sourcePath, config)) :
    ∃ r, m'.pending = some (.restart r) ∧
      (StartsCleanly usizeBits host axum rustls sockets fs' directory r ↔
        Startable usizeBits host axum rustls sockets fs fs' sourcePath config) := by
  obtain ⟨r, hload, hdirectory, hpending⟩ := restartService_ok h
  rw [startGeneration_directory hg] at hdirectory
  obtain ⟨source', config', hread', hacc⟩ := load_ok hload
  obtain ⟨rfl, rfl⟩ : source' = sourcePath ∧ config' = config := by
    rw [hread'] at hread
    cases hread
    exact ⟨rfl, rfl⟩
  refine ⟨r, hpending, ?_⟩
  have hpaths : r.routes.map (·.path) = config'.routes.map (·.path) :=
    hacc.map_routes fun _ _ _ _ hx ↦ by rw [hx.carried]
  have hlimits : r.routes.map (·.maxConcurrency) = config'.routes.map (·.maxConcurrency) :=
    hacc.map_routes fun _ _ _ _ hx ↦ by rw [hx.carried]
  have hexecution : r.execution = config'.execution := by rw [hacc.carried]
  obtain ⟨base, hbase, -, htls, -⟩ := hacc.routes
  have hroutes : (∀ x ∈ r.routes, x.maxConcurrency ≤ maxPermits usizeBits) ↔
      ∀ x ∈ config'.routes, x.maxConcurrency ≤ maxPermits usizeBits := by
    rw [← List.forall_mem_map (P := (· ≤ maxPermits usizeBits)), hlimits, List.forall_mem_map]
  rw [startsCleanly_iff hdirectory, exists_loadTls]
  simp only [exists_build, exists_bind, hpaths, hroutes, hexecution]
  constructor
  · rintro ⟨hbuild, husable, hbind⟩
    obtain ⟨hroutes, htotal, hmount⟩ := hbuild order
    refine ⟨htotal, hroutes, hmount, fun base' tls hbase' htls' ↦ ?_, fun listeners hl ↦ ?_⟩
    · obtain rfl : base' = base := Option.some.inj (hbase'.symm.trans hbase)
      exact husable tls (Except.ok.inj (htls.symm.trans htls'))
    · rw [← Except.ok.inj (hacc.server.symm.trans hl)]
      exact hbind turns
  · rintro ⟨htotal, hroutes, hmount, husable, hlisteners⟩
    exact ⟨fun _ ↦ ⟨hroutes, htotal, hmount⟩, fun t ht ↦ husable base t hbase (ht ▸ htls),
      fun _ ↦ hlisteners _ hacc.server⟩

end

/-! ## Two restarts

The configuration file of a running service is read again as it was, and after its limit has been
raised beyond what tokio allows. -/

/-- The text of a configuration file. -/
def exampleYaml (permits : String) : String :=
  "server:\n  port: 27415\naccess:\n  allowed_cidrs: [127.0.0.0/8]\n" ++
  "auth:\n  token:\n    provider: environment\n    variable: COMMAND_API_TOKEN\n" ++
  "logging:\n  directory: ./logs\nexecution:\n  max_total_concurrency: " ++ permits ++ "\n" ++
  "routes:\n  - path: /jobs/nightly\n    executor: bash\n    script: ./nightly.sh\n" ++
  "    max_concurrency: 1\n    max_execution_seconds: 60\n    graceful_shutdown_seconds: 10\n"

/-- … and what it says. -/
def exampleConfig (permits : ℕ) : Config where
  server := { port := some 27415 }
  access := { allowedCidrs := [⟨.v4 0x7f000000, 8⟩] }
  token := .environment "COMMAND_API_TOKEN"
  logging := { directory := ⟨false, [".", "logs"]⟩ }
  execution := { maxTotalConcurrency := permits }
  routes := [{
    path := "/jobs/nightly"
    executor := .bash
    script := ⟨false, [".", "nightly.sh"]⟩
    maxConcurrency := 1
    maxExecutionSeconds := 60
    gracefulShutdownSeconds := 10 }]

/-- A host with a directory `/srv`, of whose files only the configuration changes: the state of the
file system is its text. -/
def exampleHost : Host String where
  platform := .unix
  canonicalize _ path :=
    if path ∈ [⟨true, ["srv"]⟩, ⟨true, ["srv", "config.yaml"]⟩, ⟨true, ["srv", "nightly.sh"]⟩,
      ⟨true, ["srv", "logs"]⟩] then .ok path
    else .error "No such file or directory (os error 2)"
  readToString text path :=
    if path = ⟨true, ["srv", "config.yaml"]⟩ then .ok text
    else .error "No such file or directory (os error 2)"
  read _ _ := .error "Permission denied (os error 13)"
  isFile _ path := path ∈ [⟨true, ["srv", "config.yaml"]⟩, ⟨true, ["srv", "nightly.sh"]⟩]
  isDir _ path := path ∈ [⟨true, ["srv"]⟩, ⟨true, ["srv", "logs"]⟩]
  createDirAll text _ := .ok text
  var name :=
    if name = "COMMAND_API_TOKEN" then .ok "0123456789abcdef0123456789abcdef"
    else .error "environment variable not found"
  fromYaml text :=
    if text = exampleYaml "16" then .ok (exampleConfig 16)
    else if text = exampleYaml "2305843009213693952" then .ok (exampleConfig 2305843009213693952)
    else .error "invalid type"
  regexNew _ := .ok ()
  passwordHash _ := .error "password hash string missing field"
  cryptUnprotectData _ := .error "not supported"
  utf8Error _ := "invalid utf-8 sequence"
  sha256 _ :=
    [62, 177, 189, 67, 153, 71, 235, 118, 41, 152, 229, 102, 204, 194, 224, 153, 199, 145, 17, 139,
      47, 64, 87, 156, 196, 247, 218, 43, 80, 97, 183, 249]

/-- The paths axum takes when no two of them are the same and none has a segment of the old
syntax. -/
def exampleAxum : Axum where
  valid path := (path.toList.splitOn '/').all fun segment ↦
    segment.head? ≠ some ':' && segment.head? ≠ some '*'
  conflict p q := p = q
  comm p q := by simp [eq_comm]
  system := by decide

def exampleRustls : Rustls where
  certs _ := []
  privateKey _ := .ok none
  add _ := .ok ()
  clientVerifier _ := .ok ()
  withSingleCert _ _ := .ok ()

def exampleOrder : ValuesOrder RouteRuntime := ⟨id, fun _ ↦ .refl _⟩

/-- The address is the other one, or the unspecified address of a family that covers it. -/
def exampleCovers : IpAddr → IpAddr → Bool
  | .v4 bits, .v4 other => bits = 0 ∨ bits = other
  | .v4 _, .v6 _ => false
  | .v6 bits, .v4 _ => bits = 0
  | .v6 bits, .v6 other => bits = 0 ∨ bits = other

/-- A host on which every address is available, and two listeners of one port are in conflict when
one of them covers the other. -/
def exampleSockets : Sockets where
  available _ := true
  conflict p q := p.port = q.port && (exampleCovers p.host q.host || exampleCovers q.host p.host)
  comm p q := by rw [Bool.or_comm, decide_eq_decide.mpr (@eq_comm _ p.port q.port)]
  error _ := "Address already in use (os error 98)"

def exampleTurns : ValuesOrder ListenerConfig := ⟨id, fun _ ↦ .refl _⟩

example : ¬ Compatible exampleSockets.available exampleSockets.conflict
    [⟨.v4 0, 27415⟩, ⟨.v4 0x7f000001, 27415⟩] := by decide

def exampleResolved (permits : ℕ) : ResolvedConfig where
  sourcePath := ⟨true, ["srv", "config.yaml"]⟩
  listeners := [⟨.v4 0x7f000001, 27415⟩]
  access := { allowedCidrs := [⟨.v4 0x7f000000, 8⟩] }
  tls := none
  token := .sha256 (exampleHost.sha256 [])
  logging := { directory := ⟨true, ["srv", "logs"]⟩ }
  execution := { maxTotalConcurrency := permits }
  windowsService := {}
  routes := [{
    path := "/jobs/nightly"
    executor := .bash
    program := ⟨false, ["bash"]⟩
    script := ⟨true, ["srv", "nightly.sh"]⟩
    fixedArgs := []
    requestArgs := {}
    requestArgPatterns := []
    workingDirectory := ⟨true, ["srv"]⟩
    env := []
    maxConcurrency := 1
    maxExecutionSeconds := 60
    gracefulShutdownSeconds := 10
    mergeStdoutStderr := false
    outputEncoding := .utf8 }]

theorem load_example :
    load exampleHost (exampleYaml "16") ⟨true, ["srv", "config.yaml"]⟩ =
      .ok (exampleResolved 16, exampleYaml "16") := by
  decide +kernel

theorem load_example_large :
    load exampleHost (exampleYaml "2305843009213693952") ⟨true, ["srv", "config.yaml"]⟩ =
      .ok (exampleResolved 2305843009213693952, exampleYaml "2305843009213693952") := by
  decide +kernel

/-- The service that is running with the smaller limit. -/
def exampleStarted : Started where
  app := {
    token := (exampleResolved 16).token
    allowedCidrs := (exampleResolved 16).access.allowedCidrs
    tokenFailureCooldown := (exampleResolved 16).access.tokenFailureCooldown
    globalLimit := 16
    routes := (exampleResolved 16).routes.map fun r ↦ ⟨r, 1⟩
    configPath := ⟨true, ["srv", "config.yaml"]⟩
    loggingDirectory := ⟨true, ["srv", "logs"]⟩
    router := systemRoutes ++ ["/jobs/nightly"] }
  tls := none
  listeners := [⟨.v4 0x7f000001, 27415⟩]

theorem start_example :
    startGeneration 64 exampleHost exampleAxum exampleRustls exampleSockets (exampleYaml "16")
      ⟨true, ["srv", "logs"]⟩ (exampleResolved 16) (.ok ()) exampleOrder exampleTurns =
        .ok exampleStarted := by
  decide +kernel

theorem restart_example {text : String} {permits : ℕ}
    (h : load exampleHost text ⟨true, ["srv", "config.yaml"]⟩ =
      .ok (exampleResolved permits, text)) :
    restartService exampleHost text exampleStarted.app ⟨0, none, true⟩ =
      .ok (⟨1, some (.restart (exampleResolved permits)), true⟩, text) := by
  have hpath : exampleStarted.app.configPath = ⟨true, ["srv", "config.yaml"]⟩ := rfl
  rw [restartService, hpath, h]
  rfl

/-- The file is read again as it was, and the service starts again. -/
theorem accepted_restart_starts_same :
    ∃ m fs r, restartService exampleHost (exampleYaml "16") exampleStarted.app ⟨0, none, true⟩ =
        .ok (m, fs) ∧ m.pending = some (.restart r) ∧
      StartsCleanly 64 exampleHost exampleAxum exampleRustls exampleSockets fs
        ⟨true, ["srv", "logs"]⟩ r := by
  have hrestart := restart_example load_example
  have hread : readConfig exampleHost (exampleYaml "16") exampleStarted.app.configPath =
      .ok (⟨true, ["srv", "config.yaml"]⟩, exampleConfig 16) := by decide +kernel
  obtain ⟨r, hpending, hstarts⟩ := accepted_restart_starts_iff 64 exampleHost exampleAxum
    exampleRustls exampleSockets _ _ _ _ _ _ _ start_example _ _ _ _ hrestart _ _ hread
  refine ⟨_, _, r, hrestart, hpending, hstarts.mpr ⟨by decide, by decide, ?_, ?_, ?_⟩⟩
  · exact ⟨by decide, by decide⟩
  · exact fun base tls _ ↦ nofun
  · intro listeners hserver
    obtain rfl : [⟨.v4 0x7f000001, 27415⟩] = listeners := Except.ok.inj hserver
    decide

/-- The new limit is accepted, and the next generation panics where it makes its semaphore. -/
theorem accepted_restart_panics :
    startGeneration 64 exampleHost exampleAxum exampleRustls exampleSockets (exampleYaml "16")
        ⟨true, ["srv", "logs"]⟩ (exampleResolved 16) (.ok ()) exampleOrder exampleTurns =
          .ok exampleStarted ∧
    ∃ m fs r, restartService exampleHost (exampleYaml "2305843009213693952") exampleStarted.app
        ⟨0, none, true⟩ = .ok (m, fs) ∧ m.pending = some (.restart r) ∧
      startGeneration 64 exampleHost exampleAxum exampleRustls exampleSockets fs
        ⟨true, ["srv", "logs"]⟩ r (.ok ()) exampleOrder exampleTurns =
          .error (.panic (.semaphore 2305843009213693952)) := by
  refine ⟨start_example, _, _, _, restart_example load_example_large, rfl, ?_⟩
  decide +kernel

end CommandApi
