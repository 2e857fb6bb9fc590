import CommandApi.Model

/-!
# Configuration data

The types of `src/config.rs`: the configuration as the YAML file gives it (`Config` and its
parts, with the defaults of the fields that may be left out) and as the program uses it
(`ResolvedConfig`).  What turns one into the other is `CommandApi.Config.Resolve`.

A path is kept as the program compares it, by its components: two texts that differ only in
repeated separators or in a `.` in the middle are the same `Path`.
-/

set_option autoImplicit false

namespace CommandApi

/-! ## Paths -/

/-- A file-system path: whether it starts at the root, and its components. -/
structure Path where
  absolute : Bool
  parts : List String
  deriving DecidableEq, Repr

namespace Path

/-- `Path::join`: an absolute right-hand side replaces the left, and a `.` is a component of its own
only at the start of a relative path. -/
def join (base value : Path) : Path :=
  if value.absolute then value
  else if base = ⟨false, []⟩ then value
  else ⟨base.absolute, base.parts ++ value.parts.filter (· ≠ ".")⟩

/-- The text of a path. -/
def display (p : Path) : String :=
  (if p.absolute then "/" else "") ++ "/".intercalate p.parts

/-- `Path::parent`: nothing above the root or the empty path. -/
def parent (p : Path) : Option Path :=
  if p.parts = [] then none else some ⟨p.absolute, p.parts.dropLast⟩

/-- The number of components; the root counts as one, and so does a `.` at the start. -/
def componentCount (p : Path) : ℕ :=
  (p.parts.filter (· ≠ ".")).length + if p.absolute ∨ p.parts.head? = some "." then 1 else 0

/-- `Path::file_name`: the last component, unless it is `..`; a `.` is no name. -/
def fileName (p : Path) : Option String :=
  match (p.parts.filter (· ≠ ".")).getLast? with
  | some ".." => none
  | name => name

/-- `Path::extension`: what follows the last dot of the file name, if a dot stands anywhere but at
its start. -/
def extension (p : Path) : Option String :=
  p.fileName.bind fun name ↦
    match name.toList.reverse.span (· ≠ '.') with
    | (_, []) => none
    | (_, [_]) => none
    | (ext, _) => some (String.ofList ext.reverse)

end Path

/-! ## Routes -/

inductive Executor
  | sh
  | bash
  | zsh
  | pwsh
  | powershell
  | cmd
  deriving DecidableEq, Repr

/-- The operating systems the program is built for. -/
inductive Platform
  | unix
  | windows
  deriving DecidableEq, Repr

namespace Executor

def defaultProgram (P : Platform) : Executor → String
  | sh => "sh"
  | bash => "bash"
  | zsh => "zsh"
  | pwsh => "pwsh"
  | powershell => match P with
    | .windows => "powershell.exe"
    | .unix => "powershell"
  | cmd => "cmd.exe"

def launcherArgs : Executor → List String
  | pwsh | powershell =>
    ["-NoLogo", "-NoProfile", "-NonInteractive", "-ExecutionPolicy", "Bypass", "-File"]
  | cmd => ["/D", "/S", "/C"]
  | sh | bash | zsh => []

end Executor

/-- What a route admits as request arguments. -/
structure RequestArgsConfig where
  enabled : Bool := false
  maxCount : ℕ := 32
  maxItemBytes : ℕ := 4096
  maxTotalBytes : ℕ := 16 * 1024
  allowedValues : List String := []
  allowedPatterns : List String := []
  deriving DecidableEq, Repr

/-- One entry of `routes` in the YAML file. -/
structure RouteConfig where
  path : String
  executor : Executor
  program : Option Path := none
  script : Path
  fixedArgs : List String := []
  requestArgs : RequestArgsConfig := {}
  workingDirectory : Option Path := none
  env : List (String × String) := []
  maxConcurrency : ℕ
  maxExecutionSeconds : ℕ
  gracefulShutdownSeconds : ℕ
  mergeStdoutStderr : Bool := false
  outputEncoding : OutputEncoding := .utf8
  deriving DecidableEq, Repr

/-- A compiled pattern.  Matching is the `regex` crate's and is not modelled here; a pattern is
identified by the text it was compiled from. -/
structure Regex where
  pattern : String
  deriving DecidableEq, Repr

structure ResolvedRoute where
  path : String
  executor : Executor
  program : Path
  script : Path
  fixedArgs : List String
  requestArgs : RequestArgsConfig
  requestArgPatterns : List Regex
  workingDirectory : Path
  env : List (String × String)
  maxConcurrency : ℕ
  maxExecutionSeconds : ℕ
  gracefulShutdownSeconds : ℕ
  mergeStdoutStderr : Bool
  outputEncoding : OutputEncoding
  deriving DecidableEq, Repr

/-! ## The whole file -/

/-- An IP address, by its bits. -/
inductive IpAddr
  | v4 (bits : BitVec 32)
  | v6 (bits : BitVec 128)
  deriving DecidableEq, Repr

namespace IpAddr

/-- The text of an IPv4 address. -/
def displayV4 (bits : BitVec 32) : String :=
  ".".intercalate ([24, 16, 8, 0].map fun shift ↦ toString ((bits.toNat >>> shift) % 256))

/-- The first longest run of zeros in a list, as its start and its length.  `i` is the position, and
the other two are the run that is going on and the longest so far. -/
def zeroRun : List ℕ → ℕ → ℕ × ℕ → ℕ × ℕ → ℕ × ℕ
  | [], _, _, longest => longest
  | segment :: rest, i, current, longest =>
    if segment = 0 then
      let current := if current.2 = 0 then (i, 1) else (current.1, current.2 + 1)
      zeroRun rest (i + 1) current (if longest.2 < current.2 then current else longest)
    else zeroRun rest (i + 1) (0, 0) longest

/-- The text of an IPv6 address: the longest run of at least two zero segments is left out, and a
mapped IPv4 address is written as one. -/
def displayV6 (bits : BitVec 128) : String :=
  if bits.toNat >>> 32 = 0xffff then "::ffff:" ++ displayV4 (bits.truncate 32)
  else
    let segments := [112, 96, 80, 64, 48, 32, 16, 0].map fun shift ↦ (bits.toNat >>> shift) % 65536
    let text (l : List ℕ) := ":".intercalate (l.map fun n ↦ String.ofList (Nat.toDigits 16 n))
    let (start, length) := zeroRun segments 0 (0, 0) (0, 0)
    if 1 < length then text (segments.take start) ++ "::" ++ text (segments.drop (start + length))
    else text segments

def display : IpAddr → String
  | v4 bits => displayV4 bits
  | v6 bits => displayV6 bits

end IpAddr

/-- A CIDR block. -/
structure IpNet where
  address : IpAddr
  prefixLength : ℕ
  deriving DecidableEq, Repr

structure ListenerConfig where
  host : IpAddr
  port : UInt16
  deriving DecidableEq, Repr

structure ServerConfig where
  hosts : Option (List IpAddr) := none
  port : Option UInt16 := none
  listeners : List ListenerConfig := []
  deriving DecidableEq, Repr

inductive TokenSource
  | environment (variable_ : String)
  | windowsDpapi (file : Path)
  | pbkdf2Sha256 (hash : String)
  deriving DecidableEq, Repr

structure TokenFailureCooldownConfig where
  enabled : Bool := false
  seconds : ℕ := 10
  maxTrackedIps : ℕ := 4096
  deriving DecidableEq, Repr

structure AccessConfig where
  allowedCidrs : List IpNet
  tokenFailureCooldown : TokenFailureCooldownConfig := {}
  deriving DecidableEq, Repr

/-- `TlsConfig` before resolution, `ResolvedTlsConfig` after: the three files. -/
structure TlsConfig where
  certificate : Path
  privateKey : Path
  clientCaCertificate : Path
  deriving DecidableEq, Repr

structure LoggingConfig where
  directory : Path
  retentionSeconds : ℕ := 86400
  maxOutputBytesPerTask : ℕ := 100 * 1024 * 1024
  deriving DecidableEq, Repr

structure ExecutionConfig where
  maxTotalConcurrency : ℕ := 16
  shutdownTimeoutSeconds : ℕ := 30
  deriving DecidableEq, Repr

inductive WindowsServiceAccount
  | localService
  | localSystem
  deriving DecidableEq, Repr

structure WindowsServiceConfig where
  name : String := "command-api"
  displayName : String := "Command API"
  description : String := "通过受控 HTTP API 异步执行预配置脚本"
  account : WindowsServiceAccount := .localService
  deriving DecidableEq, Repr

/-- The configuration as `serde_yaml` reads it. -/
structure Config where
  server : ServerConfig
  access : AccessConfig
  tls : Option TlsConfig := none
  token : TokenSource
  logging : LoggingConfig
  execution : ExecutionConfig := {}
  windowsService : WindowsServiceConfig := {}
  routes : List RouteConfig
  deriving DecidableEq, Repr

/-- What a request's token is compared with.  The cell in which `verify` remembers a token that has
passed starts empty and is not part of the configuration. -/
inductive TokenVerifier
  | sha256 (fingerprint : List UInt8)
  | pbkdf2Sha256 (phc : String)
  deriving DecidableEq, Repr

structure ResolvedConfig where
  sourcePath : Path
  listeners : List ListenerConfig
  access : AccessConfig
  tls : Option TlsConfig
  token : TokenVerifier
  logging : LoggingConfig
  execution : ExecutionConfig
  windowsService : WindowsServiceConfig
  routes : List ResolvedRoute
  deriving DecidableEq, Repr

end CommandApi
