import CommandApi.Async.Clock
import CommandApi.Data.Table
import CommandApi.Secret.Verify
import CommandApi.Server.Start

/-!
# Authenticating a request

The middleware `authenticate` of `src/app.rs` with `cooldown_remaining` and `record_auth_failure`:
the address, the cooldown of the address, the token, in this order.  What a request leaves behind
are the expiries of the cooldowns (`Failures`) and the fingerprint in the verifier's cell.

`authenticate` is a request that is handled by itself; it reads the clock twice, once for the
cooldown and once more when the token was wrong.  An address is compared after `normalizeIp`.

`authenticate_bearer_iff` is about the header: the token the service was started with is let in
exactly when it can be the text of a header.
-/

set_option autoImplicit false

namespace CommandApi

open Async Text

/-! ## Addresses -/

/-- `normalize_ip`: an IPv4 address in its mapped form is the IPv4 address. -/
def normalizeIp : IpAddr → IpAddr
  | .v4 bits => .v4 bits
  | .v6 bits => if bits.toNat >>> 32 = 0xffff then .v4 (bits.truncate 32) else .v6 bits

/-- `IpNet::contains`. -/
def IpNet.contains (net : IpNet) : IpAddr → Bool
  | .v4 bits => match net.address with
    | .v4 network => network >>> (32 - net.prefixLength) = bits >>> (32 - net.prefixLength)
    | .v6 _ => false
  | .v6 bits => match net.address with
    | .v4 _ => false
    | .v6 network => network >>> (128 - net.prefixLength) = bits >>> (128 - net.prefixLength)

/-- The mapped form of an IPv4 address. -/
def IpAddr.mapped (bits : BitVec 32) : IpAddr := .v6 (BitVec.ofNat 128 (0xffff <<< 32 + bits.toNat))

theorem normalizeIp_mapped (bits : BitVec 32) : normalizeIp (.mapped bits) = .v4 bits := by
  have hlt := bits.isLt
  have hval : (BitVec.ofNat 128 (0xffff <<< 32 + bits.toNat)).toNat =
      0xffff <<< 32 + bits.toNat := by
    rw [BitVec.toNat_ofNat, Nat.mod_eq_of_lt (by omega)]
  have hshift : (0xffff <<< 32 + bits.toNat) >>> 32 = 0xffff := by
    rw [Nat.shiftRight_eq_div_pow]
    omega
  rw [IpAddr.mapped, normalizeIp, hval, if_pos hshift]
  congr 1
  apply BitVec.eq_of_toNat_eq
  rw [BitVec.truncate_eq_setWidth, BitVec.toNat_setWidth, hval]
  omega

/-! ## Cooldowns -/

/-- Until when an address is in cooldown. -/
abbrev Failures := Table IpAddr Instant

/-- A duration in nanoseconds as whole seconds, rounded up. -/
def ceilSeconds (nanos : ℕ) : ℕ := nanos / 1000000000 + if 0 < nanos % 1000000000 then 1 else 0

section

variable (cooldown : TokenFailureCooldownConfig)

/-- `cooldown_remaining`, from the reading of the clock on. -/
def cooldownRemaining (now : Instant) (ip : IpAddr) (failures : Failures) : Option ℕ × Failures :=
  if cooldown.enabled then
    match failures.get ip with
    | some expiry =>
      if now < expiry then (some (ceilSeconds (expiry.durationSince now)), failures)
      else (none, failures.erase ip)
    | none => (none, failures)
  else (none, failures)

/-- The entry with the earliest expiry; among several it is the first in the order of the map. -/
def oldest (order : ValuesOrder (IpAddr × Instant)) (failures : Failures) :
    Option (IpAddr × Instant) :=
  (order.values failures.entries).argmin Prod.snd

/-- The entries that have not expired. -/
def unexpired (now : Instant) (failures : Failures) : Failures :=
  failures.retain fun _ expiry ↦ now < expiry

/-- A full map gives up its oldest entry. -/
def makeRoom (order : ValuesOrder (IpAddr × Instant)) (failures : Failures) : Failures :=
  if cooldown.maxTrackedIps ≤ failures.size then
    match oldest order failures with
    | some entry => failures.erase entry.1
    | none => failures
  else failures

/-- `record_auth_failure`, from the reading of the clock on.  The answer is whether it returns:
it panics when the expiry has no representation, with the map as it is then. -/
def recordAuthFailure (order : ValuesOrder (IpAddr × Instant)) (now : Instant) (ip : IpAddr)
    (failures : Failures) : Bool × Failures :=
  if cooldown.enabled then
    let failures := makeRoom cooldown order (unexpired now failures)
    match now.addSecs cooldown.seconds with
    | some expiry => (true, failures.insert ip expiry)
    | none => (false, failures)
  else (true, failures)

end

/-! ## The middleware -/

/-- The bytes a header is read as text with: visible ASCII and tabs. -/
def visibleAscii (b : UInt8) : Bool := (decide (32 ≤ b) && decide (b < 127)) || b = 9

/-- `HeaderValue::to_str`. -/
def toStr (value : List UInt8) : Option String :=
  if value.all visibleAscii then (decodeUtf8 value).map String.ofList else none

/-- The token in the value of an `Authorization` header. -/
def bearerToken (value : List UInt8) : Option String := do
  let text ← toStr value
  let token ← "Bearer ".toList.isPrefixOf? text.toList
  some (String.ofList token)

/-- A request, as far as the middleware looks at it. -/
structure AuthRequest where
  peer : Option IpAddr
  authorization : Option (List UInt8)
  deriving DecidableEq, Repr

/-- What a request finds outside itself: the two readings of the clock, and the order in which the
map gives its entries. -/
structure Readings where
  checkedAt : Instant
  failedAt : Instant
  order : ValuesOrder (IpAddr × Instant)

/-- What `AppState` keeps from request to request. -/
structure AuthState where
  failures : Failures
  fingerprint : Option (List UInt8)

/-- The request goes on, is answered, or the handler dies. -/
inductive AuthOutcome
  | next
  | refused (error : ApiError) (headers : List (String × String))
  | panicked
  deriving DecidableEq, Repr

def sourceIpUnavailable : AuthOutcome :=
  .refused ⟨403, "source_ip_unavailable", "无法确定可信 TCP 来源地址"⟩ []

def sourceIpDenied : AuthOutcome :=
  .refused ⟨403, "source_ip_denied", "来源 IP 不在允许的 CIDR 中"⟩ []

def tokenFailureCooldown (retryAfter : ℕ) : AuthOutcome :=
  .refused ⟨429, "token_failure_cooldown", "该来源 IP 在 Token 校验失败冷却期内"⟩
    [("retry-after", toString retryAfter)]

def unauthorized : AuthOutcome :=
  .refused ⟨401, "unauthorized", "缺少或使用了无效的 Bearer Token"⟩ [("www-authenticate", "Bearer")]

section

variable {F : Type} (host : Host F) (crate : Pbkdf2) (app : App)

/-- Whether the token of a request is the right one, and the cell afterwards. -/
def checkToken (request : AuthRequest) (cell : Option (List UInt8)) :
    Bool × Option (List UInt8) :=
  match request.authorization.bind bearerToken with
  | some token => app.token.verify host crate cell token
  | none => (false, cell)

/-- Whether some CIDR of the configuration contains an address. -/
def App.allows (ip : IpAddr) : Bool := app.allowedCidrs.any (·.contains ip)

/-- What is done once the address is known and allowed. -/
def authenticatePeer (ip : IpAddr) (request : AuthRequest) (r : Readings) (s : AuthState) :
    AuthOutcome × AuthState :=
  match cooldownRemaining app.tokenFailureCooldown r.checkedAt ip s.failures with
  | (some retryAfter, failures) => (tokenFailureCooldown retryAfter, ⟨failures, s.fingerprint⟩)
  | (none, failures) =>
    match checkToken host crate app request s.fingerprint with
    | (true, fingerprint) => (.next, ⟨failures, fingerprint⟩)
    | (false, fingerprint) =>
      match recordAuthFailure app.tokenFailureCooldown r.order r.failedAt ip failures with
      | (true, failures) => (unauthorized, ⟨failures, fingerprint⟩)
      | (false, failures) => (.panicked, ⟨failures, fingerprint⟩)

/-- `authenticate`. -/
def authenticate (request : AuthRequest) (r : Readings) (s : AuthState) :
    AuthOutcome × AuthState :=
  match request.peer.map normalizeIp with
  | none => (sourceIpUnavailable, s)
  | some ip =>
    if app.allows ip then authenticatePeer host crate app ip request r s
    else (sourceIpDenied, s)

end

/-! ## Presenting a token -/

/-- A text that can be the value of a header and read back: visible ASCII, blanks and tabs. -/
def HeaderText (cs : List Char) : Prop := ∀ c ∈ cs, (32 ≤ c.toNat ∧ c.toNat < 127) ∨ c = '\t'

instance (cs : List Char) : Decidable (HeaderText cs) := List.decidableBAll _ cs

theorem visibleAscii_iff {c : Char} (h : c.toNat < 0x80) :
    visibleAscii c.toNat.toUInt8 = true ↔ (32 ≤ c.toNat ∧ c.toNat < 127) ∨ c = '\t' := by
  have hbyte : c.toNat.toUInt8.toNat = c.toNat := by
    rw [Nat.toUInt8, UInt8.toNat_ofNat', Nat.mod_eq_of_lt (by omega)]
  have htab : c = '\t' ↔ c.toNat = 9 :=
    ⟨fun hc ↦ hc ▸ rfl, fun hc ↦ Char.toNat_inj.mp hc⟩
  simp only [visibleAscii, Bool.or_eq_true, Bool.and_eq_true, decide_eq_true_eq]
  rw [htab, UInt8.le_iff_toNat_le, UInt8.lt_iff_toNat_lt, ← UInt8.toNat_inj, hbyte]
  rfl

/-- `to_str` on the bytes of a text. -/
theorem toStr_encodeUtf8 (cs : List Char) :
    toStr (encodeUtf8 cs) = if HeaderText cs then some (String.ofList cs) else none := by
  have hascii : ∀ b, visibleAscii b = true → b.toNat < 0x80 := by
    intro b hb
    simp only [visibleAscii, Bool.or_eq_true, Bool.and_eq_true, decide_eq_true_eq] at hb
    rcases hb with ⟨-, hb⟩ | rfl
    · exact lt_trans (UInt8.lt_iff_toNat_lt.mp hb) (by decide)
    · decide
  have hiff : (encodeUtf8 cs).all visibleAscii = true ↔ HeaderText cs := by
    rw [List.all_eq_true, forall_mem_encodeUtf8_iff hascii]
    refine forall₂_congr fun c hc ↦ ?_
    constructor
    · exact fun h ↦ (visibleAscii_iff h.1).mp h.2
    · intro h
      have hlt : c.toNat < 0x80 := by
        rcases h with h | rfl
        · exact h.2.trans (by decide)
        · decide
      exact ⟨hlt, (visibleAscii_iff hlt).mpr h⟩
  rw [toStr]
  simp only [hiff, decodeUtf8_encodeUtf8, Option.map_some]

/-- A token behind `Bearer ` is found exactly when it is a text that a header can have. -/
theorem bearerToken_bearer (token : String) :
    bearerToken (encodeUtf8 ("Bearer " ++ token).toList) =
      if HeaderText token.toList then some token else none := by
  have hiff : HeaderText ("Bearer " ++ token).toList ↔ HeaderText token.toList := by
    rw [String.toList_append, HeaderText, List.forall_mem_append]
    exact and_iff_right (by simp)
  rw [bearerToken, toStr_encodeUtf8]
  simp only [hiff]
  split
  · simp [String.toList_append, List.isPrefixOf?]
  · rfl

section

variable {F : Type} {host : Host F} {crate : Pbkdf2} {app : App} {request : AuthRequest}
  {r : Readings} {s : AuthState} {ip : IpAddr} {token : String}

/-- The verifier of a token accepts the token. -/
theorem verify_fromToken (cell : Option (List UInt8)) (h : validateToken token = .ok ()) :
    (TokenVerifier.fromToken host token).verify host crate cell token = (true, cell) := by
  rw [TokenVerifier.fromToken, TokenVerifier.verify, if_pos (presentable_of_validateToken h)]
  simp

/-- A request that is allowed and not in cooldown is let in when its token is right. -/
theorem authenticate_eq_next_iff (hpeer : request.peer.map normalizeIp = some ip)
    (hallowed : app.allows ip = true)
    (hcooldown : (cooldownRemaining app.tokenFailureCooldown r.checkedAt ip s.failures).1 = none) :
    (authenticate host crate app request r s).1 = .next ↔
      (checkToken host crate app request s.fingerprint).1 = true := by
  have hpair : cooldownRemaining app.tokenFailureCooldown r.checkedAt ip s.failures =
      (none, (cooldownRemaining app.tokenFailureCooldown r.checkedAt ip s.failures).2) :=
    Prod.ext hcooldown rfl
  rw [authenticate, hpeer]
  simp only [hallowed, if_true]
  rw [authenticatePeer, hpair]
  obtain ⟨authorized, fingerprint⟩ := checkToken host crate app request s.fingerprint
  cases authorized with
  | true => simp
  | false =>
    simp only [Bool.false_eq_true, iff_false]
    split
    · simp [unauthorized]
    · simp

/-- **A token can be presented exactly when it is the text of a header.**  The service is started
with a token that `validate_token` accepts; a request from an allowed address that is not in
cooldown presents it as `Bearer `, followed by its bytes.  The token is found in the header,
verified and let in if and only if it consists of visible ASCII characters, blanks and tabs. -/
theorem authenticate_bearer_iff (htoken : validateToken token = .ok ())
    (happ : app.token = .fromToken host token) (hpeer : request.peer.map normalizeIp = some ip)
    (hallowed : app.allows ip = true)
    (hcooldown : (cooldownRemaining app.tokenFailureCooldown r.checkedAt ip s.failures).1 = none)
    (hheader : request.authorization = some (encodeUtf8 ("Bearer " ++ token).toList)) :
    (request.authorization.bind bearerToken = some token ∧
        (app.token.verify host crate s.fingerprint token).1 = true ∧
        (authenticate host crate app request r s).1 = .next) ↔
      HeaderText token.toList := by
  have hverify : (app.token.verify host crate s.fingerprint token).1 = true := by
    rw [happ, verify_fromToken _ htoken]
  rw [authenticate_eq_next_iff hpeer hallowed hcooldown, checkToken, hheader, Option.bind_some,
    bearerToken_bearer]
  split
  · rename_i htext
    exact iff_of_true ⟨rfl, hverify, hverify⟩ htext
  · rename_i htext
    exact iff_of_false (fun h ↦ absurd h.1 nofun) htext

end

/-! ## Two tokens

Both have 32 bytes and are accepted at startup; one of them is not ASCII. -/

def accentedToken : String := "éééééééééééééééé"

/-- A service with a token, without a cooldown, for the local host. -/
def tokenApp (token : String) : App :=
  { exampleStarted.app with token := .fromToken exampleHost token }

/-- A local request that presents a token. -/
def bearerRequest (token : String) : AuthRequest where
  peer := some (.v4 0x7f000001)
  authorization := some (encodeUtf8 ("Bearer " ++ token).toList)

/-- The map gives its entries as they are listed. -/
def entryOrder : ValuesOrder (IpAddr × Instant) := ⟨id, fun _ ↦ .refl _⟩

/-- The clock at its start. -/
def startReadings : Readings where
  checkedAt := .zero
  failedAt := .zero
  order := entryOrder

theorem authenticate_bearer_right :
    validateToken rightToken = .ok () ∧
      (authenticate exampleHost rightCrate (tokenApp rightToken) (bearerRequest rightToken)
        startReadings ⟨.empty, none⟩).1 = .next := by
  have hvalid : validateToken rightToken = .ok () := by decide +kernel
  have hiff := @authenticate_bearer_iff _ exampleHost rightCrate (tokenApp rightToken)
    (bearerRequest rightToken) startReadings ⟨.empty, none⟩ (.v4 0x7f000001) rightToken hvalid rfl
    rfl (by decide +kernel) rfl rfl
  exact ⟨hvalid, (hiff.mpr (by decide +kernel)).2.2⟩

/-- The service starts with the token and answers 401 to it. -/
theorem authenticate_bearer_accented :
    validateToken accentedToken = .ok () ∧
      (authenticate exampleHost rightCrate (tokenApp accentedToken) (bearerRequest accentedToken)
        startReadings ⟨.empty, none⟩).1 = unauthorized := by
  exact ⟨by decide +kernel, by decide +kernel⟩

end CommandApi
