import CommandApi.Server.Cooldown
import CommandApi.Store.Events

/-!
# Tokens that have been issued

The three `secret` commands of `src/main.rs` and the service they are meant for.  `generate` draws a
token, writes it to a key file and prints it; `protect` writes a token that it is given; `hash`
prints the configuration of a password hash.  The service is started with a configuration that names
the file or has the hash in it.

* `admitsOnly_of_accepts`: whatever requests a service has had before, a request gets through if its
  address is allowed, is not in cooldown, and presents the token, and no other request does.
* `issued_token_admits`: this is what a service is like that is started with anything the commands
  have issued.

Tokens that are presented to the service are among a set on which SHA-256 separates them, as in
`CommandApi.Secret.Verify`.
-/

set_option autoImplicit false

namespace CommandApi

open Text

/-! ## The commands -/

/-- `Uuid::simple`. -/
def Uuid.simple (id : Uuid) : String := String.ofList (hexDigits 32 id.toNat)

/-- Where `read_token` takes a token from. -/
inductive TokenInput
  | stdin (bytes : List UInt8)
  /-- The answers at the two prompts of the terminal. -/
  | prompts (first second : Except String String)

/-- `read_token`. -/
def TokenInput.read : TokenInput → Except String String
  | .stdin bytes => readToken bytes
  | .prompts first second => do
    let first ← first
    let second ← second
    if first = second then pure first else .error "两次输入的 Token 不一致"

inductive SecretAction
  | generate (output : Path) (scope : DpapiScope)
  | protect (output : Path) (scope : DpapiScope) (input : TokenInput)
  | hash (input : TokenInput) (rounds : ℕ)

/-- What the crates draw at random. -/
structure Draws where
  first : Uuid
  second : Uuid
  salt : List UInt8

/-- The configuration that `hash` prints. -/
def hashYaml (hash : String) : String :=
  "auth:\n  token:\n    provider: pbkdf2_sha256\n    hash: \"" ++ hash ++ "\"\n"

section

variable {F : Type} (host : KeyHost F) (crate : Pbkdf2) (fs : F) (draws : Draws)

/-- `generate_and_protect`. -/
def generateAndProtect (output : Path) (scope : DpapiScope) : Except String (String × F) := do
  let token := draws.first.simple ++ draws.second.simple
  let fs ← protectToFile host fs (encodeUtf8 token.toList) output scope
  pure (token, fs)

/-- A `secret` command: what it prints, and the files afterwards. -/
def runSecret : SecretAction → Except String (String × F)
  | .generate output scope => do
    let (token, fs) ← generateAndProtect host fs draws output scope
    pure (token ++ "\n", fs)
  | .protect output scope input => do
    let token ← input.read
    let fs ← protectToFile host fs (encodeUtf8 token.toList) output scope
    pure ("", fs)
  | .hash input rounds => do
    let token ← input.read
    let hash ← generatePbkdf2Sha256 crate draws.salt token rounds
    pure (hashYaml hash, fs)

end

/-! ## What has been issued -/

/-- The token of a command, and what it prints about it. -/
def Issues (draws : Draws) : SecretAction → String → String → Prop
  | .generate _ _, text, token =>
    token = draws.first.simple ++ draws.second.simple ∧ text = token ++ "\n"
  | .protect _ _ input, _, token | .hash input _, _, token => input.read = .ok token

/-- The entries of a configuration under `base` that a user may make of it: the path of the key file
in any form, or the hash that was printed. -/
def Configures {F : Type} (host : Host F) (fs : F) (base : Path) (text : String) :
    SecretAction → TokenSource → Prop
  | .generate output _, source | .protect output _ _, source =>
    ∃ file path, source = .windowsDpapi file ∧ host.canonicalize fs output = .ok path ∧
      host.canonicalize fs (absoluteFrom base file) = .ok path
  | .hash _ _, source => ∃ phc, source = .pbkdf2Sha256 phc ∧ text = hashYaml phc

/-- The token a request presents. -/
def AuthRequest.presents (request : AuthRequest) : Option String :=
  request.authorization.bind bearerToken

/-- A service with this verifier lets in whoever presents the token, and nobody else: after any
requests, the next one gets through if its address is allowed and not in cooldown, and it presents
the token. -/
def AdmitsOnly {F : Type} (host : Host F) (crate : Pbkdf2) (presented : Set String)
    (verifier : TokenVerifier) (token : String) : Prop :=
  ∀ app : App, app.token = verifier → ∀ (before : List Arrival) (a : Arrival),
    (∀ b ∈ before ++ [a], ∀ other, b.request.presents = some other → other ∈ presented) →
    let s := (serve host crate app before).1
    (authenticate host crate app a.request a.readings s).1 = .next ↔
      (∃ ip, a.request.peer.map normalizeIp = some ip ∧ app.allows ip = true ∧
        (cooldownRemaining app.tokenFailureCooldown a.readings.checkedAt ip s.failures).1 = none) ∧
      a.request.presents = some token

/-! ## Verifiers -/

/-- A verifier that accepts the token alone, as long as `inv` holds of its cell. -/
structure Accepts {F : Type} (host : Host F) (crate : Pbkdf2) (presented : Set String)
    (verifier : TokenVerifier) (token : String) (inv : Option (List UInt8) → Prop) : Prop where
  start : inv none
  verify : ∀ cell, inv cell → ∀ other ∈ presented,
    ((verifier.verify host crate cell other).1 = true ↔ other = token) ∧
      inv (verifier.verify host crate cell other).2

section

variable {F : Type} {host : Host F} {crate : Pbkdf2} {presented : Set String} {app : App}
  {request : AuthRequest} {r : Readings} {s : AuthState} {token phc : String} {salt : List UInt8}
  {rounds : ℕ} {verifier : TokenVerifier} {inv : Option (List UInt8) → Prop}

theorem accepts_fromToken (hvalid : validateToken token = .ok ())
    (hinj : Set.InjOn (tokenFingerprint host) presented) (htoken : token ∈ presented) :
    Accepts host crate presented (.fromToken host token) token fun _ ↦ True where
  start := trivial
  verify cell _ other hother := by
    refine ⟨?_, trivial⟩
    rw [TokenVerifier.verify]
    split
    · exact decide_eq_true_iff.trans (hinj.eq_iff hother htoken)
    · rename_i hnot
      refine iff_of_false Bool.false_ne_true ?_
      rintro rfl
      exact hnot (presentable_of_validateToken hvalid)

theorem accepts_pbkdf2 (h : crate.Lawful host presented)
    (hgen : generatePbkdf2Sha256 crate salt token rounds = .ok phc) :
    Accepts host crate presented (.pbkdf2Sha256 phc) token (Remembers host presented token) where
  start := nofun
  verify cell hcell other hother := by
    -- four steps of a call that nobody disturbs
    have hsteps : ∀ n, Remembers host presented token
          ((advance host crate phc)^[n] (cell, .entered other)).1 ∧
        Answers presented token ((advance host crate phc)^[n] (cell, .entered other)).2 := by
      intro n
      induction n with
      | zero => exact ⟨hcell, hother, trivial⟩
      | succ n ih =>
        rw [Function.iterate_succ_apply']
        exact h.next_answers hgen ih.1 ih.2
    obtain ⟨hremembers, hanswers⟩ := hsteps 4
    rw [advance_entered] at hremembers hanswers
    exact ⟨hanswers.2, hremembers⟩

/-! ## Services -/

/-- Who gets through. -/
theorem authenticate_next_iff :
    (authenticate host crate app request r s).1 = .next ↔
      ∃ ip, request.peer.map normalizeIp = some ip ∧ app.allows ip = true ∧
        (cooldownRemaining app.tokenFailureCooldown r.checkedAt ip s.failures).1 = none ∧
        (checkToken host crate app request s.fingerprint).1 = true := by
  constructor
  · intro h
    have hall := h
    rw [authenticate] at h
    cases hpeer : request.peer.map normalizeIp with
    | none => simp [hpeer, sourceIpUnavailable] at h
    | some ip =>
      by_cases hallowed : app.allows ip = true
      · have hcooldown : (cooldownRemaining app.tokenFailureCooldown r.checkedAt ip
            s.failures).1 = none := by
          rw [hpeer] at h
          simp only [hallowed, if_true, authenticatePeer] at h
          split at h
          · simp [tokenFailureCooldown] at h
          · rename_i hnone
            rw [hnone]
        exact ⟨ip, rfl, hallowed, hcooldown,
          (authenticate_eq_next_iff hpeer hallowed hcooldown).mp hall⟩
      · simp [hpeer, hallowed, sourceIpDenied] at h
  · rintro ⟨ip, hpeer, hallowed, hcooldown, hcheck⟩
    exact (authenticate_eq_next_iff hpeer hallowed hcooldown).mpr hcheck

variable (request) in
/-- A request leaves the cell alone, or does to it what its token does. -/
theorem fingerprint_authenticate :
    (authenticate host crate app request r s).2.fingerprint = s.fingerprint ∨
      (authenticate host crate app request r s).2.fingerprint =
        (checkToken host crate app request s.fingerprint).2 := by
  rw [authenticate]
  split
  · exact .inl rfl
  · split
    · rw [authenticatePeer]
      split
      · exact .inl rfl
      · split
        · rename_i hcheck
          exact .inr (by rw [hcheck])
        · rename_i hcheck
          split <;> exact .inr (by rw [hcheck])
    · exact .inl rfl

theorem Accepts.checkToken (h : Accepts host crate presented app.token token inv)
    {cell : Option (List UInt8)} (hcell : inv cell)
    (hpresented : ∀ other, request.presents = some other → other ∈ presented) :
    ((CommandApi.checkToken host crate app request cell).1 = true ↔
        request.presents = some token) ∧
      inv (CommandApi.checkToken host crate app request cell).2 := by
  rw [CommandApi.checkToken]
  cases hp : request.presents with
  | none =>
    rw [AuthRequest.presents] at hp
    simp only [hp]
    exact ⟨iff_of_false Bool.false_ne_true (Option.some_ne_none _).symm, hcell⟩
  | some other =>
    have hverify := h.verify cell hcell other (hpresented other hp)
    rw [AuthRequest.presents] at hp
    simp only [hp]
    exact ⟨hverify.1.trans (Option.some_inj).symm, hverify.2⟩

/-- **Whatever requests a service has had, it lets in the token alone.** -/
theorem admitsOnly_of_accepts (h : Accepts host crate presented verifier token inv) :
    AdmitsOnly host crate presented verifier token := by
  rintro app rfl before a hpresented
  have hcell : inv (serve host crate app before).1.fingerprint := by
    have hbefore : ∀ b ∈ before, ∀ other, b.request.presents = some other → other ∈ presented :=
      fun b hb ↦ hpresented b (List.mem_append_left _ hb)
    clear hpresented
    induction before using List.reverseRecOn with
    | nil => exact h.start
    | append_singleton before b ih =>
      have ih := ih fun c hc ↦ hbefore c (List.mem_append_left _ hc)
      have hb := hbefore b (List.mem_append_right _ List.mem_cons_self)
      rw [serve_concat]
      show inv (authenticate host crate app b.request b.readings _).2.fingerprint
      rcases fingerprint_authenticate b.request with hsame | hcheck
      · rw [hsame]
        exact ih
      · rw [hcheck]
        exact (h.checkToken ih hb).2
  have ha := hpresented a (List.mem_append_right _ List.mem_cons_self)
  simp only [authenticate_next_iff, (h.checkToken hcell ha).1]
  constructor
  · rintro ⟨ip, hpeer, hallowed, hcooldown, htoken⟩
    exact ⟨⟨ip, hpeer, hallowed, hcooldown⟩, htoken⟩
  · rintro ⟨⟨ip, hpeer, hallowed, hcooldown⟩, htoken⟩
    exact ⟨ip, hpeer, hallowed, hcooldown, htoken⟩

end

/-! ## Generated tokens -/

theorem forall_mem_hexDigits {p : Char → Prop} (hp : ∀ d < 16, p (Nat.digitChar d)) (width n : ℕ) :
    ∀ c ∈ hexDigits width n, p c := by
  induction width generalizing n with
  | zero => exact fun c hc ↦ absurd hc List.not_mem_nil
  | succ width ih =>
    rw [hexDigits, List.forall_mem_append, List.forall_mem_singleton]
    exact ⟨ih _, hp _ (Nat.mod_lt n (by decide))⟩

/-- Visible ASCII is encoded byte by byte. -/
theorem length_encodeUtf8_visible {cs : List Char} (h : ∀ c ∈ cs, 32 < c.toNat ∧ c.toNat < 127) :
    (encodeUtf8 cs).length = cs.length := by
  induction cs with
  | nil => rfl
  | cons c cs ih =>
    obtain ⟨hc, hcs⟩ := List.forall_mem_cons.mp h
    have hascii : c.val ≤ 0x7f := UInt32.le_iff_toNat_le.mpr (by show c.toNat ≤ 127; omega)
    rw [encodeUtf8_ascii hascii, List.length_cons, List.length_cons, ih hcs]

/-- **A generated token is admissible, and a header can have it.** -/
theorem generated_token (first second : Uuid) :
    validateToken (first.simple ++ second.simple) = .ok () ∧
      HeaderText (first.simple ++ second.simple).toList := by
  have hlist : (first.simple ++ second.simple).toList =
      hexDigits 32 first.toNat ++ hexDigits 32 second.toNat := by simp [Uuid.simple]
  have hdigit : ∀ d < 16, 32 < (Nat.digitChar d).toNat ∧ (Nat.digitChar d).toNat < 127 := by decide
  have hvisible : ∀ c ∈ (first.simple ++ second.simple).toList, 32 < c.toNat ∧ c.toNat < 127 := by
    rw [hlist, List.forall_mem_append]
    exact ⟨forall_mem_hexDigits hdigit _ _, forall_mem_hexDigits hdigit _ _⟩
  have hsize : (first.simple ++ second.simple).utf8ByteSize = 64 := by
    rw [utf8ByteSize_eq_length, length_encodeUtf8_visible hvisible, hlist, List.length_append,
      length_hexDigits, length_hexDigits]
  have hnot : ∀ c : Char, c.toNat ≤ 32 → c ∉ (first.simple ++ second.simple).toList :=
    fun c hc hmem ↦ absurd (hvisible c hmem).1 (not_lt.mpr hc)
  refine ⟨validateToken_eq_ok.mpr ⟨by omega, by omega, ?_⟩, fun c hc ↦ .inl ?_⟩
  · exact ⟨hnot '\r' (by decide), hnot '\n' (by decide), hnot '\x00' (by decide)⟩
  · exact ⟨(hvisible c hc).1.le, (hvisible c hc).2⟩

/-! ## From the command to the request -/

section

variable {F : Type} {host : KeyHost F} {crate : Pbkdf2} {presented : Set String} {fs fs' : F}
  {draws : Draws} {action : SecretAction} {text token : String} {output : Path}
  {scope : DpapiScope}

/-- A key file of an admissible token starts a service that admits the token alone. -/
theorem keyFile_admits (h : host.Faithful)
    (hinj : Set.InjOn (tokenFingerprint host.toHost) presented)
    (hprotect : protectToFile host fs (encodeUtf8 token.toList) output scope = .ok fs')
    (hline : SingleLine token) {base file path : Path}
    (hpath : host.canonicalize fs' output = .ok path)
    (hfile : host.canonicalize fs' (absoluteFrom base file) = .ok path) :
    ∃ verifier, resolveToken host.toHost fs' base (.windowsDpapi file) = .ok verifier ∧
      (token ∈ presented → AdmitsOnly host.toHost crate presented verifier token) := by
  obtain ⟨hmin, hmax, bytes, hread, hbytes⟩ := protectToFile_ok h hprotect
  rw [← utf8ByteSize_eq_length] at hmin hmax
  have hvalid : validateToken token = .ok () := validateToken_eq_ok.mpr ⟨hmin, hmax, hline⟩
  have hrecovered : Recovered host.toHost fs' output token :=
    (recovered_iff h hread hbytes).mpr hvalid
  exact ⟨_, hrecovered.resolved base file path hpath hfile,
    fun htoken ↦ admitsOnly_of_accepts (accepts_fromToken hvalid hinj htoken)⟩

theorem append_middle_injective (p q : String) : Function.Injective fun a ↦ p ++ a ++ q := by
  intro a b hab
  have hlist := congrArg String.toList hab
  simp only [String.toList_append, List.append_assoc, List.append_cancel_left_eq,
    List.append_cancel_right_eq] at hlist
  exact String.toList_injective hlist

/-- The hash can be read off what was printed. -/
theorem hashYaml_injective : Function.Injective hashYaml := append_middle_injective _ _

theorem generateAndProtect_ok
    (h : generateAndProtect host fs draws output scope = .ok (token, fs')) :
    token = draws.first.simple ++ draws.second.simple ∧
      protectToFile host fs (encodeUtf8 token.toList) output scope = .ok fs' := by
  obtain ⟨fs₁, hprotect, heq⟩ := bind_eq_ok.mp h
  obtain ⟨rfl, rfl⟩ := Prod.mk.inj (Except.ok.inj heq)
  exact ⟨rfl, hprotect⟩

/-- **What the `secret` commands have issued opens the service, and nothing else does.**  A
configuration that names the key file, or has the hash that was printed, is accepted, and a service
that is started with it admits the token alone.  A token that was protected has to be a single line;
one that was generated or hashed is, and one that was generated can be presented in a header. -/
theorem issued_token_admits (h : host.Faithful) (hcrate : crate.Lawful host.toHost presented)
    (hrun : runSecret host crate fs draws action = .ok (text, fs')) :
    ∃ token, Issues draws action text token ∧
      ((∀ output scope input, action ≠ .protect output scope input) → SingleLine token) ∧
      (∀ output scope, action = .generate output scope → HeaderText token.toList) ∧
      (SingleLine token → ∀ base source, Configures host.toHost fs' base text action source →
        ∃ verifier, resolveToken host.toHost fs' base source = .ok verifier ∧
          (token ∈ presented → AdmitsOnly host.toHost crate presented verifier token)) := by
  cases action with
  | generate output scope =>
    obtain ⟨⟨token, fs₁⟩, hgenerate, heq⟩ := bind_eq_ok.mp hrun
    obtain ⟨rfl, rfl⟩ := Prod.mk.inj (Except.ok.inj heq)
    obtain ⟨rfl, hprotect⟩ := generateAndProtect_ok hgenerate
    obtain ⟨hvalid, htext⟩ := generated_token draws.first draws.second
    refine ⟨_, ⟨rfl, rfl⟩, fun _ ↦ ?_, fun _ _ _ ↦ htext, fun hline base source hsource ↦ ?_⟩
    · exact (validateToken_eq_ok.mp hvalid).2.2
    · obtain ⟨file, path, rfl, hpath, hfile⟩ := hsource
      exact keyFile_admits h hcrate.injOn hprotect hline hpath hfile
  | protect output scope input =>
    obtain ⟨token, hread, hrun⟩ := bind_eq_ok.mp hrun
    obtain ⟨fs₁, hprotect, heq⟩ := bind_eq_ok.mp hrun
    obtain ⟨rfl, rfl⟩ := Prod.mk.inj (Except.ok.inj heq)
    refine ⟨token, hread, fun hne ↦ absurd rfl (hne output scope input), nofun,
      fun hline base source hsource ↦ ?_⟩
    obtain ⟨file, path, rfl, hpath, hfile⟩ := hsource
    exact keyFile_admits h hcrate.injOn hprotect hline hpath hfile
  | hash input rounds =>
    obtain ⟨token, hread, hrun⟩ := bind_eq_ok.mp hrun
    obtain ⟨phc, hgen, heq⟩ := bind_eq_ok.mp hrun
    obtain ⟨rfl, rfl⟩ := Prod.mk.inj (Except.ok.inj heq)
    have hvalid := (generatePbkdf2Sha256_eq_ok.mp hgen).1
    refine ⟨token, hread, fun _ ↦ (validateToken_eq_ok.mp hvalid).2.2, nofun,
      fun _ base source hsource ↦ ?_⟩
    obtain ⟨phc', rfl, htext⟩ := hsource
    obtain rfl := hashYaml_injective htext
    exact ⟨_, hcrate.fromPbkdf2Sha256_eq hgen,
      fun _ ↦ admitsOnly_of_accepts (accepts_pbkdf2 hcrate hgen)⟩

end

/-! ## Issuing a token

A token of two identifiers, and a service that is started with its file. -/

def exampleDraws : Draws where
  first := 0x0f3c2a9e5b7d4e61a8c4d29b7f1e6035
  second := 0x9b2e7d14c6504f8fb3a1e05d8c7f4a26
  salt := (List.range 16).map UInt8.ofNat

def issuedToken : String := "0f3c2a9e5b7d4e61a8c4d29b7f1e60359b2e7d14c6504f8fb3a1e05d8c7f4a26"

/-- A Windows host with the digests of the issued token and of another one. -/
def issuingHost : KeyHost (List UInt8) :=
  { keyHost with
    passwordHash := hashHost.passwordHash
    sha256 := fun bytes ↦
      if bytes = encodeUtf8 issuedToken.toList then
        [133, 5, 128, 85, 182, 86, 186, 133, 51, 158, 196, 134, 234, 106, 230, 0, 251, 240, 116, 58,
          163, 160, 162, 84, 132, 121, 159, 61, 59, 219, 164, 183]
      else hashHost.sha256 bytes }

theorem issuingHost_faithful : issuingHost.Faithful :=
  ⟨keyHost_faithful.unprotect, keyHost_faithful.read, keyHost_faithful.canonicalize⟩

theorem rightCrate_lawful_issued :
    rightCrate.Lawful issuingHost.toHost {issuedToken, wrongToken} where
  parses := rightCrate_lawful.parses
  accepts salt rounds token phc h other hother := by
    obtain ⟨⟨-, -, htoken⟩, rfl⟩ := guard_eq_ok.mp h
    obtain rfl : token = rightToken := String.toList_injective (encodeUtf8_injective htoken)
    rcases hother with rfl | rfl
    · decide +kernel
    · decide +kernel
  injOn := by
    rintro x (rfl | rfl) y (rfl | rfl) h
    · rfl
    · exact absurd h (by decide +kernel)
    · exact absurd h (by decide +kernel)
    · rfl

/-- A request with a token, from the local host. -/
def exampleArrival (token : String) : Arrival := ⟨bearerRequest token, startReadings⟩

/-- The issued token gets through behind a wrong one, which does not. -/
theorem issued_token_admits_generated :
    ∃ verifier fs', runSecret issuingHost rightCrate [] exampleDraws
        (.generate ⟨true, ["token.dpapi"]⟩ .user) = .ok (issuedToken ++ "\n", fs') ∧
      resolveToken issuingHost.toHost fs' ⟨true, []⟩ (.windowsDpapi ⟨false, ["token.dpapi"]⟩) =
        .ok verifier ∧
      ∀ token, token = issuedToken ∨ token = wrongToken →
        let app : App := { exampleStarted.app with token := verifier }
        (authenticate issuingHost.toHost rightCrate app (bearerRequest token) startReadings
            (serve issuingHost.toHost rightCrate app [exampleArrival wrongToken]).1).1 = .next ↔
          token = issuedToken := by
  have hrun : runSecret issuingHost rightCrate [] exampleDraws
      (.generate ⟨true, ["token.dpapi"]⟩ .user) =
        .ok (issuedToken ++ "\n", (encodeUtf8 issuedToken.toList).map (· ^^^ 0x5a)) := by
    decide +kernel
  obtain ⟨token, ⟨-, htext⟩, hline, -, hadmits⟩ :=
    issued_token_admits issuingHost_faithful rightCrate_lawful_issued hrun
  obtain rfl : issuedToken = token := append_middle_injective "" "\n" (by simpa using htext)
  obtain ⟨verifier, hresolved, honly⟩ := hadmits (hline nofun) ⟨true, []⟩
    (.windowsDpapi ⟨false, ["token.dpapi"]⟩) ⟨_, ⟨true, ["token.dpapi"]⟩, rfl, rfl, rfl⟩
  refine ⟨verifier, _, hrun, hresolved, fun token htoken ↦ ?_⟩
  have hpresents : ∀ other, other = issuedToken ∨ other = wrongToken →
      (bearerRequest other).presents = some other := by
    rintro other (rfl | rfl)
    · have htext : HeaderText issuedToken.toList := by decide +kernel
      exact (bearerToken_bearer _).trans (if_pos htext)
    · have htext : HeaderText wrongToken.toList := by decide +kernel
      exact (bearerToken_bearer _).trans (if_pos htext)
  have hpresented : ∀ b ∈ [exampleArrival wrongToken] ++ [exampleArrival token], ∀ other,
      b.request.presents = some other → other ∈ ({issuedToken, wrongToken} : Set String) := by
    intro b hb other hother
    have hsent : ∃ sent, (sent = issuedToken ∨ sent = wrongToken) ∧
        b.request = bearerRequest sent := by
      rcases List.mem_cons.mp hb with rfl | hb
      · exact ⟨wrongToken, .inr rfl, rfl⟩
      · obtain rfl := List.mem_singleton.mp hb
        exact ⟨token, htoken, rfl⟩
    obtain ⟨sent, hsent, hrequest⟩ := hsent
    rw [hrequest, hpresents sent hsent] at hother
    exact Option.some.inj hother ▸ hsent
  refine (honly (.inl rfl) { exampleStarted.app with token := verifier } rfl
    [exampleArrival wrongToken] (exampleArrival token) hpresented).trans ?_
  rw [show (exampleArrival token).request.presents = some token from hpresents token htoken,
    Option.some_inj, and_iff_right]
  have hallowed : exampleStarted.app.allows (.v4 0x7f000001) = true := by decide +kernel
  exact ⟨.v4 0x7f000001, rfl, hallowed, rfl⟩

end CommandApi
