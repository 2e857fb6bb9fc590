import CommandApi.Async.Threads
import CommandApi.Secret.Protect

/-!
# Checking a token

`generate_pbkdf2_sha256` and `TokenVerifier::verify` of `src/secret.rs`.  A verifier of a password
hash has a cell, shared by its clones and written once, for the fingerprint of a token that has
passed.  From then on the fingerprint is compared and the hash is not computed again.

`verify` is one call by itself.  Calls on a running server interleave: `Call` is where one of them
is, and `verifyThreads` lets any number of them take their steps in any order.  `Answers` is what
cannot be broken by another call, so that the cell never changes an answer.

The crates that hash are parameters (`Host.sha256`, `Pbkdf2`); what is assumed of them is
`Pbkdf2.Lawful`, for the tokens in a set `presented`.
-/

set_option autoImplicit false

namespace CommandApi

open Async Text Relation

/-! ## Generating a hash -/

/-- `Params::MIN_ROUNDS`. -/
def minPbkdf2Sha256Rounds : ℕ := 1000

/-- The `pbkdf2` crate: hashing with a salt and a number of rounds, to the text of the hash, and
checking a password against such a text. -/
structure Pbkdf2 where
  hashPassword : (salt : List UInt8) → (rounds : ℕ) → List UInt8 → Except String String
  verifyPassword : List UInt8 → String → Bool

/-- `generate_pbkdf2_sha256`.  The crate draws the salt. -/
def generatePbkdf2Sha256 (crate : Pbkdf2) (salt : List UInt8) (token : String) (rounds : ℕ) :
    Except String String := do
  validateToken token
  bailIf (maxPbkdf2Sha256Rounds < rounds) s!"PBKDF2 迭代次数不能超过 {maxPbkdf2Sha256Rounds}"
  bailIf (rounds < minPbkdf2Sha256Rounds) s!"PBKDF2 迭代次数不能少于 {minPbkdf2Sha256Rounds}"
  (crate.hashPassword salt rounds (encodeUtf8 token.toList)).mapError fun error ↦
    s!"无法生成 PBKDF2-HMAC-SHA256 Hash: {error}"

/-! ## One call -/

/-- The check in front of everything: short enough, and on a single line. -/
def presentable (token : String) : Bool :=
  !(decide (4096 < token.utf8ByteSize) || token.toList.any (· ∈ ['\r', '\n', '\x00']))

/-- `OnceLock::set`, whose result is dropped. -/
def onceSet {α : Type} (cell : Option α) (a : α) : Option α := cell.orElse fun _ ↦ some a

section

variable {F : Type} (host : Host F) (crate : Pbkdf2)

/-- What the blocking task computes. -/
def slowVerify (phc token : String) : Bool :=
  match host.passwordHash phc with
  | .error _ => false
  | .ok _ => crate.verifyPassword (encodeUtf8 token.toList) phc

/-- `TokenVerifier::verify`: the answer, and the cell afterwards. -/
def TokenVerifier.verify (verifier : TokenVerifier) (cell : Option (List UInt8)) (token : String) :
    Bool × Option (List UInt8) :=
  if presentable token then
    let supplied := tokenFingerprint host token
    match verifier with
    | .sha256 expected => (supplied = expected, cell)
    | .pbkdf2Sha256 phc =>
      match cell with
      | some expected => (supplied = expected, cell)
      | none =>
        let verified := slowVerify host crate phc token
        (verified, if verified then onceSet cell supplied else cell)
  else (false, cell)

/-- … and what it would be without a cell. -/
def verifyUncached (phc token : String) : Bool :=
  presentable token && slowVerify host crate phc token

/-! ## Calls at the same time -/

/-- Where a call with a token is: before the check, before it looks at the cell, while the hash is
computed, before it writes the cell, and at its end. -/
inductive Call
  | entered (token : String)
  | checked (token : String)
  | missed (token : String)
  | passed (token : String)
  | answered (token : String) (result : Bool)
  deriving DecidableEq, Repr

/-- The token of a call. -/
def Call.token : Call → String
  | entered token | checked token | missed token | passed token | answered token _ => token

/-- The next step of a call on a verifier of a password hash, and what it does to the cell. -/
def Call.next (phc : String) (cell : Option (List UInt8)) : Call → Option (List UInt8) × Call
  | .entered token =>
    (cell, if presentable token then .checked token else .answered token false)
  | .checked token =>
    match cell with
    | some expected => (cell, .answered token (tokenFingerprint host token = expected))
    | none => (cell, .missed token)
  | .missed token =>
    (cell, if slowVerify host crate phc token then .passed token else .answered token false)
  | .passed token => (onceSet cell (tokenFingerprint host token), .answered token true)
  | .answered token result => (cell, .answered token result)

/-- A call that takes its steps alone. -/
def advance (phc : String) (c : Option (List UInt8) × Call) : Option (List UInt8) × Call :=
  c.2.next host crate phc c.1

/-- Calls with tokens of a set, on clones of one verifier. -/
def verifyThreads (phc : String) (presented : Set String) :
    Threads (Option (List UInt8)) Call where
  act cell call cell' call' := call.next host crate phc cell = (cell', call')
  arrives _ call := ∃ token ∈ presented, call = .entered token
  env _ _ := False

end

section

variable {F : Type} {host : Host F} {crate : Pbkdf2} {phc : String} {presented : Set String}

/-- A call that is not disturbed takes four steps, and these are `verify`. -/
theorem advance_entered (cell : Option (List UInt8)) (token : String) :
    (advance host crate phc)^[4] (cell, .entered token) =
      (((TokenVerifier.pbkdf2Sha256 phc).verify host crate cell token).2,
        .answered token ((TokenVerifier.pbkdf2Sha256 phc).verify host crate cell token).1) := by
  rw [TokenVerifier.verify]
  by_cases hpresentable : presentable token = true
  · cases cell with
    | some expected => simp [advance, Call.next, hpresentable]
    | none =>
      by_cases hslow : slowVerify host crate phc token = true
      · simp [advance, Call.next, hpresentable, hslow]
      · simp [advance, Call.next, hpresentable, hslow]
  · simp [advance, Call.next, hpresentable]

variable (host crate phc) in
/-- From wherever a call is, four steps of its own bring it to its end. -/
theorem advance_answered (cell : Option (List UInt8)) (call : Call) :
    ∃ result, ((advance host crate phc)^[4] (cell, call)).2 = .answered call.token result := by
  cases call with
  | entered token => exact ⟨_, congrArg Prod.snd (advance_entered cell token)⟩
  | checked token =>
    cases cell with
    | some expected => exact ⟨_, rfl⟩
    | none =>
      by_cases hslow : slowVerify host crate phc token = true
      · exact ⟨true, by simp [advance, Call.next, hslow, Call.token]⟩
      · exact ⟨false, by simp [advance, Call.next, hslow, Call.token]⟩
  | missed token =>
    by_cases hslow : slowVerify host crate phc token = true
    · exact ⟨true, by simp [advance, Call.next, hslow, Call.token]⟩
    · exact ⟨false, by simp [advance, Call.next, hslow, Call.token]⟩
  | passed token => exact ⟨true, rfl⟩
  | answered token result => exact ⟨result, rfl⟩

theorem step_entered (cell : Option (List UInt8)) (calls : List Call) {token : String}
    (h : token ∈ presented) :
    (verifyThreads host crate phc presented).Step (cell, calls) (cell, calls ++ [.entered token]) :=
  .arrive ⟨token, h, rfl⟩

variable (host crate phc presented) in
theorem run_advance (cell : Option (List UInt8)) (call : Call) (before after : List Call) (n : ℕ) :
    (verifyThreads host crate phc presented).Run (cell, before ++ call :: after)
      (((advance host crate phc)^[n] (cell, call)).1,
        before ++ ((advance host crate phc)^[n] (cell, call)).2 :: after) := by
  induction n with
  | zero => exact .refl
  | succ n ih =>
    rw [Function.iterate_succ_apply']
    exact ih.tail (.act rfl)

end

/-! ## The hash and the cell agree -/

/-- What is assumed of the crates: a hash is read as it was printed, with a digest of 32 bytes; a
hash accepts its own token alone, and SHA-256 separates tokens, among those that are presented. -/
structure Pbkdf2.Lawful {F : Type} (crate : Pbkdf2) (host : Host F) (presented : Set String) :
    Prop where
  parses : ∀ salt rounds password phc, crate.hashPassword salt rounds password = .ok phc →
    host.passwordHash phc = .ok ⟨"pbkdf2-sha256", true, true, .ok (32, rounds)⟩
  accepts : ∀ salt rounds token phc,
    crate.hashPassword salt rounds (encodeUtf8 token.toList) = .ok phc →
      ∀ other ∈ presented,
        crate.verifyPassword (encodeUtf8 other.toList) phc = true ↔ other = token
  injOn : Set.InjOn (tokenFingerprint host) presented

theorem presentable_iff {token : String} :
    presentable token = true ↔ token.utf8ByteSize ≤ 4096 ∧ SingleLine token := by
  simp only [presentable, SingleLine, Bool.not_eq_true', Bool.or_eq_false_iff,
    decide_eq_false_iff_not, not_lt, List.any_eq_false, decide_eq_true_eq, List.mem_cons,
    List.not_mem_nil, or_false]
  refine and_congr_right fun _ ↦ ⟨fun h ↦ ?_, ?_⟩
  · exact ⟨fun hc ↦ h _ hc (.inl rfl), fun hc ↦ h _ hc (.inr (.inl rfl)),
      fun hc ↦ h _ hc (.inr (.inr rfl))⟩
  · rintro ⟨hr, hn, h0⟩ c hc (rfl | rfl | rfl)
    exacts [hr hc, hn hc, h0 hc]

/-- A token that is admissible can be presented. -/
theorem presentable_of_validateToken {token : String} (h : validateToken token = .ok ()) :
    presentable token = true :=
  presentable_iff.mpr (validateToken_eq_ok.mp h).2

theorem onceSet_eq_some {α : Type} {cell : Option α} {a b : α} (h : onceSet cell a = some b) :
    cell = some b ∨ a = b := by
  cases cell with
  | none => exact .inr (Option.some.inj h)
  | some c => exact .inl h

section

variable {F : Type} {host : Host F} {crate : Pbkdf2} {presented : Set String} {salt : List UInt8}
  {token other phc : String} {rounds : ℕ}

theorem generatePbkdf2Sha256_eq_ok :
    generatePbkdf2Sha256 crate salt token rounds = .ok phc ↔
      validateToken token = .ok () ∧ rounds ≤ maxPbkdf2Sha256Rounds ∧
        minPbkdf2Sha256Rounds ≤ rounds ∧
        crate.hashPassword salt rounds (encodeUtf8 token.toList) = .ok phc := by
  simp only [generatePbkdf2Sha256, bind_eq_ok, bailIf_eq_ok, mapError_eq_ok, not_lt]
  constructor
  · rintro ⟨⟨⟩, hvalid, ⟨⟩, hmax, ⟨⟩, hmin, hhash⟩
    exact ⟨hvalid, hmax, hmin, hhash⟩
  · rintro ⟨hvalid, hmax, hmin, hhash⟩
    exact ⟨(), hvalid, (), hmax, (), hmin, hhash⟩

/-- A hash that was generated is accepted by the configuration. -/
theorem Pbkdf2.Lawful.fromPbkdf2Sha256_eq (h : crate.Lawful host presented)
    (hgen : generatePbkdf2Sha256 crate salt token rounds = .ok phc) :
    TokenVerifier.fromPbkdf2Sha256 host phc = .ok (.pbkdf2Sha256 phc) := by
  obtain ⟨-, hmax, -, hhash⟩ := generatePbkdf2Sha256_eq_ok.mp hgen
  have hvalid : validatePbkdf2Sha256 host phc = .ok () := by
    rw [validatePbkdf2Sha256, h.parses _ _ _ _ hhash]
    simpa [Except.mapError, bind, Except.bind, bailIf] using hmax
  rw [TokenVerifier.fromPbkdf2Sha256, hvalid]
  rfl

theorem Pbkdf2.Lawful.slowVerify_iff (h : crate.Lawful host presented)
    (hgen : generatePbkdf2Sha256 crate salt token rounds = .ok phc) (hother : other ∈ presented) :
    slowVerify host crate phc other = true ↔ other = token := by
  obtain ⟨-, -, -, hhash⟩ := generatePbkdf2Sha256_eq_ok.mp hgen
  rw [slowVerify, h.parses _ _ _ _ hhash]
  exact h.accepts _ _ _ _ hhash other hother

/-- Without the cell, a call answers whether it has the token. -/
theorem Pbkdf2.Lawful.verifyUncached_iff (h : crate.Lawful host presented)
    (hgen : generatePbkdf2Sha256 crate salt token rounds = .ok phc) (hother : other ∈ presented) :
    verifyUncached host crate phc other = true ↔ other = token := by
  rw [verifyUncached, Bool.and_eq_true, h.slowVerify_iff hgen hother, and_iff_right_iff_imp]
  rintro rfl
  exact presentable_of_validateToken (generatePbkdf2Sha256_eq_ok.mp hgen).1

/-- What is known of a call, whatever the others do: an answer is right, and only the token itself
gets past the hash. -/
def Answers (presented : Set String) (token : String) (call : Call) : Prop :=
  call.token ∈ presented ∧
    match call with
    | .passed other => other = token
    | .answered other result => result = true ↔ other = token
    | _ => True

/-- The cell holds nothing but the fingerprint of the token. -/
def Remembers (host : Host F) (presented : Set String) (token : String)
    (cell : Option (List UInt8)) : Prop :=
  ∀ fingerprint, cell = some fingerprint →
    token ∈ presented ∧ fingerprint = tokenFingerprint host token

/-- One step of a call keeps both. -/
theorem Pbkdf2.Lawful.next_answers (h : crate.Lawful host presented)
    (hgen : generatePbkdf2Sha256 crate salt token rounds = .ok phc) {cell : Option (List UInt8)}
    {call : Call} (hcell : Remembers host presented token cell)
    (hcall : Answers presented token call) :
    Remembers host presented token (call.next host crate phc cell).1 ∧
      Answers presented token (call.next host crate phc cell).2 := by
  have hvalid := (generatePbkdf2Sha256_eq_ok.mp hgen).1
  cases call with
  | entered other =>
    refine ⟨hcell, ?_⟩
    rw [Call.next]
    split
    · exact ⟨hcall.1, trivial⟩
    · rename_i hpresentable
      refine ⟨hcall.1, ?_⟩
      simp only [Bool.false_eq_true, false_iff]
      rintro rfl
      exact hpresentable (presentable_of_validateToken hvalid)
  | checked other =>
    cases cell with
    | none => exact ⟨hcell, hcall.1, trivial⟩
    | some expected =>
      obtain ⟨htoken, rfl⟩ := hcell _ rfl
      exact ⟨hcell, hcall.1, decide_eq_true_iff.trans (h.injOn.eq_iff hcall.1 htoken)⟩
  | missed other =>
    refine ⟨hcell, ?_⟩
    have hiff : slowVerify host crate phc other = true ↔ other = token :=
      h.slowVerify_iff hgen hcall.1
    rw [Call.next]
    split
    · rename_i hslow
      exact ⟨hcall.1, hiff.mp hslow⟩
    · rename_i hslow
      refine ⟨hcall.1, ?_⟩
      simpa using fun heq ↦ hslow (hiff.mpr heq)
  | passed other =>
    obtain ⟨hmem, rfl⟩ := hcall
    refine ⟨fun fingerprint hfp ↦ ?_, hmem, iff_of_true rfl rfl⟩
    rcases onceSet_eq_some hfp with hfp | hfp
    · exact hcell _ hfp
    · exact ⟨hmem, hfp.symm⟩
  | answered other result => exact ⟨hcell, hcall⟩

/-- No call disturbs another. -/
theorem Pbkdf2.Lawful.interference (h : crate.Lawful host presented)
    (hgen : generatePbkdf2Sha256 crate salt token rounds = .ok phc) :
    (verifyThreads host crate phc presented).Interference (Remembers host presented token)
      fun _ call ↦ Answers presented token call where
  own cell call cell' call' hcell hcall hact := by
    have hnext := h.next_answers hgen hcell hcall
    rwa [show call.next host crate phc cell = (cell', call') from hact] at hnext
  other _ _ _ _ _ _ _ _ hu := hu
  arrive _ call _ harrives := by
    obtain ⟨other, hother, rfl⟩ := harrives
    exact ⟨hother, trivial⟩
  env _ _ _ henv := henv.elim

/-- What is promised of a state that calls have reached. -/
structure CacheTransparent (host : Host F) (crate : Pbkdf2) (phc : String) (presented : Set String)
    (token : String) (cell : Option (List UInt8)) (calls : List Call) : Prop where
  /-- A call answers whether it has the token, as it would without the cell. -/
  answers : ∀ other result, .answered other result ∈ calls →
    (result = true ↔ other = token) ∧ result = verifyUncached host crate phc other
  /-- What the cell holds is the fingerprint of a token that has passed the hash. -/
  stored : ∀ fingerprint, cell = some fingerprint → ∃ other ∈ presented,
    verifyUncached host crate phc other = true ∧ fingerprint = tokenFingerprint host other
  /-- Every call that is on its way can come to its end, and then with the right answer. -/
  finishes : ∀ before call after, calls = before ++ call :: after →
    ∃ cell', (verifyThreads host crate phc presented).Run (cell, calls)
      (cell', before ++ .answered call.token (call.token = token) :: after)

/-- **The cached check is the uncached one.**  For a hash that was generated from a token: the
verifier can be built, and in every state that calls on its clones reach, in whatever order they
take their steps, a call has answered whether it has the token, the cell holds nothing else, and the
calls that are left will answer so too. -/
theorem cached_verify_transparent (h : crate.Lawful host presented)
    (hgen : generatePbkdf2Sha256 crate salt token rounds = .ok phc) :
    TokenVerifier.fromPbkdf2Sha256 host phc = .ok (.pbkdf2Sha256 phc) ∧
      ∀ cell calls, (verifyThreads host crate phc presented).Run (none, []) (cell, calls) →
        CacheTransparent host crate phc presented token cell calls := by
  refine ⟨h.fromPbkdf2Sha256_eq hgen, fun cell calls hrun ↦ ?_⟩
  have hsafe : ∀ cell calls, (verifyThreads host crate phc presented).Run (none, []) (cell, calls) →
      Remembers host presented token cell ∧ ∀ call ∈ calls, Answers presented token call :=
    fun cell calls hrun ↦ (h.interference hgen).run hrun nofun nofun
  obtain ⟨hcell, hcalls⟩ := hsafe cell calls hrun
  refine ⟨fun other result hmem ↦ ?_, fun fingerprint hfp ↦ ?_, fun before call after heq ↦ ?_⟩
  · obtain ⟨hpresented, hresult⟩ := hcalls _ hmem
    have huncached : verifyUncached host crate phc other = true ↔ other = token :=
      h.verifyUncached_iff hgen hpresented
    exact ⟨hresult, Bool.eq_iff_iff.mpr (hresult.trans huncached.symm)⟩
  · obtain ⟨hpresented, hfp'⟩ := hcell _ hfp
    exact ⟨token, hpresented, (h.verifyUncached_iff hgen hpresented).mpr rfl, hfp'⟩
  · subst heq
    have hadvance := run_advance host crate phc presented cell call before after 4
    obtain ⟨result, hresult⟩ := advance_answered host crate phc cell call
    rw [hresult] at hadvance
    have hlast := (hsafe _ _ (hrun.trans hadvance)).2 (.answered call.token result)
      (List.mem_append_right _ List.mem_cons_self)
    have hdecide : result = decide (call.token = token) :=
      Bool.eq_iff_iff.mpr (hlast.2.trans decide_eq_true_iff.symm)
    exact ⟨_, hdecide ▸ hadvance⟩

end

/-! ## Two calls

The token and another one are presented to the verifier of a hash. -/

def rightToken : String := "0123456789abcdef0123456789abcdef"

def wrongToken : String := "fedcba9876543210fedcba9876543210"

/-- The hash of `rightToken` with the salt `0, 1, …, 15` and 1000 rounds. -/
def rightPhc : String :=
  "$pbkdf2-sha256$i=1000,l=32$AAECAwQFBgcICQoLDA0ODw$3+ySohv666FxaP1BzfJw8XJfjvaKsjSzeTsT5N2/gBY"

def rightCrate : Pbkdf2 where
  hashPassword salt rounds password :=
    if salt = (List.range 16).map UInt8.ofNat ∧ rounds = 1000 ∧
      password = encodeUtf8 rightToken.toList then .ok rightPhc else .error "crypto error"
  verifyPassword password phc :=
    phc = rightPhc && password = encodeUtf8 rightToken.toList

/-- A host with the digests of the two tokens. -/
def hashHost : Host (List UInt8) :=
  { keyHost.toHost with
    passwordHash := fun phc ↦
      if phc = rightPhc then .ok ⟨"pbkdf2-sha256", true, true, .ok (32, 1000)⟩
      else .error "password hash string missing field"
    sha256 := fun bytes ↦
      if bytes = encodeUtf8 rightToken.toList then
        [62, 177, 189, 67, 153, 71, 235, 118, 41, 152, 229, 102, 204, 194, 224, 153, 199, 145, 17,
          139, 47, 64, 87, 156, 196, 247, 218, 43, 80, 97, 183, 249]
      else
        [75, 166, 138, 168, 118, 123, 222, 114, 232, 199, 152, 238, 130, 209, 39, 82, 145, 206, 167,
          62, 114, 173, 116, 211, 94, 207, 72, 228, 19, 134, 235, 130] }

theorem rightCrate_lawful : rightCrate.Lawful hashHost {rightToken, wrongToken} where
  parses salt rounds password phc h := by
    obtain ⟨⟨-, rfl, -⟩, rfl⟩ := guard_eq_ok.mp h
    rfl
  accepts salt rounds token phc h other hother := by
    obtain ⟨⟨-, -, htoken⟩, rfl⟩ := guard_eq_ok.mp h
    obtain rfl : token = rightToken := String.toList_injective (encodeUtf8_injective htoken)
    rcases hother with rfl | rfl
    · decide +kernel
    · decide +kernel
  injOn := by
    rintro x (rfl | rfl) y (rfl | rfl) h
    · rfl
    · exact absurd h (by decide +kernel)
    · exact absurd h (by decide +kernel)
    · rfl

theorem cached_verify_transparent_two :
    generatePbkdf2Sha256 rightCrate ((List.range 16).map UInt8.ofNat) rightToken 1000 =
        .ok rightPhc ∧
      TokenVerifier.fromPbkdf2Sha256 hashHost rightPhc = .ok (.pbkdf2Sha256 rightPhc) ∧
      ∃ cell, (verifyThreads hashHost rightCrate rightPhc {rightToken, wrongToken}).Run (none, [])
          (cell, [.answered rightToken true, .answered wrongToken false]) ∧
        CacheTransparent hashHost rightCrate rightPhc {rightToken, wrongToken} rightToken cell
          [.answered rightToken true, .answered wrongToken false] := by
  have hgen : generatePbkdf2Sha256 rightCrate ((List.range 16).map UInt8.ofNat) rightToken 1000 =
      .ok rightPhc := by decide +kernel
  obtain ⟨hbuilt, hreached⟩ := cached_verify_transparent rightCrate_lawful hgen
  have hright : (verifyThreads hashHost rightCrate rightPhc {rightToken, wrongToken}).Step
      (none, []) (none, [.entered rightToken]) := step_entered none [] (.inl rfl)
  have hwrong : (verifyThreads hashHost rightCrate rightPhc {rightToken, wrongToken}).Step
      (none, [.entered rightToken]) (none, [.entered rightToken, .entered wrongToken]) :=
    step_entered none [.entered rightToken] (.inr rfl)
  have hfirst := run_advance hashHost rightCrate rightPhc {rightToken, wrongToken} none
    (.entered rightToken) [] [.entered wrongToken] 4
  rw [show (advance hashHost rightCrate rightPhc)^[4] (none, .entered rightToken) =
    (some (tokenFingerprint hashHost rightToken), .answered rightToken true) by
      decide +kernel] at hfirst
  have hsecond := run_advance hashHost rightCrate rightPhc {rightToken, wrongToken}
    (some (tokenFingerprint hashHost rightToken)) (.entered wrongToken)
    [.answered rightToken true] [] 4
  rw [show (advance hashHost rightCrate rightPhc)^[4]
      (some (tokenFingerprint hashHost rightToken), .entered wrongToken) =
    (some (tokenFingerprint hashHost rightToken), .answered wrongToken false) by
      decide +kernel] at hsecond
  have hrun := (((ReflTransGen.single hright).tail hwrong).trans hfirst).trans hsecond
  exact ⟨hgen, hbuilt, _, hrun, hreached _ _ hrun⟩

end CommandApi
