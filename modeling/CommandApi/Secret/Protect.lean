import CommandApi.Config.Resolve

/-!
# Key files

`secret protect --stdin` of `src/main.rs` with the writing side of `src/secret.rs`, against the
side that reads the file when the service starts (`unprotectFromFile`, `resolveToken`).

Both sides check the token, and not in the same way: `protect_to_file` looks at the length only,
`unprotect_from_file` also refuses a token with a line break or NUL inside.  `read_token` removes
line breaks at the end, so what is lost are exactly the tokens that have one in the middle, or a NUL
anywhere.
-/

set_option autoImplicit false

namespace CommandApi

open Text

/-! ## Writing -/

inductive DpapiScope
  | user
  | machine
  deriving DecidableEq, Repr

/-- What the writing side meets outside the program, beside what the reading side does. -/
structure KeyHost (F : Type) extends Host F where
  /-- `CryptProtectData`. -/
  cryptProtectData : List UInt8 → DpapiScope → Except String (List UInt8)
  /-- `fs::write`. -/
  write : F → Path → List UInt8 → Except String F

section

variable {F : Type} (host : KeyHost F) (fs : F)

/-- `dpapi::protect`. -/
def protect (plaintext : List UInt8) (scope : DpapiScope) : Except String (List UInt8) :=
  match host.platform with
  | .unix => .error "Windows DPAPI 密钥仅支持 Windows"
  | .windows => host.cryptProtectData plaintext scope

/-- `fs::create_dir_all` on the parent of a path, if it has one. -/
def createParent (output : Path) : Except String F :=
  match output.parent with
  | some parent => withContext s!"无法创建密钥目录 {parent.display}" (host.createDirAll fs parent)
  | none => .ok fs

def protectToFile (plaintext : List UInt8) (output : Path) (scope : DpapiScope) :
    Except String F := do
  bailIf (plaintext.length < 32) "Token 至少需要 32 字节"
  bailIf (4096 < plaintext.length) "Token 不能超过 4096 字节"
  let bytes ← protect host plaintext scope
  let fs ← createParent host fs output
  withContext s!"无法写入 DPAPI 密钥文件 {output.display}" (host.write fs output bytes)

end

/-- `read_token` with `--stdin`: what `read_to_string` reads, without the line breaks at its end. -/
def readToken (stdin : List UInt8) : Except String String :=
  match decodeUtf8 stdin with
  | some value => .ok (String.ofList (value.rdropWhile fun c ↦ c = '\r' ∨ c = '\n'))
  | none => .error "stream did not contain valid UTF-8"

/-- The command `secret protect --stdin`. -/
def secretProtect {F : Type} (host : KeyHost F) (fs : F) (stdin : List UInt8) (output : Path)
    (scope : DpapiScope) : Except String F := do
  let token ← readToken stdin
  protectToFile host fs (encodeUtf8 token.toList) output scope

/-! ## Reading back -/

/-- What is assumed of Windows. -/
structure KeyHost.Faithful {F : Type} (host : KeyHost F) : Prop where
  unprotect : ∀ plaintext scope bytes, host.cryptProtectData plaintext scope = .ok bytes →
    host.cryptUnprotectData bytes = .ok plaintext
  read : ∀ fs path bytes fs', host.write fs path bytes = .ok fs' → host.read fs' path = .ok bytes
  /-- The canonical path of a file is a path of the same file. -/
  canonicalize : ∀ fs path path', host.canonicalize fs path = .ok path' →
    host.read fs path' = host.read fs path

section

variable {F : Type} {host : KeyHost F} {fs fs' : F} {plaintext : List UInt8} {output : Path}
  {scope : DpapiScope} {token : String}

/-- A file that was written holds the token, and its length is admissible. -/
theorem protectToFile_ok (h : host.Faithful)
    (hprotect : protectToFile host fs plaintext output scope = .ok fs') :
    32 ≤ plaintext.length ∧ plaintext.length ≤ 4096 ∧
      ∃ bytes, host.read fs' output = .ok bytes ∧ unprotect host.toHost bytes = .ok plaintext := by
  simp only [protectToFile, bind_eq_ok, bailIf_eq_ok, withContext_eq_ok, not_lt] at hprotect
  obtain ⟨-, hmin, -, hmax, bytes, hbytes, fs₁, -, hwrite⟩ := hprotect
  refine ⟨hmin, hmax, bytes, h.read _ _ _ _ hwrite, ?_⟩
  rw [protect] at hbytes
  rw [unprotect]
  cases hP : host.platform with
  | unix =>
    rw [hP] at hbytes
    cases hbytes
  | windows =>
    rw [hP] at hbytes
    exact h.unprotect _ _ _ hbytes

/-- What reading a key file comes to: the check of `validate_token`. -/
theorem unprotectFromFile_of_read {path : Path} {bytes : List UInt8}
    (hread : host.read fs path = .ok bytes)
    (hbytes : unprotect host.toHost bytes = .ok (encodeUtf8 token.toList)) :
    unprotectFromFile host.toHost fs path = (validateToken token >>= fun _ ↦ pure token) := by
  have hutf8 : fromUtf8 host.toHost (encodeUtf8 token.toList) = .ok token := by
    rw [fromUtf8, decodeUtf8_encodeUtf8]
    exact congrArg Except.ok (String.ofList_toList)
  rw [unprotectFromFile, hread, withContext, Except.mapError]
  simp only [bind, Except.bind, hbytes, hutf8, withContext, Except.mapError]

/-- The service can be started with the key file: reading it gives the token, and a configuration
that names the file, by whatever path, gets the verifier of the token. -/
structure Recovered (host : Host F) (fs : F) (output : Path) (token : String) : Prop where
  read : unprotectFromFile host fs output = .ok token
  resolved : ∀ base file path, host.canonicalize fs output = .ok path →
    host.canonicalize fs (absoluteFrom base file) = .ok path →
      resolveToken host fs base (.windowsDpapi file) = .ok (.fromToken host token)

theorem recovered_iff {bytes : List UInt8} (h : host.Faithful)
    (hread : host.read fs output = .ok bytes)
    (hbytes : unprotect host.toHost bytes = .ok (encodeUtf8 token.toList)) :
    Recovered host.toHost fs output token ↔ validateToken token = .ok () := by
  constructor
  · intro hrec
    have hok := hrec.read
    rw [unprotectFromFile_of_read hread hbytes, bind_eq_ok] at hok
    obtain ⟨u, hvalid, -⟩ := hok
    exact hvalid
  · intro hvalid
    refine ⟨?_, fun base file path hpath hfile ↦ ?_⟩
    · rw [unprotectFromFile_of_read hread hbytes, hvalid]
      rfl
    · have hread' := (h.canonicalize _ _ _ hpath).trans hread
      simp only [resolveToken, bind_eq_ok, withContext_eq_ok]
      refine ⟨path, hfile, token, ?_, (), hvalid, rfl⟩
      rw [unprotectFromFile_of_read hread' hbytes, hvalid]
      rfl

/-- **A key file is as good as its token is a single line.**  When `secret protect --stdin` has
written a file, the file gives the token it has read back if and only if the token has no line break
and no NUL in it. -/
theorem secretProtect_recovered_iff {stdin : List UInt8} (h : host.Faithful)
    (htoken : readToken stdin = .ok token)
    (hprotect : secretProtect host fs stdin output scope = .ok fs') :
    Recovered host.toHost fs' output token ↔ SingleLine token := by
  rw [secretProtect, htoken] at hprotect
  obtain ⟨hmin, hmax, bytes, hread, hbytes⟩ := protectToFile_ok h hprotect
  rw [← utf8ByteSize_eq_length] at hmin hmax
  rw [recovered_iff h hread hbytes, validateToken_eq_ok, and_iff_right hmin, and_iff_right hmax]

end

/-! ## Two texts on standard input -/

/-- A Windows host with one key file, whose content is the state. -/
def keyHost : KeyHost (List UInt8) where
  platform := .windows
  canonicalize _ path := .ok path
  readToString _ _ := .error "系统找不到指定的文件。 (os error 2)"
  read bytes _ := .ok bytes
  isFile _ _ := true
  isDir _ _ := false
  createDirAll bytes _ := .ok bytes
  var _ := .error "environment variable not found"
  fromYaml _ := .error "invalid type"
  regexNew _ := .ok ()
  passwordHash _ := .error "password hash string missing field"
  cryptUnprotectData bytes := .ok (bytes.map (· ^^^ 0x5a))
  utf8Error _ := "invalid utf-8 sequence"
  sha256 bytes := bytes
  cryptProtectData bytes _ := .ok (bytes.map (· ^^^ 0x5a))
  write _ _ bytes := .ok bytes

theorem keyHost_faithful : keyHost.Faithful where
  unprotect := by
    rintro plaintext scope bytes ⟨⟩
    simp [keyHost, Function.comp_def]
  read := by
    rintro fs path bytes fs' ⟨⟩
    rfl
  canonicalize := by
    rintro fs path path' ⟨⟩
    rfl

/-- `printf '0123456789abcdef\n0123456789abcdef\n'`. -/
def twoLines : List UInt8 := encodeUtf8 "0123456789abcdef\n0123456789abcdef\n".toList

/-- The same on one line. -/
def oneLine : List UInt8 := encodeUtf8 "0123456789abcdef0123456789abcdef\n".toList

theorem secretProtect_recovered_oneLine :
    ∃ fs', readToken oneLine = .ok "0123456789abcdef0123456789abcdef" ∧
      secretProtect keyHost [] oneLine ⟨true, ["token.dpapi"]⟩ .user = .ok fs' ∧
      Recovered keyHost.toHost fs' ⟨true, ["token.dpapi"]⟩ "0123456789abcdef0123456789abcdef" := by
  have htoken : readToken oneLine = .ok "0123456789abcdef0123456789abcdef" := by decide +kernel
  have hprotect : secretProtect keyHost [] oneLine ⟨true, ["token.dpapi"]⟩ .user =
      .ok ((encodeUtf8 "0123456789abcdef0123456789abcdef".toList).map (· ^^^ 0x5a)) := by
    decide +kernel
  exact ⟨_, htoken, hprotect,
    (secretProtect_recovered_iff keyHost_faithful htoken hprotect).mpr (by decide)⟩

/-- The file of a token of two lines is written, and the service refuses it. -/
theorem secretProtect_twoLines_refused :
    keyHost.Faithful ∧ readToken twoLines = .ok "0123456789abcdef\n0123456789abcdef" ∧
      ∃ fs', secretProtect keyHost [] twoLines ⟨true, ["token.dpapi"]⟩ .user = .ok fs' ∧
        unprotectFromFile keyHost.toHost fs' ⟨true, ["token.dpapi"]⟩ =
          .error "Token 不能包含换行符或 NUL 字符" :=
  ⟨keyHost_faithful, by decide +kernel,
    (encodeUtf8 "0123456789abcdef\n0123456789abcdef".toList).map (· ^^^ 0x5a),
    by decide +kernel, by decide +kernel⟩

end CommandApi
