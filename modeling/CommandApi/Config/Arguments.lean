import CommandApi.Config.Resolve

/-!
# The arguments of a request

`validate_request_args` of `src/config.rs`, and what it establishes.  The loop adds up the sizes
with `saturating_add`, so the sum it compares is the true one only if that fits into a `usize`;
`validateRequestArgs_eq_ok` says that the arguments are then accepted exactly when they satisfy the
policy of the route.  Whether a pattern matches is up to the `regex` crate: `isMatch`.
-/

set_option autoImplicit false

namespace CommandApi

/-- `usize::saturating_add`. -/
def saturatingAdd (usizeBits a b : ℕ) : ℕ := min (a + b) (2 ^ usizeBits - 1)

/-- The size of all arguments, in bytes. -/
def totalBytes (args : List String) : ℕ := (args.map String.utf8ByteSize).sum

section

variable (usizeBits : ℕ) (isMatch : Regex → String → Bool)

/-- What the loop checks of one argument. -/
def checkRequestArg (route : ResolvedRoute) (arg : String) : Except String Unit := do
  bailIf ('\x00' ∈ arg.toList) "动态参数不能包含 NUL 字符"
  bailIf (route.requestArgs.maxItemBytes < arg.utf8ByteSize)
    s!"单个动态参数超过 {route.requestArgs.maxItemBytes} 字节"
  bailIf ((route.requestArgs.allowedValues ≠ [] ∨ route.requestArgPatterns ≠ []) ∧
      arg ∉ route.requestArgs.allowedValues ∧
      ¬ ∃ pattern ∈ route.requestArgPatterns, isMatch pattern arg = true)
    "动态参数不符合路由允许值或正则规则"

/-- The loop; `total` is the sum so far. -/
def checkRequestArgs (route : ResolvedRoute) : ℕ → List String → Except String ℕ
  | total, [] => pure total
  | total, arg :: rest => do
    checkRequestArg isMatch route arg
    checkRequestArgs route (saturatingAdd usizeBits total arg.utf8ByteSize) rest

def validateRequestArgs (route : ResolvedRoute) (args : List String) : Except String Unit := do
  bailIf (route.requestArgs.enabled = false ∧ args ≠ []) s!"路由 {route.path} 不允许传递动态参数"
  bailIf (route.requestArgs.maxCount < args.length)
    s!"动态参数数量超过限制 {route.requestArgs.maxCount}"
  let total ← checkRequestArgs usizeBits isMatch route 0 args
  bailIf (route.requestArgs.maxTotalBytes < total)
    s!"动态参数总大小超过 {route.requestArgs.maxTotalBytes} 字节"

/-! ## The policy -/

/-- What a route promises of the arguments it is run with. -/
structure ArgsAllowed (policy : RequestArgsConfig) (args : List String) : Prop where
  enabled : args = [] ∨ policy.enabled = true
  count : args.length ≤ policy.maxCount
  noNul : ∀ arg ∈ args, '\x00' ∉ arg.toList
  item : ∀ arg ∈ args, arg.utf8ByteSize ≤ policy.maxItemBytes
  total : totalBytes args ≤ policy.maxTotalBytes
  listed : policy.allowedValues ≠ [] ∨ policy.allowedPatterns ≠ [] →
    ∀ arg ∈ args, arg ∈ policy.allowedValues ∨
      ∃ pattern ∈ policy.allowedPatterns, isMatch ⟨pattern⟩ arg = true

variable {usizeBits isMatch} {route : ResolvedRoute}

theorem saturatingAdd_eq {a b : ℕ} (h : a + b < 2 ^ usizeBits) :
    saturatingAdd usizeBits a b = a + b :=
  min_eq_left (Nat.le_sub_one_of_lt h)

theorem checkRequestArg_eq_ok {arg : String} :
    checkRequestArg isMatch route arg = .ok () ↔
      '\x00' ∉ arg.toList ∧ arg.utf8ByteSize ≤ route.requestArgs.maxItemBytes ∧
        (route.requestArgs.allowedValues ≠ [] ∨ route.requestArgPatterns ≠ [] →
          arg ∈ route.requestArgs.allowedValues ∨
            ∃ pattern ∈ route.requestArgPatterns, isMatch pattern arg = true) := by
  simp only [checkRequestArg, bind_eq_ok, bailIf_eq_ok, exists_and_left, exists_const, not_lt,
    not_and, not_not, or_iff_not_imp_left]

/-- The sum of the loop is the true one, as long as that is a `usize`. -/
theorem checkRequestArgs_eq_ok {total n : ℕ} {args : List String}
    (hfits : total + totalBytes args < 2 ^ usizeBits) :
    checkRequestArgs usizeBits isMatch route total args = .ok n ↔
      (∀ arg ∈ args, checkRequestArg isMatch route arg = .ok ()) ∧
        n = total + totalBytes args := by
  induction args generalizing total with
  | nil =>
    simp [checkRequestArgs, totalBytes, pure, Except.pure, eq_comm]
  | cons arg rest ih =>
    have hsum : totalBytes (arg :: rest) = arg.utf8ByteSize + totalBytes rest := by
      rw [totalBytes, List.map_cons, List.sum_cons, totalBytes]
    rw [hsum, ← Nat.add_assoc] at hfits ⊢
    have hadd : saturatingAdd usizeBits total arg.utf8ByteSize = total + arg.utf8ByteSize :=
      saturatingAdd_eq (by omega)
    rw [checkRequestArgs, hadd, bind_eq_ok, List.forall_mem_cons, and_assoc, ← ih hfits]
    exact ⟨fun ⟨_, harg, hrest⟩ ↦ ⟨harg, hrest⟩, fun ⟨harg, hrest⟩ ↦ ⟨(), harg, hrest⟩⟩

/-- **The validator decides the policy** of a route that was resolved. -/
theorem validateRequestArgs_eq_ok {args : List String}
    (hpatterns : route.requestArgPatterns = route.requestArgs.allowedPatterns.map Regex.mk)
    (hfits : totalBytes args < 2 ^ usizeBits) :
    validateRequestArgs usizeBits isMatch route args = .ok () ↔
      ArgsAllowed isMatch route.requestArgs args := by
  have hloop : ∀ n, checkRequestArgs usizeBits isMatch route 0 args = .ok n ↔
      (∀ arg ∈ args, checkRequestArg isMatch route arg = .ok ()) ∧ n = totalBytes args := by
    intro n
    rw [checkRequestArgs_eq_ok (by rwa [Nat.zero_add]), Nat.zero_add]
  simp only [validateRequestArgs, bind_eq_ok, bailIf_eq_ok, exists_and_left, exists_const, not_lt,
    not_and, not_not, hloop, checkRequestArg_eq_ok, hpatterns, ne_eq, List.map_eq_nil_iff,
    List.mem_map, exists_exists_and_eq_and]
  constructor
  · rintro ⟨henabled, hcount, n, ⟨hargs, rfl⟩, htotal⟩
    refine ⟨?_, hcount, fun a ha ↦ (hargs a ha).1, fun a ha ↦ (hargs a ha).2.1, htotal,
      fun hlist a ha ↦ (hargs a ha).2.2 hlist⟩
    by_cases hnil : args = []
    · exact .inl hnil
    · exact .inr (by_contra fun h ↦ hnil (henabled (by simpa using h)))
  · intro h
    refine ⟨fun hoff ↦ h.enabled.resolve_right (by simp [hoff]), h.count, _,
      ⟨fun a ha ↦ ⟨h.noNul a ha, h.item a ha, fun hlist ↦ h.listed hlist a ha⟩, rfl⟩, h.total⟩

/-- A route that was resolved has compiled its own patterns. -/
theorem RouteAdmitted.patterns {F : Type} {host : Host F} {fs : F} {base : Path}
    {account : WindowsServiceAccount} {config : RouteConfig}
    (h : RouteAdmitted host fs base account config route) :
    route.requestArgPatterns = route.requestArgs.allowedPatterns.map Regex.mk := by
  rw [h.carried]

/-- Under `LocalSystem`, what a route is run with is on a list. -/
theorem RouteAdmitted.listed {F : Type} {host : Host F} {fs : F} {base : Path}
    {account : WindowsServiceAccount} {config : RouteConfig} {args : List String}
    (h : RouteAdmitted host fs base account config route) (haccount : account = .localSystem)
    (hne : args ≠ []) (hargs : ArgsAllowed isMatch route.requestArgs args) :
    route.requestArgs.allowedValues ≠ [] ∨ route.requestArgs.allowedPatterns ≠ [] := by
  have hcarried : route.requestArgs = config.requestArgs := by rw [h.carried]
  have henabled := hargs.enabled.resolve_left hne
  rw [hcarried] at henabled ⊢
  by_cases hvalues : config.requestArgs.allowedValues = []
  · exact .inr (h.guarded haccount henabled hvalues)
  · exact .inl hvalues

end

end CommandApi
