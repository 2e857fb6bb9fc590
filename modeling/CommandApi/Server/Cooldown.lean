import CommandApi.Server.Authenticate

/-!
# Cooldowns and the history of failures

What the cooldown of an address means is a matter of history: it failed at some time, and that was
less than `seconds` ago.  The program does not keep the history.  It keeps a map with one expiry for
an address, removes expired entries when it comes across them, and gives up the oldest entry when
the map is full.

Here requests are handled one after another.  `Traces` ties the map to the history: every entry is
the latest failure of its address, and no failure that can still matter is missing.  As long as no
more addresses are in cooldown at once than the map may hold, a full map has an expired entry, and
`answers_follow_history` says that nobody can tell the map from the history.  The map itself never
grows beyond its limit, whatever comes in.
-/

set_option autoImplicit false

namespace CommandApi

open Async

/-! ## What the map does -/

section

variable {cooldown : TokenFailureCooldownConfig} {order : ValuesOrder (IpAddr × Instant)}
  {now expiry : Instant} {ip other : IpAddr} {failures : Failures} {entry : IpAddr × Instant}

theorem get_unexpired_eq_some_iff :
    (unexpired now failures).get ip = some expiry ↔
      failures.get ip = some expiry ∧ now < expiry := by
  rw [unexpired, Table.get_retain_eq_some_iff, decide_eq_true_eq]

theorem mem_of_oldest (h : oldest order failures = some entry) :
    failures.get entry.1 = some entry.2 :=
  Table.get_eq_some_iff.mpr ((order.perm _).mem_iff.mp (List.argmin_mem h))

/-- The oldest entry expires first. -/
theorem le_of_oldest (h : oldest order failures = some entry)
    (hget : failures.get ip = some expiry) :
    entry.2 ≤ expiry :=
  List.le_of_mem_argmin ((order.perm _).mem_iff.mpr (Table.get_eq_some_iff.mp hget)) h

variable (order) in
theorem exists_oldest (h : 0 < failures.size) : ∃ entry, oldest order failures = some entry := by
  refine Option.ne_none_iff_exists'.mp fun hnone ↦ ?_
  have hnil : order.values failures.entries = [] := List.argmin_eq_none.mp hnone
  have hlen := (order.perm failures.entries).length_eq
  rw [hnil, List.length_nil] at hlen
  rw [Table.size] at h
  omega

theorem makeRoom_of_lt (h : failures.size < cooldown.maxTrackedIps) :
    makeRoom cooldown order failures = failures :=
  if_neg (not_le.mpr h)

theorem makeRoom_of_le (h : cooldown.maxTrackedIps ≤ failures.size)
    (hentry : oldest order failures = some entry) :
    makeRoom cooldown order failures = failures.erase entry.1 := by
  rw [makeRoom, if_pos h, hentry]

variable (order) in
/-- There is room afterwards. -/
theorem size_makeRoom_lt (hmax : 0 < cooldown.maxTrackedIps)
    (h : failures.size ≤ cooldown.maxTrackedIps) :
    (makeRoom cooldown order failures).size < cooldown.maxTrackedIps := by
  by_cases hfull : cooldown.maxTrackedIps ≤ failures.size
  · obtain ⟨entry, hentry⟩ := exists_oldest order (hmax.trans_le hfull)
    rw [makeRoom_of_le hfull hentry]
    exact (Table.size_erase_of_get (mem_of_oldest hentry)).trans_le h
  · rw [makeRoom_of_lt (not_le.mp hfull)]
    exact not_le.mp hfull

theorem get_makeRoom_eq_some (h : (makeRoom cooldown order failures).get ip = some expiry) :
    failures.get ip = some expiry := by
  rw [makeRoom] at h
  split at h
  · split at h
    · exact (Table.get_erase_eq_some_iff.mp h).1
    · exact h
  · exact h

/-- **The map does not outgrow its limit.** -/
theorem size_recordAuthFailure_le (hmax : cooldown.enabled = true → 0 < cooldown.maxTrackedIps)
    (h : failures.size ≤ cooldown.maxTrackedIps) :
    (recordAuthFailure cooldown order now ip failures).2.size ≤ cooldown.maxTrackedIps := by
  rw [recordAuthFailure]
  split
  · rename_i henabled
    have hroom : (makeRoom cooldown order (unexpired now failures)).size < cooldown.maxTrackedIps :=
      size_makeRoom_lt order (hmax henabled) (Table.size_retain_le.trans h)
    split
    · exact Table.size_insert_le.trans hroom
    · exact hroom.le
  · exact h

/-- Recording returns when the expiry is representable. -/
theorem recordAuthFailure_fst (h : (now.addSecs cooldown.seconds).isSome = true) :
    (recordAuthFailure cooldown order now ip failures).1 = true := by
  obtain ⟨expiry, hexpiry⟩ := Option.isSome_iff_exists.mp h
  rw [recordAuthFailure, hexpiry]
  split <;> rfl

theorem size_cooldownRemaining_le :
    (cooldownRemaining cooldown now ip failures).2.size ≤ failures.size := by
  rw [cooldownRemaining]
  split
  · split
    · split
      · exact le_rfl
      · exact Table.size_erase_le
    · exact le_rfl
  · exact le_rfl

end

/-! ## Seconds, rounded up -/

/-- `ceilSeconds` is the least number of whole seconds that is long enough. -/
theorem isLeast_ceilSeconds (n : ℕ) : IsLeast {r : ℕ | n ≤ r * 1000000000} (ceilSeconds n) := by
  have hdiv := Nat.div_add_mod n 1000000000
  have hmod := Nat.mod_lt n (show 0 < 1000000000 by decide)
  constructor
  · simp only [Set.mem_ofPred_eq, ceilSeconds]
    split <;> omega
  · intro r hr
    simp only [Set.mem_ofPred_eq] at hr
    rw [ceilSeconds]
    split <;> omega

/-! ## The history -/

/-- When the cooldown of a failure ends, in nanoseconds. -/
def expiryOf (seconds : ℕ) (failedAt : Instant) : ℤ := failedAt.nanos + seconds * nanosPerSecond

/-- An address has failed less than `seconds` before. -/
def InCooldown (seconds : ℕ) (history : List (IpAddr × Instant)) (ip : IpAddr) (t : Instant) :
    Prop :=
  ∃ failedAt, (ip, failedAt) ∈ history ∧ t.nanos < expiryOf seconds failedAt

/-- The addresses that are in cooldown at a time. -/
def cooling (seconds : ℕ) (history : List (IpAddr × Instant)) (t : Instant) : Finset IpAddr :=
  ((history.filter fun e ↦ e.2 ≤ t ∧ t.nanos < expiryOf seconds e.2).map Prod.fst).toFinset

theorem mem_cooling {seconds : ℕ} {history : List (IpAddr × Instant)} {t : Instant} {ip : IpAddr} :
    ip ∈ cooling seconds history t ↔
      ∃ failedAt, (ip, failedAt) ∈ history ∧ failedAt ≤ t ∧
        t.nanos < expiryOf seconds failedAt := by
  simp [cooling]

theorem cooling_mono {seconds : ℕ} {history history' : List (IpAddr × Instant)} {t : Instant}
    (h : history ⊆ history') : cooling seconds history t ⊆ cooling seconds history' t := by
  intro ip hip
  obtain ⟨failedAt, hmem, hle, hlt⟩ := mem_cooling.mp hip
  exact mem_cooling.mpr ⟨failedAt, h hmem, hle, hlt⟩

/-- The map is what is left of the history at a time. -/
structure Traces (seconds : ℕ) (failures : Failures) (history : List (IpAddr × Instant))
    (t : Instant) : Prop where
  /-- An entry is the latest failure of its address. -/
  entry : ∀ ip expiry, failures.get ip = some expiry → ∃ failedAt, (ip, failedAt) ∈ history ∧
    expiry.nanos = expiryOf seconds failedAt ∧ ∀ f, (ip, f) ∈ history → f ≤ failedAt
  /-- A failure that still matters has an entry. -/
  kept : ∀ ip failedAt, (ip, failedAt) ∈ history → t.nanos < expiryOf seconds failedAt →
    ∃ expiry, failures.get ip = some expiry
  past : ∀ ip failedAt, (ip, failedAt) ∈ history → failedAt ≤ t

section

variable {cooldown : TokenFailureCooldownConfig} {order : ValuesOrder (IpAddr × Instant)}
  {seconds : ℕ} {failures : Failures} {history : List (IpAddr × Instant)} {t t' : Instant}
  {ip : IpAddr}

theorem traces_empty : Traces seconds .empty [] t where
  entry _ _ hget := by simp at hget
  kept _ _ hmem := absurd hmem List.not_mem_nil
  past _ _ hmem := absurd hmem List.not_mem_nil

theorem Traces.mono (h : Traces seconds failures history t) (htt' : t ≤ t') :
    Traces seconds failures history t' :=
  ⟨h.entry, fun ip f hmem hlt ↦ h.kept ip f hmem ((Instant.nanos_le_iff.mpr htt').trans_lt hlt),
    fun ip f hmem ↦ (h.past ip f hmem).trans htt'⟩

/-- The expiry of an entry is not before that of any failure of its address. -/
theorem Traces.expiryOf_le (h : Traces seconds failures history t) {expiry failedAt : Instant}
    (hget : failures.get ip = some expiry) (hmem : (ip, failedAt) ∈ history) :
    expiryOf seconds failedAt ≤ expiry.nanos := by
  obtain ⟨latest, -, heq, hlatest⟩ := h.entry ip expiry hget
  rw [heq, expiryOf, expiryOf]
  exact Int.add_le_add_right (hlatest _ hmem) _

/-- **The map knows who is in cooldown.** -/
theorem Traces.inCooldown_iff (h : Traces seconds failures history t) :
    InCooldown seconds history ip t ↔ ∃ expiry, failures.get ip = some expiry ∧ t < expiry := by
  constructor
  · rintro ⟨failedAt, hmem, hlt⟩
    obtain ⟨expiry, hget⟩ := h.kept ip failedAt hmem hlt
    exact ⟨expiry, hget, Instant.nanos_lt_iff.mp (hlt.trans_le (h.expiryOf_le hget hmem))⟩
  · rintro ⟨expiry, hget, hlt⟩
    obtain ⟨failedAt, hmem, heq, -⟩ := h.entry ip expiry hget
    exact ⟨failedAt, hmem, heq ▸ hlt⟩

/-- Removing entries that have expired changes nothing. -/
theorem Traces.retain {p : IpAddr → Instant → Bool} (h : Traces seconds failures history t)
    (hp : ∀ ip expiry, failures.get ip = some expiry → t < expiry → p ip expiry = true) :
    Traces seconds (failures.retain p) history t := by
  refine ⟨fun ip expiry hget ↦ h.entry ip expiry (Table.get_retain_eq_some_iff.mp hget).1,
    fun ip failedAt hmem hlt ↦ ?_, h.past⟩
  obtain ⟨expiry, hget⟩ := h.kept ip failedAt hmem hlt
  have hlater : t < expiry := Instant.nanos_lt_iff.mp (hlt.trans_le (h.expiryOf_le hget hmem))
  exact ⟨expiry, Table.get_retain_eq_some_iff.mpr ⟨hget, hp ip expiry hget hlater⟩⟩

/-- A new failure, of an address that has no entry. -/
theorem Traces.insert {expiry : Instant} (h : Traces seconds failures history t)
    (hexpiry : t.addSecs seconds = some expiry) :
    Traces seconds (failures.insert ip expiry) (history ++ [(ip, t)]) t := by
  have hnanos := Instant.addSecs_eq_some_iff.mp hexpiry
  refine ⟨fun other u hget ↦ ?_, fun other f hmem hlt ↦ ?_, fun other f hmem ↦ ?_⟩
  · by_cases hother : other = ip
    · subst hother
      rw [Table.get_insert_self, Option.some.injEq] at hget
      subst hget
      refine ⟨t, List.mem_append_right _ List.mem_cons_self, hnanos, fun f hf ↦ ?_⟩
      rcases List.mem_append.mp hf with hf | hf
      · exact h.past _ f hf
      · simp only [List.mem_singleton, Prod.mk.injEq] at hf
        exact hf.2.le
    · rw [Table.get_insert_of_ne hother] at hget
      obtain ⟨failedAt, hmem, heq, hlatest⟩ := h.entry other u hget
      refine ⟨failedAt, List.mem_append_left _ hmem, heq, fun f hf ↦ ?_⟩
      rcases List.mem_append.mp hf with hf | hf
      · exact hlatest f hf
      · simp only [List.mem_singleton, Prod.mk.injEq] at hf
        exact absurd hf.1 hother
  · by_cases hother : other = ip
    · exact ⟨expiry, hother ▸ Table.get_insert_self⟩
    · rw [Table.get_insert_of_ne hother]
      rcases List.mem_append.mp hmem with hmem | hmem
      · exact h.kept other f hmem hlt
      · simp only [List.mem_singleton, Prod.mk.injEq] at hmem
        exact absurd hmem.1 hother
  · rcases List.mem_append.mp hmem with hmem | hmem
    · exact h.past other f hmem
    · simp only [List.mem_singleton, Prod.mk.injEq] at hmem
      exact hmem.2.le

/-- An address is in cooldown and told so, or it is not and has no entry afterwards. -/
theorem Traces.cooldownRemaining (h : Traces seconds failures history t)
    (henabled : cooldown.enabled = true) :
    (∃ expiry, failures.get ip = some expiry ∧ t < expiry ∧
        cooldownRemaining cooldown t ip failures =
          (some (ceilSeconds (expiry.durationSince t)), failures)) ∨
      ¬ InCooldown seconds history ip t ∧ ∃ failures',
        cooldownRemaining cooldown t ip failures = (none, failures') ∧
          failures'.get ip = none ∧ Traces seconds failures' history t := by
  rw [CommandApi.cooldownRemaining, if_pos henabled, h.inCooldown_iff]
  cases hget : failures.get ip with
  | none => exact .inr ⟨by simp, failures, rfl, hget, h⟩
  | some expiry =>
    by_cases hlt : t < expiry
    · exact .inl ⟨expiry, rfl, hlt, if_pos hlt⟩
    · refine .inr ⟨by simpa using hlt, failures.erase ip, if_neg hlt, Table.get_erase_self, ?_⟩
      refine h.retain fun other u hu hother ↦ decide_eq_true fun heq ↦ hlt ?_
      rw [heq, hget, Option.some.injEq] at hu
      exact hu ▸ hother

variable (order) in
/-- A failure is recorded without a loss when there is room for it. -/
theorem Traces.recordAuthFailure (h : Traces cooldown.seconds failures history t)
    (henabled : cooldown.enabled = true)
    (hroom : (unexpired t failures).size < cooldown.maxTrackedIps)
    (hexpiry : (t.addSecs cooldown.seconds).isSome = true) :
    ∃ failures', recordAuthFailure cooldown order t ip failures = (true, failures') ∧
      Traces cooldown.seconds failures' (history ++ [(ip, t)]) t := by
  obtain ⟨expiry, hexpiry⟩ := Option.isSome_iff_exists.mp hexpiry
  have hunexpired : Traces cooldown.seconds (unexpired t failures) history t :=
    h.retain fun _ _ _ hlt ↦ decide_eq_true hlt
  refine ⟨(unexpired t failures).insert ip expiry, ?_, hunexpired.insert hexpiry⟩
  rw [CommandApi.recordAuthFailure, if_pos henabled, makeRoom_of_lt hroom, hexpiry]

/-- The entries that have not expired are of addresses in cooldown. -/
theorem Traces.keys_unexpired_subset (h : Traces seconds failures history t) :
    (unexpired t failures).keys ⊆ cooling seconds history t := by
  intro other hother
  obtain ⟨expiry, hget⟩ := Table.mem_keys.mp hother
  obtain ⟨hget, hlt⟩ := get_unexpired_eq_some_iff.mp hget
  obtain ⟨failedAt, hmem, heq, -⟩ := h.entry other expiry hget
  exact mem_cooling.mpr ⟨failedAt, hmem, h.past other failedAt hmem, heq ▸ hlt⟩

/-- There is room for an address when it and the others in cooldown are not too many. -/
theorem Traces.size_unexpired_lt (h : Traces seconds failures history t) (hseconds : 0 < seconds)
    (hip : failures.get ip = none) {limit : ℕ}
    (hbound : (cooling seconds (history ++ [(ip, t)]) t).card ≤ limit) :
    (unexpired t failures).size < limit := by
  have hnot : ip ∉ (unexpired t failures).keys := by
    rintro hmem
    obtain ⟨expiry, hget⟩ := Table.mem_keys.mp hmem
    rw [(get_unexpired_eq_some_iff.mp hget).1] at hip
    cases hip
  have hself : ip ∈ cooling seconds (history ++ [(ip, t)]) t := by
    refine mem_cooling.mpr ⟨t, List.mem_append_right _ List.mem_cons_self, le_rfl, ?_⟩
    have hpos : (0 : ℤ) < seconds * nanosPerSecond :=
      Int.mul_pos (Int.natCast_pos.mpr hseconds) (by decide)
    exact lt_add_of_pos_right _ hpos
  have hsubset : Insert.insert ip (unexpired t failures).keys ⊆
      cooling seconds (history ++ [(ip, t)]) t :=
    Finset.insert_subset hself
      (h.keys_unexpired_subset.trans (cooling_mono (List.subset_append_left _ _)))
  have hcard := Finset.card_le_card hsubset
  rw [Finset.card_insert_of_notMem hnot, Table.card_keys] at hcard
  omega

end

/-! ## Requests one after another -/

/-- A request, and what it finds outside itself. -/
structure Arrival where
  request : AuthRequest
  readings : Readings

section

variable {F : Type} (host : Host F) (crate : Pbkdf2) (app : App)

/-- The failure a request leaves in the history. -/
def failureOf (a : Arrival) (outcome : AuthOutcome) : List (IpAddr × Instant) :=
  if outcome = unauthorized then
    (a.request.peer.map fun ip ↦ (normalizeIp ip, a.readings.failedAt)).toList
  else []

/-- One request: the state it leaves, and the history with its failure. -/
def serveOne (c : AuthState × List (IpAddr × Instant)) (a : Arrival) :
    AuthState × List (IpAddr × Instant) :=
  let r := authenticate host crate app a.request a.readings c.1
  (r.2, c.2 ++ failureOf a r.1)

/-- The state and the history after some requests to a service that has just been started. -/
def serve (arrivals : List Arrival) : AuthState × List (IpAddr × Instant) :=
  arrivals.foldl (serveOne host crate app) (⟨.empty, none⟩, [])

/-- The readings of the clock, in their order. -/
def clockReadings (arrivals : List Arrival) : List Instant :=
  arrivals.flatMap fun a ↦ [a.readings.checkedAt, a.readings.failedAt]

end

section

variable {F : Type} {host : Host F} {crate : Pbkdf2} {app : App} {s : AuthState}
  {history : List (IpAddr × Instant)} {arrivals : List Arrival} {a : Arrival} {ip : IpAddr}
  {t : Instant}

theorem serve_concat (arrivals : List Arrival) (a : Arrival) :
    serve host crate app (arrivals ++ [a]) =
      serveOne host crate app (serve host crate app arrivals) a :=
  List.foldl_concat ..

theorem serve_subset (before after : List Arrival) :
    (serve host crate app before).2 ⊆ (serve host crate app (before ++ after)).2 := by
  induction after using List.reverseRecOn with
  | nil => rw [List.append_nil]; exact List.Subset.refl _
  | append_singleton after a ih =>
    rw [← List.append_assoc, serve_concat]
    exact List.Subset.trans ih (List.subset_append_left _ _)

theorem clockReadings_append (before after : List Arrival) :
    clockReadings (before ++ after) = clockReadings before ++ clockReadings after :=
  List.flatMap_append

/-- What an allowed request comes to. -/
theorem authenticate_of_allows (hpeer : a.request.peer.map normalizeIp = some ip)
    (hallowed : app.allows ip = true) :
    authenticate host crate app a.request a.readings s =
      authenticatePeer host crate app ip a.request a.readings s := by
  rw [authenticate, hpeer]
  exact if_pos hallowed

theorem authenticatePeer_of_cooling {retryAfter : ℕ} {failures : Failures}
    (h : cooldownRemaining app.tokenFailureCooldown a.readings.checkedAt ip s.failures =
      (some retryAfter, failures)) :
    authenticatePeer host crate app ip a.request a.readings s =
      (tokenFailureCooldown retryAfter, ⟨failures, s.fingerprint⟩) := by
  rw [authenticatePeer, h]

theorem authenticatePeer_of_authorized {failures : Failures} {fingerprint : Option (List UInt8)}
    (h : cooldownRemaining app.tokenFailureCooldown a.readings.checkedAt ip s.failures =
      (none, failures))
    (hcheck : checkToken host crate app a.request s.fingerprint = (true, fingerprint)) :
    authenticatePeer host crate app ip a.request a.readings s =
      (.next, ⟨failures, fingerprint⟩) := by
  rw [authenticatePeer, h]
  simp only [hcheck]

theorem authenticatePeer_of_failed {failures : Failures} {fingerprint : Option (List UInt8)}
    (h : cooldownRemaining app.tokenFailureCooldown a.readings.checkedAt ip s.failures =
      (none, failures))
    (hcheck : checkToken host crate app a.request s.fingerprint = (false, fingerprint))
    (hrecord : (recordAuthFailure app.tokenFailureCooldown a.readings.order a.readings.failedAt ip
      failures).1 = true) :
    authenticatePeer host crate app ip a.request a.readings s =
      (unauthorized, ⟨(recordAuthFailure app.tokenFailureCooldown a.readings.order
        a.readings.failedAt ip failures).2, fingerprint⟩) := by
  rcases hpair : recordAuthFailure app.tokenFailureCooldown a.readings.order a.readings.failedAt ip
    failures with ⟨returned, failures'⟩
  rw [hpair] at hrecord
  cases hrecord
  rw [authenticatePeer, h]
  simp only [hcheck, hpair]

theorem failureOf_of_ne {outcome : AuthOutcome} (h : outcome ≠ unauthorized) :
    failureOf a outcome = [] :=
  if_neg h

theorem failureOf_unauthorized (hpeer : a.request.peer.map normalizeIp = some ip) :
    failureOf a unauthorized = [(ip, a.readings.failedAt)] := by
  obtain ⟨peer, hsome, hip⟩ := Option.map_eq_some_iff.mp hpeer
  rw [failureOf, if_pos rfl, hsome, ← hip]
  rfl

theorem size_authenticate_le
    (hmax : app.tokenFailureCooldown.enabled = true → 0 < app.tokenFailureCooldown.maxTrackedIps)
    (h : s.failures.size ≤ app.tokenFailureCooldown.maxTrackedIps) :
    (authenticate host crate app a.request a.readings s).2.failures.size ≤
      app.tokenFailureCooldown.maxTrackedIps := by
  rw [authenticate]
  split
  · exact h
  · rename_i ip hip
    split
    · rw [authenticatePeer]
      have hcooldown : (cooldownRemaining app.tokenFailureCooldown a.readings.checkedAt ip
          s.failures).2.size ≤ app.tokenFailureCooldown.maxTrackedIps :=
        size_cooldownRemaining_le.trans h
      split
      · rename_i heq
        rwa [heq] at hcooldown
      · rename_i failures heq
        rw [heq] at hcooldown
        split
        · exact hcooldown
        · have hrecord : (recordAuthFailure app.tokenFailureCooldown a.readings.order
              a.readings.failedAt ip failures).2.size ≤ app.tokenFailureCooldown.maxTrackedIps :=
            size_recordAuthFailure_le hmax hcooldown
          split
          · rename_i hrec
            rwa [hrec] at hrecord
          · rename_i hrec
            rwa [hrec] at hrecord
    · exact h

/-- The map is within its limit after any requests. -/
theorem size_serve_le (hmax : 0 < app.tokenFailureCooldown.maxTrackedIps)
    (arrivals : List Arrival) :
    (serve host crate app arrivals).1.failures.size ≤ app.tokenFailureCooldown.maxTrackedIps := by
  induction arrivals using List.reverseRecOn with
  | nil => exact Nat.zero_le _
  | append_singleton arrivals a ih =>
    rw [serve_concat]
    exact size_authenticate_le (fun _ ↦ hmax) ih

/-! ## The map and the history -/

/-- How the history of an address asks a request to be answered. -/
structure FollowsHistory (seconds : ℕ) (history : List (IpAddr × Instant)) (ip : IpAddr)
    (t : Instant) (authorized : Bool) (outcome : AuthOutcome) : Prop where
  /-- With 429 when the address is in cooldown; `Retry-After` is the least number of seconds until
  the end of the cooldown of its latest failure. -/
  cooling : InCooldown seconds history ip t → ∃ failedAt retryAfter, (ip, failedAt) ∈ history ∧
    (∀ f, (ip, f) ∈ history → f ≤ failedAt) ∧
    IsLeast {r : ℕ | expiryOf seconds failedAt ≤ t.nanos + r * nanosPerSecond} retryAfter ∧
    1 ≤ retryAfter ∧ retryAfter ≤ seconds ∧ outcome = tokenFailureCooldown retryAfter
  /-- By the token alone when it is not. -/
  checked : ¬ InCooldown seconds history ip t →
    outcome = if authorized then .next else unauthorized

theorem Traces.retryAfter {seconds : ℕ} {failures : Failures} {expiry : Instant}
    (h : Traces seconds failures history t) (hget : failures.get ip = some expiry)
    (hlt : t < expiry) :
    ∃ failedAt, (ip, failedAt) ∈ history ∧ (∀ f, (ip, f) ∈ history → f ≤ failedAt) ∧
      IsLeast {r : ℕ | expiryOf seconds failedAt ≤ t.nanos + r * nanosPerSecond}
        (ceilSeconds (expiry.durationSince t)) ∧
      1 ≤ ceilSeconds (expiry.durationSince t) ∧
      ceilSeconds (expiry.durationSince t) ≤ seconds := by
  obtain ⟨failedAt, hmem, heq, hlatest⟩ := h.entry ip expiry hget
  have hpast : failedAt.nanos ≤ t.nanos := h.past ip failedAt hmem
  have hnanos : t.nanos < expiry.nanos := hlt
  have hduration : (expiry.durationSince t : ℤ) = expiry.nanos - t.nanos :=
    Int.toNat_of_nonneg (by omega)
  have hset : {r : ℕ | expiryOf seconds failedAt ≤ t.nanos + r * nanosPerSecond} =
      {r : ℕ | expiry.durationSince t ≤ r * 1000000000} := by
    ext r
    simp only [Set.mem_ofPred_eq, ← heq, nanosPerSecond]
    omega
  have hleast := isLeast_ceilSeconds (expiry.durationSince t)
  refine ⟨failedAt, hmem, hlatest, hset ▸ hleast, Nat.one_le_iff_ne_zero.mpr fun hzero ↦ ?_,
    hleast.2 ?_⟩
  · have := hleast.1
    rw [hzero, Set.mem_ofPred_eq] at this
    omega
  · rw [expiryOf, nanosPerSecond] at heq
    simp only [Set.mem_ofPred_eq]
    omega

/-- **One request.**  It is answered as the history asks, and the map stays with the history. -/
theorem Traces.authenticate
    (h : Traces app.tokenFailureCooldown.seconds s.failures history a.readings.checkedAt)
    (henabled : app.tokenFailureCooldown.enabled = true)
    (hseconds : 0 < app.tokenFailureCooldown.seconds)
    (hpeer : a.request.peer.map normalizeIp = some ip) (hallowed : app.allows ip = true)
    (hreadings : a.readings.checkedAt ≤ a.readings.failedAt)
    (hbound : (cooling app.tokenFailureCooldown.seconds
      (history ++ failureOf a (authenticate host crate app a.request a.readings s).1)
      a.readings.failedAt).card ≤ app.tokenFailureCooldown.maxTrackedIps)
    (hexpiry : (a.readings.failedAt.addSecs app.tokenFailureCooldown.seconds).isSome = true) :
    FollowsHistory app.tokenFailureCooldown.seconds history ip a.readings.checkedAt
        (checkToken host crate app a.request s.fingerprint).1
        (authenticate host crate app a.request a.readings s).1 ∧
      Traces app.tokenFailureCooldown.seconds
        (authenticate host crate app a.request a.readings s).2.failures
        (history ++ failureOf a (authenticate host crate app a.request a.readings s).1)
        a.readings.failedAt := by
  rw [authenticate_of_allows hpeer hallowed] at hbound ⊢
  rcases h.cooldownRemaining henabled with ⟨expiry, hget, hlt, hremaining⟩ |
      ⟨hnot, failures, hremaining, hnone, htraces⟩
  · -- the address is in cooldown
    obtain ⟨failedAt, hmem, hlatest, hleast, hone, hle⟩ := h.retryAfter hget hlt
    rw [authenticatePeer_of_cooling hremaining]
    refine ⟨⟨fun _ ↦ ⟨failedAt, _, hmem, hlatest, hleast, hone, hle, rfl⟩, fun hnot ↦ ?_⟩, ?_⟩
    · exact absurd (h.inCooldown_iff.mpr ⟨expiry, hget, hlt⟩) hnot
    · rw [failureOf_of_ne (by simp [tokenFailureCooldown, unauthorized]), List.append_nil]
      exact h.mono hreadings
  · have hlater := htraces.mono hreadings
    rcases hcheck : checkToken host crate app a.request s.fingerprint with ⟨authorized, fingerprint⟩
    cases authorized with
    | true =>
      rw [authenticatePeer_of_authorized hremaining hcheck]
      refine ⟨⟨fun hcool ↦ absurd hcool hnot, fun _ ↦ rfl⟩, ?_⟩
      rw [failureOf_of_ne (by simp [unauthorized]), List.append_nil]
      exact hlater
    | false =>
      -- the token is wrong, and the failure finds room in the map
      rw [authenticatePeer_of_failed hremaining hcheck (recordAuthFailure_fst hexpiry),
        failureOf_unauthorized hpeer] at hbound ⊢
      obtain ⟨failures', hrecord, htraces'⟩ := hlater.recordAuthFailure a.readings.order henabled
        (hlater.size_unexpired_lt hseconds hnone hbound) hexpiry
      refine ⟨⟨fun hcool ↦ absurd hcool hnot, fun _ ↦ rfl⟩, ?_⟩
      rw [hrecord]
      exact htraces'

/-- Requests from allowed addresses, one after another, with never more addresses in cooldown than
the map may hold. -/
structure Sequential (host : Host F) (crate : Pbkdf2) (app : App) (arrivals : List Arrival) :
    Prop where
  allowed : ∀ a ∈ arrivals, ∃ ip, a.request.peer.map normalizeIp = some ip ∧ app.allows ip = true
  ordered : (clockReadings arrivals).Pairwise (· ≤ ·)
  tracked : ∀ t,
    (cooling app.tokenFailureCooldown.seconds (serve host crate app arrivals).2 t).card ≤
      app.tokenFailureCooldown.maxTrackedIps

theorem Sequential.of_append {before after : List Arrival}
    (h : Sequential host crate app (before ++ after)) : Sequential host crate app before := by
  have hordered := h.ordered
  rw [clockReadings_append, List.pairwise_append] at hordered
  refine ⟨fun a ha ↦ h.allowed a (List.mem_append_left _ ha), hordered.1, fun t ↦ ?_⟩
  exact (Finset.card_le_card (cooling_mono (serve_subset before after))).trans (h.tracked t)

/-- The readings of a request come after those of the requests before it. -/
theorem Sequential.le_checkedAt (h : Sequential host crate app (arrivals ++ [a])) :
    (∀ u ∈ clockReadings arrivals, u ≤ a.readings.checkedAt) ∧
      a.readings.checkedAt ≤ a.readings.failedAt := by
  have hordered := h.ordered
  rw [clockReadings_append, List.pairwise_append] at hordered
  obtain ⟨-, hlast, hbefore⟩ := hordered
  refine ⟨fun u hu ↦ hbefore u hu _ List.mem_cons_self, ?_⟩
  exact List.rel_of_pairwise_cons hlast List.mem_cons_self

/-- After any requests the map is what is left of the history. -/
theorem Sequential.traces (h : Sequential host crate app arrivals)
    (henabled : app.tokenFailureCooldown.enabled = true)
    (hseconds : 0 < app.tokenFailureCooldown.seconds)
    (hexpiry : ∀ a ∈ arrivals,
      (a.readings.failedAt.addSecs app.tokenFailureCooldown.seconds).isSome = true)
    (ht : ∀ u ∈ clockReadings arrivals, u ≤ t) :
    Traces app.tokenFailureCooldown.seconds (serve host crate app arrivals).1.failures
      (serve host crate app arrivals).2 t := by
  induction arrivals using List.reverseRecOn generalizing t with
  | nil => exact traces_empty
  | append_singleton arrivals a ih =>
    obtain ⟨hbefore, hreadings⟩ := h.le_checkedAt
    have htraces := ih h.of_append (fun a' ha' ↦ hexpiry a' (List.mem_append_left _ ha')) hbefore
    have hmem : a ∈ arrivals ++ [a] := List.mem_append_right _ List.mem_cons_self
    obtain ⟨ip, hpeer, hallowed⟩ := h.allowed a hmem
    have htracked := h.tracked a.readings.failedAt
    rw [serve_concat] at htracked ⊢
    refine (htraces.authenticate henabled hseconds hpeer hallowed hreadings htracked
      (hexpiry a hmem)).2.mono (ht _ ?_)
    rw [clockReadings_append]
    exact List.mem_append_right _ (List.mem_cons_of_mem _ List.mem_cons_self)

/-- **Nobody can tell the map from the history.**  With the cooldown enabled, the map stays within
its limit after any requests, and an IPv4 address is one with its mapped form.  For requests from
allowed addresses at non-decreasing times, with at most `max_tracked_ips` addresses in cooldown at
once: as long as every time of a request plus `seconds` is representable, every request is answered
as the failures before it ask. -/
theorem answers_follow_history (henabled : app.tokenFailureCooldown.enabled = true)
    (hseconds : 0 < app.tokenFailureCooldown.seconds)
    (hmax : 0 < app.tokenFailureCooldown.maxTrackedIps) (arrivals : List Arrival) :
    (serve host crate app arrivals).1.failures.size ≤ app.tokenFailureCooldown.maxTrackedIps ∧
      (∀ bits, normalizeIp (.mapped bits) = normalizeIp (.v4 bits)) ∧
      (Sequential host crate app arrivals →
        (∀ a ∈ arrivals,
          a.readings.failedAt.seconds + app.tokenFailureCooldown.seconds < instantLimit) →
        ∀ before a after ip, arrivals = before ++ a :: after →
          a.request.peer.map normalizeIp = some ip →
          FollowsHistory app.tokenFailureCooldown.seconds (serve host crate app before).2 ip
            a.readings.checkedAt
            (checkToken host crate app a.request
              (serve host crate app before).1.fingerprint).1
            (authenticate host crate app a.request a.readings
              (serve host crate app before).1).1) := by
  refine ⟨size_serve_le hmax arrivals, normalizeIp_mapped, ?_⟩
  rintro hsequential hrange before a after ip rfl hpeer
  have hexpiry : ∀ x ∈ before ++ a :: after,
      (x.readings.failedAt.addSecs app.tokenFailureCooldown.seconds).isSome = true :=
    fun x hx ↦ Instant.addSecs_isSome_iff.mpr (hrange x hx)
  have hsplit : before ++ a :: after = (before ++ [a]) ++ after := by simp
  have hmem : a ∈ before ++ a :: after := List.mem_append_right _ List.mem_cons_self
  have hprefix := (hsplit ▸ hsequential).of_append
  obtain ⟨hbefore, hreadings⟩ := hprefix.le_checkedAt
  have htraces := hprefix.of_append.traces henabled hseconds
    (fun x hx ↦ hexpiry x (List.mem_append_left _ hx)) hbefore
  obtain ⟨ip', hpeer', hallowed⟩ := hsequential.allowed a hmem
  rw [hpeer, Option.some.injEq] at hpeer'
  subst hpeer'
  have htracked := hprefix.tracked a.readings.failedAt
  rw [serve_concat] at htracked
  exact (htraces.authenticate henabled hseconds hpeer hallowed hreadings htracked
    (hexpiry a hmem)).1

end

/-! ## Two services

One with a cooldown of ten seconds, and one with the longest cooldown that can be configured. -/

def cooldownApp (seconds : ℕ) : App :=
  { tokenApp rightToken with
    tokenFailureCooldown := { enabled := true, seconds := seconds, maxTrackedIps := 4096 } }

/-- A time soon after the start of the clock, in milliseconds. -/
def instantOfMillis (millis : UInt32) : Instant where
  nanos := 1000000 * (millis.toNat : ℤ)
  lower := by
    rw [instantLimit, nanosPerSecond]
    omega
  upper := by
    have hlt := millis.toNat_lt
    rw [instantLimit, nanosPerSecond]
    omega

/-- A request at such a time. -/
def arrivalAt (peer : IpAddr) (token : String) (millis : UInt32) : Arrival where
  request := ⟨some peer, some (Text.encodeUtf8 ("Bearer " ++ token).toList)⟩
  readings := ⟨instantOfMillis millis, instantOfMillis millis, entryOrder⟩

/-- A wrong token. -/
def wrongArrival : Arrival := arrivalAt (.v4 0x7f000001) wrongToken 0

/-- Three and a half seconds later, the right one from the mapped address. -/
def rightArrival : Arrival := arrivalAt (.mapped 0x7f000001) rightToken 3500

def twoArrivals : List Arrival := [wrongArrival, rightArrival]

theorem card_cooling_le {seconds : ℕ} {history : List (IpAddr × Instant)} {t : Instant} :
    (cooling seconds history t).card ≤ history.length := by
  rw [cooling]
  refine (List.toFinset_card_le _).trans ?_
  rw [List.length_map]
  exact List.length_filter_le _ _

theorem sequential_two : Sequential hashHost rightCrate (cooldownApp 10) twoArrivals where
  allowed a ha := by
    simp only [twoArrivals, List.mem_cons, List.not_mem_nil, or_false] at ha
    rcases ha with rfl | rfl
    · exact ⟨.v4 0x7f000001, by decide +kernel, by decide +kernel⟩
    · exact ⟨.v4 0x7f000001, by decide +kernel, by decide +kernel⟩
  ordered := by decide +kernel
  tracked t := by
    have hlength : (serve hashHost rightCrate (cooldownApp 10) twoArrivals).2.length ≤ 4096 := by
      decide +kernel
    exact card_cooling_le.trans hlength

/-- Once the first request has been served, the second is answered 429, with seven seconds to
wait. -/
theorem answers_follow_history_two :
    (serve hashHost rightCrate (cooldownApp 10) [wrongArrival]).2 =
        [(.v4 0x7f000001, instantOfMillis 0)] ∧
      (authenticate hashHost rightCrate (cooldownApp 10) rightArrival.request rightArrival.readings
        (serve hashHost rightCrate (cooldownApp 10) [wrongArrival]).1).1 =
        tokenFailureCooldown 7 ∧
      FollowsHistory 10 (serve hashHost rightCrate (cooldownApp 10) [wrongArrival]).2
        (.v4 0x7f000001) rightArrival.readings.checkedAt
        (checkToken hashHost rightCrate (cooldownApp 10) rightArrival.request
          (serve hashHost rightCrate (cooldownApp 10) [wrongArrival]).1.fingerprint).1
        (authenticate hashHost rightCrate (cooldownApp 10) rightArrival.request
          rightArrival.readings
          (serve hashHost rightCrate (cooldownApp 10) [wrongArrival]).1).1 := by
  obtain ⟨-, -, hfollows⟩ := @answers_follow_history _ hashHost rightCrate (cooldownApp 10) rfl
    (by decide) (by decide) twoArrivals
  have hrange : ∀ a ∈ twoArrivals, a.readings.failedAt.seconds +
      (cooldownApp 10).tokenFailureCooldown.seconds < instantLimit := by decide +kernel
  exact ⟨by decide +kernel, by decide +kernel, hfollows sequential_two hrange [wrongArrival]
    rightArrival [] _ rfl (by decide +kernel)⟩

/-- The first request with a wrong token gets no answer, where the history asks for 401. -/
theorem longest_cooldown_panics :
    validateAccess ⟨[⟨.v4 0x7f000000, 8⟩], (cooldownApp (2 ^ 64 - 1)).tokenFailureCooldown⟩ =
        .ok () ∧
      (authenticate hashHost rightCrate (cooldownApp (2 ^ 64 - 1))
        (arrivalAt (.v4 0x7f000001) wrongToken 0).request
        (arrivalAt (.v4 0x7f000001) wrongToken 0).readings ⟨.empty, none⟩).1 = .panicked ∧
      ∀ t, ¬ FollowsHistory (2 ^ 64 - 1) [] (.v4 0x7f000001) t false .panicked := by
  refine ⟨by decide +kernel, by decide +kernel, fun t h ↦ ?_⟩
  exact absurd (h.checked fun ⟨_, hmem, _⟩ ↦ absurd hmem List.not_mem_nil) (by decide)

end CommandApi
