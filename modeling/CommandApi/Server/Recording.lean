import CommandApi.Async.Threads
import CommandApi.Server.Cooldown

/-!
# Failures recorded at the same time

Requests that are handled at the same time.  `cooldown_remaining` and `record_auth_failure` each
read the clock first and take the lock then, so failures may be recorded in another order than that
of their readings; and several requests of one address can pass the check before the first of them
is recorded.  `attempts` lets any number of requests take these steps in any order while the clock
goes on.

What recording must not do is to weaken a cooldown that is there (`KeepsCooldowns`).  It does not
for an address that has no cooldown of its own.  For one that has, the new expiry may be the earlier
one, and a full map gives up an entry although replacing one needs no room.  `keepsCooldowns_iff`
says that these are the only two ways it can go wrong.
-/

set_option autoImplicit false

namespace CommandApi

open Async

/-! ## The steps of a request -/

/-- What the requests share. -/
structure Shared where
  clock : Instant
  failures : Failures

/-- Where a request is: before `cooldown_remaining`, waiting for the lock with a reading of the
clock, waiting for the token to be checked, waiting for the lock in `record_auth_failure`, and
answered. -/
inductive Attempt
  | arrived (ip : IpAddr)
  | checking (ip : IpAddr) (now : Instant)
  | verifying (ip : IpAddr)
  | recording (ip : IpAddr) (now : Instant)
  | finished

inductive AttemptStep (cooldown : TokenFailureCooldownConfig) :
    Shared → Attempt → Shared → Attempt → Prop
  | read {s : Shared} {ip : IpAddr} :
      AttemptStep cooldown s (.arrived ip) s (.checking ip s.clock)
  | check {s : Shared} {ip : IpAddr} {now : Instant} :
      AttemptStep cooldown s (.checking ip now)
        { s with failures := (cooldownRemaining cooldown now ip s.failures).2 }
        (if (cooldownRemaining cooldown now ip s.failures).1.isSome then .finished
          else .verifying ip)
  | authorized {s : Shared} {ip : IpAddr} : AttemptStep cooldown s (.verifying ip) s .finished
  | failed {s : Shared} {ip : IpAddr} :
      AttemptStep cooldown s (.verifying ip) s (.recording ip s.clock)
  | record {s : Shared} {ip : IpAddr} {now : Instant} (order : ValuesOrder (IpAddr × Instant)) :
      AttemptStep cooldown s (.recording ip now)
        { s with failures := (recordAuthFailure cooldown order now ip s.failures).2 } .finished

/-- Any number of requests, while the clock goes on. -/
def attempts (cooldown : TokenFailureCooldownConfig) : Threads Shared Attempt where
  act := AttemptStep cooldown
  arrives _ t := ∃ ip, t = .arrived ip
  env s s' := s.clock ≤ s'.clock ∧ s'.failures = s.failures

/-- The map is within its limit, and empty when there is no cooldown. -/
structure Bounded (cooldown : TokenFailureCooldownConfig) (failures : Failures) : Prop where
  size : failures.size ≤ cooldown.maxTrackedIps
  disabled : cooldown.enabled = false → failures = .empty

/-- A reading of the clock is in the past. -/
def Attempt.Past (clock : Instant) : Attempt → Prop
  | checking _ now | recording _ now => now ≤ clock
  | arrived _ | verifying _ | finished => True

section

variable {cooldown : TokenFailureCooldownConfig} {s s' : Shared} {t t' : Attempt}

theorem bounded_recordAuthFailure {order : ValuesOrder (IpAddr × Instant)} {now : Instant}
    {ip : IpAddr} {failures : Failures}
    (hmax : cooldown.enabled = true → 0 < cooldown.maxTrackedIps)
    (h : Bounded cooldown failures) :
    Bounded cooldown (recordAuthFailure cooldown order now ip failures).2 := by
  refine ⟨size_recordAuthFailure_le hmax h.size, fun hdisabled ↦ ?_⟩
  rw [recordAuthFailure, if_neg (by simp [hdisabled])]
  exact h.disabled hdisabled

theorem bounded_cooldownRemaining {now : Instant} {ip : IpAddr} {failures : Failures}
    (h : Bounded cooldown failures) :
    Bounded cooldown (cooldownRemaining cooldown now ip failures).2 := by
  refine ⟨size_cooldownRemaining_le.trans h.size, fun hdisabled ↦ ?_⟩
  rw [cooldownRemaining, if_neg (by simp [hdisabled])]
  exact h.disabled hdisabled

/-- No request disturbs what is known of another. -/
theorem attempts_interference (hmax : cooldown.enabled = true → 0 < cooldown.maxTrackedIps) :
    (attempts cooldown).Interference (fun s ↦ Bounded cooldown s.failures)
      fun s t ↦ t.Past s.clock where
  own s t s' t' hs _ hact := by
    cases hact with
    | read => exact ⟨hs, le_rfl⟩
    | check =>
      refine ⟨bounded_cooldownRemaining hs, ?_⟩
      split <;> exact trivial
    | authorized => exact ⟨hs, trivial⟩
    | failed => exact ⟨hs, le_rfl⟩
    | record order => exact ⟨bounded_recordAuthFailure hmax hs, trivial⟩
  other s t s' t' u _ _ hact hu := by
    have hclock : s'.clock = s.clock := by cases hact <;> rfl
    rwa [hclock]
  arrive s t _ harrives := by
    obtain ⟨ip, rfl⟩ := harrives
    exact trivial
  env s s' hs henv := by
    refine ⟨henv.2 ▸ hs, fun u hu ↦ ?_⟩
    cases u with
    | checking ip now | recording ip now => exact le_trans hu henv.1
    | arrived ip | verifying ip | finished => exact trivial

end

/-! ## What recording must not do -/

/-- Recording a failure of `ip` at the moment `now` has weakened no cooldown. -/
structure KeepsCooldowns (limit : ℕ) (now : Instant) (ip : IpAddr) (before after : Failures) :
    Prop where
  /-- No expiry moves to an earlier time. -/
  notEarlier : ∀ other expiry expiry', before.get other = some expiry → now < expiry →
    after.get other = some expiry' → expiry ≤ expiry'
  /-- An entry of another address is given up only when as many others as the map may hold are in
  cooldown; then it is the only one, and has the earliest expiry. -/
  evicts : ∀ other expiry, other ≠ ip → before.get other = some expiry → now < expiry →
    after.get other = none → limit ≤ ((unexpired now before).erase ip).size ∧
      ∀ third expiry', third ≠ ip → third ≠ other → before.get third = some expiry' →
        now < expiry' → after.get third = some expiry' ∧ expiry ≤ expiry'

/-- An address that is in cooldown when its failure is recorded, with a reading `now` of the clock
at the moment `current`, loses nothing by it: its expiry is not after the new one, and the map has
room, or what it gives up is the entry of the address itself or an expired one. -/
def Undisputed (cooldown : TokenFailureCooldownConfig) (order : ValuesOrder (IpAddr × Instant))
    (now current : Instant) (ip : IpAddr) (failures : Failures) : Prop :=
  ∀ expiry, failures.get ip = some expiry → current < expiry →
    expiry.nanos ≤ now.nanos + cooldown.seconds * nanosPerSecond ∧
      (cooldown.maxTrackedIps ≤ (unexpired now failures).size →
        ∀ entry, oldest order (unexpired now failures) = some entry →
          entry.1 = ip ∨ entry.2 ≤ current)

section

variable {cooldown : TokenFailureCooldownConfig} {order : ValuesOrder (IpAddr × Instant)}
  {now current expiry : Instant} {ip other : IpAddr} {failures : Failures}

/-- The entries of the other addresses, afterwards. -/
theorem get_recordAuthFailure_of_ne (henabled : cooldown.enabled = true) (h : other ≠ ip) :
    (recordAuthFailure cooldown order now ip failures).2.get other =
      (makeRoom cooldown order (unexpired now failures)).get other := by
  rw [recordAuthFailure, if_pos henabled]
  split
  · exact Table.get_insert_of_ne h
  · rfl

/-- The entry of the address itself, afterwards: the new one, or what was there when the expiry has
no representation. -/
theorem get_recordAuthFailure_self (henabled : cooldown.enabled = true)
    (h : (recordAuthFailure cooldown order now ip failures).2.get ip = some expiry) :
    expiry.nanos = now.nanos + cooldown.seconds * nanosPerSecond ∨
      failures.get ip = some expiry := by
  rw [recordAuthFailure, if_pos henabled] at h
  split at h
  · rename_i expiry' hexpiry
    rw [Table.get_insert_self, Option.some.injEq] at h
    exact .inl (h ▸ Instant.addSecs_eq_some_iff.mp hexpiry)
  · exact .inr (get_unexpired_eq_some_iff.mp (get_makeRoom_eq_some h)).1

/-- An entry that is given up is the oldest one of a full map. -/
theorem oldest_of_get_makeRoom_eq_none (hget : failures.get other = some expiry)
    (h : (makeRoom cooldown order failures).get other = none) :
    cooldown.maxTrackedIps ≤ failures.size ∧ oldest order failures = some (other, expiry) := by
  by_cases hfull : cooldown.maxTrackedIps ≤ failures.size
  · cases hold : oldest order failures with
    | none => rw [makeRoom, if_pos hfull, hold, hget] at h; cases h
    | some entry =>
      rw [makeRoom_of_le hfull hold] at h
      by_cases heq : other = entry.1
      · have hentry := mem_of_oldest hold
        rw [← heq, hget, Option.some.injEq] at hentry
        exact ⟨hfull, congrArg some (Prod.ext heq.symm hentry.symm)⟩
      · rw [Table.get_erase_of_ne heq, hget] at h
        cases h
  · rw [makeRoom_of_lt (not_le.mp hfull), hget] at h
    cases h

/-- When the oldest entry has not expired, nothing in the map has. -/
theorem size_le_of_oldest {entry : IpAddr × Instant}
    (hold : oldest order (unexpired now failures) = some entry) (hlt : current < entry.2)
    (hip : (unexpired now failures).get ip = none) :
    (unexpired now failures).size ≤ ((unexpired current failures).erase ip).size := by
  rw [← Table.card_keys, ← Table.card_keys]
  refine Finset.card_le_card fun third hthird ↦ ?_
  obtain ⟨u, hu⟩ := Table.mem_keys.mp hthird
  have hne : third ≠ ip := by
    rintro rfl
    rw [hip] at hu
    cases hu
  have hlater : current < u := hlt.trans_le (le_of_oldest hold hu)
  refine Table.mem_keys.mpr ⟨u, Table.get_erase_eq_some_iff.mpr ⟨?_, hne⟩⟩
  exact get_unexpired_eq_some_iff.mpr ⟨(get_unexpired_eq_some_iff.mp hu).1, hlater⟩

theorem undisputed_empty : Undisputed cooldown order now current ip .empty :=
  fun _ hget ↦ absurd hget (by simp)

theorem keepsCooldowns_empty {limit : ℕ} {after : Failures} :
    KeepsCooldowns limit now ip .empty after where
  notEarlier _ _ _ hget := absurd hget (by simp)
  evicts _ _ _ hget := absurd hget (by simp)

/-- An address that loses nothing takes nothing from others. -/
theorem Undisputed.keepsCooldowns (h : Undisputed cooldown order now current ip failures)
    (henabled : cooldown.enabled = true) (hnow : now ≤ current) :
    KeepsCooldowns cooldown.maxTrackedIps current ip failures
      (recordAuthFailure cooldown order now ip failures).2 := by
  constructor
  · intro other expiry expiry' hget hlt hafter
    by_cases hother : other = ip
    · subst hother
      rcases get_recordAuthFailure_self henabled hafter with hnew | hsame
      · exact Instant.nanos_le_iff.mp (hnew ▸ (h expiry hget hlt).1)
      · exact (Option.some.inj (hget.symm.trans hsame)).le
    · rw [get_recordAuthFailure_of_ne henabled hother] at hafter
      have hsame := (get_unexpired_eq_some_iff.mp (get_makeRoom_eq_some hafter)).1
      exact (Option.some.inj (hget.symm.trans hsame)).le
  · intro other expiry hother hget hlt hafter
    rw [get_recordAuthFailure_of_ne henabled hother] at hafter
    have hretained : (unexpired now failures).get other = some expiry :=
      get_unexpired_eq_some_iff.mpr ⟨hget, hnow.trans_lt hlt⟩
    obtain ⟨hfull, hold⟩ := oldest_of_get_makeRoom_eq_none hretained hafter
    -- the address has no entry of its own: it would be undisputed, or older than the oldest
    have hown : (unexpired now failures).get ip = none := by
      refine Option.eq_none_iff_forall_ne_some.mpr fun u hu ↦ ?_
      have hlater : current < u := hlt.trans_le (le_of_oldest hold hu)
      rcases (h u (get_unexpired_eq_some_iff.mp hu).1 hlater).2 hfull _ hold with heq | hle
      · exact hother heq
      · exact absurd hlt (not_lt.mpr hle)
    refine ⟨hfull.trans (size_le_of_oldest hold hlt hown), ?_⟩
    intro third expiry' hthird hne hget' hlt'
    have hretained' : (unexpired now failures).get third = some expiry' :=
      get_unexpired_eq_some_iff.mpr ⟨hget', hnow.trans_lt hlt'⟩
    refine ⟨?_, le_of_oldest hold hretained'⟩
    rw [get_recordAuthFailure_of_ne henabled hthird, makeRoom_of_le hfull hold,
      Table.get_erase_of_ne hne, hretained']

/-- Conversely, what was not weakened was undisputed. -/
theorem KeepsCooldowns.undisputed
    (h : KeepsCooldowns cooldown.maxTrackedIps current ip failures
      (recordAuthFailure cooldown order now ip failures).2)
    (henabled : cooldown.enabled = true) (hsize : failures.size ≤ cooldown.maxTrackedIps) :
    Undisputed cooldown order now current ip failures := by
  intro expiry hget hlt
  refine ⟨?_, fun hfull entry hold ↦ ?_⟩
  · cases hnew : now.addSecs cooldown.seconds with
    | none =>
      -- there is no new expiry, because it would be after everything that is representable
      have hlimit : ¬ now.nanos + cooldown.seconds * nanosPerSecond <
          instantLimit * nanosPerSecond := by
        intro hlimit
        rw [Instant.addSecs, dif_pos hlimit] at hnew
        cases hnew
      exact expiry.upper.le.trans (not_lt.mp hlimit)
    | some expiry' =>
      have hafter : (recordAuthFailure cooldown order now ip failures).2.get ip = some expiry' := by
        rw [recordAuthFailure, if_pos henabled, hnew]
        exact Table.get_insert_self
      have hle := h.notEarlier ip expiry expiry' hget hlt hafter
      exact Instant.addSecs_eq_some_iff.mp hnew ▸ hle
  · by_contra hdisputed
    rw [not_or, not_le] at hdisputed
    obtain ⟨hne, hlater⟩ := hdisputed
    have hentry := (get_unexpired_eq_some_iff.mp (mem_of_oldest hold)).1
    have hgone : (recordAuthFailure cooldown order now ip failures).2.get entry.1 = none := by
      rw [get_recordAuthFailure_of_ne henabled hne, makeRoom_of_le hfull hold]
      exact Table.get_erase_self
    obtain ⟨hothers, -⟩ := h.evicts entry.1 entry.2 hne hentry hlater hgone
    have hself : (unexpired current failures).get ip = some expiry :=
      get_unexpired_eq_some_iff.mpr ⟨hget, hlt⟩
    have hless := Table.size_erase_of_get hself
    have hretain : (unexpired current failures).size ≤ failures.size := Table.size_retain_le
    omega

end

/-- **Recording weakens no cooldown exactly when it is undisputed.**  In every interleaving of
requests, from an empty map, when a failure of `ip` is about to be recorded with the reading `now`:
no expiry is moved to an earlier time and no entry of another address is given up without need, if
and only if `ip` is not in cooldown already, or its expiry is not after the new one and the map
does not give up an entry of another address for it. -/
theorem keepsCooldowns_iff {access : AccessConfig} (haccess : validateAccess access = .ok ())
    {start : Instant} {s : Shared} {before after : List Attempt} {ip : IpAddr} {now : Instant}
    (hrun : (attempts access.tokenFailureCooldown).Run (⟨start, .empty⟩, [])
      (s, before ++ .recording ip now :: after)) (order : ValuesOrder (IpAddr × Instant)) :
    KeepsCooldowns access.tokenFailureCooldown.maxTrackedIps s.clock ip s.failures
        (recordAuthFailure access.tokenFailureCooldown order now ip s.failures).2 ↔
      Undisputed access.tokenFailureCooldown order now s.clock ip s.failures := by
  have hmax : access.tokenFailureCooldown.enabled = true →
      0 < access.tokenFailureCooldown.maxTrackedIps := by
    simp only [validateAccess, bind_eq_ok, bailIf_eq_ok] at haccess
    obtain ⟨-, -, hlimits⟩ := haccess
    intro henabled
    exact Nat.pos_of_ne_zero fun hzero ↦ hlimits ⟨henabled, .inr hzero⟩
  obtain ⟨hbounded, hpast⟩ := (attempts_interference hmax).run hrun
    ⟨Nat.zero_le _, fun _ ↦ rfl⟩ fun _ h ↦ absurd h List.not_mem_nil
  have hnow : now ≤ s.clock := hpast _ (List.mem_append_right _ List.mem_cons_self)
  cases henabled : access.tokenFailureCooldown.enabled with
  | true =>
    exact ⟨fun h ↦ h.undisputed henabled hbounded.size, fun h ↦ h.keepsCooldowns henabled hnow⟩
  | false =>
    rw [hbounded.disabled henabled]
    exact iff_of_true keepsCooldowns_empty undisputed_empty

/-! ## Two requests of one address

Both present a wrong token, and both have passed the check when the first of them is recorded. -/

def raceAccess : AccessConfig where
  allowedCidrs := [⟨.v4 0x7f000000, 8⟩]
  tokenFailureCooldown := { enabled := true }

def racePeer : IpAddr := .v4 0x7f000001

/-- Somebody else. -/
def otherPeer : IpAddr := .v4 0x7f000002

theorem race_step {s s' : Shared} {t t' : Attempt} (before after : List Attempt)
    (h : AttemptStep raceAccess.tokenFailureCooldown s t s' t') :
    (attempts raceAccess.tokenFailureCooldown).Step (s, before ++ t :: after)
      (s', before ++ t' :: after) :=
  .act h

theorem race_arrive (s : Shared) (threads : List Attempt) (ip : IpAddr) :
    (attempts raceAccess.tokenFailureCooldown).Step (s, threads) (s, threads ++ [.arrived ip]) :=
  .arrive ⟨ip, rfl⟩

/-- The clock goes on. -/
theorem race_tick {clock clock' : Instant} (failures : Failures) (threads : List Attempt)
    (h : clock ≤ clock') :
    (attempts raceAccess.tokenFailureCooldown).Step (⟨clock, failures⟩, threads)
      (⟨clock', failures⟩, threads) :=
  .env ⟨h, rfl⟩

/-- A request, while no failure is recorded, up to the point where its token is
checked. -/
theorem run_verifying (clock : Instant) (threads : List Attempt) (ip : IpAddr) :
    (attempts raceAccess.tokenFailureCooldown).Run (⟨clock, .empty⟩, threads)
      (⟨clock, .empty⟩, threads ++ [.verifying ip]) :=
  ((Relation.ReflTransGen.single (race_arrive _ threads ip)).tail (race_step threads [] .read)).tail
    (race_step threads [] .check)

/-- The requests up to the point where both are known to be wrong. -/
theorem race_verified :
    (attempts raceAccess.tokenFailureCooldown).Run (⟨instantOfMillis 0, .empty⟩, [])
      (⟨instantOfMillis 0, .empty⟩, [.verifying racePeer, .verifying racePeer]) :=
  (run_verifying _ [] racePeer).trans (run_verifying _ [.verifying racePeer] racePeer)

/-- Recorded in the order of their readings, the failures weaken nothing: the second one of the
address comes when it and another address are in cooldown. -/
theorem keepsCooldowns_in_order :
    ∃ s, (attempts raceAccess.tokenFailureCooldown).Run (⟨instantOfMillis 0, .empty⟩, [])
        (s, [.finished, .finished] ++ .recording racePeer (instantOfMillis 1000) :: []) ∧
      s.failures.get otherPeer = some (instantOfMillis 10000) ∧
      s.failures.get racePeer = some (instantOfMillis 10000) ∧ s.clock = instantOfMillis 1000 ∧
      KeepsCooldowns raceAccess.tokenFailureCooldown.maxTrackedIps s.clock racePeer s.failures
        (recordAuthFailure raceAccess.tokenFailureCooldown entryOrder (instantOfMillis 1000)
          racePeer s.failures).2 := by
  have hchecked := (run_verifying (instantOfMillis 0) [] otherPeer).trans
    ((run_verifying _ [.verifying otherPeer] racePeer).trans
      (run_verifying _ [.verifying otherPeer, .verifying racePeer] racePeer))
  have hother := (hchecked.tail (race_step [] [.verifying racePeer, .verifying racePeer]
    .failed)).tail (race_step [] [.verifying racePeer, .verifying racePeer] (.record entryOrder))
  have hfirst := (hother.tail (race_step [.finished] [.verifying racePeer] .failed)).tail
    (race_step [.finished] [.verifying racePeer] (.record entryOrder))
  have hrun := (hfirst.tail (race_tick _ _ (show instantOfMillis 0 ≤ instantOfMillis 1000 by
    decide +kernel))).tail (race_step [.finished, .finished] [] .failed)
  refine ⟨_, hrun, by decide +kernel, by decide +kernel, rfl, ?_⟩
  refine (keepsCooldowns_iff (by decide +kernel) hrun entryOrder).mpr fun expiry hget _ ↦ ?_
  obtain rfl : instantOfMillis 10000 = expiry := Option.some.inj (.trans (by decide +kernel) hget)
  refine ⟨by decide +kernel, fun hfull ↦ ?_⟩
  exact absurd hfull (by decide +kernel)

/-- The second one is recorded with the earlier reading and takes a second off the cooldown. -/
theorem recording_moves_expiry_earlier :
    validateAccess raceAccess = .ok () ∧
      ∃ s after, (attempts raceAccess.tokenFailureCooldown).Run (⟨instantOfMillis 0, .empty⟩, [])
          (s, .recording racePeer (instantOfMillis 0) :: after) ∧
        s.failures.get racePeer = some (instantOfMillis 11000) ∧ s.clock = instantOfMillis 1000 ∧
        (recordAuthFailure raceAccess.tokenFailureCooldown entryOrder (instantOfMillis 0) racePeer
          s.failures).2.get racePeer = some (instantOfMillis 10000) := by
  have hfailed := race_verified.tail (race_step [] [.verifying racePeer] .failed)
  have htick := hfailed.tail (race_tick _ _ (show instantOfMillis 0 ≤ instantOfMillis 1000 by
    decide +kernel))
  have hrecord := (htick.tail
    (race_step [.recording racePeer (instantOfMillis 0)] [] .failed)).tail
    (race_step [.recording racePeer (instantOfMillis 0)] [] (.record entryOrder))
  refine ⟨by decide +kernel, _, _, hrecord, ?_, rfl, ?_⟩
  · decide +kernel
  · decide +kernel

end CommandApi
