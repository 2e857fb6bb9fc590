import CommandApi.Async.Threads

/-!
# Waiting until the store is idle

`TaskStore::wait_until_idle` and `mark_finished` of `src/store.rs`, step by step.  The waiter loads
`active_count`, creates a `Notified` future and awaits it, in a loop, until the count is zero or the
time is up; a runner at its end decrements the count and then calls `notify_waiters`.  These are
steps of different threads and interleave in any way.

`notify_waiters` wakes the futures that exist and keeps nothing for later ones.  tokio counts its
calls: a future remembers the number at its creation (`Party.parked`) and is complete once the
number has changed.  `timeout` polls the loop first and looks at the time afterwards, when the
waiter is `Party.expiring`; a runner may come in between.

The store is `Inactive` when the count is zero and no runner is left that will still notify.  If it
becomes so between the waiter's load and the creation of its future, nothing will ever wake the
waiter (`lost_of_loaded`).  `no_lost_wakeup` says that this is the only way to lose it, and that a
waiter which gives up has seen a count that is not zero, unless a runner was on its way to notify
or did so within that very poll.
-/

set_option autoImplicit false

namespace CommandApi

open Async Relation

/-! ## The steps -/

/-- What the waiter and the runners share: `active_count`, and how often `notify_waiters` has been
called. -/
structure Activity where
  active : ℕ
  calls : ℕ
  deriving DecidableEq, Repr

/-- Where a party is.  The waiter is `checking` before it loads the count, has `loaded` one that is
not zero, is `parked` on a future, is `expiring` when a poll has found that future incomplete and
looks at the time next, and has returned `true` or `false`; a runner is `running` before it
decrements the count, `decremented` before it notifies, and `done`. -/
inductive Party
  | checking
  | loaded
  | parked (seen : ℕ)
  | expiring (seen : ℕ)
  | returned (idle : Bool)
  | running
  | decremented
  | done
  deriving DecidableEq, Repr

/-- The future a waiter awaits: the calls it has seen. -/
def Party.future : Party → Option ℕ
  | .parked seen | .expiring seen => some seen
  | _ => none

inductive PartyStep : Activity → Party → Activity → Party → Prop
  | idle {a : Activity} (h : a.active = 0) : PartyStep a .checking a (.returned true)
  | load {a : Activity} (h : a.active ≠ 0) : PartyStep a .checking a .loaded
  | park {a : Activity} : PartyStep a .loaded a (.parked a.calls)
  | wake {a : Activity} {seen : ℕ} (h : seen < a.calls) : PartyStep a (.parked seen) a .checking
  /-- `timeout` polls the loop … -/
  | pend {a : Activity} {seen : ℕ} (h : a.calls ≤ seen) :
      PartyStep a (.parked seen) a (.expiring seen)
  /-- … and then looks at the time, which is not up … -/
  | sleep {a : Activity} {seen : ℕ} : PartyStep a (.expiring seen) a (.parked seen)
  /-- … or is. -/
  | timeout {a : Activity} {seen : ℕ} : PartyStep a (.expiring seen) a (.returned false)
  | fetchSub {a : Activity} :
      PartyStep a .running { a with active := a.active - 1 } .decremented
  | notifyWaiters {a : Activity} :
      PartyStep a .decremented { a with calls := a.calls + 1 } .done

def parties : Threads Activity Party where
  act := PartyStep
  arrives _ _ := False
  env _ _ := False

/-- A party that has just begun: a waiter, or a runner that is at its end or on its way there. -/
def Party.Fresh (p : Party) : Prop := p = .checking ∨ p = .running ∨ p = .decremented

/-- The count is zero, and every runner has notified. -/
def Inactive (c : Activity × List Party) : Prop := c.1.active = 0 ∧ .decremented ∉ c.2

/-- A waiter whom nothing will wake: it awaits a future that is not complete, and the store is
inactive. -/
def Lost (c : Activity × List Party) : Prop :=
  Inactive c ∧ ∃ p ∈ c.2, ∃ seen, p.future = some seen ∧ c.1.calls ≤ seen

/-- A waiter returns `false` by this step. -/
def TimesOut (c c' : Activity × List Party) : Prop :=
  c.2.count (.returned false) < c'.2.count (.returned false)

instance (c c' : Activity × List Party) : Decidable (TimesOut c c') :=
  inferInstanceAs (Decidable (_ < _))

/-- By this step a waiter that has polled a future with `seen` calls looks at the time. -/
def LooksAtTime (seen : ℕ) (c c' : Activity × List Party) : Prop :=
  c'.2.count (.expiring seen) < c.2.count (.expiring seen)

/-- What a step must not do: make the store inactive between the load and the future of a waiter, or
let the time run out on a count of zero between the last decrement and its notification, or behind
the notification in the poll that has just missed it. -/
structure Timely (c c' : Activity × List Party) : Prop where
  window : ¬ Inactive c → Inactive c' → .loaded ∉ c.2
  deadline : TimesOut c c' → c.1.active = 0 → .decremented ∉ c.2
  poll : ∀ seen, LooksAtTime seen c c' → TimesOut c c' → c.1.active = 0 → c.1.calls ≤ seen

/-- A step into a store that is not inactive, by which no time runs out. -/
theorem Timely.of_active {c c' : Activity × List Party} (h : ¬ Inactive c')
    (hout : ¬ TimesOut c c') : Timely c c' where
  window _ h' := absurd h' h
  deadline h' := absurd h' hout
  poll _ _ h' := absurd h' hout

/-! ## The invariant -/

/-- Once the store is inactive, no waiter is about to park and every one that is parked is woken. -/
structure Woken (c : Activity × List Party) : Prop where
  past : ∀ p ∈ c.2, ∀ seen, p.future = some seen → seen ≤ c.1.calls
  loaded : Inactive c → .loaded ∉ c.2
  parked : Inactive c → ∀ p ∈ c.2, ∀ seen, p.future = some seen → seen < c.1.calls

theorem woken_of_fresh {c : Activity × List Party} (h : ∀ p ∈ c.2, p.Fresh) : Woken c := by
  have hnone : ∀ p ∈ c.2, p.future = none := by
    intro p hp
    rcases h p hp with rfl | rfl | rfl <;> rfl
  refine ⟨fun p hp seen hseen ↦ ?_, fun _ hmem ↦ ?_, fun _ p hp seen hseen ↦ ?_⟩
  · rw [hnone p hp] at hseen
    cases hseen
  · rcases h _ hmem with hp | hp | hp <;> cases hp
  · rw [hnone p hp] at hseen
    cases hseen

section

variable {a a' : Activity} {p p' q : Party} {before after : List Party} {seen : ℕ}

theorem mem_replace (h : q ∈ before ++ p' :: after) (hq : q ≠ p') : q ∈ before ++ p :: after := by
  rcases List.mem_append.mp h with h | h
  · exact List.mem_append_left _ h
  · rcases List.mem_cons.mp h with h | h
    · exact absurd h hq
    · exact List.mem_append_right _ (List.mem_cons_of_mem _ h)

theorem mem_replaced : p ∈ before ++ p :: after := List.mem_append_right _ List.mem_cons_self

/-- A future that is awaited after a step was awaited before it, unless the step made it. -/
theorem future_replace (hfuture : ∀ seen, p'.future = some seen → p.future = some seen)
    (hq : q ∈ before ++ p' :: after) (hseen : q.future = some seen) :
    ∃ q' ∈ before ++ p :: after, q'.future = some seen := by
  by_cases heq : q = p'
  · exact ⟨p, mem_replaced, hfuture seen (heq ▸ hseen)⟩
  · exact ⟨q, mem_replace hq heq, hseen⟩

/-- A step of a waiter leaves the store as inactive as it was. -/
theorem inactive_of_waiter (ha : a' = a) (hp : p ≠ .decremented)
    (h : Inactive (a', before ++ p' :: after)) : Inactive (a, before ++ p :: after) := by
  subst ha
  refine ⟨h.1, fun hmem ↦ h.2 ?_⟩
  rcases List.mem_append.mp hmem with hmem | hmem
  · exact List.mem_append_left _ hmem
  · rcases List.mem_cons.mp hmem with heq | hmem
    · exact absurd heq.symm hp
    · exact List.mem_append_right _ (List.mem_cons_of_mem _ hmem)

/-- The futures of the others, and those that are carried over. -/
theorem Woken.past_replace (h : Woken (a, before ++ p :: after)) (ha : a.calls ≤ a'.calls)
    (hfuture : ∀ seen, p'.future = some seen → p.future = some seen) :
    ∀ q ∈ before ++ p' :: after, ∀ seen, q.future = some seen → seen ≤ a'.calls := by
  intro q hq seen hseen
  obtain ⟨q', hq', hseen'⟩ := future_replace hfuture hq hseen
  exact (h.past q' hq' seen hseen').trans ha

/-- A step of a waiter that makes no future keeps the invariant. -/
theorem Woken.replace (h : Woken (a, before ++ p :: after)) (hp : p ≠ .decremented)
    (hloaded : p' ≠ .loaded) (hfuture : ∀ seen, p'.future = some seen → p.future = some seen) :
    Woken (a, before ++ p' :: after) := by
  refine ⟨h.past_replace le_rfl hfuture, fun hset hmem ↦ ?_, fun hset q hq seen hseen ↦ ?_⟩
  · exact h.loaded (inactive_of_waiter rfl hp hset) (mem_replace hmem hloaded.symm)
  · obtain ⟨q', hq', hseen'⟩ := future_replace hfuture hq hseen
    exact h.parked (inactive_of_waiter rfl hp hset) q' hq' seen hseen'

/-- **One step.** -/
theorem Woken.step {c c' : Activity × List Party} (h : Woken c) (hs : parties.Step c c')
    (htimely : Timely c c') : Woken c' := by
  cases hs with
  | arrive harrives => exact harrives.elim
  | env henv => exact henv.elim
  | @act a a' p p' before after hact =>
    cases hact with
    | idle h0 => exact h.replace nofun nofun nofun
    | wake hlt => exact h.replace nofun nofun nofun
    | pend hle => exact h.replace nofun nofun fun _ h ↦ h
    | sleep => exact h.replace nofun nofun fun _ h ↦ h
    | timeout => exact h.replace nofun nofun nofun
    | load hne =>
      -- the count is not zero, so the store is not inactive
      refine ⟨h.past_replace le_rfl nofun, fun hset ↦ ?_, fun hset ↦ ?_⟩
      · exact absurd hset.1 hne
      · exact absurd hset.1 hne
    | park =>
      have hnot : ¬ Inactive (a, before ++ .parked a.calls :: after) := fun hset ↦
        h.loaded (inactive_of_waiter rfl nofun hset) mem_replaced
      refine ⟨fun q hq seen hseen ↦ ?_, fun hset ↦ absurd hset hnot, fun hset ↦ absurd hset hnot⟩
      by_cases heq : q = .parked a.calls
      · subst heq
        exact (Option.some.inj hseen).symm.le
      · exact h.past q (mem_replace hq heq) seen hseen
    | fetchSub =>
      -- somebody is left to notify
      refine ⟨h.past_replace le_rfl nofun, fun hset ↦ ?_, fun hset ↦ ?_⟩
      · exact absurd mem_replaced hset.2
      · exact absurd mem_replaced hset.2
    | notifyWaiters =>
      have hnot : ¬ Inactive (a, before ++ .decremented :: after) := fun hset ↦
        hset.2 mem_replaced
      have hdone : ∀ seen, Party.done.future = some seen → Party.decremented.future = some seen :=
        nofun
      refine ⟨h.past_replace (Nat.le_succ _) hdone, fun hset hmem ↦ ?_,
        fun hset q hq seen hseen ↦ ?_⟩
      · exact htimely.window hnot hset (mem_replace hmem nofun)
      · obtain ⟨q', hq', hseen'⟩ := future_replace hdone hq hseen
        exact Nat.lt_succ_of_le (h.past q' hq' seen hseen')

/-- A step by which a waiter returns `false` is its timeout. -/
theorem eq_returned_of_timesOut
    (h : TimesOut (a, before ++ p :: after) (a', before ++ p' :: after)) :
    p' = .returned false := by
  by_contra hne
  simp only [TimesOut, List.count_append, List.count_cons, beq_iff_eq, hne, if_false] at h
  omega

theorem looksAtTime_of_expiring (h : p' ≠ .expiring seen) :
    LooksAtTime seen (a, before ++ .expiring seen :: after) (a', before ++ p' :: after) := by
  simp only [LooksAtTime, List.count_append, List.count_cons, beq_iff_eq, h, if_false, if_true]
  omega

end

/-! ## Runs -/

/-- A run whose steps are all timely. -/
abbrev TimelyRun : Activity × List Party → Activity × List Party → Prop :=
  ReflTransGen fun c c' ↦ parties.Step c c' ∧ Timely c c'

theorem woken_run {c₀ c : Activity × List Party} (hstart : ∀ p ∈ c₀.2, p.Fresh)
    (hrun : TimelyRun c₀ c) : Woken c := by
  induction hrun with
  | refl => exact woken_of_fresh hstart
  | tail _ hs ih => exact ih.step hs.1 hs.2

/-- **No wakeup is lost while the steps are timely.**  From any waiters and runners, in every state
that is reached by timely steps: no waiter is parked with nothing to wake it while the count is
zero, and a waiter whose time runs out returns `false` with a count that is not zero. -/
theorem no_lost_wakeup {c₀ c : Activity × List Party} (hstart : ∀ p ∈ c₀.2, p.Fresh)
    (hrun : TimelyRun c₀ c) :
    ¬ Lost c ∧ ∀ c', parties.Step c c' → Timely c c' → TimesOut c c' → c.1.active ≠ 0 := by
  have hwoken := woken_run hstart hrun
  constructor
  · rintro ⟨hset, p, hp, seen, hseen, hle⟩
    exact absurd (hwoken.parked hset p hp seen hseen) (not_lt.mpr hle)
  · intro c' hs htimely hout h0
    have hset : Inactive c := ⟨h0, htimely.deadline hout h0⟩
    cases hs with
    | arrive harrives => exact harrives
    | env henv => exact henv
    | @act a a' p p' before after hact =>
      have hreturned := eq_returned_of_timesOut hout
      subst hreturned
      cases hact with
      | @timeout seen =>
        have hle := htimely.poll seen (looksAtTime_of_expiring nofun) hout h0
        exact absurd (hwoken.parked hset _ mem_replaced seen rfl) (not_lt.mpr hle)

/-- **The window is real.**  When the store has become inactive while a waiter is between its load
and its future, the waiter's next step is into a sleep from which nothing wakes it. -/
theorem lost_of_loaded {a : Activity} {before after : List Party}
    (h : Inactive (a, before ++ .loaded :: after)) :
    parties.Step (a, before ++ .loaded :: after) (a, before ++ .parked a.calls :: after) ∧
      Lost (a, before ++ .parked a.calls :: after) := by
  exact ⟨.act .park, ⟨h.1, fun hmem ↦ h.2 (mem_replace hmem nofun)⟩, _, mem_replaced, a.calls, rfl,
    le_rfl⟩

/-- **So is the gap in the poll.**  A waiter between its future and the time may return `false`
next, whatever has become of the count and of the future. -/
theorem timesOut_of_expiring {a : Activity} {before after : List Party} {seen : ℕ} :
    parties.Step (a, before ++ .expiring seen :: after) (a, before ++ .returned false :: after) ∧
      TimesOut (a, before ++ .expiring seen :: after) (a, before ++ .returned false :: after) := by
  refine ⟨.act .timeout, ?_⟩
  simp only [TimesOut, List.count_append, List.count_cons, beq_iff_eq, reduceCtorEq, if_false,
    if_true]
  omega

/-! ## One waiter and one runner -/

theorem waiter_step {a a' : Activity} {p p' : Party} (q : Party) (h : PartyStep a p a' p') :
    parties.Step (a, [p, q]) (a', [p', q]) :=
  @Threads.Step.act _ _ parties a a' p p' [] [q] h

theorem runner_step {a a' : Activity} {p p' : Party} (q : Party) (h : PartyStep a p a' p') :
    parties.Step (a, [q, p]) (a', [q, p']) :=
  @Threads.Step.act _ _ parties a a' p p' [q] [] h

/-- The waiter is parked before the runner ends, and is woken. -/
theorem no_lost_wakeup_parked :
    TimelyRun (⟨1, 0⟩, [.checking, .running]) (⟨0, 1⟩, [.parked 0, .done]) ∧
      Inactive (⟨0, 1⟩, [.parked 0, .done]) ∧ ¬ Lost (⟨0, 1⟩, [.parked 0, .done]) := by
  have hload : TimelyRun (⟨1, 0⟩, [.checking, .running]) (⟨1, 0⟩, [.loaded, .running]) :=
    .single ⟨waiter_step _ (.load (by decide)), .of_active (fun h ↦ absurd h.1 (by decide))
      (by decide)⟩
  have hpark := hload.tail
    ⟨waiter_step _ .park, .of_active (fun h ↦ absurd h.1 (by decide)) (by decide)⟩
  have hsub := hpark.tail
    ⟨runner_step _ .fetchSub, .of_active (fun h ↦ absurd h.2 (by decide)) (by decide)⟩
  have hnotify := hsub.tail
    ⟨runner_step _ .notifyWaiters, fun _ _ ↦ by decide, fun h ↦ absurd h (by decide),
      fun _ _ h ↦ absurd h (by decide)⟩
  refine ⟨hnotify, ⟨rfl, by decide⟩, (no_lost_wakeup (fun p hp ↦ ?_) hnotify).1⟩
  rcases List.mem_pair.mp hp with rfl | rfl
  · exact .inl rfl
  · exact .inr (.inl rfl)

/-- The runner ends between the load and the future: the waiter sleeps until its time is up, and
returns `false` although the count is zero. -/
theorem wakeup_lost_in_window :
    parties.Run (⟨1, 0⟩, [.checking, .running]) (⟨0, 1⟩, [.parked 1, .done]) ∧
      Lost (⟨0, 1⟩, [.parked 1, .done]) ∧
      parties.Run (⟨0, 1⟩, [.parked 1, .done]) (⟨0, 1⟩, [.returned false, .done]) := by
  have hload : parties.Step (⟨1, 0⟩, [.checking, .running]) (⟨1, 0⟩, [.loaded, .running]) :=
    waiter_step _ (.load (by decide))
  have hrunner := ((ReflTransGen.single hload).tail (runner_step _ .fetchSub)).tail
    (runner_step _ .notifyWaiters)
  have hlost := @lost_of_loaded ⟨0, 1⟩ [] [.done] ⟨rfl, by decide⟩
  exact ⟨hrunner.tail hlost.1, hlost.2,
    (ReflTransGen.single (waiter_step _ (.pend le_rfl))).tail (waiter_step _ .timeout)⟩

end CommandApi
