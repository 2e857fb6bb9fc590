import Mathlib

/-!
# A forest of processes

The descendants of one process, as a Unix kernel keeps them.  A process has a parent, is a member of
the root's process group or not, and has some descriptors open; `D` is the type of the descriptors.
Process `0` is the root itself, which is not in the table; identifiers are given out in the order of
birth.

The root is a child subreaper, and others may be: when a process exits, its children go to a live
process that is older than it, or to the root.  So every live process has a live parent that is
older (`Rooted`), which is why a root that has no children has no descendants either
(`Rooted.empty`).
-/

set_option autoImplicit false

namespace Unix

variable {D : Type}

structure Proc (D : Type) where
  parent : ℕ
  /-- It is in the root's process group. -/
  inGroup : Bool
  /-- Its open descriptors. -/
  descriptors : D → Bool

/-- The live descendants of a process. -/
structure Forest (D : Type) where
  procs : ℕ → Option (Proc D)
  /-- The next identifier. -/
  next : ℕ
  pos : 0 < next
  fresh : ∀ pid, next ≤ pid → procs pid = none

namespace Forest

/-- The forest of a process that has just been started. -/
def empty : Forest D := ⟨fun _ ↦ none, 1, Nat.one_pos, fun _ _ ↦ rfl⟩

/-- A process is born. -/
def add (f : Forest D) (p : Proc D) : Forest D where
  procs := Function.update f.procs f.next (some p)
  next := f.next + 1
  pos := Nat.succ_pos _
  fresh pid h := by
    rw [Function.update_of_ne (by omega)]
    exact f.fresh pid (by omega)

/-- A live process changes itself. -/
def set (f : Forest D) (pid : ℕ) (p : Proc D) : Forest D :=
  { f with
    procs := fun q ↦ (f.procs q).map fun r ↦ if q = pid then p else r
    fresh := fun q h ↦ by rw [f.fresh q h]; rfl }

/-- A process exits, and its children go to `reaper`. -/
def orphan (f : Forest D) (pid reaper : ℕ) : Forest D :=
  { f with
    procs := fun q ↦ if q = pid then none else (f.procs q).map fun p ↦
      if p.parent = pid then { p with parent := reaper } else p
    fresh := fun q h ↦ by rw [f.fresh q h]; exact ite_self none }

/-- `killpg` with `SIGKILL`. -/
def killGroup (f : Forest D) : Forest D :=
  { f with
    procs := fun pid ↦ (f.procs pid).filter fun p ↦ !p.inGroup
    fresh := fun q h ↦ by rw [f.fresh q h]; rfl }

/-- Some descendant is in the group. -/
def GroupLive (f : Forest D) : Prop := ∃ pid p, f.procs pid = some p ∧ p.inGroup = true

/-- `q` is older than `pid`, and alive: a parent, or one that inherits children. -/
def Elder (f : Forest D) (q pid : ℕ) : Prop := q < pid ∧ (q = 0 ∨ ∃ p, f.procs q = some p)

/-- Every live process has a live parent that is older. -/
def Rooted (f : Forest D) : Prop := ∀ pid p, f.procs pid = some p → f.Elder p.parent pid

variable {f : Forest D} {pid q : ℕ} {p p' : Proc D}

/-! ## The operations -/

theorem lt_next (h : f.procs pid = some p) : pid < f.next := by
  by_contra hn
  rw [f.fresh pid (by omega)] at h
  cases h

theorem procs_add (h : (f.add p).procs q = some p') :
    q = f.next ∧ p' = p ∨ f.procs q = some p' := by
  by_cases hq : q = f.next
  · subst hq
    simp only [add, Function.update_self, Option.some.injEq] at h
    exact .inl ⟨rfl, h.symm⟩
  · simp only [add, Function.update_of_ne hq] at h
    exact .inr h

theorem procs_add_next (f : Forest D) (p : Proc D) : (f.add p).procs f.next = some p :=
  Function.update_self ..

/-- A birth leaves the others alone. -/
theorem procs_add_of_some (h : f.procs q = some p') : (f.add p).procs q = some p' :=
  (Function.update_of_ne (Nat.ne_of_lt (lt_next h)) ..).trans h

theorem procs_set (h : (f.set pid p).procs q = some p') :
    q = pid ∧ p' = p ∨ q ≠ pid ∧ f.procs q = some p' := by
  obtain ⟨r, hr, rfl⟩ := Option.map_eq_some_iff.mp h
  by_cases hq : q = pid
  · exact .inl ⟨hq, if_pos hq⟩
  · rw [if_neg hq]
    exact .inr ⟨hq, hr⟩

theorem procs_orphan {reaper : ℕ} (h : (f.orphan pid reaper).procs q = some p') :
    q ≠ pid ∧ ∃ p, f.procs q = some p ∧
      p' = if p.parent = pid then { p with parent := reaper } else p := by
  simp only [orphan] at h
  split at h
  · cases h
  · rename_i hq
    obtain ⟨p, hp, rfl⟩ := Option.map_eq_some_iff.mp h
    exact ⟨hq, p, hp, rfl⟩

theorem procs_killGroup (h : f.killGroup.procs q = some p') :
    f.procs q = some p' ∧ p'.inGroup = false := by
  obtain ⟨hp, hg⟩ := Option.filter_eq_some_iff.mp h
  exact ⟨hp, by simpa using hg⟩

/-! ## The group -/

theorem not_groupLive_killGroup (f : Forest D) : ¬ f.killGroup.GroupLive := by
  rintro ⟨q, p, hp, hg⟩
  rw [(procs_killGroup hp).2] at hg
  cases hg

/-- A child is in the group if its parent is. -/
theorem groupLive_fork (h : f.procs pid = some p) (hp : p'.inGroup = p.inGroup) :
    (f.add p').GroupLive ↔ f.GroupLive := by
  constructor
  · rintro ⟨q, r, hr, hg⟩
    rcases procs_add hr with ⟨-, rfl⟩ | hr
    · exact ⟨pid, p, h, hp ▸ hg⟩
    · exact ⟨q, r, hr, hg⟩
  · rintro ⟨q, r, hr, hg⟩
    exact ⟨q, r, procs_add_of_some hr, hg⟩

/-- An exit brings nobody into the group. -/
theorem groupLive_of_orphan {reaper : ℕ} (h : (f.orphan pid reaper).GroupLive) : f.GroupLive := by
  obtain ⟨q, r, hr, hg⟩ := h
  obtain ⟨-, p, hp, rfl⟩ := procs_orphan hr
  refine ⟨q, p, hp, ?_⟩
  split at hg
  · exact hg
  · exact hg

/-! ## Descendants have parents -/

theorem rooted_empty : (empty : Forest D).Rooted := nofun

/-- A child of a live process, or of the root. -/
theorem Rooted.add (h : f.Rooted) (hp : f.Elder p.parent f.next) : (f.add p).Rooted := by
  have hkeep : ∀ {q : ℕ}, (∃ p', f.procs q = some p') → ∃ p', (f.add p).procs q = some p' :=
    fun ⟨p', hq⟩ ↦ ⟨p', procs_add_of_some hq⟩
  intro q p' hq
  rcases procs_add hq with ⟨rfl, rfl⟩ | hq
  · exact ⟨hp.1, hp.2.imp id hkeep⟩
  · exact ⟨(h q p' hq).1, (h q p' hq).2.imp id hkeep⟩

theorem Rooted.set (h : f.Rooted) (hp : f.procs pid = some p) (hparent : p'.parent = p.parent) :
    (f.set pid p').Rooted := by
  have hkeep : ∀ {q : ℕ}, (∃ r, f.procs q = some r) → ∃ r, (f.set pid p').procs q = some r :=
    fun ⟨r, hr⟩ ↦ ⟨_, Option.map_eq_some_iff.mpr ⟨r, hr, rfl⟩⟩
  intro q r hq
  rcases procs_set hq with ⟨rfl, rfl⟩ | ⟨-, hq⟩
  · rw [hparent]
    exact ⟨(h q p hp).1, (h q p hp).2.imp id hkeep⟩
  · exact ⟨(h q r hq).1, (h q r hq).2.imp id hkeep⟩

theorem Rooted.orphan (h : f.Rooted) {reaper : ℕ} (hr : f.Elder reaper pid) :
    (f.orphan pid reaper).Rooted := by
  have hkeep : ∀ {q : ℕ}, q ≠ pid → (∃ r, f.procs q = some r) →
      ∃ r, (f.orphan pid reaper).procs q = some r := by
    rintro q hne ⟨r, hq⟩
    exact ⟨_, by simp only [Forest.orphan, if_neg hne, hq, Option.map_some]; rfl⟩
  intro q r hq
  obtain ⟨hne, r', hq', rfl⟩ := procs_orphan hq
  obtain ⟨hlt, hlive⟩ := h q r' hq'
  split
  · rename_i hparent
    rw [hparent] at hlt
    exact ⟨Nat.lt_trans hr.1 hlt, hr.2.imp id (hkeep (Nat.ne_of_lt hr.1))⟩
  · rename_i hparent
    exact ⟨hlt, hlive.imp id (hkeep hparent)⟩

/-- **A root without children has no descendants**, so `ECHILD` means that nothing is left. -/
theorem Rooted.empty (h : f.Rooted) (hroot : ∀ pid p, f.procs pid = some p → p.parent ≠ 0)
    (pid : ℕ) : f.procs pid = none := by
  induction pid using Nat.strongRecOn with
  | ind pid ih =>
    -- a live process would have an older live parent
    cases hp : f.procs pid with
    | none => rfl
    | some p =>
      obtain ⟨hlt, h0 | ⟨q, hq⟩⟩ := h pid p hp
      · exact absurd h0 (hroot pid p hp)
      · rw [ih p.parent hlt] at hq
        cases hq

end Forest

end Unix
