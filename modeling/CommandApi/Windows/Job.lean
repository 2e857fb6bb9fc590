import Mathlib.Data.Finset.Card
import Mathlib.Logic.Function.Basic

/-!
# Job objects

The processes of a Windows system, as far as one job object is concerned.  A process is in the job
or it is not.  It gets there by being assigned (`assign`), or by being the child of a process that
is: a child is born into the job of its parent, unless the limits of the job let it break away
(`Limits.birth`).  A job can be terminated with everything in it, and with `killOnClose` that is
also what happens when its last handle is closed.

So in a job whose limits let nobody break away, a process that is in it has all the descendants it
has *from then on* in it too.  Those it had before it was assigned stay outside: the job says
nothing about them.  `Limits.birth_member` is the first half of this; the second is for the program
that assigns to rule out.
-/

set_option autoImplicit false

namespace Windows

/-- The limits of a job, as far as they matter to its members. -/
structure Limits where
  /-- `JOB_OBJECT_LIMIT_KILL_ON_JOB_CLOSE` -/
  killOnClose : Bool
  /-- `JOB_OBJECT_LIMIT_BREAKAWAY_OK` -/
  breakawayOk : Bool
  /-- `JOB_OBJECT_LIMIT_SILENT_BREAKAWAY_OK` -/
  silentBreakawayOk : Bool
  deriving DecidableEq, Repr

/-- Whether the child of a process is born into the job, or cannot be created at all.  `member` is
its parent, and `breakaway` is `CREATE_BREAKAWAY_FROM_JOB`. -/
def Limits.birth (l : Limits) (member breakaway : Bool) : Option Bool :=
  if !member || l.silentBreakawayOk then some false
  else if !breakaway then some true
  else if l.breakawayOk then some false
  else none

/-- Nobody leaves the job. -/
def Limits.Tight (l : Limits) : Prop := l.breakawayOk = false ∧ l.silentBreakawayOk = false

theorem Limits.birth_member {l : Limits} {breakaway child : Bool} (hl : l.Tight)
    (h : l.birth true breakaway = some child) : child = true := by
  rw [birth, hl.1, hl.2] at h
  cases breakaway with
  | false => exact (Option.some.inj h).symm
  | true => cases h

/-- The processes, and the job. -/
structure System where
  /-- The live processes, and whether each is in the job. -/
  procs : ℕ → Option Bool
  /-- The next identifier. -/
  next : ℕ
  fresh : ∀ pid, next ≤ pid → procs pid = none
  limits : Limits
  /-- The job has an open handle. -/
  handle : Bool

namespace System

/-- No process, and no job. -/
def empty : System := ⟨fun _ ↦ none, 0, fun _ _ ↦ rfl, ⟨false, false, false⟩, false⟩

/-- `CreateJobObjectW` and `SetInformationJobObject`. -/
def create (s : System) (limits : Limits) : System := { s with limits, handle := true }

/-- A process is born. -/
def add (s : System) (member : Bool) : System :=
  { s with
    procs := Function.update s.procs s.next (some member)
    next := s.next + 1
    fresh := fun pid h ↦ by
      rw [Function.update_of_ne (by omega)]
      exact s.fresh pid (by omega) }

/-- `AssignProcessToJobObject` -/
def assign (s : System) (pid : ℕ) : System :=
  { s with
    procs := fun q ↦ (s.procs q).map fun member ↦ if q = pid then true else member
    fresh := fun q h ↦ by rw [s.fresh q h]; rfl }

/-- A process ends. -/
def remove (s : System) (pid : ℕ) : System :=
  { s with
    procs := fun q ↦ if q = pid then none else s.procs q
    fresh := fun q h ↦ by rw [s.fresh q h]; exact ite_self none }

/-- `TerminateJobObject` -/
def terminate (s : System) : System :=
  { s with
    procs := fun pid ↦ (s.procs pid).filter fun member ↦ !member
    fresh := fun q h ↦ by rw [s.fresh q h]; rfl }

/-- `CloseHandle` on the last handle of the job. -/
def close (s : System) : System :=
  if s.handle && s.limits.killOnClose then { s.terminate with handle := false }
  else { s with handle := false }

/-- `ActiveProcesses` of `QueryInformationJobObject`. -/
def active (s : System) : ℕ := ((Finset.range s.next).filter fun pid ↦ s.procs pid = some true).card

variable {s : System} {pid q : ℕ} {m member : Bool}

theorem lt_next (h : s.procs pid = some m) : pid < s.next := by
  by_contra hn
  rw [s.fresh pid (by omega)] at h
  cases h

/-- The job is empty if it has no live member. -/
theorem active_eq_zero_iff : s.active = 0 ↔ ∀ pid, s.procs pid ≠ some true := by
  rw [active, Finset.card_eq_zero, Finset.filter_eq_empty_iff]
  constructor
  · intro h pid hp
    exact h (Finset.mem_range.mpr (lt_next hp)) hp
  · exact fun h pid _ ↦ h pid

theorem procs_add (h : (s.add member).procs q = some m) :
    q = s.next ∧ m = member ∨ s.procs q = some m := by
  by_cases hq : q = s.next
  · subst hq
    simp only [add, Function.update_self, Option.some.injEq] at h
    exact .inl ⟨rfl, h.symm⟩
  · simp only [add, Function.update_of_ne hq] at h
    exact .inr h

theorem procs_add_next (s : System) (member : Bool) : (s.add member).procs s.next = some member :=
  Function.update_self ..

/-- A birth leaves the others alone. -/
theorem procs_add_of_some (h : s.procs q = some m) : (s.add member).procs q = some m :=
  (Function.update_of_ne (Nat.ne_of_lt (lt_next h)) ..).trans h

theorem procs_assign (h : (s.assign pid).procs q = some m) :
    q = pid ∧ m = true ∨ q ≠ pid ∧ s.procs q = some m := by
  obtain ⟨member, hp, rfl⟩ := Option.map_eq_some_iff.mp h
  by_cases hq : q = pid
  · exact .inl ⟨hq, if_pos hq⟩
  · rw [if_neg hq]
    exact .inr ⟨hq, hp⟩

theorem procs_assign_eq_none : (s.assign pid).procs q = none ↔ s.procs q = none :=
  Option.map_eq_none_iff

theorem procs_remove (h : (s.remove pid).procs q = some m) : q ≠ pid ∧ s.procs q = some m := by
  simp only [remove] at h
  split at h
  · cases h
  · rename_i hq
    exact ⟨hq, h⟩

theorem procs_remove_of_ne (h : q ≠ pid) : (s.remove pid).procs q = s.procs q := if_neg h

theorem procs_terminate (h : s.terminate.procs q = some m) : s.procs q = some m ∧ m = false := by
  obtain ⟨hp, hm⟩ := Option.filter_eq_some_iff.mp h
  exact ⟨hp, by simpa using hm⟩

/-- Closing a job that kills on close terminates it. -/
theorem procs_close (hhandle : s.handle = true) (hkill : s.limits.killOnClose = true)
    (h : s.close.procs q = some m) : s.procs q = some m ∧ m = false := by
  rw [close, hhandle, hkill] at h
  exact procs_terminate h

/-- Closing a job brings no process to life. -/
theorem procs_of_close (h : s.close.procs q = some m) : s.procs q = some m := by
  rw [close] at h
  split at h
  · exact (procs_terminate h).1
  · exact h

end System

end Windows
