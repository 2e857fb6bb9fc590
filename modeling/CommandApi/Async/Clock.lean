import Mathlib

/-!
# Readings of a monotonic clock

`std::time::Instant` on Linux: seconds in an `i64` and nanoseconds below a second.  An `Instant` is
kept here by the nanoseconds it stands for, which is all that comparing and subtracting look at; the
width of the seconds is what limits it.  Adding a duration is partial: where the sum has no
representation the `+` of the source panics.
-/

set_option autoImplicit false

namespace Async

/-- The first whole number of seconds that has no representation. -/
def instantLimit : ℤ := 2 ^ 63

def nanosPerSecond : ℤ := 1000000000

/-- A reading of the clock, in nanoseconds. -/
@[ext]
structure Instant where
  nanos : ℤ
  lower : -instantLimit * nanosPerSecond ≤ nanos
  upper : nanos < instantLimit * nanosPerSecond
  deriving DecidableEq

namespace Instant

/-- The reading `0`. -/
def zero : Instant := ⟨0, by decide, by decide⟩

instance : LinearOrder Instant := LinearOrder.lift' nanos fun _ _ h ↦ Instant.ext h

/-- The whole seconds of a reading. -/
def seconds (now : Instant) : ℤ := now.nanos / nanosPerSecond

theorem nanos_lt_iff {a b : Instant} : a.nanos < b.nanos ↔ a < b := Iff.rfl

theorem nanos_le_iff {a b : Instant} : a.nanos ≤ b.nanos ↔ a ≤ b := Iff.rfl

/-- `Instant + Duration::from_secs(seconds)`, which panics where this is `none`. -/
def addSecs (now : Instant) (seconds : ℕ) : Option Instant :=
  if h : now.nanos + seconds * nanosPerSecond < instantLimit * nanosPerSecond then
    have hn : (0 : ℤ) ≤ seconds * nanosPerSecond :=
      Int.mul_nonneg (Int.natCast_nonneg _) (by decide)
    some ⟨now.nanos + seconds * nanosPerSecond, now.lower.trans (le_add_of_nonneg_right hn), h⟩
  else none

/-- `Instant + Duration::from_nanos(n)`, which panics where this is `none`. -/
def addNanos (now : Instant) (n : ℕ) : Option Instant :=
  if h : now.nanos + n < instantLimit * nanosPerSecond then
    some ⟨now.nanos + n, now.lower.trans (le_add_of_nonneg_right (Int.natCast_nonneg _)), h⟩
  else none

variable {now later : Instant} {seconds n : ℕ}

theorem addNanos_eq_none_iff :
    now.addNanos n = none ↔ instantLimit * nanosPerSecond ≤ now.nanos + n := by
  unfold addNanos
  split
  · rename_i hlimit
    exact ⟨nofun, fun h ↦ absurd hlimit (not_lt.mpr h)⟩
  · rename_i hlimit
    exact ⟨fun _ ↦ not_lt.mp hlimit, fun _ ↦ rfl⟩

theorem addSecs_eq_some_iff :
    now.addSecs seconds = some later ↔ later.nanos = now.nanos + seconds * nanosPerSecond := by
  unfold addSecs
  split
  · rw [Option.some.injEq]
    exact ⟨fun h ↦ h ▸ rfl, fun h ↦ Instant.ext h.symm⟩
  · rename_i hlimit
    exact ⟨nofun, fun h ↦ absurd (h ▸ later.upper) hlimit⟩

/-- The sum is representable exactly when its seconds are. -/
theorem addSecs_isSome_iff :
    (now.addSecs seconds).isSome = true ↔ now.seconds + seconds < instantLimit := by
  have hpos : (0 : ℤ) < nanosPerSecond := by decide
  have hsum : now.seconds + seconds = (now.nanos + seconds * nanosPerSecond) / nanosPerSecond :=
    (Int.add_mul_ediv_right _ _ hpos.ne').symm
  rw [hsum, Int.ediv_lt_iff_lt_mul hpos, addSecs]
  split <;> simp_all

theorem addSecs_eq_none_iff :
    now.addSecs seconds = none ↔ instantLimit ≤ now.seconds + seconds := by
  rw [← Option.not_isSome_iff_eq_none, addSecs_isSome_iff, not_lt]

/-- `duration_since`, in nanoseconds. -/
def durationSince (later now : Instant) : ℕ := (later.nanos - now.nanos).toNat

end Instant

end Async
