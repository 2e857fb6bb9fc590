import Mathlib

/-!
# Counting permits

Semaphores and the tasks that own their permits.  `holds o k` is how many permits of semaphore `k`
an owner `o` has, and `held` adds that up over all owners.  A permit is free or owned, so a program
that never loses one keeps `free k + held holds owners k` at the size of the semaphore; and owners
that each have a permit are at most as many as the permits (`countP_le_held`).
-/

set_option autoImplicit false

namespace Async

variable {O K : Type} {holds : O → K → ℕ}

/-- The permits of semaphore `k` that are owned by somebody. -/
def held (holds : O → K → ℕ) (owners : List O) (k : K) : ℕ := (owners.map (holds · k)).sum

@[simp] theorem held_nil (k : K) : held holds [] k = 0 := rfl

@[simp] theorem held_cons (o : O) (owners : List O) (k : K) :
    held holds (o :: owners) k = holds o k + held holds owners k := by
  simp [held]

@[simp] theorem held_append (before after : List O) (k : K) :
    held holds (before ++ after) k = held holds before k + held holds after k := by
  simp [held]

/-- Owners that each have a permit are at most as many as the permits. -/
theorem countP_le_held {owners : List O} {p : O → Bool} {k : K}
    (h : ∀ o ∈ owners, p o = true → 1 ≤ holds o k) : owners.countP p ≤ held holds owners k := by
  induction owners with
  | nil => exact le_rfl
  | cons o owners ih =>
    rw [List.countP_cons, held_cons, Nat.add_comm]
    refine Nat.add_le_add ?_ (ih fun o' ho' ↦ h o' (List.mem_cons_of_mem o ho'))
    split
    · exact h o List.mem_cons_self ‹_›
    · exact Nat.zero_le _

/-- Owners that have no permit may be left out. -/
theorem held_filter {owners : List O} {p : O → Bool} {k : K}
    (h : ∀ o ∈ owners, p o = false → holds o k = 0) :
    held holds (owners.filter p) k = held holds owners k := by
  induction owners with
  | nil => rfl
  | cons o owners ih =>
    have htail := ih fun o' ho' ↦ h o' (List.mem_cons_of_mem o ho')
    cases hp : p o with
    | true => rw [List.filter_cons_of_pos hp, held_cons, held_cons, htail]
    | false =>
      rw [List.filter_cons_of_neg (by simp [hp]), held_cons, htail, h o List.mem_cons_self hp,
        Nat.zero_add]

end Async
