import Mathlib

/-!
# Threads over a shared state

Any number of threads that take atomic steps on a state they share, in any order.  A `Threads σ τ`
says what a thread at `t : τ` can do to the state, which threads may arrive, and what happens to the
state by itself; `Threads.Step` interleaves all that.  A thread keeps its place in the list, so a
thread is a position.

`Threads.Interference` is the proof rule: an assertion about the shared state, and one about each
thread that no step of another thread can break, hold in every reachable state.  Of the threads that
arrive from some state on more may be known than of those that are there already: that is
`Threads.Newcomers`.
-/

set_option autoImplicit false

namespace Async

open Relation

variable {σ τ : Type}

structure Threads (σ τ : Type) where
  /-- `act s t s' t'`: a thread at `t` may go on to `t'` and leave the state at `s'`. -/
  act : σ → τ → σ → τ → Prop
  /-- The threads that may arrive. -/
  arrives : σ → τ → Prop
  /-- A step of nobody. -/
  env : σ → σ → Prop

namespace Threads

variable (T : Threads σ τ)

inductive Step : σ × List τ → σ × List τ → Prop
  | act {s s' : σ} {t t' : τ} {before after : List τ} (h : T.act s t s' t') :
      Step (s, before ++ t :: after) (s', before ++ t' :: after)
  | arrive {s : σ} {t : τ} {threads : List τ} (h : T.arrives s t) :
      Step (s, threads) (s, threads ++ [t])
  | env {s s' : σ} {threads : List τ} (h : T.env s s') : Step (s, threads) (s', threads)

abbrev Run : σ × List τ → σ × List τ → Prop := ReflTransGen T.Step

variable {T} {I J : σ → Prop} {L K : σ → τ → Prop}

/-- `I` is kept by every step, and so is the assertion `L` about a thread: by the thread's own steps
and by those of the others. -/
structure Interference (T : Threads σ τ) (I : σ → Prop) (L : σ → τ → Prop) : Prop where
  own : ∀ s t s' t', I s → L s t → T.act s t s' t' → I s' ∧ L s' t'
  other : ∀ s t s' t' u, I s → L s t → T.act s t s' t' → L s u → L s' u
  arrive : ∀ s t, I s → T.arrives s t → L s t
  env : ∀ s s', I s → T.env s s' → I s' ∧ ∀ u, L s u → L s' u

theorem Interference.step (h : T.Interference I L) {c c' : σ × List τ} (hs : T.Step c c')
    (hI : I c.1) (hL : ∀ t ∈ c.2, L c.1 t) : I c'.1 ∧ ∀ t ∈ c'.2, L c'.1 t := by
  cases hs with
  | @act s s' t t' before after hact =>
    have ht := hL t (List.mem_append_right _ List.mem_cons_self)
    obtain ⟨hI', ht'⟩ := h.own _ _ _ _ hI ht hact
    refine ⟨hI', fun u hu ↦ ?_⟩
    rcases List.mem_append.mp hu with hu | hu
    · exact h.other _ _ _ _ u hI ht hact (hL u (List.mem_append_left _ hu))
    · rcases List.mem_cons.mp hu with rfl | hu
      · exact ht'
      · exact h.other _ _ _ _ u hI ht hact
          (hL u (List.mem_append_right _ (List.mem_cons_of_mem _ hu)))
  | arrive harrives =>
    refine ⟨hI, fun u hu ↦ ?_⟩
    rcases List.mem_append.mp hu with hu | hu
    · exact hL u hu
    · rw [List.mem_singleton.mp hu]
      exact h.arrive _ _ hI harrives
  | env henv =>
    obtain ⟨hI', hkeep⟩ := h.env _ _ hI henv
    exact ⟨hI', fun u hu ↦ hkeep u (hL u hu)⟩

/-- **What no step breaks holds in every reachable state.** -/
theorem Interference.run (h : T.Interference I L) {c c' : σ × List τ} (hr : T.Run c c')
    (hI : I c.1) (hL : ∀ t ∈ c.2, L c.1 t) : I c'.1 ∧ ∀ t ∈ c'.2, L c'.1 t := by
  induction hr with
  | refl => exact ⟨hI, hL⟩
  | tail _ hs ih => exact h.step hs ih.1 ih.2

/-- The steps keep something more about the state. -/
theorem Interference.and (h : T.Interference I L)
    (hact : ∀ s t s' t', I s → L s t → J s → T.act s t s' t' → J s')
    (henv : ∀ s s', I s → J s → T.env s s' → J s') :
    T.Interference (fun s ↦ I s ∧ J s) L where
  own s t s' t' hI hL ha :=
    ⟨⟨(h.own s t s' t' hI.1 hL ha).1, hact s t s' t' hI.1 hL hI.2 ha⟩,
      (h.own s t s' t' hI.1 hL ha).2⟩
  other s t s' t' u hI := h.other s t s' t' u hI.1
  arrive s t hI := h.arrive s t hI.1
  env s s' hI he := ⟨⟨(h.env s s' hI.1 he).1, henv s s' hI.1 hI.2 he⟩, (h.env s s' hI.1 he).2⟩

/-- `K` is an assertion about the threads that arrive from some state on. -/
structure Newcomers (T : Threads σ τ) (I : σ → Prop) (L K : σ → τ → Prop) : Prop where
  own : ∀ s t s' t', I s → L s t → K s t → T.act s t s' t' → K s' t'
  other : ∀ s t s' t' u, I s → L s t → T.act s t s' t' → K s u → K s' u
  arrive : ∀ s t, I s → T.arrives s t → K s t
  env : ∀ s s' u, I s → T.env s s' → K s u → K s' u

theorem Newcomers.step (hK : T.Newcomers I L K) {c c' : σ × List τ} {n : ℕ} (hs : T.Step c c')
    (hI : I c.1) (hL : ∀ t ∈ c.2, L c.1 t)
    (hc : ∀ i t, n ≤ i → c.2[i]? = some t → K c.1 t) :
    ∀ i t, n ≤ i → c'.2[i]? = some t → K c'.1 t := by
  intro i u hi hu
  cases hs with
  | @act s s' t t' before after hact =>
    have ht := hL t (List.mem_append_right _ List.mem_cons_self)
    rcases lt_trichotomy i before.length with hlt | rfl | hgt
    · rw [List.getElem?_append_left hlt] at hu
      exact hK.other _ _ _ _ _ hI ht hact (hc i u hi (by rwa [List.getElem?_append_left hlt]))
    · obtain rfl : t' = u := by simpa using hu
      exact hK.own _ _ _ _ hI ht (hc _ t hi (by simp)) hact
    · obtain ⟨k, rfl⟩ := Nat.exists_eq_add_of_lt hgt
      refine hK.other _ _ _ _ _ hI ht hact (hc _ u hi ?_)
      rw [List.getElem?_append_right (by omega)] at hu ⊢
      have hk : before.length + k + 1 - before.length = k + 1 := by omega
      rwa [hk, List.getElem?_cons_succ] at hu ⊢
  | @arrive s t threads harrives =>
    rcases lt_or_ge i threads.length with hlt | hge
    · rw [List.getElem?_append_left hlt] at hu
      exact hc i u hi hu
    · rw [List.getElem?_append_right hge, List.getElem?_singleton] at hu
      split at hu
      · obtain rfl := Option.some.inj hu
        exact hK.arrive _ _ hI harrives
      · exact absurd hu (Option.some_ne_none u).symm
  | env henv => exact hK.env _ _ _ hI henv (hc i u hi hu)

/-- **What holds of a thread when it arrives, and is not broken, holds of those that have arrived
since.** -/
theorem Newcomers.run (hK : T.Newcomers I L K) (h : T.Interference I L) {c c' : σ × List τ}
    (hr : T.Run c c') (hI : I c.1) (hL : ∀ t ∈ c.2, L c.1 t) :
    ∀ i t, c.2.length ≤ i → c'.2[i]? = some t → K c'.1 t := by
  induction hr with
  | refl =>
    intro i t hi ht
    rw [List.getElem?_eq_none hi] at ht
    exact absurd ht (Option.some_ne_none t).symm
  | tail hr hs ih =>
    obtain ⟨hI', hL'⟩ := h.run hr hI hL
    exact hK.step hs hI' hL' ih

end Threads

end Async
