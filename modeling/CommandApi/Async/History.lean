import CommandApi.Async.Control

/-!
# What an execution has been through

`Machine.remember` is a machine that keeps what it has left behind, newest first: the worlds, and
the answers the program was given there.  Its executions are the executions of the machine itself
(`Run.remembered`).

`Once p` says that the present world or one before it satisfies `p`, and `Heard q` that some
operation has been given an answer with `q`.  Nothing takes that back (`Once.step`,
`Heard.step`), so an invariant may speak about the past: what the program knows in a phase may be
that something has happened.
-/

set_option autoImplicit false

namespace Async

open Relation

variable {S : Signature} {W Φ ε α : Type}

/-- A step that has been made: the world it was made in, and the answer if it was the program's. -/
structure Passed (S : Signature) (W : Type) where
  world : W
  answer : Option ((o : S.Op) × S.Resp o)

/-- The machine with a list of the steps it has made. -/
def Machine.remember (M : Machine S W) : Machine S (W × List (Passed S W)) where
  act o w r w' := M.act o w.1 r w'.1 ∧ w'.2 = ⟨w.1, some ⟨o, r⟩⟩ :: w.2
  env w w' := M.env w.1 w'.1 ∧ w'.2 = ⟨w.1, none⟩ :: w.2

/-- At some time, up to now, the world satisfied `p`. -/
def Once (p : W → Prop) (w : W × List (Passed S W)) : Prop := p w.1 ∨ ∃ u ∈ w.2, p u.world

/-- Some operation has been given an answer with `q`. -/
def Heard (q : (o : S.Op) → S.Resp o → Prop) (w : W × List (Passed S W)) : Prop :=
  ∃ u ∈ w.2, ∃ a, u.answer = some a ∧ q a.1 a.2

section

variable {w w' : W × List (Passed S W)} {a : Option ((o : S.Op) × S.Resp o)}

namespace Once

variable {p q : W → Prop}

theorem now (h : p w.1) : Once p w := .inl h

theorem mono (hpq : ∀ u, p u → q u) (h : Once p w) : Once q w :=
  h.imp (hpq _) fun ⟨u, hu, hp⟩ ↦ ⟨u, hu, hpq u.world hp⟩

/-- What has happened stays so. -/
theorem step (h : Once p w) (hw : w'.2 = ⟨w.1, a⟩ :: w.2) : Once p w' := by
  refine .inr ?_
  rw [hw]
  rcases h with h | ⟨u, hu, h⟩
  · exact ⟨_, List.mem_cons_self, h⟩
  · exact ⟨u, List.mem_cons_of_mem _ hu, h⟩

/-- The world that has just been left. -/
theorem before (h : p w.1) (hw : w'.2 = ⟨w.1, a⟩ :: w.2) : Once p w' := (now h).step hw

end Once

namespace Heard

variable {q : (o : S.Op) → S.Resp o → Prop}

theorem step (h : Heard q w) (hw : w'.2 = ⟨w.1, a⟩ :: w.2) : Heard q w' := by
  obtain ⟨u, hu, h⟩ := h
  refine ⟨u, ?_, h⟩
  rw [hw]
  exact List.mem_cons_of_mem _ hu

/-- The answer that has just been given. -/
theorem now {o : S.Op} {r : S.Resp o} (h : q o r) (hw : w'.2 = ⟨w.1, some ⟨o, r⟩⟩ :: w.2) :
    Heard q w' := by
  refine ⟨⟨w.1, some ⟨o, r⟩⟩, ?_, ⟨o, r⟩, rfl, h⟩
  rw [hw]
  exact List.mem_cons_self

end Heard

end

/-- Every execution can be watched. -/
theorem Machine.Run.remembered {M : Machine S W} {c c' : Prog S ε α × W} (h : M.Run c c')
    (past : List (Passed S W)) :
    ∃ past', M.remember.Run (c.1, c.2, past) (c'.1, c'.2, past') := by
  induction h with
  | refl => exact ⟨past, .refl⟩
  | tail _ hs ih =>
    obtain ⟨past', ih⟩ := ih
    cases hs with
    | @act o k w v r h => exact ⟨⟨w, some ⟨o, r⟩⟩ :: past', ih.tail (.act ⟨h, rfl⟩)⟩
    | @env p w v h => exact ⟨⟨w, none⟩ :: past', ih.tail (.env ⟨h, rfl⟩)⟩

end Async
