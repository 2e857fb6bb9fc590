import Mathlib

/-!
# Sequential programs over a signature of effects

An `async fn` that awaits, locks, writes files and polls timers is, between two of its effects, a
pure function.  `Async.Prog` keeps exactly that much: a program is a finite tree whose nodes are
effects (`Prog.call`) and whose branches are indexed by the possible responses, ending either in a
value or — for a body that uses `?` — in an early error.  What an effect *does* is not part of the
program: it is given later, by a machine (`Async.Machine`), and the same program can be run on
several machines.

Everything here is generic in the signature.  `Prog` is a monad, so a program is written in `do`
notation and reads like the source; `Prog.attempt` is the caller's `if let Err(error) = …`, and
`Prog.context` is what `anyhow`'s `with_context` does to an error on its way out.
-/

set_option autoImplicit false

namespace Async

/-- A signature of effects: the operations a program may perform, and what each one answers. -/
structure Signature where
  /-- The operations. -/
  Op : Type
  /-- The answers to an operation. -/
  Resp : Op → Type

/-- A program over the signature `S`: it ends in a value, fails with an error, or performs an
operation and goes on with the answer. -/
inductive Prog (S : Signature) (ε α : Type) : Type
  | ret (a : α)
  | fail (e : ε)
  | call (o : S.Op) (k : S.Resp o → Prog S ε α)

namespace Prog

variable {S : Signature} {ε δ α β γ : Type}

/-- Run `p`, then `f` on its value.  An error of `p` skips `f`: this is `?`. -/
def andThen : Prog S ε α → (α → Prog S ε β) → Prog S ε β
  | ret a, f => f a
  | fail e, _ => fail e
  | call o k, f => call o fun r ↦ (k r).andThen f

instance : Monad (Prog S ε) where
  pure := ret
  bind := andThen

@[simp] theorem pure_eq_ret (a : α) : (pure a : Prog S ε α) = ret a := rfl

@[simp] theorem ret_bind (a : α) (f : α → Prog S ε β) : (ret a >>= f) = f a := rfl

@[simp] theorem fail_bind (e : ε) (f : α → Prog S ε β) : (fail e >>= f) = fail e := rfl

@[simp] theorem call_bind (o : S.Op) (k : S.Resp o → Prog S ε α) (f : α → Prog S ε β) :
    (call o k >>= f) = call o fun r ↦ k r >>= f := rfl

/-- Perform one operation and return its answer. -/
def perform (o : S.Op) : Prog S ε (S.Resp o) := call o ret

/-- A value that may already be an error. -/
def ofExcept : Except ε α → Prog S ε α
  | .ok a => ret a
  | .error e => fail e

/-- Turn the outcome of `p` into a value, so that the caller can look at it. -/
def attempt : Prog S ε α → Prog S δ (Except ε α)
  | ret a => ret (.ok a)
  | fail e => ret (.error e)
  | call o k => call o fun r ↦ (k r).attempt

/-- Rewrite the error `p` fails with. -/
def mapError (f : ε → δ) : Prog S ε α → Prog S δ α
  | ret a => ret a
  | fail e => fail (f e)
  | call o k => call o fun r ↦ (k r).mapError f

/-- `with_context`, as the alternate format of `anyhow` prints it: the context, a colon, the
cause. -/
def context (c : String) (p : Prog S String α) : Prog S String α :=
  p.mapError fun e ↦ c ++ ": " ++ e

theorem mapError_bind (g : ε → δ) (p : Prog S ε α) (f : α → Prog S ε β) :
    (p >>= f).mapError g = p.mapError g >>= fun a ↦ (f a).mapError g := by
  induction p with
  | ret a => rfl
  | fail e => rfl
  | call o k ih => exact congrArg (call o) (funext ih)

/-! ## The operations of a program -/

/-- Every operation that the program may perform satisfies `ok`. -/
def Only (ok : S.Op → Prop) : Prog S ε α → Prop
  | ret _ => True
  | fail _ => True
  | call o k => ok o ∧ ∀ r, (k r).Only ok

namespace Only

variable {ok : S.Op → Prop}

theorem mono {ok' : S.Op → Prop} {p : Prog S ε α} (h : ∀ o, ok o → ok' o) (hp : p.Only ok) :
    p.Only ok' := by
  induction p with
  | ret a => exact trivial
  | fail e => exact trivial
  | call o k ih => exact ⟨h o hp.1, fun r ↦ ih r (hp.2 r)⟩

theorem bind {p : Prog S ε α} {f : α → Prog S ε β} (hp : p.Only ok) (hf : ∀ a, (f a).Only ok) :
    (p >>= f).Only ok := by
  induction p with
  | ret a => exact hf a
  | fail e => exact trivial
  | call o k ih => exact ⟨hp.1, fun r ↦ ih r (hp.2 r)⟩

theorem ite {c : Prop} [Decidable c] {p q : Prog S ε α} (hp : p.Only ok) (hq : q.Only ok) :
    (if c then p else q).Only ok := by
  split
  · exact hp
  · exact hq

theorem mapError {p : Prog S ε α} (f : ε → δ) (hp : p.Only ok) : (p.mapError f).Only ok := by
  induction p with
  | ret a => exact trivial
  | fail e => exact trivial
  | call o k ih => exact ⟨hp.1, fun r ↦ ih r (hp.2 r)⟩

theorem attempt {p : Prog S ε α} (hp : p.Only ok) :
    (p.attempt : Prog S δ (Except ε α)).Only ok := by
  induction p with
  | ret a => exact trivial
  | fail e => exact trivial
  | call o k ih => exact ⟨hp.1, fun r ↦ ih r (hp.2 r)⟩

theorem perform {o : S.Op} (h : ok o) : (perform o : Prog S ε (S.Resp o)).Only ok :=
  ⟨h, fun _ ↦ trivial⟩

theorem ofExcept (x : Except ε α) : (ofExcept x : Prog S ε α).Only ok := by
  cases x with
  | ok a => exact trivial
  | error e => exact trivial

end Only

/-! ## The errors of a program -/

/-- The program performs operations that satisfy `ok`, and it ends with an error exactly when it is
answered one: at once, and with what `text` makes of the answer. -/
def FailsBy (ok : S.Op → Prop) (text : (o : S.Op) → S.Resp o → Option ε) : Prog S ε α → Prop
  | ret _ => True
  | fail _ => False
  | call o k => ok o ∧
    ∀ r, (text o r = none → (k r).FailsBy ok text) ∧ ∀ e, text o r = some e → k r = fail e

namespace FailsBy

variable {ok : S.Op → Prop} {text : (o : S.Op) → S.Resp o → Option ε}

theorem bind {p : Prog S ε α} {f : α → Prog S ε β} (hp : p.FailsBy ok text)
    (hf : ∀ a, (f a).FailsBy ok text) : (p >>= f).FailsBy ok text := by
  induction p with
  | ret a => exact hf a
  | fail e => exact hp.elim
  | call o k ih =>
    refine ⟨hp.1, fun r ↦ ⟨fun hr ↦ ih r ((hp.2 r).1 hr), fun e he ↦ ?_⟩⟩
    show k r >>= f = fail e
    rw [(hp.2 r).2 e he]
    rfl

theorem ite {c : Prop} [Decidable c] {p q : Prog S ε α} (hp : p.FailsBy ok text)
    (hq : q.FailsBy ok text) : (if c then p else q).FailsBy ok text := by
  split
  · exact hp
  · exact hq

/-- An operation whose answers are no errors. -/
theorem perform {o : S.Op} (ho : ok o) (h : ∀ r, text o r = none) :
    (perform o : Prog S ε (S.Resp o)).FailsBy ok text :=
  ⟨ho, fun r ↦ ⟨fun _ ↦ trivial, fun e he ↦ by rw [h r] at he; cases he⟩⟩

end FailsBy

end Prog

end Async
