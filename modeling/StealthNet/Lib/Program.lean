/-
  StealthNet.Lib.Program
  ──────────────────────
  PROGRAMS THAT ASK FOR OPERATIONS.

  A program is finished, or it asks for an operation and goes on with the
  result.  What an operation does is said by whoever runs the program, so that
  other things can happen between two of them.  Programs are a monad: code
  with `?`, early returns and loops is written as it stands.
-/
import Mathlib.Init

namespace Lib

/-- A program over the operations `Op`, with results of the types `Res`. -/
inductive Program (Op : Type) (Res : Op → Type) (α : Type)
  | pure (a : α)
  | ask (o : Op) (k : Res o → Program Op Res α)

namespace Program

variable {Op : Type} {Res : Op → Type} {α β : Type}

/-- Go on with what the first program returns. -/
def bind : Program Op Res α → (α → Program Op Res β) → Program Op Res β
  | .pure a, f => f a
  | .ask o k, f => .ask o fun r => (k r).bind f

instance : Monad (Program Op Res) where
  pure := .pure
  bind := .bind

/-- Ask for one operation. -/
def perform (o : Op) : Program Op Res (Res o) := .ask o .pure

theorem bind_pure (p : Program Op Res α) : (p >>= Program.pure) = p := by
  induction p with
  | pure a => rfl
  | ask o k ih => exact congrArg (ask o) (funext ih)

theorem bind_assoc {γ : Type} (p : Program Op Res α) (f : α → Program Op Res β)
    (g : β → Program Op Res γ) : (p >>= f) >>= g = p >>= fun a => f a >>= g := by
  induction p with
  | pure a => rfl
  | ask o k ih => exact congrArg (ask o) (funext ih)

/-- Programs that go on alike are the same. -/
theorem ask_congr {o : Op} {k k' : Res o → Program Op Res α} (h : ∀ r, k r = k' r) :
    ask o k = ask o k' := congrArg (ask o) (funext h)

end Program

end Lib
