import Mathlib.Logic.Relation

/-!
# Programs over atomic calls

A service call is a program that issues atomic calls (database operations, draws
of random values, clock readings) and computes between them. Any atomic call may
throw; `Action` adds the exceptions of the host language.
-/

namespace Interleaving

/-- A program that issues atomic calls of signature `Op`. The continuation of a
call is handed `none` when that call throws. -/
inductive Prog (Op : Type → Type) (α : Type) : Type 1 where
  | done (a : α)
  | call {β : Type} (op : Op β) (next : Option β → Prog Op α)

namespace Prog

variable {Op : Type → Type} {α β γ : Type}

def bind : Prog Op α → (α → Prog Op β) → Prog Op β
  | .done a, f => f a
  | .call op next, f => .call op fun r => (next r).bind f

instance : Monad (Prog Op) where
  pure := .done
  bind := bind

theorem pure_eq (a : α) : (pure a : Prog Op α) = .done a := rfl

theorem bind_assoc (p : Prog Op α) (f : α → Prog Op β) (g : β → Prog Op γ) :
    (p >>= f) >>= g = p >>= fun a => f a >>= g := by
  induction p with
  | done a => rfl
  | call op next ih => exact congrArg (Prog.call op) (funext ih)

theorem bind_done (p : Prog Op α) : (p >>= fun a => .done a) = p := by
  induction p with
  | done a => rfl
  | call op next ih => exact congrArg (Prog.call op) (funext ih)

instance : LawfulMonad (Prog Op) := .mk' _ bind_done (fun _ _ => rfl) bind_assoc

@[simp] theorem done_bind (a : α) (f : α → Prog Op β) : (Prog.done a >>= f) = f a := rfl

@[simp] theorem call_bind (op : Op γ) (next : Option γ → Prog Op α) (f : α → Prog Op β) :
    (Prog.call op next >>= f) = .call op fun r => next r >>= f := rfl

end Prog

/-- Programs with exceptions of type `ε`. -/
abbrev Action (Op : Type → Type) (ε : Type) := ExceptT ε (Prog Op)

/-- Issue one atomic call; `thrown` is what its failure raises. -/
def Action.perform {Op : Type → Type} {ε β : Type} (thrown : ε) (op : Op β) : Action Op ε β :=
  ExceptT.mk (.call op fun
    | some b => .done (.ok b)
    | none => .done (.error thrown))

theorem Action.run_tryCatch {Op : Type → Type} {ε α : Type} (x : Action Op ε α)
    (f : ε → Action Op ε α) : (tryCatch x f).run = (x.run >>= fun r => match r with
      | .ok a => .done (.ok a)
      | .error e => (f e).run) := by
  show ExceptT.run (ExceptT.tryCatch x f) = _
  unfold ExceptT.tryCatch
  refine congrArg (x.run >>= ·) (funext fun r => ?_)
  cases r with
  | ok a => rfl
  | error e => rfl

end Interleaving
