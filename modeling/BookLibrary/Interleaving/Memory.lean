import BookLibrary.Interleaving.Program

/-!
# Programs with a memory

A program that works on an object of its process. What it has done to the object stays
done when a call throws, also where the calls themselves are rolled back.
-/

namespace Interleaving

/-- Programs with exceptions of type `ε` that work on an object of type `M`. -/
abbrev Keeping (Op : Type → Type) (M ε : Type) := ExceptT ε (StateT M (Prog Op))

namespace Keeping

variable {Op : Type → Type} {M ε α β : Type}

/-- The program that works on `m`; it ends with the object as it leaves it. -/
def runFrom (x : Keeping Op M ε α) (m : M) : Prog Op (Except ε α × M) := x.run.run m

/-- A program that does not touch the object. -/
def lift (x : Action Op ε α) : Keeping Op M ε α :=
  ExceptT.mk fun m => x.run >>= fun r => .done (r, m)

instance : MonadLift (Action Op ε) (Keeping Op M ε) := ⟨lift⟩

/-- Run `x` on `m` and go on with the object it leaves, unless it throws. -/
def keep (m : M) (x : Keeping Op M ε Unit) : Action Op ε M :=
  ExceptT.mk (x.runFrom m >>= fun r => .done (r.1.map fun _ => r.2))

theorem runFrom_pure (m : M) (a : α) :
    (pure a : Keeping Op M ε α).runFrom m = .done (.ok a, m) := rfl

theorem runFrom_throw (m : M) (e : ε) :
    (throw e : Keeping Op M ε α).runFrom m = .done (.error e, m) := rfl

theorem runFrom_get (m : M) : (get : Keeping Op M ε M).runFrom m = .done (.ok m, m) := rfl

theorem runFrom_set (m m' : M) :
    (set m' : Keeping Op M ε PUnit).runFrom m = .done (.ok ⟨⟩, m') := rfl

theorem runFrom_modify (m : M) (f : M → M) :
    (modify f : Keeping Op M ε PUnit).runFrom m = .done (.ok ⟨⟩, f m) := rfl

theorem runFrom_lift (m : M) (x : Action Op ε α) :
    (liftM x : Keeping Op M ε α).runFrom m = (x.run >>= fun r => .done (r, m)) := rfl

theorem runFrom_bind (m : M) (x : Keeping Op M ε β) (f : β → Keeping Op M ε α) :
    (x >>= f).runFrom m = (x.runFrom m >>= fun r => match r with
      | (.ok b, m') => (f b).runFrom m'
      | (.error e, m') => .done (.error e, m')) := by
  show (x.run m >>= fun r => ExceptT.bindCont f r.1 r.2) = _
  refine congrArg (x.run m >>= ·) (funext fun r => ?_)
  obtain ⟨r | b, m'⟩ := r
  · rfl
  · rfl

theorem runFrom_get_bind (m : M) (f : M → Keeping Op M ε α) :
    (get >>= f).runFrom m = (f m).runFrom m := by
  rw [runFrom_bind, runFrom_get]
  rfl

theorem runFrom_modify_bind (m : M) (g : M → M) (f : PUnit → Keeping Op M ε α) :
    (modify g >>= f).runFrom m = (f ⟨⟩).runFrom (g m) := by
  rw [runFrom_bind, runFrom_modify]
  rfl

theorem runFrom_tryCatch (m : M) (x : Keeping Op M ε α) (f : ε → Keeping Op M ε α) :
    (tryCatch x f).runFrom m = (x.runFrom m >>= fun r => match r with
      | (.ok a, m') => .done (.ok a, m')
      | (.error e, m') => (f e).runFrom m') := by
  show (ExceptT.tryCatch x f).run m = _
  unfold ExceptT.tryCatch
  show (x.run m >>= fun r => _) = _
  refine congrArg (x.run m >>= ·) (funext fun r => ?_)
  obtain ⟨r | a, m'⟩ := r
  · rfl
  · rfl

end Keeping

end Interleaving
