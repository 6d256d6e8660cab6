import BookLibrary.Interleaving.Program

/-!
# How programs end

What a program ends with where each of its calls is answered as it may be, from whatever
store it finds: the answers are judged one by one, and nothing is said of the stores between.
-/

namespace Interleaving

variable {Op : Type → Type} {α β ε : Type}

/-- Whatever the calls answer, and wherever they throw, the program ends as `Q` says. -/
def Prog.Ends (answers : (β : Type) → Op β → β → Prop) (fallible : (β : Type) → Op β → Prop)
    (Q : α → Prop) : Prog Op α → Prop
  | .done a => Q a
  | @Prog.call _ _ β op next =>
    (∀ b, answers β op b → (next (some b)).Ends answers fallible Q) ∧
      (fallible β op → (next none).Ends answers fallible Q)

namespace Prog.Ends

variable {answers : (β : Type) → Op β → β → Prop} {fallible : (β : Type) → Op β → Prop}
  {Q Q' : α → Prop}

theorem mono {p : Prog Op α} (hp : p.Ends answers fallible Q) (h : ∀ a, Q a → Q' a) :
    p.Ends answers fallible Q' := by
  induction p with
  | done a => exact h a hp
  | call op next ih => exact ⟨fun b hb => ih _ (hp.1 b hb), fun hf => ih _ (hp.2 hf)⟩

theorem bind {R : β → Prop} {p : Prog Op β} {f : β → Prog Op α} (hp : p.Ends answers fallible R)
    (hf : ∀ b, R b → (f b).Ends answers fallible Q) : (p >>= f).Ends answers fallible Q := by
  induction p with
  | done b => exact hf b hp
  | call op next ih => exact ⟨fun b hb => ih _ (hp.1 b hb), fun hf' => ih _ (hp.2 hf')⟩

end Prog.Ends

section Actions

variable {answers : (β : Type) → Op β → β → Prop} {fallible : (β : Type) → Op β → Prop}
  {Q : Except ε α → Prop}

/-- The action ends as `Q` says. -/
def Action.Ends (answers : (β : Type) → Op β → β → Prop) (fallible : (β : Type) → Op β → Prop)
    (Q : Except ε α → Prop) (x : Action Op ε α) : Prop := x.run.Ends answers fallible Q

namespace Action.Ends

theorem pure {a : α} (h : Q (.ok a)) : (Pure.pure a : Action Op ε α).Ends answers fallible Q := h

theorem throw {e : ε} (h : Q (.error e)) :
    (MonadExcept.throw e : Action Op ε α).Ends answers fallible Q := h

theorem bind {R : Except ε β → Prop} {x : Action Op ε β} {f : β → Action Op ε α}
    (hx : x.Ends answers fallible R) (hok : ∀ b, R (.ok b) → (f b).Ends answers fallible Q)
    (herr : ∀ e, R (.error e) → Q (.error e)) : (x >>= f).Ends answers fallible Q := by
  refine Prog.Ends.bind (f := ExceptT.bindCont f) hx fun r hr => ?_
  cases r with
  | ok b => exact hok b hr
  | error e => exact herr e hr

theorem perform {thrown : ε} {op : Op α} (hok : ∀ b, answers α op b → Q (.ok b))
    (herr : fallible α op → Q (.error thrown)) :
    (Action.perform thrown op).Ends answers fallible Q := ⟨hok, herr⟩

/-- A call, and what follows its answer. -/
theorem call {thrown : ε} {op : Op β} {f : β → Action Op ε α}
    (hok : ∀ b, answers β op b → (f b).Ends answers fallible Q)
    (herr : fallible β op → Q (.error thrown)) :
    (Action.perform thrown op >>= f).Ends answers fallible Q := ⟨hok, herr⟩

/-- What holds of an action holds of what follows any of the answers. -/
theorem answered {thrown : ε} {op : Op β} {f : β → Action Op ε α}
    (h : (Action.perform thrown op >>= f).Ends answers fallible Q) {b : β} (hb : answers β op b) :
    (f b).Ends answers fallible Q := h.1 b hb

end Action.Ends

end Actions

end Interleaving
