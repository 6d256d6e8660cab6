import BookLibrary.Interleaving.Program

/-!
# Programs on their own

The outcomes of a program that runs from start to end on a state nobody else touches.
-/

namespace Interleaving

variable {Op : Type → Type} {σ α β ε : Type}

/-- `p` may end with `a`, taking the state `s` to `s'`. A call that throws has not
been applied. -/
def Evals (exec : (β : Type) → Op β → σ → β → σ → Prop) (fallible : (β : Type) → Op β → Prop) :
    Prog Op α → σ → α → σ → Prop
  | .done b, s, a, s' => a = b ∧ s' = s
  | @Prog.call _ _ β op next, s, a, s' =>
    (∃ b s₁, exec β op s b s₁ ∧ Evals exec fallible (next (some b)) s₁ a s') ∨
      fallible β op ∧ Evals exec fallible (next none) s a s'

namespace Evals

variable {exec : (β : Type) → Op β → σ → β → σ → Prop} {fallible : (β : Type) → Op β → Prop}
  {s s' : σ}

theorem bind {p : Prog Op β} {f : β → Prog Op α} {a : α} :
    Evals exec fallible (p >>= f) s a s' ↔
      ∃ b s₁, Evals exec fallible p s b s₁ ∧ Evals exec fallible (f b) s₁ a s' := by
  induction p generalizing s with
  | done b =>
    constructor
    · intro h
      exact ⟨b, s, ⟨rfl, rfl⟩, h⟩
    · rintro ⟨_, _, ⟨rfl, rfl⟩, h⟩
      exact h
  | call op next ih =>
    constructor
    · rintro (⟨b, s₁, hexec, h⟩ | ⟨hfails, h⟩)
      · obtain ⟨c, s₂, hp, hf⟩ := (ih (some b)).mp h
        exact ⟨c, s₂, .inl ⟨b, s₁, hexec, hp⟩, hf⟩
      · obtain ⟨c, s₂, hp, hf⟩ := (ih none).mp h
        exact ⟨c, s₂, .inr ⟨hfails, hp⟩, hf⟩
    · rintro ⟨c, s₂, ⟨b, s₁, hexec, hp⟩ | ⟨hfails, hp⟩, hf⟩
      · exact .inl ⟨b, s₁, hexec, (ih (some b)).mpr ⟨c, s₂, hp, hf⟩⟩
      · exact .inr ⟨hfails, (ih none).mpr ⟨c, s₂, hp, hf⟩⟩

theorem run_pure {a : α} {r : Except ε α} :
    Evals exec fallible (pure a : Action Op ε α).run s r s' ↔ r = .ok a ∧ s' = s := Iff.rfl

theorem run_throw {e : ε} {r : Except ε α} :
    Evals exec fallible (throw e : Action Op ε α).run s r s' ↔ r = .error e ∧ s' = s := Iff.rfl

theorem run_bind {x : Action Op ε β} {f : β → Action Op ε α} {r : Except ε α} :
    Evals exec fallible (x >>= f).run s r s' ↔
      (∃ b s₁, Evals exec fallible x.run s (.ok b) s₁ ∧ Evals exec fallible (f b).run s₁ r s') ∨
      ∃ e, r = .error e ∧ Evals exec fallible x.run s (.error e) s' := by
  show Evals exec fallible (x.run >>= ExceptT.bindCont f) s r s' ↔ _
  rw [bind]
  constructor
  · rintro ⟨b | b, s₁, hx, hf⟩
    · obtain ⟨rfl, rfl⟩ := hf
      exact .inr ⟨b, rfl, hx⟩
    · exact .inl ⟨b, s₁, hx, hf⟩
  · rintro (⟨b, s₁, hx, hf⟩ | ⟨e, rfl, hx⟩)
    · exact ⟨.ok b, s₁, hx, hf⟩
    · exact ⟨.error e, s', hx, rfl, rfl⟩

/-- A value comes from values alone. -/
theorem run_bind_ok {x : Action Op ε β} {f : β → Action Op ε α} {a : α} :
    Evals exec fallible (x >>= f).run s (.ok a) s' ↔
      ∃ b s₁, Evals exec fallible x.run s (.ok b) s₁ ∧
        Evals exec fallible (f b).run s₁ (.ok a) s' := by
  rw [run_bind]
  constructor
  · rintro (h | ⟨e, he, -⟩)
    · exact h
    · cases he
  · exact .inl

theorem run_tryCatch {x : Action Op ε α} {f : ε → Action Op ε α} {r : Except ε α} :
    Evals exec fallible (tryCatch x f).run s r s' ↔
      (∃ a, r = .ok a ∧ Evals exec fallible x.run s (.ok a) s') ∨
      ∃ e s₁, Evals exec fallible x.run s (.error e) s₁ ∧
        Evals exec fallible (f e).run s₁ r s' := by
  rw [Action.run_tryCatch, bind]
  constructor
  · rintro ⟨e | a, s₁, hx, hf⟩
    · exact .inr ⟨e, s₁, hx, hf⟩
    · obtain ⟨rfl, rfl⟩ := hf
      exact .inl ⟨a, rfl, hx⟩
  · rintro (⟨a, rfl, hx⟩ | ⟨e, s₁, hx, hf⟩)
    · exact ⟨.ok a, s', hx, rfl, rfl⟩
    · exact ⟨.error e, s₁, hx, hf⟩

theorem run_perform {thrown : ε} {op : Op α} {r : Except ε α} :
    Evals exec fallible (Action.perform thrown op).run s r s' ↔
      (∃ a, r = .ok a ∧ exec α op s a s') ∨
      fallible α op ∧ r = .error thrown ∧ s' = s := by
  constructor
  · rintro (⟨a, s₁, hexec, rfl, rfl⟩ | ⟨hfails, rfl, rfl⟩)
    · exact .inl ⟨a, rfl, hexec⟩
    · exact .inr ⟨hfails, rfl, rfl⟩
  · rintro (⟨a, rfl, hexec⟩ | ⟨hfails, rfl, rfl⟩)
    · exact .inl ⟨a, s', hexec, rfl, rfl⟩
    · exact .inr ⟨hfails, rfl, rfl⟩

theorem run_perform_ok {thrown : ε} {op : Op α} {a : α} :
    Evals exec fallible (Action.perform thrown op).run s (.ok a) s' ↔ exec α op s a s' := by
  rw [run_perform]
  constructor
  · rintro (⟨b, hb, hexec⟩ | ⟨-, h, -⟩)
    · cases hb
      exact hexec
    · cases h
  · intro h
    exact .inl ⟨a, rfl, h⟩

end Evals

end Interleaving
