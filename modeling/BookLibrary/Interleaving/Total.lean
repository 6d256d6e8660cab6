import BookLibrary.Interleaving.Traces

/-!
# Programs that always end

A program on its own of which every call finds an answer: it comes to an end, and however its
calls are answered the end is as it should be. No call fails here.
-/

namespace Interleaving

variable {Op : Type → Type} {α β ε σ : Type}

/-- No call throws. -/
def Unfailing (β : Type) (_ : Op β) : Prop := False

/-- Each call of the program has an answer, and whatever the answers are, it ends as `Q`
says. -/
def Prog.Total (exec : (β : Type) → Op β → σ → β → σ → Prop) (Q : α → σ → Prop) :
    Prog Op α → σ → Prop
  | .done a, s => Q a s
  | @Prog.call _ _ β op next, s => (∃ b s₁, exec β op s b s₁) ∧
      ∀ b s₁, exec β op s b s₁ → (next (some b)).Total exec Q s₁

namespace Prog.Total

variable {exec : (β : Type) → Op β → σ → β → σ → Prop} {Q : α → σ → Prop} {p : Prog Op α} {s : σ}

theorem bind {R : β → σ → Prop} {p : Prog Op β} {f : β → Prog Op α} (hp : p.Total exec R s)
    (hf : ∀ b s₁, R b s₁ → (f b).Total exec Q s₁) : (p >>= f).Total exec Q s := by
  induction p generalizing s with
  | done b => exact hf b s hp
  | call op next ih => exact ⟨hp.1, fun b s₁ hb => ih (some b) (hp.2 b s₁ hb)⟩

/-- The program has a run, -/
theorem exists_traces (h : p.Total exec Q s) : ∃ l a s', Traces exec Unfailing p s l a s' := by
  induction p generalizing s with
  | done a => exact ⟨[], a, s, rfl, rfl, rfl⟩
  | call op next ih =>
    obtain ⟨⟨b, s₁, hb⟩, hnext⟩ := h
    obtain ⟨l, a, s', hrest⟩ := ih (some b) (hnext b s₁ hb)
    exact ⟨⟨op, .answered b⟩ :: l, a, s', .answered b, s₁, l, rfl, hb, hrest⟩

/-- and all its runs end so. -/
theorem of_traces (h : p.Total exec Q s) {l : List (Step Op)} {a : α} {s' : σ}
    (ht : Traces exec Unfailing p s l a s') : Q a s' := by
  induction p generalizing s l with
  | done b =>
    obtain ⟨-, rfl, rfl⟩ := ht
    exact h
  | call op next ih =>
    obtain ⟨o, s₁, rest, -, hgoes, hrest⟩ := ht
    cases o with
    | answered b => exact ih (some b) (h.2 b s₁ hgoes) hrest
    | threw r => cases r <;> exact hgoes.1.elim

section Actions

variable {R : Except ε α → σ → Prop}

theorem run_pure {a : α} (h : R (.ok a) s) : (pure a : Action Op ε α).run.Total exec R s := h

/-- One call, which is answered. -/
theorem run_perform {f : β → Action Op ε α} {op : Op β} {next : Option β → Prog Op (Except ε β)}
    (hnext : ∀ b, next (some b) = .done (.ok b)) (hanswer : ∃ b s₁, exec β op s b s₁)
    (hf : ∀ b s₁, exec β op s b s₁ → (f b).run.Total exec R s₁) :
    ((ExceptT.mk (.call op next) : Action Op ε β) >>= f).run.Total exec R s := by
  refine Prog.Total.bind (f := ExceptT.bindCont f) (R := fun r s₁ => ∃ b, r = .ok b ∧
    exec β op s b s₁) ⟨hanswer, fun b s₁ hb => ?_⟩ ?_
  · rw [hnext]
    exact ⟨b, rfl, hb⟩
  · rintro _ s₁ ⟨b, rfl, hb⟩
    exact hf b s₁ hb

theorem run_ite {c : Prop} [Decidable c] {x y : Action Op ε α} (hx : c → x.run.Total exec R s)
    (hy : ¬ c → y.run.Total exec R s) : (if c then x else y).run.Total exec R s := by
  by_cases h : c
  · rw [if_pos h]
    exact hx h
  · rw [if_neg h]
    exact hy h

end Actions

end Prog.Total

/-- A run without failures is a run where calls may fail. -/
theorem Traces.mono {exec : (β : Type) → Op β → σ → β → σ → Prop}
    {fallible : (β : Type) → Op β → Prop} {p : Prog Op α} {s s' : σ} {l : List (Step Op)} {a : α}
    (h : Traces exec Unfailing p s l a s') : Traces exec fallible p s l a s' := by
  induction p generalizing s l with
  | done b => exact h
  | call op next ih =>
    obtain ⟨o, s₁, rest, hl, hgoes, hrest⟩ := h
    cases o with
    | answered b => exact ⟨.answered b, s₁, rest, hl, hgoes, ih (some b) hrest⟩
    | threw r => cases r <;> exact hgoes.1.elim

end Interleaving
