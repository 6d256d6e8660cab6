import BookLibrary.Interleaving.Traces
import BookLibrary.Interleaving.Walks

/-!
# Programs that leave a view alone

A program on its own none of whose calls changes what is seen of the state. What the calls
show is judged one by one, and what is known of an answer is used in the rest.
-/

namespace Interleaving

variable {Op : Type → Type} {σ V E α β ε : Type}
  {exec : (β : Type) → Op β → σ → β → σ → Prop} {fallible : (β : Type) → Op β → Prop}
  {see : Step Op → Option E} {At : V → σ → Prop} {v : V}

theorem Prog.confined_any (p : Prog Op α) : p.Confined fun _ _ => True := by
  induction p with
  | done a => trivial
  | call op next ih => exact ⟨trivial, ih⟩

/-- What survives every call survives a program. -/
theorem Traces.keeps {P : σ → Prop} {p : Prog Op α} {s s' : σ} {l : List (Step Op)} {a : α}
    (hP : ∀ {β : Type} {op : Op β} {s s' : σ} {b : β}, P s → exec β op s b s' → P s')
    (h : Traces exec fallible p s l a s') (hs : P s) : P s' := by
  induction p generalizing s l with
  | done b =>
    obtain ⟨-, -, rfl⟩ := h
    exact hs
  | call op next ih =>
    obtain ⟨o, s₁, rest, -, hgoes, hrest⟩ := h
    refine ih _ hrest ?_
    rcases hgoes.applied with ⟨-, rfl⟩ | ⟨b, -, hexec⟩
    · exact hs
    · exact hP hs hexec

/-- A program confined to calls that show nothing and change nothing of the view. -/
theorem Leads.of_confined {P : (β : Type) → Op β → Prop} {p : Prog Op α}
    (hP : ∀ {β : Type} {op : Op β}, P β op → ∀ s, At v s → ∀ o s₁, Goes exec fallible op s o s₁ →
      At v s₁ ∧ see ⟨op, o⟩ = none)
    (hp : p.Confined P) : Leads exec fallible see At p v fun l _ v' => l = [] ∧ v' = v := by
  induction p with
  | done a => exact done ⟨rfl, rfl⟩
  | call op next ih =>
    refine call fun s hs o s₁ hgoes => ?_
    obtain ⟨hs₁, hsee⟩ := hP hp.1 s hs o s₁ hgoes
    refine ⟨v, hs₁, (ih _ (hp.2 _)).mono fun l a v' h => ?_⟩
    rw [hsee]
    exact h

/-- Nothing is seen of calls that show nothing. -/
theorem Leads.blind {Q : List E → α → V → Prop} {p : Prog Op α}
    (hp : Leads exec fallible see At p v Q) (hsee : ∀ step, see step = none) :
    Leads exec fallible see At p v fun l a v' => l = [] ∧ Q l a v' := by
  intro s hs l a s' ht
  obtain ⟨v', hv', hQ⟩ := hp s hs l a s' ht
  refine ⟨v', hv', ?_, hQ⟩
  exact List.filterMap_eq_nil_iff.mpr fun step _ => hsee step

variable (exec fallible see At) in
/-- Every trace of `x` leaves the view as it was; all that is seen of its calls is a `G`, and
what it returns is an `R`. -/
def Steady (G : E → Prop) (v : V) (x : Action Op ε α) (R : α → Prop) : Prop :=
  Leads exec fallible see At x.run v fun l r v' =>
    v' = v ∧ (∀ e ∈ l, G e) ∧ ∀ a, r = .ok a → R a

namespace Steady

variable {G : E → Prop} {R : α → Prop}

theorem pure {a : α} (h : R a) :
    Steady exec fallible see At G v (Pure.pure a : Action Op ε α) R := by
  refine Leads.run_pure ⟨rfl, nofun, ?_⟩
  rintro _ ⟨⟩
  exact h

theorem throw {e : ε} :
    Steady exec fallible see At G v (MonadExcept.throw e : Action Op ε α) R :=
  Leads.run_throw ⟨rfl, nofun, nofun⟩

theorem mono {Q : α → Prop} {x : Action Op ε α} (hx : Steady exec fallible see At G v x R)
    (h : ∀ a, R a → Q a) : Steady exec fallible see At G v x Q :=
  Leads.mono hx fun _ _ _ hr => ⟨hr.1, hr.2.1, fun a ha => h a (hr.2.2 a ha)⟩

theorem bind {Q : β → Prop} {x : Action Op ε β} {f : β → Action Op ε α}
    (hx : Steady exec fallible see At G v x Q)
    (hf : ∀ b, Q b → Steady exec fallible see At G v (f b) R) :
    Steady exec fallible see At G v (x >>= f) R := by
  refine Leads.run_bind hx (fun l b v₁ h => ?_) fun l e v₁ h => ⟨h.1, h.2.1, nofun⟩
  obtain ⟨rfl, hl, hb⟩ := h
  refine Leads.mono (hf b (hb b rfl)) fun l' r v' h' => ⟨h'.1, fun e he => ?_, h'.2.2⟩
  rcases List.mem_append.mp he with he | he
  · exact hl e he
  · exact h'.2.1 e he

theorem tryCatch {x : Action Op ε α} {f : ε → Action Op ε α}
    (hx : Steady exec fallible see At G v x R) (hf : ∀ e, Steady exec fallible see At G v (f e) R) :
    Steady exec fallible see At G v (MonadExcept.tryCatch x f) R := by
  refine Leads.run_tryCatch hx (fun l a v₁ h => h) fun l e v₁ h => ?_
  obtain ⟨rfl, hl, -⟩ := h
  refine Leads.mono (hf e) fun l' r v' h' => ⟨h'.1, fun x hx => ?_, h'.2.2⟩
  rcases List.mem_append.mp hx with hx | hx
  · exact hl x hx
  · exact h'.2.1 x hx

theorem ite {c : Prop} [Decidable c] {x y : Action Op ε α}
    (hx : c → Steady exec fallible see At G v x R)
    (hy : ¬ c → Steady exec fallible see At G v y R) :
    Steady exec fallible see At G v (if c then x else y) R := Leads.run_ite hx hy

theorem of_confined {P : (β : Type) → Op β → Prop} {x : Action Op ε α}
    (hP : ∀ {β : Type} {op : Op β}, P β op → ∀ s, At v s → ∀ o s₁, Goes exec fallible op s o s₁ →
      At v s₁ ∧ see ⟨op, o⟩ = none)
    (hx : x.run.Confined P) : Steady exec fallible see At G v x fun _ => True := by
  refine Leads.mono (Leads.of_confined hP hx) fun l r v' h => ?_
  obtain ⟨rfl, rfl⟩ := h
  exact ⟨rfl, nofun, fun _ _ => trivial⟩

/-- One call, whose failure raises `thrown`. -/
theorem perform {thrown : ε} {op : Op α}
    (h : ∀ s, At v s → ∀ o s₁, Goes exec fallible op s o s₁ → At v s₁ ∧
      (∀ e, see ⟨op, o⟩ = some e → G e) ∧ ∀ a, o.answer = some a → R a) :
    Steady exec fallible see At G v (Action.perform thrown op) R := by
  refine Leads.run_perform fun s hs o s₁ hgoes => ?_
  obtain ⟨hs₁, hG, hR⟩ := h s hs o s₁ hgoes
  refine ⟨v, hs₁, rfl, fun e he => hG e (Option.mem_toList.mp he), fun a ha => ?_⟩
  cases o with
  | answered b =>
    cases ha
    exact hR _ rfl
  | threw r => cases ha

/-- What is seen of an action of a component in the larger system. -/
theorem lift {Op' : Type → Type} {σ' ε' : Type} {exec' : (β : Type) → Op' β → σ' → β → σ' → Prop}
    {fallible' : (β : Type) → Op' β → Prop} {see' : Step Op' → Option E} {At' : V → σ' → Prop}
    {f : {β : Type} → Op β → Op' β} {g : ε → ε'} {x : Action Op ε α} (part : σ' → σ)
    (hAt : ∀ v s, At' v s ↔ At v (part s))
    (hexec : ∀ {β : Type} {op : Op β} {s s' : σ'} {b : β}, exec' β (f op) s b s' →
      exec β op (part s) b (part s'))
    (hfallible : ∀ {β : Type} {op : Op β}, fallible' β (f op) → fallible β op)
    (hsee : ∀ {β : Type} (op : Op β) (o : Outcome β), see' ⟨f op, o⟩ = see ⟨op, o⟩)
    (hx : Steady exec fallible see At G v x R) :
    Steady exec' fallible' see' At' G v (Action.lift f g x) R := by
  refine Leads.run_lift part (fun _ => ()) () (fun v s => (hAt v s).trans (and_iff_left rfl).symm)
    (fun h => ⟨hexec h, rfl⟩) hfallible hsee hx fun l r v' h => ⟨h.1, h.2.1, fun a ha => ?_⟩
  cases r with
  | ok b =>
    cases ha
    exact h.2.2 _ rfl
  | error e => cases ha

end Steady

end Interleaving
