import BookLibrary.Interleaving.Lifting
import BookLibrary.Interleaving.Memory

/-!
# Traces of programs on their own

A program that runs from start to end on a state nobody else touches, with the calls that
it issued and how each of them went. What its traces lead to is shown on a view of the
state and of the calls.
-/

namespace Interleaving

variable {Op : Type → Type} {σ V E Choice α β ε M : Type}

/-- How a call went: it answered, or it threw and may have been applied all the same. -/
inductive Outcome (β : Type) where
  | answered (b : β)
  | threw (applied : Option β)

namespace Outcome

/-- What the caller is handed. -/
def answer : Outcome β → Option β
  | .answered b => some b
  | .threw _ => none

/-- What the call has come to, whether the caller hears of it or not. -/
def applied : Outcome β → Option β
  | .answered b => some b
  | .threw r => r

def isThrown : Outcome β → Bool
  | .answered _ => false
  | .threw _ => true

end Outcome

/-- A call that was issued, and how it went. -/
structure Step (Op : Type → Type) where
  {β : Type}
  op : Op β
  outcome : Outcome β

section Traces

variable (exec : (β : Type) → Op β → σ → β → σ → Prop) (fallible : (β : Type) → Op β → Prop)

/-- The call may go so, taking the state `s` to `s'`. -/
def Goes (op : Op β) (s : σ) : Outcome β → σ → Prop
  | .answered b, s' => exec β op s b s'
  | .threw none, s' => fallible β op ∧ s' = s
  | .threw (some b), s' => fallible β op ∧ exec β op s b s'

/-- `p` may issue the calls `l` and end with `a`, taking the state `s` to `s'`. -/
def Traces : Prog Op α → σ → List (Step Op) → α → σ → Prop
  | .done b, s, l, a, s' => l = [] ∧ a = b ∧ s' = s
  | .call op next, s, l, a, s' => ∃ o s₁ rest, l = ⟨op, o⟩ :: rest ∧ Goes exec fallible op s o s₁ ∧
      Traces (next o.answer) s₁ rest a s'

variable (see : Step Op → Option E) (At : V → σ → Prop)

/-- From a state that is seen as `v`, every trace of `p` ends in one that is seen again,
and is as `Q` says of what is seen of its calls. -/
def Leads (p : Prog Op α) (v : V) (Q : List E → α → V → Prop) : Prop :=
  ∀ s, At v s → ∀ l a s', Traces exec fallible p s l a s' →
    ∃ v', At v' s' ∧ Q (l.filterMap see) a v'

end Traces

variable {exec : (β : Type) → Op β → σ → β → σ → Prop} {fallible : (β : Type) → Op β → Prop}

theorem Goes.applied {op : Op β} {s s' : σ} {o : Outcome β} (h : Goes exec fallible op s o s') :
    (o.applied = none ∧ s' = s) ∨ ∃ b, o.applied = some b ∧ exec β op s b s' := by
  rcases o with b | r
  · exact .inr ⟨b, rfl, h⟩
  · cases r with
    | none => exact .inl ⟨rfl, h.2⟩
    | some b => exact .inr ⟨b, rfl, h.2⟩

/-- A trace of two programs in sequence is a trace of the one and then of the other. -/
theorem traces_bind {p : Prog Op β} {f : β → Prog Op α} {s s' : σ} {l : List (Step Op)} {a : α}
    (h : Traces exec fallible (p >>= f) s l a s') :
    ∃ b s₁ l₁ l₂, Traces exec fallible p s l₁ b s₁ ∧ Traces exec fallible (f b) s₁ l₂ a s' ∧
      l = l₁ ++ l₂ := by
  induction p generalizing s l with
  | done b => exact ⟨b, s, [], l, ⟨rfl, rfl, rfl⟩, h, rfl⟩
  | call op next ih =>
    obtain ⟨o, s₁, rest, rfl, hgoes, hrest⟩ := h
    obtain ⟨b, s₂, l₁, l₂, hp, hf, rfl⟩ := ih o.answer hrest
    exact ⟨b, s₂, ⟨op, o⟩ :: l₁, l₂, ⟨o, s₁, l₁, rfl, hgoes, hp⟩, hf, rfl⟩

/-- The first action throws, or the second goes on from what it returns. -/
theorem traces_run_bind {x : Action Op ε β} {f : β → Action Op ε α} {s s' : σ}
    {l : List (Step Op)} {r : Except ε α} (h : Traces exec fallible (x >>= f).run s l r s') :
    (∃ e, r = .error e ∧ Traces exec fallible x.run s l (.error e) s') ∨
      ∃ b s₁ l₁ l₂, Traces exec fallible x.run s l₁ (.ok b) s₁ ∧
        Traces exec fallible (f b).run s₁ l₂ r s' ∧ l = l₁ ++ l₂ := by
  obtain ⟨b, s₁, l₁, l₂, hx, hf, rfl⟩ := traces_bind (f := ExceptT.bindCont f) h
  cases b with
  | ok b => exact .inr ⟨b, s₁, l₁, l₂, hx, hf, rfl⟩
  | error e =>
    obtain ⟨rfl, rfl, rfl⟩ := hf
    rw [List.append_nil]
    exact .inl ⟨e, rfl, hx⟩

/-- Traces of two programs make one of the sequence. -/
theorem Traces.bind {p : Prog Op β} {f : β → Prog Op α} {s s₁ s' : σ} {l₁ l₂ : List (Step Op)}
    {b : β} {a : α} (hp : Traces exec fallible p s l₁ b s₁)
    (hf : Traces exec fallible (f b) s₁ l₂ a s') :
    Traces exec fallible (p >>= f) s (l₁ ++ l₂) a s' := by
  induction p generalizing s l₁ with
  | done b' =>
    obtain ⟨rfl, rfl, rfl⟩ := hp
    exact hf
  | call op next ih =>
    obtain ⟨o, s₂, rest, rfl, hgoes, hrest⟩ := hp
    exact ⟨o, s₂, rest ++ l₂, rfl, hgoes, ih o.answer hrest⟩

theorem Traces.run_bind {x : Action Op ε β} {f : β → Action Op ε α} {s s₁ s' : σ}
    {l₁ l₂ : List (Step Op)} {b : β} {r : Except ε α}
    (hx : Traces exec fallible x.run s l₁ (.ok b) s₁)
    (hf : Traces exec fallible (f b).run s₁ l₂ r s') :
    Traces exec fallible (x >>= f).run s (l₁ ++ l₂) r s' :=
  Traces.bind (f := ExceptT.bindCont f) hx hf

theorem Traces.run_tryCatch {x : Action Op ε α} {f : ε → Action Op ε α} {s s' : σ}
    {l : List (Step Op)} {a : α} (hx : Traces exec fallible x.run s l (.ok a) s') :
    Traces exec fallible (tryCatch x f).run s l (.ok a) s' := by
  rw [Action.run_tryCatch, ← List.append_nil l]
  exact Traces.bind hx ⟨rfl, rfl, rfl⟩

namespace Leads

variable {see : Step Op → Option E} {At : V → σ → Prop} {v : V}

section Prog

variable {Q Q' : List E → α → V → Prop} {p : Prog Op α}

theorem done {a : α} (h : Q [] a v) : Leads exec fallible see At (.done a) v Q := by
  rintro s hs _ _ _ ⟨rfl, rfl, rfl⟩
  exact ⟨v, hs, h⟩

/-- One call, and then the rest of the program on what is seen of the state by then. -/
theorem call {op : Op β} {next : Option β → Prog Op α}
    (h : ∀ s, At v s → ∀ o s₁, Goes exec fallible op s o s₁ → ∃ v₁, At v₁ s₁ ∧
      Leads exec fallible see At (next o.answer) v₁ fun l => Q ((see ⟨op, o⟩).toList ++ l)) :
    Leads exec fallible see At (.call op next) v Q := by
  rintro s hs _ a s' ⟨o, s₁, rest, rfl, hgoes, hrest⟩
  obtain ⟨v₁, hv₁, hnext⟩ := h s hs o s₁ hgoes
  obtain ⟨v', hv', hQ⟩ := hnext s₁ hv₁ rest a s' hrest
  refine ⟨v', hv', ?_⟩
  rw [List.filterMap_cons]
  cases hsee : see ⟨op, o⟩ with
  | none => simpa [hsee] using hQ
  | some e => simpa [hsee] using hQ

theorem mono (hp : Leads exec fallible see At p v Q) (h : ∀ l a v', Q l a v' → Q' l a v') :
    Leads exec fallible see At p v Q' := by
  intro s hs l a s' ht
  obtain ⟨v', hv', hQ⟩ := hp s hs l a s' ht
  exact ⟨v', hv', h _ _ _ hQ⟩

/-- Where every state is seen, nothing is to be shown of a program to ask for nothing. -/
theorem vacuous (h : ∀ s, ∃ v', At v' s) : Leads exec fallible see At p v fun _ _ _ => True := by
  intro s _ l a s' _
  obtain ⟨v', hv'⟩ := h s'
  exact ⟨v', hv', trivial⟩

/-- What is shown on one view is so of the state itself. -/
theorem exact {s : σ} (hp : Leads exec fallible see At p v Q) (hs : At v s) :
    Leads exec fallible see (fun s₁ s₂ => s₂ = s₁) p s
      fun l a s' => ∃ v', At v' s' ∧ Q l a v' := by
  rintro _ rfl l a s' ht
  exact ⟨s', rfl, hp _ hs l a s' ht⟩

end Prog

theorem bind {R : List E → β → V → Prop} {Q : List E → α → V → Prop} {p : Prog Op β}
    {f : β → Prog Op α} (hp : Leads exec fallible see At p v R)
    (hf : ∀ l b v₁, R l b v₁ → Leads exec fallible see At (f b) v₁ fun l' => Q (l ++ l')) :
    Leads exec fallible see At (p >>= f) v Q := by
  intro s hs l a s' ht
  obtain ⟨b, s₁, l₁, l₂, hp', hf', rfl⟩ := traces_bind ht
  obtain ⟨v₁, hv₁, hR⟩ := hp s hs l₁ b s₁ hp'
  obtain ⟨v', hv', hQ⟩ := hf _ b v₁ hR s₁ hv₁ l₂ a s' hf'
  refine ⟨v', hv', ?_⟩
  rw [List.filterMap_append]
  exact hQ

section Action

variable {Q : List E → Except ε α → V → Prop}

theorem run_pure {a : α} (h : Q [] (.ok a) v) :
    Leads exec fallible see At (pure a : Action Op ε α).run v Q := done h

theorem run_throw {e : ε} (h : Q [] (.error e) v) :
    Leads exec fallible see At (throw e : Action Op ε α).run v Q := done h

theorem run_bind {R : List E → Except ε β → V → Prop} {x : Action Op ε β} {f : β → Action Op ε α}
    (hx : Leads exec fallible see At x.run v R)
    (hok : ∀ l b v₁, R l (.ok b) v₁ →
      Leads exec fallible see At (f b).run v₁ fun l' => Q (l ++ l'))
    (herr : ∀ l e v₁, R l (.error e) v₁ → Q l (.error e) v₁) :
    Leads exec fallible see At (x >>= f).run v Q := by
  refine bind (f := ExceptT.bindCont f) hx fun l r v₁ hR => ?_
  cases r with
  | ok b => exact hok l b v₁ hR
  | error e =>
    refine done ?_
    rw [List.append_nil]
    exact herr l e v₁ hR

theorem run_tryCatch {R : List E → Except ε α → V → Prop} {x : Action Op ε α}
    {f : ε → Action Op ε α} (hx : Leads exec fallible see At x.run v R)
    (hok : ∀ l a v₁, R l (.ok a) v₁ → Q l (.ok a) v₁)
    (herr : ∀ l e v₁, R l (.error e) v₁ →
      Leads exec fallible see At (f e).run v₁ fun l' => Q (l ++ l')) :
    Leads exec fallible see At (tryCatch x f).run v Q := by
  rw [Action.run_tryCatch]
  refine bind hx fun l r v₁ hR => ?_
  cases r with
  | ok a =>
    refine done ?_
    rw [List.append_nil]
    exact hok l a v₁ hR
  | error e => exact herr l e v₁ hR

/-- One call, whose failure raises `thrown`. -/
theorem run_perform {thrown : ε} {op : Op α}
    (h : ∀ s, At v s → ∀ o s₁, Goes exec fallible op s o s₁ → ∃ v₁, At v₁ s₁ ∧
      Q (see ⟨op, o⟩).toList (o.answer.elim (.error thrown) .ok) v₁) :
    Leads exec fallible see At (Action.perform thrown op).run v Q := by
  refine call fun s hs o s₁ hgoes => ?_
  obtain ⟨v₁, hv₁, hQ⟩ := h s hs o s₁ hgoes
  refine ⟨v₁, hv₁, ?_⟩
  cases o with
  | answered b => exact done (by rwa [List.append_nil])
  | threw r => exact done (by rwa [List.append_nil])

theorem run_ite {c : Prop} [Decidable c] {x y : Action Op ε α}
    (hx : c → Leads exec fallible see At x.run v Q)
    (hy : ¬ c → Leads exec fallible see At y.run v Q) :
    Leads exec fallible see At (if c then x else y).run v Q := by
  by_cases h : c
  · rw [if_pos h]
    exact hx h
  · rw [if_neg h]
    exact hy h

end Action

section Lift

variable {Op' : Type → Type} {σ' R ε' : Type} {exec' : (β : Type) → Op' β → σ' → β → σ' → Prop}
  {fallible' : (β : Type) → Op' β → Prop} {see' : Step Op' → Option E} {At' : V → σ' → Prop}
  {f : {β : Type} → Op β → Op' β} {part : σ' → σ} {rest : σ' → R} {c : R}

/-- What a program leads to on its part of a larger state, the rest of which it leaves alone. -/
theorem lift {Q : List E → α → V → Prop} {p : Prog Op α}
    (hAt : ∀ v s, At' v s ↔ At v (part s) ∧ rest s = c)
    (hexec : ∀ {β : Type} {op : Op β} {s s' : σ'} {b : β}, exec' β (f op) s b s' →
      exec β op (part s) b (part s') ∧ rest s' = rest s)
    (hfallible : ∀ {β : Type} {op : Op β}, fallible' β (f op) → fallible β op)
    (hsee : ∀ {β : Type} (op : Op β) (o : Outcome β), see' ⟨f op, o⟩ = see ⟨op, o⟩)
    (hp : Leads exec fallible see At p v Q) : Leads exec' fallible' see' At' (p.lift f) v Q := by
  have traced : ∀ (p : Prog Op α) s l a s', Traces exec' fallible' (p.lift f) s l a s' →
      ∃ l₀, Traces exec fallible p (part s) l₀ a (part s') ∧ rest s' = rest s ∧
        l₀.filterMap see = l.filterMap see' := by
    intro p
    induction p with
    | done b =>
      rintro s _ _ _ ⟨rfl, rfl, rfl⟩
      exact ⟨[], ⟨rfl, rfl, rfl⟩, rfl, rfl⟩
    | call op next ih =>
      rintro s _ a s' ⟨o, s₁, steps, rfl, hgoes, hsteps⟩
      have hgoes' : Goes exec fallible op (part s) o (part s₁) ∧ rest s₁ = rest s := by
        rcases o with b | r
        · exact hexec hgoes
        · cases r with
          | none => exact ⟨⟨hfallible hgoes.1, congrArg part hgoes.2⟩, congrArg rest hgoes.2⟩
          | some b => exact ⟨⟨hfallible hgoes.1, (hexec hgoes.2).1⟩, (hexec hgoes.2).2⟩
      obtain ⟨l₀, htraces, hrest, hseen⟩ := ih o.answer s₁ steps a s' hsteps
      refine ⟨⟨op, o⟩ :: l₀, ⟨o, part s₁, l₀, rfl, hgoes'.1, htraces⟩, hrest.trans hgoes'.2, ?_⟩
      rw [List.filterMap_cons, List.filterMap_cons, hsee, hseen]
  intro s hs l a s' ht
  obtain ⟨hpart, hc⟩ := (hAt v s).mp hs
  obtain ⟨l₀, htraces, hrest, hseen⟩ := traced p s l a s' ht
  obtain ⟨v', hv', hQ⟩ := hp _ hpart l₀ a _ htraces
  rw [← hseen]
  exact ⟨v', (hAt v' s').mpr ⟨hv', hrest.trans hc⟩, hQ⟩

theorem run_lift {Q : List E → Except ε α → V → Prop} {Q' : List E → Except ε' α → V → Prop}
    {g : ε → ε'} {x : Action Op ε α} (part : σ' → σ) (rest : σ' → R) (c : R)
    (hAt : ∀ v s, At' v s ↔ At v (part s) ∧ rest s = c)
    (hexec : ∀ {β : Type} {op : Op β} {s s' : σ'} {b : β}, exec' β (f op) s b s' →
      exec β op (part s) b (part s') ∧ rest s' = rest s)
    (hfallible : ∀ {β : Type} {op : Op β}, fallible' β (f op) → fallible β op)
    (hsee : ∀ {β : Type} (op : Op β) (o : Outcome β), see' ⟨f op, o⟩ = see ⟨op, o⟩)
    (hx : Leads exec fallible see At x.run v Q) (hQ : ∀ l r v', Q l r v' → Q' l (r.mapError g) v') :
    Leads exec' fallible' see' At' (Action.lift f g x).run v Q' := by
  refine bind (hx.lift hAt hexec hfallible hsee) fun l r v' hr => done ?_
  rw [List.append_nil]
  exact hQ l r v' hr

end Lift

section Keeping

variable {Q : List E → Except ε α × M → V → Prop} {m : M}

theorem keeping_bind {R : List E → Except ε β × M → V → Prop} {x : Keeping Op M ε β}
    {f : β → Keeping Op M ε α} (hx : Leads exec fallible see At (x.runFrom m) v R)
    (hok : ∀ l b m' v₁, R l (.ok b, m') v₁ →
      Leads exec fallible see At ((f b).runFrom m') v₁ fun l' => Q (l ++ l'))
    (herr : ∀ l e m' v₁, R l (.error e, m') v₁ → Q l (.error e, m') v₁) :
    Leads exec fallible see At ((x >>= f).runFrom m) v Q := by
  rw [Keeping.runFrom_bind]
  refine bind hx fun l r v₁ hR => ?_
  obtain ⟨e | b, m'⟩ := r
  · refine done ?_
    rw [List.append_nil]
    exact herr l e m' v₁ hR
  · exact hok l b m' v₁ hR

theorem keeping_tryCatch {R : List E → Except ε α × M → V → Prop} {x : Keeping Op M ε α}
    {f : ε → Keeping Op M ε α} (hx : Leads exec fallible see At (x.runFrom m) v R)
    (hok : ∀ l a m' v₁, R l (.ok a, m') v₁ → Q l (.ok a, m') v₁)
    (herr : ∀ l e m' v₁, R l (.error e, m') v₁ →
      Leads exec fallible see At ((f e).runFrom m') v₁ fun l' => Q (l ++ l')) :
    Leads exec fallible see At ((tryCatch x f).runFrom m) v Q := by
  rw [Keeping.runFrom_tryCatch]
  refine bind hx fun l r v₁ hR => ?_
  obtain ⟨e | a, m'⟩ := r
  · exact herr l e m' v₁ hR
  · refine done ?_
    rw [List.append_nil]
    exact hok l a m' v₁ hR

theorem keeping_lift {R : List E → Except ε α → V → Prop} {x : Action Op ε α}
    (hx : Leads exec fallible see At x.run v R) (h : ∀ l r v₁, R l r v₁ → Q l (r, m) v₁) :
    Leads exec fallible see At ((liftM x : Keeping Op M ε α).runFrom m) v Q := by
  rw [Keeping.runFrom_lift]
  refine bind hx fun l r v₁ hR => done ?_
  rw [List.append_nil]
  exact h l r v₁ hR

theorem keeping_lift_bind {R : List E → Except ε β → V → Prop} {x : Action Op ε β}
    {f : β → Keeping Op M ε α} (hx : Leads exec fallible see At x.run v R)
    (hok : ∀ l b v₁, R l (.ok b) v₁ →
      Leads exec fallible see At ((f b).runFrom m) v₁ fun l' => Q (l ++ l'))
    (herr : ∀ l e v₁, R l (.error e) v₁ → Q l (.error e, m) v₁) :
    Leads exec fallible see At (((liftM x : Keeping Op M ε β) >>= f).runFrom m) v Q := by
  refine keeping_bind (R := fun l r v₁ => r.2 = m ∧ R l r.1 v₁)
    (keeping_lift hx fun l r v₁ h => ⟨rfl, h⟩) ?_ ?_
  · rintro l b m' v₁ ⟨hm', h⟩
    obtain rfl : m' = m := hm'
    exact hok l b v₁ h
  · rintro l e m' v₁ ⟨hm', h⟩
    obtain rfl : m' = m := hm'
    exact herr l e v₁ h

theorem keeping_throw {e : ε} (h : Q [] (.error e, m) v) :
    Leads exec fallible see At ((throw e : Keeping Op M ε α).runFrom m) v Q := done h

theorem keeping_pure {a : α} (h : Q [] (.ok a, m) v) :
    Leads exec fallible see At ((pure a : Keeping Op M ε α).runFrom m) v Q := done h

/-- A program with a memory of its own, within one that has none. -/
theorem run_keep {R : List E → Except ε Unit × M → V → Prop} {Q : List E → Except ε M → V → Prop}
    {x : Keeping Op M ε Unit} (hx : Leads exec fallible see At (x.runFrom m) v R)
    (h : ∀ l r v₁, R l r v₁ → Q l (r.1.map fun _ => r.2) v₁) :
    Leads exec fallible see At (Keeping.keep m x).run v Q := by
  refine bind hx fun l r v₁ hR => done ?_
  rw [List.append_nil]
  exact h l r v₁ hR

end Keeping

end Leads

section Execution

/-- What befalls a call: it answers, is lost, or throws when it has been applied. -/
inductive Fate (Choice : Type) where
  | reply (x : Choice)
  | lose
  | raise (x : Choice)

/-- `Goes` as a function. -/
def befall (run : (β : Type) → Op β → σ → Choice → Option (β × σ)) (fails : (β : Type) → Op β → Bool)
    (op : Op β) (s : σ) : Fate Choice → Option (Outcome β × σ)
  | .reply x => (run β op s x).map fun (b, s₁) => (.answered b, s₁)
  | .lose => if fails β op then some (.threw none, s) else none
  | .raise x => if fails β op then (run β op s x).map fun (b, s₁) => (.threw (some b), s₁) else none

/-- The trace of `p` whose calls meet the `fates`, and answer once these have run out. -/
def trace (run : (β : Type) → Op β → σ → Choice → Option (β × σ)) (fails : (β : Type) → Op β → Bool)
    (x : Choice) : List (Fate Choice) → Prog Op α → σ → Option (List (Step Op) × α × σ)
  | _, .done a, s => some ([], a, s)
  | fates, .call op next, s =>
    (befall run fails op s (fates.headD (.reply x))).bind fun (o, s₁) =>
      (trace run fails x fates.tail (next o.answer) s₁).map fun (l, r) => (⟨op, o⟩ :: l, r)

variable {run : (β : Type) → Op β → σ → Choice → Option (β × σ)} {fails : (β : Type) → Op β → Bool}
  (hrun : ∀ {β op s x b s'}, run β op s x = some (b, s') → exec β op s b s')
  (hfails : ∀ {β op}, fails β op = true → fallible β op)

include hrun hfails

theorem goes_of_befall {op : Op β} {s s' : σ} {fate : Fate Choice} {o : Outcome β}
    (h : befall run fails op s fate = some (o, s')) : Goes exec fallible op s o s' := by
  cases fate with
  | reply x =>
    obtain ⟨⟨b, s₁⟩, hb, heq⟩ := Option.map_eq_some_iff.mp h
    cases heq
    exact hrun hb
  | lose =>
    by_cases hf : fails β op = true
    · rw [befall, if_pos hf] at h
      cases h
      exact ⟨hfails hf, rfl⟩
    · rw [befall, if_neg hf] at h
      cases h
  | raise x =>
    by_cases hf : fails β op = true
    · rw [befall, if_pos hf] at h
      obtain ⟨⟨b, s₁⟩, hb, heq⟩ := Option.map_eq_some_iff.mp h
      cases heq
      exact ⟨hfails hf, hrun hb⟩
    · rw [befall, if_neg hf] at h
      cases h

theorem traces_of_trace {x : Choice} {fates : List (Fate Choice)} {p : Prog Op α} {s s' : σ}
    {l : List (Step Op)} {a : α} (h : trace run fails x fates p s = some (l, a, s')) :
    Traces exec fallible p s l a s' := by
  induction p generalizing fates s l with
  | done b =>
    cases h
    exact ⟨rfl, rfl, rfl⟩
  | call op next ih =>
    obtain ⟨⟨o, s₁⟩, hgoes, hrest⟩ := Option.bind_eq_some_iff.mp h
    obtain ⟨⟨rest, r⟩, htrace, heq⟩ := Option.map_eq_some_iff.mp hrest
    cases heq
    exact ⟨o, s₁, rest, rfl, goes_of_befall hrun hfails hgoes, ih _ htrace⟩

end Execution

end Interleaving
