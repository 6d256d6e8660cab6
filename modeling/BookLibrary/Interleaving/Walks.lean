import BookLibrary.Interleaving.Lifting
import BookLibrary.Interleaving.Memory

/-!
# Walks through programs

Two more ways to show that a program conforms: a program that is confined to certain
calls needs no walk of its own, and a program with a memory is walked through with what
holds of its memory.
-/

namespace Interleaving

variable {ι Call : Type} {Op : Type → Type} {S ρ Ev α β γ ε M : Type}
  {P : (β : Type) → Op β → Prop}

namespace Prog

/-- The program issues only calls of the kind `P`, whatever they answer. -/
def Confined (P : (β : Type) → Op β → Prop) : Prog Op α → Prop
  | .done _ => True
  | @Prog.call _ _ β op next => P β op ∧ ∀ r, (next r).Confined P

namespace Confined

theorem bind {p : Prog Op α} {f : α → Prog Op γ} (hp : p.Confined P) (hf : ∀ a, (f a).Confined P) :
    (p >>= f).Confined P := by
  induction p with
  | done a => exact hf a
  | call op next ih => exact ⟨hp.1, fun r => ih r (hp.2 r)⟩

theorem mono {P' : (β : Type) → Op β → Prop} (h : ∀ {β} {op : Op β}, P β op → P' β op)
    {p : Prog Op α} (hp : p.Confined P) : p.Confined P' := by
  induction p with
  | done a => trivial
  | call op next ih => exact ⟨h hp.1, fun r => ih r (hp.2 r)⟩

theorem run_pure {a : α} : (pure a : Action Op ε α).run.Confined P := trivial

theorem run_throw {e : ε} : (throw e : Action Op ε α).run.Confined P := trivial

theorem run_bind {x : Action Op ε β} {f : β → Action Op ε α} (hx : x.run.Confined P)
    (hf : ∀ b, (f b).run.Confined P) : (x >>= f).run.Confined P := by
  refine bind (f := ExceptT.bindCont f) hx fun r => ?_
  cases r with
  | ok b => exact hf b
  | error e => trivial

theorem run_ite {c : Prop} [Decidable c] {x y : Action Op ε α} (hx : c → x.run.Confined P)
    (hy : ¬ c → y.run.Confined P) : (if c then x else y).run.Confined P := by
  by_cases h : c
  · rw [if_pos h]
    exact hx h
  · rw [if_neg h]
    exact hy h

theorem run_tryCatch {x : Action Op ε α} {f : ε → Action Op ε α} (hx : x.run.Confined P)
    (hf : ∀ e, (f e).run.Confined P) : (tryCatch x f).run.Confined P := by
  rw [Action.run_tryCatch]
  refine bind hx fun r => ?_
  cases r with
  | ok a => trivial
  | error e => exact hf e

/-- A program of a component is confined in the system as it is in the component. -/
theorem lift {Op' : Type → Type} {P' : (β : Type) → Op' β → Prop}
    {f : {β : Type} → Op β → Op' β} (h : ∀ β (op : Op β), P β op → P' β (f op)) {p : Prog Op α}
    (hp : p.Confined P) : (p.lift f).Confined P' := by
  induction p with
  | done a => trivial
  | call op next ih => exact ⟨h _ op hp.1, fun r => ih r (hp.2 r)⟩

theorem run_lift {Op' : Type → Type} {P' : (β : Type) → Op' β → Prop} {ε' : Type}
    {f : {β : Type} → Op β → Op' β} {g : ε → ε'} (h : ∀ β (op : Op β), P β op → P' β (f op))
    {x : Action Op ε α} (hx : x.run.Confined P) : (Action.lift f g x).run.Confined P' :=
  bind (lift h hx) fun _ => trivial

theorem run_forM {xs : List β} {f : β → Action Op ε Unit} (h : ∀ x ∈ xs, (f x).run.Confined P) :
    (xs.forM f).run.Confined P := by
  induction xs with
  | nil => exact run_pure
  | cons x xs ih =>
    refine run_bind (h x List.mem_cons_self) fun _ => ?_
    exact ih fun y hy => h y (List.mem_cons_of_mem _ hy)

section Memory

variable {m : M}

theorem runFrom_liftM {x : Action Op ε α} (hx : x.run.Confined P) :
    ((liftM x : Keeping Op M ε α).runFrom m).Confined P := by
  rw [Keeping.runFrom_lift]
  exact bind hx fun _ => trivial

theorem runFrom_bind {x : Keeping Op M ε β} {f : β → Keeping Op M ε α}
    (hx : (x.runFrom m).Confined P) (hf : ∀ b m', ((f b).runFrom m').Confined P) :
    ((x >>= f).runFrom m).Confined P := by
  rw [Keeping.runFrom_bind]
  refine bind hx fun r => ?_
  obtain ⟨r | b, m'⟩ := r
  · trivial
  · exact hf b m'

theorem runFrom_tryCatch {x : Keeping Op M ε α} {f : ε → Keeping Op M ε α}
    (hx : (x.runFrom m).Confined P) (hf : ∀ e m', ((f e).runFrom m').Confined P) :
    ((tryCatch x f).runFrom m).Confined P := by
  rw [Keeping.runFrom_tryCatch]
  refine bind hx fun r => ?_
  obtain ⟨r | a, m'⟩ := r
  · exact hf r m'
  · trivial

theorem runFrom_ite {c : Prop} [Decidable c] {x y : Keeping Op M ε α}
    (hx : (x.runFrom m).Confined P) (hy : (y.runFrom m).Confined P) :
    ((if c then x else y).runFrom m).Confined P := by
  by_cases h : c
  · rw [if_pos h]
    exact hx
  · rw [if_neg h]
    exact hy

theorem run_keep {x : Keeping Op M ε Unit} (hx : (x.runFrom m).Confined P) :
    (Keeping.keep m x).run.Confined P := bind hx fun _ => trivial

end Memory

end Confined

end Prog

section Conduct

variable {sys : System Call Op S ρ Ev} {legal : Bool → List Ev → (β : Type) → Op β → Prop}

/-- The events `l'` continue `l`, and add none of the kind `F`. -/
def Continues (F : Ev → Prop) (l l' : List Ev) : Prop := l <:+ l' ∧ ∀ ev ∈ l', F ev → ev ∈ l

namespace Continues

variable {F : Ev → Prop} {l l' l'' : List Ev}

theorem refl (l : List Ev) : Continues F l l := ⟨List.suffix_refl l, fun _ h _ => h⟩

theorem trans (h : Continues F l l') (h' : Continues F l' l'') : Continues F l l'' :=
  ⟨h.1.trans h'.1, fun ev hev hF => h.2 ev (h'.2 ev hev hF) hF⟩

theorem append {evs : List Ev} (h : ∀ ev ∈ evs, ¬ F ev) (l : List Ev) :
    Continues F l (evs ++ l) := by
  refine ⟨List.suffix_append _ _, fun ev hev hF => ?_⟩
  rcases List.mem_append.mp hev with hnew | hold
  · exact absurd hF (h ev hnew)
  · exact hold

theorem mem (h : Continues F l l') {ev : Ev} (hev : ev ∈ l) : ev ∈ l' := h.1.subset hev

end Continues

/-- A confined program, whose calls are legal at any time, leaves no event of the kind `F`. -/
theorem Conforms.of_confined {F : Ev → Prop} {p : Prog Op α} {fl : Bool} {l : List Ev}
    (hp : p.Confined P) (hlegal : ∀ {fl l β} {op : Op β}, P β op → legal fl l β op)
    (hnote : ∀ {β} {op : Op β} {r}, P β op → ∀ ev ∈ sys.note β op r, ¬ F ev) :
    Conforms sys legal (fun _ l' _ => Continues F l l') fl l p := by
  have general : ∀ {fl l₀}, Continues F l l₀ →
      Conforms sys legal (fun _ l' _ => Continues F l l') fl l₀ p := by
    induction p with
    | done a => exact fun h => h
    | call op next ih =>
      intro fl l₀ h
      obtain ⟨hop, hnext⟩ := hp
      exact ⟨hlegal hop, fun b _ => ih _ (hnext _) (h.trans (.append (hnote hop) _)),
        fun _ r _ => ih _ (hnext _) (h.trans (.append (hnote hop) _))⟩
  exact general (.refl l)

/-- The events `l'` are `l` and others, none of the kind `F`, that came after it. -/
def Extends (F : Ev → Prop) (l l' : List Ev) : Prop := ∃ evs, l' = evs ++ l ∧ ∀ ev ∈ evs, ¬ F ev

namespace Extends

variable {F : Ev → Prop} {l l' l'' : List Ev}

theorem refl (l : List Ev) : Extends F l l := ⟨[], rfl, nofun⟩

theorem trans (h : Extends F l l') (h' : Extends F l' l'') : Extends F l l'' := by
  obtain ⟨evs, rfl, hevs⟩ := h
  obtain ⟨evs', rfl, hevs'⟩ := h'
  refine ⟨evs' ++ evs, (List.append_assoc _ _ _).symm, fun ev hev => ?_⟩
  rcases List.mem_append.mp hev with hnew | hold
  · exact hevs' ev hnew
  · exact hevs ev hold

theorem append {evs : List Ev} (h : ∀ ev ∈ evs, ¬ F ev) (l : List Ev) : Extends F l (evs ++ l) :=
  ⟨evs, rfl, h⟩

theorem suffix (h : Extends F l l') : l <:+ l' := by
  obtain ⟨evs, rfl, -⟩ := h
  exact List.suffix_append _ _

end Extends

/-- The walk through `x` and then through `f`, which starts with all that `x` has seen. -/
theorem Conforms.run_next {R : Bool → List Ev → Except ε β → Prop}
    {Q : Bool → List Ev → Except ε α → Prop} {fl : Bool} {l : List Ev} {x : Action Op ε β}
    {f : β → Action Op ε α} (hx : Conforms sys legal R fl l x.run)
    (hok : ∀ fl m b, l <:+ m → R fl m (.ok b) → Conforms sys legal Q fl m (f b).run)
    (herr : ∀ fl m e, l <:+ m → R fl m (.error e) → Q fl m (.error e)) :
    Conforms sys legal Q fl l (x >>= f).run :=
  Conforms.run_then (hx.frame (List.suffix_refl l)) (fun fl m b h => hok fl m b h.2 h.1)
    fun fl m e h => herr fl m e h.2 h.1

/-- A confined program, whose calls are legal at any time, adds no event of the kind `F`. -/
theorem Conforms.extends_of_confined {F : Ev → Prop} {p : Prog Op α} {fl : Bool} {l : List Ev}
    (hp : p.Confined P) (hlegal : ∀ {fl m β} {op : Op β}, l <:+ m → P β op → legal fl m β op)
    (hnote : ∀ {β} {op : Op β} {r}, P β op → ∀ ev ∈ sys.note β op r, ¬ F ev) :
    Conforms sys legal (fun _ l' _ => Extends F l l') fl l p := by
  have general : ∀ {fl l₀}, Extends F l l₀ →
      Conforms sys legal (fun _ l' _ => Extends F l l') fl l₀ p := by
    induction p with
    | done a => exact fun h => h
    | call op next ih =>
      intro fl l₀ h
      obtain ⟨hop, hnext⟩ := hp
      exact ⟨hlegal h.suffix hop, fun b _ => ih _ (hnext _) (h.trans (.append (hnote hop) _)),
        fun _ r _ => ih _ (hnext _) (h.trans (.append (hnote hop) _))⟩
  exact general (.refl l)

/-- Two walks through one program. -/
theorem Conforms.and {post post' : Bool → List Ev → α → Prop} {p : Prog Op α} {fl : Bool}
    {l : List Ev} (hp : Conforms sys legal post fl l p) (hp' : Conforms sys legal post' fl l p) :
    Conforms sys legal (fun fl l a => post fl l a ∧ post' fl l a) fl l p := by
  induction p generalizing fl l with
  | done a => exact ⟨hp, hp'⟩
  | call op next ih =>
    obtain ⟨hl, hr, ht⟩ := hp
    obtain ⟨-, hr', ht'⟩ := hp'
    exact ⟨hl, fun b hb => ih _ (hr b hb) (hr' b hb),
      fun hf r hb => ih _ (ht hf r hb) (ht' hf r hb)⟩

theorem Conforms.run_ite {Q : Bool → List Ev → Except ε α → Prop} {fl : Bool} {l : List Ev}
    {c : Prop} [Decidable c] {x y : Action Op ε α} (hx : c → Conforms sys legal Q fl l x.run)
    (hy : ¬ c → Conforms sys legal Q fl l y.run) :
    Conforms sys legal Q fl l (if c then x else y).run := by
  by_cases h : c
  · rw [if_pos h]
    exact hx h
  · rw [if_neg h]
    exact hy h

variable {Q : Bool → List Ev → Except ε α × M → Prop} {fl : Bool} {l : List Ev}

/-- The walk through a program with a memory and then through `f`. -/
theorem Conforms.keeping_then {R : Bool → List Ev → Except ε β × M → Prop}
    {x : Keeping Op M ε β} {f : β → Keeping Op M ε α} {m : M}
    (hx : Conforms sys legal R fl l (x.runFrom m))
    (hok : ∀ fl l b m, R fl l (.ok b, m) → Conforms sys legal Q fl l ((f b).runFrom m))
    (herr : ∀ fl l e m, R fl l (.error e, m) → Q fl l (.error e, m)) :
    Conforms sys legal Q fl l ((x >>= f).runFrom m) := by
  rw [Keeping.runFrom_bind]
  refine bind (hx.mono fun fl l r hr => ?_)
  obtain ⟨r | b, m'⟩ := r
  · exact herr fl l r m' hr
  · exact hok fl l b m' hr

theorem Conforms.keeping_handle {R : Bool → List Ev → Except ε α × M → Prop}
    {x : Keeping Op M ε α} {f : ε → Keeping Op M ε α} {m : M}
    (hx : Conforms sys legal R fl l (x.runFrom m))
    (hok : ∀ fl l a m, R fl l (.ok a, m) → Q fl l (.ok a, m))
    (herr : ∀ fl l e m, R fl l (.error e, m) → Conforms sys legal Q fl l ((f e).runFrom m)) :
    Conforms sys legal Q fl l ((tryCatch x f).runFrom m) := by
  rw [Keeping.runFrom_tryCatch]
  refine bind (hx.mono fun fl l r hr => ?_)
  obtain ⟨r | a, m'⟩ := r
  · exact herr fl l r m' hr
  · exact hok fl l a m' hr

theorem Conforms.keeping_lift {x : Action Op ε α} {m : M}
    (hx : Conforms sys legal (fun fl l r => Q fl l (r, m)) fl l x.run) :
    Conforms sys legal Q fl l ((liftM x : Keeping Op M ε α).runFrom m) := by
  rw [Keeping.runFrom_lift]
  exact bind hx

/-- A program with a memory of its own, within one that has none. -/
theorem Conforms.run_keep {Q : Bool → List Ev → Except ε M → Prop} {x : Keeping Op M ε Unit} {m : M}
    (hx : Conforms sys legal (fun fl l r => Q fl l (r.1.map fun _ => r.2)) fl l (x.runFrom m)) :
    Conforms sys legal Q fl l (Keeping.keep m x).run :=
  bind hx

end Conduct

end Interleaving
