import BookLibrary.Interleaving.Contract

/-!
# Programs of a component

A program over the calls of one component runs inside a system that has other
calls too. What is known of it from the component's own events carries over.
-/

namespace Interleaving

variable {Op Op' : Type → Type} {α ε ε' : Type}

/-- The program with each of its calls issued to the larger system. -/
def Prog.lift (f : {β : Type} → Op β → Op' β) : Prog Op α → Prog Op' α
  | .done a => .done a
  | .call op next => .call (f op) fun r => (next r).lift f

/-- The action of a component, its exceptions translated. -/
def Action.lift (f : {β : Type} → Op β → Op' β) (g : ε → ε') (x : Action Op ε α) :
    Action Op' ε' α :=
  ExceptT.mk (x.run.lift f >>= fun r => .done (r.mapError g))

theorem Prog.lift_bind {β : Type} (f : {β : Type} → Op β → Op' β) (p : Prog Op β)
    (k : β → Prog Op α) : (p >>= k).lift f = p.lift f >>= fun b => (k b).lift f := by
  induction p with
  | done b => rfl
  | call op next ih => exact congrArg (Prog.call (f op)) (funext ih)

theorem Action.lift_bind {β : Type} (f : {β : Type} → Op β → Op' β) (g : ε → ε') (x : Action Op ε β)
    (k : β → Action Op ε α) :
    Action.lift f g (x >>= k) = Action.lift f g x >>= fun b => Action.lift f g (k b) := by
  show ((x.run >>= ExceptT.bindCont k).lift f >>= fun r => Prog.done (r.mapError g)) =
    (x.run.lift f >>= fun r => Prog.done (r.mapError g)) >>=
      ExceptT.bindCont fun b => Action.lift f g (k b)
  rw [Prog.lift_bind]
  simp only [Prog.bind_assoc]
  refine congrArg (x.run.lift f >>= ·) (funext fun r => ?_)
  cases r with
  | ok b => rfl
  | error e => rfl

theorem Action.lift_perform (f : {β : Type} → Op β → Op' β) (g : ε → ε') (thrown : ε) (op : Op α) :
    (Action.lift f g (Action.perform thrown op) : Action Op' ε' α) =
      Action.perform (g thrown) (f op) := by
  refine congrArg (Prog.call (f op)) (funext fun r => ?_)
  cases r with
  | some b => rfl
  | none => rfl

variable {Call Call' S S' ρ ρ' Ev Ev' : Type}

/-- The calls of `sys` are issued by `sys'` as `f` says, and of the events of `sys'`
those that `see` shows are the events of `sys`. -/
structure Component (sys : System Call Op S ρ Ev) (sys' : System Call' Op' S' ρ' Ev')
    (f : {β : Type} → Op β → Op' β) (see : Ev' → Option Ev) : Prop where
  answers : ∀ {β : Type} {op : Op β} {b : β}, sys'.Answers (f op) b → sys.Answers op b
  fallible : ∀ {β : Type} {op : Op β}, sys'.fallible β (f op) → sys.fallible β op
  note : ∀ {β : Type} (op : Op β) (r : Option β),
    (sys'.note β (f op) r).filterMap see = sys.note β op r

namespace Conforms

variable {sys : System Call Op S ρ Ev} {sys' : System Call' Op' S' ρ' Ev'}
  {f : {β : Type} → Op β → Op' β} {see : Ev' → Option Ev}
  {legal : Bool → List Ev → (β : Type) → Op β → Prop}
  {legal' : Bool → List Ev' → (β : Type) → Op' β → Prop}

/-- A program that conforms within its component conforms within the system. -/
theorem lift (c : Component sys sys' f see)
    (hlegal : ∀ fl l β (op : Op β), legal fl (l.filterMap see) β op → legal' fl l β (f op))
    {post : Bool → List Ev → α → Prop} {p : Prog Op α} {fl : Bool} {l l' : List Ev'}
    (hl : l <:+ l') (hp : Conforms sys legal post fl (l'.filterMap see) p) :
    Conforms sys' legal' (fun fl m a => post fl (m.filterMap see) a ∧ l <:+ m) fl l' (p.lift f) := by
  induction p generalizing fl l' with
  | done a => exact ⟨hp, hl⟩
  | call op next ih =>
    obtain ⟨hlegal₀, hr, ht⟩ := hp
    refine ⟨hlegal _ _ _ _ hlegal₀, fun b hb => ?_, fun hf r hb => ?_⟩
    · have hnext := hr b (c.answers hb)
      rw [← c.note op (some b), ← List.filterMap_append] at hnext
      exact ih _ (hl.trans (List.suffix_append _ _)) hnext
    · have hnext := ht (c.fallible hf) r fun b h => c.answers (hb b h)
      rw [← c.note op r, ← List.filterMap_append] at hnext
      exact ih _ (hl.trans (List.suffix_append _ _)) hnext

theorem run_lift (c : Component sys sys' f see) {g : ε → ε'}
    (hlegal : ∀ fl l β (op : Op β), legal fl (l.filterMap see) β op → legal' fl l β (f op))
    {post : Bool → List Ev → Except ε α → Prop} {x : Action Op ε α} {fl : Bool} {l : List Ev'}
    {Q : Bool → List Ev' → Except ε' α → Prop}
    (hp : Conforms sys legal post fl (l.filterMap see) x.run)
    (hQ : ∀ fl m r, post fl (m.filterMap see) r → l <:+ m → Q fl m (r.mapError g)) :
    Conforms sys' legal' Q fl l (Action.lift f g x).run := by
  refine bind ((lift c hlegal (List.suffix_refl l) hp).mono fun fl m r hr => ?_)
  exact hQ fl m r hr.1 hr.2

end Conforms

end Interleaving
