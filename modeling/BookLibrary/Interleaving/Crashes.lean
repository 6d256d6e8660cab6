import BookLibrary.Interleaving.Schedule
import BookLibrary.Interleaving.Traces

/-!
# Programs that may stop

A program on its own may stop between any two of its calls, the last of them applied or
not, and another may start on what it has left. What holds wherever a program may stop
holds in every configuration of a run in which nobody starts before the others have
stopped.
-/

namespace Interleaving

variable {Op : Type → Type} {σ V α β ε : Type}

section Guards

variable (exec : (β : Type) → Op β → σ → β → σ → Prop) (fallible : (β : Type) → Op β → Prop)

/-- Wherever `p` stops, the state is one of `I`, and where it ends it is as `Q` says. -/
def Guards (I : σ → Prop) (Q : α → σ → Prop) : Prog Op α → σ → Prop
  | .done a, s => Q a s
  | .call op next, s => ∀ o s₁, Goes exec fallible op s o s₁ →
    I s₁ ∧ Guards I Q (next o.answer) s₁

/-- From every state that is seen as `v`, the program stops at states of `I`, and if it ends,
it ends in one that is seen again, and is as `Q` says. -/
def Works (I : σ → Prop) (At : V → σ → Prop) (p : Prog Op α) (v : V) (Q : α → V → Prop) : Prop :=
  ∀ s, At v s → Guards exec fallible I (fun a s' => ∃ v', At v' s' ∧ Q a v') p s

end Guards

variable {exec : (β : Type) → Op β → σ → β → σ → Prop} {fallible : (β : Type) → Op β → Prop}
  {I : σ → Prop}

namespace Guards

variable {Q Q' : α → σ → Prop}

theorem mono {p : Prog Op α} {s : σ} (hp : Guards exec fallible I Q p s)
    (h : ∀ a s', Q a s' → Q' a s') : Guards exec fallible I Q' p s := by
  induction p generalizing s with
  | done a => exact h _ _ hp
  | call op next ih =>
    intro o s₁ hgoes
    obtain ⟨hI, hrest⟩ := hp o s₁ hgoes
    exact ⟨hI, ih _ hrest⟩

theorem bind {R : β → σ → Prop} {p : Prog Op β} {f : β → Prog Op α} {s : σ}
    (hp : Guards exec fallible I R p s) (hf : ∀ b s₁, R b s₁ → Guards exec fallible I Q (f b) s₁) :
    Guards exec fallible I Q (p >>= f) s := by
  induction p generalizing s with
  | done b => exact hf b s hp
  | call op next ih =>
    intro o s₁ hgoes
    obtain ⟨hI, hrest⟩ := hp o s₁ hgoes
    exact ⟨hI, ih _ hrest⟩

/-- What is so wherever a program may stop, for less that is asked of it. -/
theorem weaken {I' : σ → Prop} {p : Prog Op α} {s : σ} (hp : Guards exec fallible I Q p s)
    (h : ∀ s, I s → I' s) : Guards exec fallible I' Q p s := by
  induction p generalizing s with
  | done a => exact hp
  | call op next ih =>
    intro o s₁ hgoes
    obtain ⟨hI, hrest⟩ := hp o s₁ hgoes
    exact ⟨h s₁ hI, ih _ hrest⟩

/-- A trace of its own stops where the program may stop, and ends as it ends. -/
theorem traces {p : Prog Op α} {s s' : σ} {l : List (Step Op)} {a : α}
    (hp : Guards exec fallible I Q p s) (hs : I s) (h : Traces exec fallible p s l a s') :
    I s' ∧ Q a s' := by
  induction p generalizing s l with
  | done b =>
    obtain ⟨-, rfl, rfl⟩ := h
    exact ⟨hs, hp⟩
  | call op next ih =>
    obtain ⟨o, s₁, rest, -, hgoes, hrest⟩ := h
    obtain ⟨hI, hnext⟩ := hp o s₁ hgoes
    exact ih _ hnext hI hrest

end Guards

namespace Works

variable {At : V → σ → Prop} {v : V}

section Prog

variable {Q Q' : α → V → Prop} {p : Prog Op α}

theorem done {a : α} (h : Q a v) : Works exec fallible I At (.done a) v Q := by
  intro s hs
  exact ⟨v, hs, h⟩

theorem call {op : Op β} {next : Option β → Prog Op α}
    (h : ∀ s, At v s → ∀ o s₁, Goes exec fallible op s o s₁ → I s₁ ∧ ∃ v₁, At v₁ s₁ ∧
      Works exec fallible I At (next o.answer) v₁ Q) :
    Works exec fallible I At (.call op next) v Q := by
  intro s hs o s₁ hgoes
  obtain ⟨hI, v₁, hv₁, hrest⟩ := h s hs o s₁ hgoes
  exact ⟨hI, hrest s₁ hv₁⟩

theorem mono (hp : Works exec fallible I At p v Q) (h : ∀ a v', Q a v' → Q' a v') :
    Works exec fallible I At p v Q' := by
  intro s hs
  refine (hp s hs).mono fun a s' hQ => ?_
  obtain ⟨v', hv', hQ⟩ := hQ
  exact ⟨v', hv', h a v' hQ⟩

end Prog

theorem bind {R : β → V → Prop} {Q : α → V → Prop} {p : Prog Op β} {f : β → Prog Op α}
    (hp : Works exec fallible I At p v R)
    (hf : ∀ b v₁, R b v₁ → Works exec fallible I At (f b) v₁ Q) :
    Works exec fallible I At (p >>= f) v Q := by
  intro s hs
  refine (hp s hs).bind fun b s₁ hR => ?_
  obtain ⟨v₁, hv₁, hR⟩ := hR
  exact hf b v₁ hR s₁ hv₁

section Action

variable {Q : Except ε α → V → Prop}

theorem run_pure {a : α} (h : Q (.ok a) v) :
    Works exec fallible I At (pure a : Action Op ε α).run v Q := done h

theorem run_throw {e : ε} (h : Q (.error e) v) :
    Works exec fallible I At (throw e : Action Op ε α).run v Q := done h

theorem run_bind {R : Except ε β → V → Prop} {x : Action Op ε β} {f : β → Action Op ε α}
    (hx : Works exec fallible I At x.run v R)
    (hok : ∀ b v₁, R (.ok b) v₁ → Works exec fallible I At (f b).run v₁ Q)
    (herr : ∀ e v₁, R (.error e) v₁ → Q (.error e) v₁) :
    Works exec fallible I At (x >>= f).run v Q := by
  refine bind (f := ExceptT.bindCont f) hx fun r v₁ hR => ?_
  cases r with
  | ok b => exact hok b v₁ hR
  | error e => exact done (herr e v₁ hR)

theorem run_tryCatch {R : Except ε α → V → Prop} {x : Action Op ε α} {f : ε → Action Op ε α}
    (hx : Works exec fallible I At x.run v R) (hok : ∀ a v₁, R (.ok a) v₁ → Q (.ok a) v₁)
    (herr : ∀ e v₁, R (.error e) v₁ → Works exec fallible I At (f e).run v₁ Q) :
    Works exec fallible I At (tryCatch x f).run v Q := by
  rw [Action.run_tryCatch]
  refine bind hx fun r v₁ hR => ?_
  cases r with
  | ok a => exact done (hok a v₁ hR)
  | error e => exact herr e v₁ hR

theorem run_ite {c : Prop} [Decidable c] {x y : Action Op ε α}
    (hx : c → Works exec fallible I At x.run v Q)
    (hy : ¬ c → Works exec fallible I At y.run v Q) :
    Works exec fallible I At (if c then x else y).run v Q := by
  by_cases h : c
  · rw [if_pos h]
    exact hx h
  · rw [if_neg h]
    exact hy h

/-- A loop keeps what each of its rounds keeps, the list of the rounds to come in view. -/
theorem run_forM {P : List β → V → Prop} {E : ε → V → Prop} {f : β → Action Op ε Unit}
    (hround : ∀ x xs v, P (x :: xs) v → Works exec fallible I At (f x).run v fun r v₁ =>
      match r with
      | .ok _ => P xs v₁
      | .error e => E e v₁) {xs : List β} (hv : P xs v) :
    Works exec fallible I At (xs.forM f).run v fun r v₁ =>
      match r with
      | .ok _ => P [] v₁
      | .error e => E e v₁ := by
  induction xs generalizing v with
  | nil => exact run_pure hv
  | cons x xs ih => exact run_bind (hround x xs v hv) (fun _ v₁ h => ih h) fun _ _ h => h

end Action

end Works

section Still

/-- An action that issues no call. -/
def Action.Still (x : Action Op ε α) : Prop := ∃ r, x.run = .done r

namespace Action.Still

theorem pure {a : α} : (Pure.pure a : Action Op ε α).Still := ⟨.ok a, rfl⟩

theorem throw {e : ε} : (MonadExcept.throw e : Action Op ε α).Still := ⟨.error e, rfl⟩

theorem bind {x : Action Op ε β} {f : β → Action Op ε α} (hx : x.Still) (hf : ∀ b, (f b).Still) :
    (x >>= f).Still := by
  obtain ⟨r, hr⟩ := hx
  replace hr : x = (.done r : Prog Op (Except ε β)) := hr
  subst hr
  cases r with
  | ok b => exact hf b
  | error e => exact ⟨.error e, rfl⟩

theorem ite {c : Prop} [Decidable c] {x y : Action Op ε α} (hx : c → x.Still)
    (hy : ¬ c → y.Still) : (if c then x else y).Still := by
  by_cases h : c
  · rw [if_pos h]
    exact hx h
  · rw [if_neg h]
    exact hy h

end Action.Still

end Still

section Yields

/-- The action works, and where it ends without an exception it is as `Q` says. -/
def Yields (exec : (β : Type) → Op β → σ → β → σ → Prop) (fallible : (β : Type) → Op β → Prop)
    (I : σ → Prop) (At : V → σ → Prop) (x : Action Op ε α) (v : V) (Q : α → V → Prop) : Prop :=
  Works exec fallible I At x.run v fun r v' => ∀ a, r = .ok a → Q a v'

namespace Yields

variable {At : V → σ → Prop} {v : V} {Q Q' : α → V → Prop} {x y : Action Op ε α}

theorem of_works {R : Except ε α → V → Prop} (hx : Works exec fallible I At x.run v R)
    (h : ∀ a v', R (.ok a) v' → Q a v') : Yields exec fallible I At x v Q := by
  refine hx.mono fun r v' hR a ha => ?_
  subst ha
  exact h a v' hR

theorem mono (hx : Yields exec fallible I At x v Q) (h : ∀ a v', Q a v' → Q' a v') :
    Yields exec fallible I At x v Q' :=
  of_works hx fun a v' hQ => h a v' (hQ a rfl)

theorem pure {a : α} (h : Q a v) : Yields exec fallible I At (pure a : Action Op ε α) v Q := by
  refine Works.run_pure fun b hb => ?_
  cases hb
  exact h

theorem throw {e : ε} : Yields exec fallible I At (throw e : Action Op ε α) v Q :=
  Works.run_throw fun a ha => by cases ha

theorem bind {R : β → V → Prop} {x : Action Op ε β} {f : β → Action Op ε α}
    (hx : Yields exec fallible I At x v R)
    (hf : ∀ b v₁, R b v₁ → Yields exec fallible I At (f b) v₁ Q) :
    Yields exec fallible I At (x >>= f) v Q := by
  refine Works.run_bind hx (fun b v₁ hR => hf b v₁ (hR b rfl)) fun e v₁ _ a ha => ?_
  cases ha

theorem ite {c : Prop} [Decidable c] (hx : c → Yields exec fallible I At x v Q)
    (hy : ¬ c → Yields exec fallible I At y v Q) :
    Yields exec fallible I At (if c then x else y) v Q := by
  by_cases h : c
  · rw [if_pos h]
    exact hx h
  · rw [if_neg h]
    exact hy h

/-- A handler takes over wherever the action has been left. -/
theorem tryCatch {f : ε → Action Op ε α} (hx : Yields exec fallible I At x v Q)
    (hf : ∀ e v₁, Yields exec fallible I At (f e) v₁ Q) :
    Yields exec fallible I At (tryCatch x f) v Q :=
  Works.run_tryCatch hx (fun _ _ h => h) fun e v₁ _ => hf e v₁

/-- A loop keeps what each of its rounds keeps, the list of the rounds to come in view. -/
theorem forM {P : List β → V → Prop} {f : β → Action Op ε Unit}
    (hround : ∀ x xs v, P (x :: xs) v → Yields exec fallible I At (f x) v fun _ v₁ => P xs v₁)
    {xs : List β} (hv : P xs v) :
    Yields exec fallible I At (xs.forM f) v fun _ v₁ => P [] v₁ := by
  induction xs generalizing v with
  | nil => exact pure hv
  | cons x xs ih => exact bind (hround x xs v hv) fun _ v₁ h => ih h

theorem of_still (hx : x.Still) (h : ∀ a, x = Pure.pure a → Q a v) :
    Yields exec fallible I At x v Q := by
  obtain ⟨r, hr⟩ := hx
  rw [Yields, hr]
  refine Works.done fun a ha => h a ?_
  subst ha
  exact hr

/-- What an action guards on its own it guards as a request. -/
theorem guards {s : σ} {R : Except ε α → σ → Prop} (hx : Yields exec fallible I At x v Q)
    (hs : At v s) (hR : ∀ r s, R r s) : Guards exec fallible I R x.run s :=
  (hx s hs).mono fun r s _ => hR r s

end Yields

end Yields

section Turns

variable {ι Call S ρ Ev : Type}

/-- Nobody has calls to issue. -/
def Config.Idle (c : Config ι Call Op S ρ Ev) : Prop := ∀ i, c.issuing i = none

variable [DecidableEq ι]

/-- The runs in which the callers take turns: a request is taken up where all the others have
ended or crashed, and `may` admits it. -/
def System.Turns (sys : System Call Op S ρ Ev) (may : S → Call → Prop) :
    Config ι Call Op S ρ Ev → Config ι Call Op S ρ Ev → Prop :=
  Relation.ReflTransGen fun c c' => sys.Step anyCall c c' ∧
    ∀ i th, c.threads i = none → c'.threads i = some th → c.Idle ∧ may c.store th.call

variable {sys : System Call Op S ρ Ev} {may : S → Call → Prop} {I : S → Prop}
  {Q : Call → ρ → S → Prop}

/-- At most one caller has calls to issue, and it is guarded. -/
structure Guarded (sys : System Call Op S ρ Ev) (I : S → Prop) (Q : Call → ρ → S → Prop)
    (c : Config ι Call Op S ρ Ev) : Prop where
  inv : I c.store
  alone : ∀ i j, (c.issuing i).isSome = true → (c.issuing j).isSome = true → i = j
  guards : ∀ i th p, c.threads i = some th → th.code = some p → (c.issuing i).isSome = true →
    Guards sys.exec sys.fallible I (Q th.call) p c.store

omit [DecidableEq ι] in
theorem Guarded.init {s : S} (h : I s) :
    Guarded sys I Q (Config.init s : Config ι Call Op S ρ Ev) := by
  refine ⟨h, fun i j hi => ?_, fun i th p hth => ?_⟩
  · cases hi
  · cases hth

/-- The caller that moves is guarded, and the others have no calls to issue. -/
theorem Guarded.advance {c : Config ι Call Op S ρ Ev} {i : ι} {th : Thread Call Op ρ} {s : S}
    {evs : List Ev} (hI : I s)
    (hp : ∀ p, th.code = some p → Guards sys.exec sys.fallible I (Q th.call) p s)
    (hothers : ∀ j ≠ i, c.issuing j = none) : Guarded sys I Q (c.advance i th s evs) := by
  have idle : ∀ j ≠ i, (c.advance i th s evs).issuing j = none := by
    intro j hij
    have heq : (c.advance i th s evs).issuing j = c.issuing j := by
      simp [Config.issuing, Config.advance, Function.update_of_ne hij]
    rw [heq]
    exact hothers j hij
  have only : ∀ j, ((c.advance i th s evs).issuing j).isSome = true → j = i := by
    intro j hj
    by_contra hne
    rw [idle j hne] at hj
    cases hj
  refine ⟨hI, fun j k hj hk => (only j hj).trans (only k hk).symm, fun j th' p hth hcode hj => ?_⟩
  have heq := only j hj
  subst heq
  have heq : th = th' := by simpa [Config.advance] using hth
  subst heq
  exact hp p hcode

/-- What every admitted request guards holds throughout a run in which the callers take turns. -/
theorem Guarded.turns
    (hbody : ∀ call s, I s → may s call → Guards sys.exec sys.fallible I (Q call) (sys.body call) s)
    (henv : ∀ s s', sys.env s s' → s' = s) {c c' : Config ι Call Op S ρ Ev}
    (h : Guarded sys I Q c) (hrun : sys.Turns may c c') : Guarded sys I Q c' := by
  induction hrun with
  | refl => exact h
  | @tail c₁ c₂ _ hstep ih =>
    obtain ⟨hstep, hstart⟩ := hstep
    -- a caller that issues a call is the only one
    have others : ∀ {i : ι}, (c₁.issuing i).isSome = true → ∀ j ≠ i, c₁.issuing j = none := by
      intro i hi j hne
      by_contra hj
      exact hne (ih.alone j i (Option.isSome_iff_ne_none.mpr hj) hi)
    have issues : ∀ {i : ι} {th : Thread Call Op ρ} {β : Type} {op : Op β}
        {next : Option β → Prog Op ρ}, c₁.threads i = some th → th.code = some (.call op next) →
        (c₁.issuing i).isSome = true := by
      intro i th β op next hth hcode
      obtain ⟨call, code, faulted⟩ := th
      cases hcode
      simp [Config.issuing, hth]
    cases hstep with
    | @start i call free =>
      obtain ⟨hidle, hmay⟩ := hstart i ⟨call, some (sys.body call), false⟩ free
        (by simp [Config.advance])
      refine Guarded.advance ih.inv (fun p hp => ?_) fun j _ => hidle j
      cases hp
      exact hbody call _ ih.inv hmay
    | @reply i th β op next b s running code pass effect =>
      have hi := issues running code
      obtain ⟨hI, hguards⟩ := ih.guards i th _ running code hi (.answered b) s effect
      refine Guarded.advance hI (fun p hp => ?_) (others hi)
      cases hp
      exact hguards
    | @raise i th β op next s r running code pass fails effect =>
      have hgoes : Goes sys.exec sys.fallible op c₁.store (.threw r) s := by
        cases r with
        | none => exact effect
        | some b => exact ⟨fails, effect⟩
      have hi := issues running code
      obtain ⟨hI, hguards⟩ := ih.guards i th _ running code hi (.threw r) s hgoes
      refine Guarded.advance hI (fun p hp => ?_) (others hi)
      cases hp
      exact hguards
    | crash running code =>
      refine Guarded.advance ih.inv (fun p hp => ?_) (others (issues running code))
      cases hp
    | @env s effect =>
      obtain rfl := henv _ _ effect
      exact ih

end Turns

section Schedules

variable {ι Call S ρ Ev Choice : Type} [DecidableEq ι] {sys : System Call Op S ρ Ev}
  (d : Driver sys (anyCall : Gate ι Call Op S Ev) Choice)

namespace Driver

/-- A schedule in which the callers take turns; `turn` is the last that has started. -/
def takeTurns (admits : S → Call → Bool) (turn : Option ι) (c : Config ι Call Op S ρ Ev) :
    List (Move ι Call Choice) → Option (Config ι Call Op S ρ Ev)
  | [] => some c
  | .start i call :: ms =>
    if (turn.all fun j => (c.issuing j).isNone) && admits c.store call then
      (d.move c (.start i call)).bind fun c₁ => takeTurns admits (some i) c₁ ms
    else none
  | m :: ms => (d.move c m).bind fun c₁ => takeTurns admits turn c₁ ms

variable {d}

/-- Who has nothing to issue has nothing to issue after a move, or has just started. -/
theorem move_issuing {c c' : Config ι Call Op S ρ Ev} {m : Move ι Call Choice}
    (h : d.move c m = some c') {j : ι} (hj : c.issuing j = none) :
    c'.issuing j = none ∨ ∃ call, m = .start j call := by
  have advanced : ∀ {i : ι} {th : Thread Call Op ρ} {s : S} {evs : List Ev}, j ≠ i →
      (c.advance i th s evs).issuing j = none := by
    intro i th s evs hne
    have heq : (c.advance i th s evs).issuing j = c.issuing j := by
      simp [Config.issuing, Config.advance, Function.update_of_ne hne]
    rw [heq]
    exact hj
  have other : ∀ {i : ι} {call : Call} {β : Type} {op : Op β} {next : Option β → Prog Op ρ}
      {faulted : Bool}, c.threads i = some ⟨call, some (.call op next), faulted⟩ → j ≠ i := by
    rintro i call β op next faulted hi rfl
    simp [Config.issuing, hi] at hj
  cases m with
  | start i call =>
    simp only [move] at h
    split at h
    · cases h
      by_cases hji : j = i
      · subst hji
        exact .inr ⟨call, rfl⟩
      · exact .inl (advanced hji)
    · cases h
  | reply i x | raise i x =>
    simp only [move] at h
    split at h
    · next running =>
      split at h
      · obtain ⟨⟨b, s'⟩, -, rfl⟩ := Option.map_eq_some_iff.mp h
        exact .inl (advanced (other running))
      · cases h
    · cases h
  | lose i =>
    simp only [move] at h
    split at h
    · next running =>
      split at h
      · cases h
        exact .inl (advanced (other running))
      · cases h
    · cases h
  | crash i =>
    simp only [move] at h
    split at h
    · next running =>
      cases h
      exact .inl (advanced (other running))
    · cases h

theorem start_of_move {c c' : Config ι Call Op S ρ Ev} {m : Move ι Call Choice}
    (h : d.move c m = some c') {i : ι} {th : Thread Call Op ρ} (hnone : c.threads i = none)
    (hsome : c'.threads i = some th) : m = .start i th.call := by
  rcases move_started h hsome with ⟨th₀, hth₀, -⟩ | hstart
  · rw [hnone] at hth₀
    cases hth₀
  · exact hstart

theorem takeTurns_turns {admits : S → Call → Bool} {may : S → Call → Prop}
    (hmay : ∀ s call, admits s call = true → may s call) {turn : Option ι}
    {c c' : Config ι Call Op S ρ Ev} {ms : List (Move ι Call Choice)}
    (hturn : ∀ j, turn ≠ some j → c.issuing j = none) (h : d.takeTurns admits turn c ms = some c') :
    sys.Turns may c c' := by
  induction ms generalizing turn c with
  | nil =>
    cases h
    exact .refl
  | cons m ms ih =>
    cases m with
    | start i call =>
      rw [takeTurns] at h
      split at h
      · next hok =>
        rw [Bool.and_eq_true] at hok
        obtain ⟨c₁, hmove, hrest⟩ := Option.bind_eq_some_iff.mp h
        have hidle : c.Idle := by
          intro j
          by_cases hj : turn = some j
          · have hnone := hok.1
            rw [hj] at hnone
            simpa using hnone
          · exact hturn j hj
        refine .head ⟨move_step hmove, fun k th hk hth => ⟨hidle, ?_⟩⟩ (ih ?_ hrest)
        · cases start_of_move hmove hk hth
          exact hmay _ _ hok.2
        · intro j hj
          rcases move_issuing hmove (hidle j) with hnone | ⟨call', hstart⟩
          · exact hnone
          · cases hstart
            exact absurd rfl hj
      · cases h
    | _ =>
      obtain ⟨c₁, hmove, hrest⟩ := Option.bind_eq_some_iff.mp h
      refine .head ⟨move_step hmove, fun k th hk hth => ?_⟩ (ih ?_ hrest)
      · cases start_of_move hmove hk hth
      · intro j hj
        rcases move_issuing hmove (hturn j hj) with hnone | ⟨call', hstart⟩
        · exact hnone
        · cases hstart

end Driver

end Schedules

end Interleaving
