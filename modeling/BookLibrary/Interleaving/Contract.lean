import BookLibrary.Interleaving.Machine

/-!
# Contracts

What a program may issue is judged from its own events alone (`Conforms`), so a
program is walked through once, sequentially. How callers meet in the store is
the business of an invariant on store and journal, preserved by every legal
call. A contract pairs the two, and `WellFormed.runs` carries it over every run.
-/

namespace Interleaving

variable {ι Call : Type} {Op : Type → Type} {S ρ Ev α β ε : Type}

namespace System

/-- Some execution of `op` answers `b`. -/
def Answers (sys : System Call Op S ρ Ev) (op : Op β) (b : β) : Prop :=
  ∃ s s', sys.exec β op s b s'

end System

variable (sys : System Call Op S ρ Ev) (legal : Bool → List Ev → (β : Type) → Op β → Prop)

/-- Every call the program issues is legal for the events its caller has seen so
far, and it ends as `post` says, whatever the calls answer or throw. The flag
tells whether one of them has thrown. -/
def Conforms (post : Bool → List Ev → α → Prop) : Bool → List Ev → Prog Op α → Prop
  | fl, l, .done a => post fl l a
  | fl, l, @Prog.call _ _ β op next =>
    legal fl l β op ∧
    (∀ b, sys.Answers op b → Conforms post fl (sys.note β op (some b) ++ l) (next (some b))) ∧
    (sys.fallible β op → ∀ r, (∀ b, r = some b → sys.Answers op b) →
      Conforms post true (sys.note β op r ++ l) (next none))

namespace Conforms

variable {sys legal}

theorem mono {post post' : Bool → List Ev → α → Prop}
    (h : ∀ fl l a, post fl l a → post' fl l a) {p : Prog Op α} {fl l}
    (hp : Conforms sys legal post fl l p) : Conforms sys legal post' fl l p := by
  induction p generalizing fl l with
  | done a => exact h _ _ _ hp
  | call op next ih =>
    obtain ⟨hl, hr, ht⟩ := hp
    exact ⟨hl, fun b hb => ih _ (hr b hb),
      fun hf r hb => ih _ (ht hf r hb)⟩

/-- A program that keeps to the stricter of two rules keeps to the other. -/
theorem weaken {legal' : Bool → List Ev → (β : Type) → Op β → Prop}
    {post : Bool → List Ev → α → Prop}
    (h : ∀ {fl l β} {op : Op β}, legal fl l β op → legal' fl l β op) {p : Prog Op α} {fl l}
    (hp : Conforms sys legal post fl l p) : Conforms sys legal' post fl l p := by
  induction p generalizing fl l with
  | done a => exact hp
  | call op next ih =>
    obtain ⟨hl, hr, ht⟩ := hp
    exact ⟨h hl, fun b hb => ih _ (hr b hb), fun hf r hb => ih _ (ht hf r hb)⟩

theorem bind {γ : Type} {post : Bool → List Ev → γ → Prop} {p : Prog Op α} {f : α → Prog Op γ}
    {fl l} (hp : Conforms sys legal (fun fl l a => Conforms sys legal post fl l (f a)) fl l p) :
    Conforms sys legal post fl l (p >>= f) := by
  induction p generalizing fl l with
  | done a => exact hp
  | call op next ih =>
    obtain ⟨hl, hr, ht⟩ := hp
    exact ⟨hl, fun b hb => ih _ (hr b hb),
      fun hf r hb => ih _ (ht hf r hb)⟩

/-- Every program keeps to a contract that asks for nothing. -/
theorem vacuous (p : Prog Op α) {fl : Bool} {l : List Ev} :
    Conforms sys (fun _ _ _ _ => True) (fun _ _ _ => True) fl l p := by
  induction p generalizing fl l with
  | done a => trivial
  | call op next ih => exact ⟨trivial, fun b _ => ih _, fun _ r _ => ih _⟩

/-- The events a program starts from stay where they are. -/
theorem frame {post : Bool → List Ev → α → Prop} {p : Prog Op α} {fl : Bool} {l l' : List Ev}
    (hl : l <:+ l') (hp : Conforms sys legal post fl l' p) :
    Conforms sys legal (fun fl m a => post fl m a ∧ l <:+ m) fl l' p := by
  induction p generalizing fl l' with
  | done a => exact ⟨hp, hl⟩
  | call op next ih =>
    obtain ⟨hlegal, hr, ht⟩ := hp
    exact ⟨hlegal, fun b hb => ih _ (hl.trans (List.suffix_append _ _)) (hr b hb),
      fun hf r hb => ih _ (hl.trans (List.suffix_append _ _)) (ht hf r hb)⟩

variable {Q : Bool → List Ev → Except ε α → Prop} {fl : Bool} {l : List Ev}

theorem run_pure {a : α} (h : Q fl l (.ok a)) :
    Conforms sys legal Q fl l (pure a : Action Op ε α).run := h

theorem run_throw {e : ε} (h : Q fl l (.error e)) :
    Conforms sys legal Q fl l (throw e : Action Op ε α).run := h

/-- What a caller of `x` owes when `f` takes the value and exceptions pass through. -/
def andThen (sys : System Call Op S ρ Ev) (legal : Bool → List Ev → (β : Type) → Op β → Prop)
    (Q : Bool → List Ev → Except ε α → Prop) (f : β → Action Op ε α) (fl : Bool) (l : List Ev) :
    Except ε β → Prop
  | .ok b => Conforms sys legal Q fl l (f b).run
  | .error e => Q fl l (.error e)

theorem run_bind {x : Action Op ε β} {f : β → Action Op ε α}
    (h : Conforms sys legal (andThen sys legal Q f) fl l x.run) :
    Conforms sys legal Q fl l (x >>= f).run := by
  refine bind (f := ExceptT.bindCont f) (h.mono fun fl l r hr => ?_)
  cases r with
  | ok b => exact hr
  | error e => exact hr

/-- What the body of a `try` owes when `f` handles its exceptions. -/
def orElse (sys : System Call Op S ρ Ev) (legal : Bool → List Ev → (β : Type) → Op β → Prop)
    (Q : Bool → List Ev → Except ε α → Prop) (f : ε → Action Op ε α) (fl : Bool) (l : List Ev) :
    Except ε α → Prop
  | .ok a => Q fl l (.ok a)
  | .error e => Conforms sys legal Q fl l (f e).run

theorem run_tryCatch {x : Action Op ε α} {f : ε → Action Op ε α}
    (h : Conforms sys legal (orElse sys legal Q f) fl l x.run) :
    Conforms sys legal Q fl l (tryCatch x f).run := by
  rw [Action.run_tryCatch]
  refine bind (h.mono fun fl l r hr => ?_)
  cases r with
  | ok a => exact hr
  | error e => exact hr

/-- The walk through `x` and then through `f`, with what holds between them named. -/
theorem run_then {R : Bool → List Ev → Except ε β → Prop} {x : Action Op ε β}
    {f : β → Action Op ε α} (hx : Conforms sys legal R fl l x.run)
    (hok : ∀ fl l b, R fl l (.ok b) → Conforms sys legal Q fl l (f b).run)
    (herr : ∀ fl l e, R fl l (.error e) → Q fl l (.error e)) :
    Conforms sys legal Q fl l (x >>= f).run := by
  refine run_bind (hx.mono fun fl l r hr => ?_)
  cases r with
  | ok b => exact hok fl l b hr
  | error e => exact herr fl l e hr

/-- The walk through a `try`, with what holds at its end named. -/
theorem run_handle {R : Bool → List Ev → Except ε α → Prop} {x : Action Op ε α}
    {f : ε → Action Op ε α} (hx : Conforms sys legal R fl l x.run)
    (hok : ∀ fl l a, R fl l (.ok a) → Q fl l (.ok a))
    (herr : ∀ fl l e, R fl l (.error e) → Conforms sys legal Q fl l (f e).run) :
    Conforms sys legal Q fl l (tryCatch x f).run := by
  refine run_tryCatch (hx.mono fun fl l r hr => ?_)
  cases r with
  | ok a => exact hok fl l a hr
  | error e => exact herr fl l e hr

theorem run_perform {thrown : ε} {op : Op α} (hl : legal fl l α op)
    (hr : ∀ b, sys.Answers op b → Q fl (sys.note α op (some b) ++ l) (.ok b))
    (ht : sys.fallible α op → ∀ r, (∀ b, r = some b → sys.Answers op b) →
      Q true (sys.note α op r ++ l) (.error thrown)) :
    Conforms sys legal Q fl l (Action.perform thrown op).run :=
  ⟨hl, hr, ht⟩

/-- An atomic call whose failure is passed on to somebody who accepts it. -/
theorem run_call {thrown : ε} {op : Op β} {f : β → Action Op ε α} (hl : legal fl l β op)
    (herr : ∀ l', l <:+ l' → Q true l' (.error thrown))
    (hok : ∀ b, sys.Answers op b →
      Conforms sys legal Q fl (sys.note β op (some b) ++ l) (f b).run) :
    Conforms sys legal Q fl l (Action.perform thrown op >>= f).run :=
  run_bind (run_perform hl hok fun _ _ _ => herr _ (List.suffix_append _ _))

end Conforms

/-- An invariant of store and journal, the calls that preserve it, and the proof
that every request issues only such calls. -/
structure Contract (ι : Type) [DecidableEq ι] (sys : System Call Op S ρ Ev) where
  inv : S → List (Entry ι Call Ev) → Prop
  legal : Call → Bool → List Ev → (β : Type) → Op β → Prop
  post : Call → Bool → List Ev → ρ → Prop
  inv_call : ∀ {s s' J i call fl β} {op : Op β} {r}, inv s J →
    (∀ e ∈ J, e.caller = i → e.call = call) → legal call fl (own i J) β op →
    sys.Applies op s r s' → inv s' (record i call (sys.note β op r) ++ J)
  inv_env : ∀ {s s' J}, inv s J → sys.env s s' → inv s' J
  conforms : ∀ call, Conforms sys (legal call) (post call) false [] (sys.body call)

variable {sys} [DecidableEq ι]

/-- The contract holds of a configuration: of its store and journal, and of what
every caller has left to do. -/
structure WellFormed (k : Contract ι sys) (c : Config ι Call Op S ρ Ev) : Prop where
  inv : k.inv c.store c.journal
  attributed : ∀ e ∈ c.journal, ∃ th, c.threads e.caller = some th ∧ th.call = e.call
  conforms : ∀ i th p, c.threads i = some th → th.code = some p →
    Conforms sys (k.legal th.call) (k.post th.call) th.faulted (own i c.journal) p

namespace WellFormed

variable {k : Contract ι sys} {c c' : Config ι Call Op S ρ Ev}

theorem init {s : S} (h : k.inv s []) : WellFormed k (Config.init s) :=
  ⟨h, fun _ h => absurd h List.not_mem_nil, fun _ _ _ h => by simp [Config.init] at h⟩

theorem own_eq_nil (w : WellFormed k c) {i : ι} (h : c.threads i = none) : own i c.journal = [] := by
  rw [List.eq_nil_iff_forall_not_mem]
  intro ev hev
  obtain ⟨call, hm⟩ := mem_own.mp hev
  obtain ⟨th, ht, -⟩ := w.attributed _ hm
  rw [h] at ht
  cases ht

theorem call_eq (w : WellFormed k c) {i : ι} {th} (h : c.threads i = some th) :
    ∀ e ∈ c.journal, e.caller = i → e.call = th.call := by
  rintro e he rfl
  obtain ⟨th', ht, hc⟩ := w.attributed e he
  rw [h] at ht
  cases ht
  exact hc.symm

/-- A caller that moves on keeps the configuration well formed if the invariant
is kept and what it has left to do conforms. -/
theorem advance (w : WellFormed k c) {i : ι} {th : Thread Call Op ρ} {s : S} {evs : List Ev}
    (hcall : ∀ th', c.threads i = some th' → th'.call = th.call)
    (hinv : k.inv s (record i th.call evs ++ c.journal))
    (hconf : ∀ p, th.code = some p → Conforms sys (k.legal th.call) (k.post th.call) th.faulted
      (evs ++ own i c.journal) p) : WellFormed k (c.advance i th s evs) := by
  refine ⟨hinv, ?_, ?_⟩
  · intro e he
    by_cases hi : e.caller = i
    · refine ⟨th, by simp [Config.advance, hi], ?_⟩
      rcases List.mem_append.mp he with hn | ho
      · exact (mem_record.mp hn).2.1.symm
      · obtain ⟨th', ht, hc⟩ := w.attributed e ho
        rw [hi] at ht
        rw [← hcall th' ht, hc]
    · rcases List.mem_append.mp he with hn | ho
      · exact absurd (mem_record.mp hn).1 hi
      · obtain ⟨th', ht, hc⟩ := w.attributed e ho
        exact ⟨th', by simpa [Config.advance, hi] using ht, hc⟩
  · intro j th' p ht hp
    by_cases hj : j = i
    · subst hj
      have heq : th = th' := by simpa [Config.advance] using ht
      subst heq
      simpa [Config.advance] using hconf p hp
    · have ht' : c.threads j = some th' := by simpa [Config.advance, hj] using ht
      have hown : own j (c.advance i th s evs).journal = own j c.journal :=
        own_record_of_ne (Ne.symm hj) th.call evs c.journal
      rw [hown]
      exact w.conforms j th' p ht' hp

theorem step {gate : Gate ι Call Op S Ev} (w : WellFormed k c) (h : sys.Step gate c c') :
    WellFormed k c' := by
  cases h with
  | start call free =>
    refine w.advance (by simp [free]) w.inv ?_
    rintro p ⟨⟩
    rw [w.own_eq_nil free]
    exact k.conforms call
  | reply running code _ effect =>
    obtain ⟨hl, hr, -⟩ := w.conforms _ _ _ running code
    have hcall := w.call_eq running
    refine w.advance (by simp [running])
      (k.inv_call (r := some _) w.inv hcall hl effect) ?_
    rintro p ⟨⟩
    exact hr _ ⟨_, _, effect⟩
  | raise r running code _ fails effect =>
    obtain ⟨hl, -, ht⟩ := w.conforms _ _ _ running code
    have hcall := w.call_eq running
    refine w.advance (by simp [running]) (k.inv_call w.inv hcall hl effect) ?_
    rintro p ⟨⟩
    refine ht fails r ?_
    rintro b rfl
    exact ⟨_, _, effect⟩
  | crash running _ =>
    refine w.advance (by simp [running]) w.inv ?_
    rintro p ⟨⟩
  | env effect => exact ⟨k.inv_env w.inv effect, w.attributed, w.conforms⟩

/-- Every run keeps the contract. -/
theorem runs {gate : Gate ι Call Op S Ev} (w : WellFormed k c) (h : sys.Runs gate c c') :
    WellFormed k c' := by
  induction h with
  | refl => exact w
  | tail _ hs ih => exact ih.step hs

theorem legal_of_issues (w : WellFormed k c) {i : ι} {th} {op : Op β} (h : c.Issues i th op) :
    k.legal th.call th.faulted (own i c.journal) β op := by
  obtain ⟨ht, next, hc⟩ := h
  exact (w.conforms i th _ ht hc).1

theorem post_of_returns (w : WellFormed k c) {i : ι} {th a} (h : c.Returns i th a) :
    k.post th.call th.faulted (own i c.journal) a :=
  w.conforms i th _ h.1 h.2

/-- A step that moves the store is a legal, admitted call, or one of the environment. -/
theorem step_cases {gate : Gate ι Call Op S Ev} (w : WellFormed k c) (h : sys.Step gate c c') :
    (c'.store = c.store ∨ sys.env c.store c'.store) ∨
    ∃ (i : ι) (call : Call) (fl : Bool) (β : Type) (op : Op β) (r : Option β),
      (∀ e ∈ c.journal, e.caller = i → e.call = call) ∧ k.legal call fl (own i c.journal) β op ∧
      gate i β op r.isSome c.store c.journal ∧ sys.Applies op c.store r c'.store := by
  cases h with
  | start call free => exact .inl (.inl rfl)
  | reply running code pass effect =>
    have hlegal := (w.conforms _ _ _ running code).1
    exact .inr ⟨_, _, _, _, _, some _, w.call_eq running, hlegal, pass, effect⟩
  | raise r running code pass fails effect =>
    have hlegal := (w.conforms _ _ _ running code).1
    exact .inr ⟨_, _, _, _, _, r, w.call_eq running, hlegal, pass, effect⟩
  | crash running _ => exact .inl (.inl rfl)
  | env effect => exact .inl (.inr effect)

/-- A property of store and journal that every legal, admitted call and every
move of the environment preserves holds at the end of every run it starts. -/
theorem runs_induct {gate : Gate ι Call Op S Ev} {P : S → List (Entry ι Call Ev) → Prop}
    (hcall : ∀ {s s' J i call fl β} {op : Op β} {r}, k.inv s J → P s J →
      (∀ e ∈ J, e.caller = i → e.call = call) → k.legal call fl (own i J) β op →
      gate i β op r.isSome s J → sys.Applies op s r s' →
      P s' (record i call (sys.note β op r) ++ J))
    (henv : ∀ {s s' J}, k.inv s J → P s J → sys.env s s' → P s' J)
    (w : WellFormed k c) (h : sys.Runs gate c c') (h₀ : P c.store c.journal) :
    P c'.store c'.journal := by
  induction h with
  | refl => exact h₀
  | tail hr hs ih =>
    have w' := w.runs hr
    cases hs with
    | start call free => exact ih
    | reply running code pass effect =>
      have hown := w'.call_eq running
      have hl := (w'.conforms _ _ _ running code).1
      exact hcall (r := some _) w'.inv ih hown hl pass effect
    | raise r running code pass fails effect =>
      have hown := w'.call_eq running
      exact hcall w'.inv ih hown (w'.conforms _ _ _ running code).1 pass effect
    | crash running _ => exact ih
    | env effect => exact henv w'.inv ih effect

end WellFormed

end Interleaving
