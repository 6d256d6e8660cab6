import Mathlib.Data.Nat.Notation
import BookLibrary.Interleaving.Walks
import BookLibrary.Transactions.Machine

/-!
# Requests one at a time

What a request does to a store that nobody else touches: each atomic call outside of a
transaction is applied or throws, and each transaction commits or leaves the store as it
was. A serial run serves one request after another.
-/

namespace Transactions

open Interleaving

variable {ι Call : Type} {Op : Type → Type} {S D K ε ρ α β : Type}

namespace Service

variable (sv : Service Call Op S D K ε ρ)

/-- The script may end with `a`, taking the store `s` to `s'`. A call that throws has not
been applied, and a transaction that fails has not been committed. -/
def Ends : Script Op ε α → S → α → S → Prop
  | .done b, s, a, s' => a = b ∧ s' = s
  | @Script.call _ _ _ β op next, s, a, s' =>
    (∃ b docs, sv.exec β op s b docs ∧ Ends (next (some b)) (sv.putAll docs s) a s') ∨
      Ends (next none) s a s'
  | .transact work next, s, a, s' =>
    (∃ b docs, sv.Outcome s work (.ok b) docs ∧
      Ends (next (some (.ok b))) (sv.putAll docs s) a s') ∨
    (∃ e docs, sv.Outcome s work (.error e) docs ∧ Ends (next (some (.error e))) s a s') ∨
    Ends (next none) s a s'

/-- A run that serves one request after another: from the store `s`, where each request is
one that `may` be served, it comes to `s'`. -/
inductive SerialRun (may : S → Call → Prop) (s : S) : S → Prop where
  | refl : SerialRun may s s
  | serve {s₁ s₂ : S} {call : Call} {r : ρ} (before : SerialRun may s s₁) (allowed : may s₁ call)
      (served : sv.Ends (sv.body call) s₁ r s₂) : SerialRun may s s₂

variable {sv} {s s' : S}

/-- What holds at first, and survives every request that may be served, holds in the end. -/
theorem SerialRun.keeps {may : S → Call → Prop} {P : S → Prop}
    (hstep : ∀ s call r s', P s → may s call → sv.Ends (sv.body call) s r s' → P s') (hP : P s)
    (h : sv.SerialRun may s s') : P s' := by
  induction h with
  | refl => exact hP
  | serve _ hmay hserved ih => exact hstep _ _ _ _ ih hmay hserved

namespace Ends

theorem bind {p : Script Op ε β} {f : β → Script Op ε α} {a : α} :
    sv.Ends (p >>= f) s a s' ↔ ∃ b s₁, sv.Ends p s b s₁ ∧ sv.Ends (f b) s₁ a s' := by
  induction p generalizing s with
  | done b =>
    constructor
    · intro h
      exact ⟨b, s, ⟨rfl, rfl⟩, h⟩
    · rintro ⟨_, _, ⟨rfl, rfl⟩, h⟩
      exact h
  | call op next ih =>
    constructor
    · rintro (⟨b, docs, hexec, h⟩ | h)
      · obtain ⟨c, s₁, hp, hf⟩ := (ih (some b)).mp h
        exact ⟨c, s₁, .inl ⟨b, docs, hexec, hp⟩, hf⟩
      · obtain ⟨c, s₁, hp, hf⟩ := (ih none).mp h
        exact ⟨c, s₁, .inr hp, hf⟩
    · rintro ⟨c, s₁, ⟨b, docs, hexec, hp⟩ | hp, hf⟩
      · exact .inl ⟨b, docs, hexec, (ih (some b)).mpr ⟨c, s₁, hp, hf⟩⟩
      · exact .inr ((ih none).mpr ⟨c, s₁, hp, hf⟩)
  | transact work next ih =>
    constructor
    · rintro (⟨b, docs, hout, h⟩ | ⟨e, docs, hout, h⟩ | h)
      · obtain ⟨c, s₁, hp, hf⟩ := (ih _).mp h
        exact ⟨c, s₁, .inl ⟨b, docs, hout, hp⟩, hf⟩
      · obtain ⟨c, s₁, hp, hf⟩ := (ih _).mp h
        exact ⟨c, s₁, .inr (.inl ⟨e, docs, hout, hp⟩), hf⟩
      · obtain ⟨c, s₁, hp, hf⟩ := (ih _).mp h
        exact ⟨c, s₁, .inr (.inr hp), hf⟩
    · rintro ⟨c, s₁, ⟨b, docs, hout, hp⟩ | ⟨e, docs, hout, hp⟩ | hp, hf⟩
      · exact .inl ⟨b, docs, hout, (ih _).mpr ⟨c, s₁, hp, hf⟩⟩
      · exact .inr (.inl ⟨e, docs, hout, (ih _).mpr ⟨c, s₁, hp, hf⟩⟩)
      · exact .inr (.inr ((ih _).mpr ⟨c, s₁, hp, hf⟩))

theorem run_pure {a : α} {r : Except ε α} :
    sv.Ends (pure a : Routine Op ε α).run s r s' ↔ r = .ok a ∧ s' = s := Iff.rfl

theorem run_throw {e : ε} {r : Except ε α} :
    sv.Ends (throw e : Routine Op ε α).run s r s' ↔ r = .error e ∧ s' = s := Iff.rfl

theorem run_bind {x : Routine Op ε β} {f : β → Routine Op ε α} {r : Except ε α} :
    sv.Ends (x >>= f).run s r s' ↔
      (∃ b s₁, sv.Ends x.run s (.ok b) s₁ ∧ sv.Ends (f b).run s₁ r s') ∨
      ∃ e, r = .error e ∧ sv.Ends x.run s (.error e) s' := by
  show sv.Ends (x.run >>= ExceptT.bindCont f) s r s' ↔ _
  rw [bind]
  constructor
  · rintro ⟨b | b, s₁, hx, hf⟩
    · obtain ⟨rfl, rfl⟩ := hf
      exact .inr ⟨b, rfl, hx⟩
    · exact .inl ⟨b, s₁, hx, hf⟩
  · rintro (⟨b, s₁, hx, hf⟩ | ⟨e, rfl, hx⟩)
    · exact ⟨.ok b, s₁, hx, hf⟩
    · exact ⟨.error e, s', hx, rfl, rfl⟩

theorem run_perform {thrown : ε} {op : Op α} {r : Except ε α} :
    sv.Ends (Routine.perform thrown op).run s r s' ↔
      (∃ a docs, r = .ok a ∧ sv.exec α op s a docs ∧ s' = sv.putAll docs s) ∨
      r = .error thrown ∧ s' = s := by
  constructor
  · rintro (⟨a, docs, hexec, rfl, rfl⟩ | ⟨rfl, rfl⟩)
    · exact .inl ⟨a, docs, rfl, hexec, rfl⟩
    · exact .inr ⟨rfl, rfl⟩
  · rintro (⟨a, docs, rfl, hexec, rfl⟩ | ⟨rfl, rfl⟩)
    · exact .inl ⟨a, docs, hexec, rfl, rfl⟩
    · exact .inr ⟨rfl, rfl⟩

theorem run_withTransaction {thrown : ε} {work : Action Op ε α} {r : Except ε α} :
    sv.Ends (Routine.withTransaction thrown work).run s r s' ↔
      (∃ a docs, r = .ok a ∧ sv.Outcome s work (.ok a) docs ∧ s' = sv.putAll docs s) ∨
      (∃ e docs, r = .error e ∧ sv.Outcome s work (.error e) docs ∧ s' = s) ∨
      r = .error thrown ∧ s' = s := by
  constructor
  · rintro (⟨a, docs, hout, rfl, rfl⟩ | ⟨e, docs, hout, rfl, rfl⟩ | ⟨rfl, rfl⟩)
    · exact .inl ⟨a, docs, rfl, hout, rfl⟩
    · exact .inr (.inl ⟨e, docs, rfl, hout, rfl⟩)
    · exact .inr (.inr ⟨rfl, rfl⟩)
  · rintro (⟨a, docs, rfl, hout, rfl⟩ | ⟨e, docs, rfl, hout, rfl⟩ | ⟨rfl, rfl⟩)
    · exact .inl ⟨a, docs, hout, rfl, rfl⟩
    · exact .inr (.inl ⟨e, docs, hout, rfl, rfl⟩)
    · exact .inr (.inr ⟨rfl, rfl⟩)

end Ends

/-- However `x` ends that starts on a store of `P`, its result and the store it leaves are
of `Q`. -/
def Triple (sv : Service Call Op S D K ε ρ) (P : S → Prop) (x : Routine Op ε α)
    (Q : Except ε α → S → Prop) : Prop := ∀ s r s', P s → sv.Ends x.run s r s' → Q r s'

namespace Triple

variable {P : S → Prop} {Q : Except ε α → S → Prop}

theorem pure {a : α} (h : ∀ s, P s → Q (.ok a) s) : sv.Triple P (pure a) Q := by
  intro s r s' hs hends
  obtain ⟨rfl, rfl⟩ := Ends.run_pure.mp hends
  exact h _ hs

theorem throw {e : ε} (h : ∀ s, P s → Q (.error e) s) : sv.Triple P (throw e) Q := by
  intro s r s' hs hends
  obtain ⟨rfl, rfl⟩ := Ends.run_throw.mp hends
  exact h _ hs

theorem bind {R : Except ε β → S → Prop} {x : Routine Op ε β} {f : β → Routine Op ε α}
    (hx : sv.Triple P x R) (hok : ∀ b, sv.Triple (R (.ok b)) (f b) Q)
    (herr : ∀ e s, R (.error e) s → Q (.error e) s) : sv.Triple P (x >>= f) Q := by
  intro s r s' hs hends
  rcases Ends.run_bind.mp hends with ⟨b, s₁, hb, hrest⟩ | ⟨e, rfl, he⟩
  · exact hok b _ _ _ (hx _ _ _ hs hb) hrest
  · exact herr _ _ (hx _ _ _ hs he)

theorem perform {thrown : ε} {op : Op α}
    (happlied : ∀ s a docs, P s → sv.exec α op s a docs → Q (.ok a) (sv.putAll docs s))
    (hlost : ∀ s, P s → Q (.error thrown) s) : sv.Triple P (Routine.perform thrown op) Q := by
  intro s r s' hs hends
  rcases Ends.run_perform.mp hends with ⟨a, docs, rfl, hexec, rfl⟩ | ⟨rfl, rfl⟩
  · exact happlied _ _ _ hs hexec
  · exact hlost _ hs

theorem withTransaction {thrown : ε} {work : Action Op ε α}
    (hcommit : ∀ s a docs, P s → sv.Outcome s work (.ok a) docs → Q (.ok a) (sv.putAll docs s))
    (habort : ∀ s e, P s → Q (.error e) s) :
    sv.Triple P (Routine.withTransaction thrown work) Q := by
  intro s r s' hs hends
  rcases Ends.run_withTransaction.mp hends with
    ⟨a, docs, rfl, hout, rfl⟩ | ⟨e, docs, rfl, -, rfl⟩ | ⟨rfl, rfl⟩
  · exact hcommit _ _ _ hs hout
  · exact habort _ _ hs
  · exact habort _ _ hs

end Triple

/-- A failure of `x` has left the store as it was. -/
def Rejects (sv : Service Call Op S D K ε ρ) (x : Routine Op ε α) : Prop :=
  ∀ s e s', sv.Ends x.run s (.error e) s' → s' = s

/-- An answer of `x` has left the store as it was. -/
def Reads (sv : Service Call Op S D K ε ρ) (x : Routine Op ε α) : Prop :=
  ∀ s a s', sv.Ends x.run s (.ok a) s' → s' = s

namespace Rejects

variable {x : Routine Op ε β} {f : β → Routine Op ε α}

theorem bind (hx : sv.Rejects x) (hreads : sv.Reads x) (hf : ∀ b, sv.Rejects (f b)) :
    sv.Rejects (x >>= f) := by
  intro s e s' h
  rcases Ends.run_bind.mp h with ⟨b, s₁, hb, h⟩ | ⟨e', -, he⟩
  · rw [hf b _ _ _ h, hreads _ _ _ hb]
  · exact hx _ _ _ he

/-- What follows `x` cannot fail. -/
theorem map (hx : sv.Rejects x) {g : β → α} : sv.Rejects (x >>= fun b => pure (g b)) := by
  intro s e s' h
  rcases Ends.run_bind.mp h with ⟨b, s₁, hb, h⟩ | ⟨e', -, he⟩
  · cases (Ends.run_pure.mp h).1
  · exact hx _ _ _ he

theorem perform {thrown : ε} {op : Op α} : sv.Rejects (Routine.perform thrown op) := by
  intro s e s' h
  rcases Ends.run_perform.mp h with ⟨a, docs, ha, -⟩ | ⟨-, hs⟩
  · cases ha
  · exact hs

theorem withTransaction {thrown : ε} {work : Action Op ε α} :
    sv.Rejects (Routine.withTransaction thrown work) := by
  intro s e s' h
  rcases Ends.run_withTransaction.mp h with ⟨a, docs, ha, -⟩ | ⟨e', docs, -, -, hs⟩ | ⟨-, hs⟩
  · cases ha
  · exact hs
  · exact hs

end Rejects

theorem Reads.perform {thrown : ε} {op : Op α}
    (h : ∀ s a docs, sv.exec α op s a docs → docs = []) :
    sv.Reads (Routine.perform thrown op) := by
  intro s a s' hends
  rcases Ends.run_perform.mp hends with ⟨b, docs, -, hexec, rfl⟩ | ⟨ha, -⟩
  · rw [h _ _ _ hexec]
    rfl
  · cases ha

section Machine

variable [DecidableEq ι] {s₀ : S} {R : Regime ι Call Op D} {c c₁ : Config ι Call Op D ε ρ} {i : ι}
  {call : Call} {r : ρ}

theorem move_move {st st' : Stage ι Call Op D ε ρ} :
    (c.move i call st).move i call st' = c.move i call st' := by
  simp [Config.move]

theorem move_commit {st st' : Stage ι Call Op D ε ρ} {docs : List D} :
    (c.move i call st).commit i call docs st' = c.commit i call docs st' := by
  simp [Config.move, Config.commit]

theorem move_threads (st : Stage ι Call Op D ε ρ) :
    (c.move i call st).threads i = some ⟨call, st⟩ := Function.update_self i _ _

theorem move_eq_self {st : Stage ι Call Op D ε ρ} (h : c.threads i = some ⟨call, st⟩) :
    c.move i call st = c := by
  simp [Config.move, ← h]

/-- The calls of a transaction, issued one after another. -/
theorem runs_of_evals {base : List (Commit ι Call D)} {buffer docs : List D}
    {code : Prog Op (Except ε β)} {work : Action Op ε β} {next : Option (Except ε β) → Script Op ε ρ}
    {a : Except ε β}
    (h : Evals (sv.execWithin (sv.after s₀ base)) (fun _ _ => True) code buffer a docs) :
    sv.Runs s₀ R (c.move i call (.within base buffer code work next))
      (c.move i call (.within base docs (.done a) work next)) := by
  induction code generalizing buffer with
  | done b =>
    obtain ⟨rfl, rfl⟩ := h
    exact .refl
  | call op k ih =>
    have hthread : (c.move i call (.within base buffer (.call op k) work next)).threads i =
        some ⟨call, .within base buffer (.call op k) work next⟩ := move_threads _
    rcases h with ⟨b, buffer', hexec, h⟩ | ⟨-, h⟩
    · have hact : sv.Step s₀ R _ _ := .act hthread hexec
      rw [move_move] at hact
      exact .head hact (ih (some b) h)
    · have hfail : sv.Step s₀ R _ _ := .fail hthread
      rw [move_move] at hfail
      exact .head hfail (ih none h)

/-- No other caller has begun and not finished. -/
def Alone (c : Config ι Call Op D ε ρ) (i : ι) : Prop :=
  ∀ j ≠ i, ∀ th, c.threads j = some th → ¬ th.stage.Live

/-- The request of caller `i` is served before anybody else takes a step. -/
def ServedAlone (sv : Service Call Op S D K ε ρ) (s₀ : S) (R : Regime ι Call Op D)
    (c : Config ι Call Op D ε ρ) (i : ι) (call : Call) (r : ρ) (s' : S) : Prop :=
  ∃ c', sv.Runs s₀ R c c' ∧ sv.after s₀ c'.history = s' ∧ c'.Returns i call r ∧
    ∀ j ≠ i, c'.threads j = c.threads j

omit [DecidableEq ι] in
theorem Alone.admits (h : Alone c i) : Admits R c i call :=
  fun j hj th hth hlive => absurd hlive (h j hj th hth)

omit [DecidableEq ι] in
theorem Alone.congr (h : Alone c i) (hothers : ∀ j ≠ i, c₁.threads j = c.threads j) :
    Alone c₁ i := by
  intro j hj th hth
  rw [hothers j hj] at hth
  exact h j hj th hth

variable (c i call) in
theorem move_others (st : Stage ι Call Op D ε ρ) :
    ∀ j ≠ i, (c.move i call st).threads j = c.threads j :=
  fun _ hj => Function.update_of_ne hj _ _

variable (c i call) in
theorem commit_others (docs : List D) (st : Stage ι Call Op D ε ρ) :
    ∀ j ≠ i, (c.commit i call docs st).threads j = c.threads j :=
  fun _ hj => Function.update_of_ne hj _ _

theorem ServedAlone.head (hruns : sv.Runs s₀ R c c₁)
    (hothers : ∀ j ≠ i, c₁.threads j = c.threads j) (h : ServedAlone sv s₀ R c₁ i call r s') :
    ServedAlone sv s₀ R c i call r s' := by
  obtain ⟨c', hrest, hafter, hreturns, hsame⟩ := h
  exact ⟨c', hruns.trans hrest, hafter, hreturns, fun j hj => (hsame j hj).trans (hothers j hj)⟩

/-- A script on its own is served by a run in which nobody else takes a step. -/
theorem servedAlone_of_ends {code : Script Op ε ρ} (hR : ∀ h β op, R.may i call h β op)
    (halone : Alone c i) (hc : c.threads i = some ⟨call, .script code⟩)
    (h : sv.Ends code (sv.after s₀ c.history) r s') : ServedAlone sv s₀ R c i call r s' := by
  induction code generalizing c with
  | done a =>
    obtain ⟨rfl, rfl⟩ := h
    exact ⟨c, .refl, rfl, hc, fun _ _ => rfl⟩
  | call op next ih =>
    rcases h with ⟨b, docs, hexec, h⟩ | h
    · have hothers := commit_others c i call docs (.script (next (some b)))
      exact .head (.single (.reply hc (hR _ _ _) halone.admits hexec)) hothers
        (ih (some b) (halone.congr hothers) (Function.update_self i _ _) h)
    · have hothers := move_others c i call (.script (next none))
      exact .head (.single (.lose hc)) hothers (ih none (halone.congr hothers) (move_threads _) h)
  | transact work next ih =>
    have hbegin : sv.Runs s₀ R c (c.move i call (.within c.history [] work.run work next)) :=
      .single (.begin hc)
    have hothers : ∀ st, ∀ j ≠ i, (c.move i call st).threads j = c.threads j := move_others c i call
    have hthread : ∀ st, (c.move i call st).threads i = some ⟨call, st⟩ := move_threads
    -- the snapshot is the store, and nobody commits beside
    rcases h with ⟨b, docs, ⟨hevals⟩, h⟩ | ⟨e, docs, ⟨hevals⟩, h⟩ | h
    · have hcommit : sv.Step s₀ R _ _ := .commit (hthread (.within c.history docs (.done (.ok b)) work next))
        (halone.congr (hothers _)).admits (List.nil_append c.history).symm nofun
      rw [move_commit] at hcommit
      have hsame := commit_others c i call docs (.script (next (some (.ok b))))
      exact .head ((hbegin.trans (runs_of_evals hevals)).tail hcommit) hsame
        (ih _ (halone.congr hsame) (Function.update_self i _ _) h)
    · have habort : sv.Step s₀ R _ _ := .abort (hthread (.within c.history docs (.done (.error e)) work next))
      rw [move_move] at habort
      exact .head ((hbegin.trans (runs_of_evals hevals)).tail habort) (hothers _)
        (ih _ (halone.congr (hothers _)) (hthread _) h)
    · have habandon : sv.Step s₀ R _ _ := .abandon (hthread (.within c.history [] work.run work next))
      rw [move_move] at habandon
      exact .head (hbegin.tail habandon) (hothers _) (ih _ (halone.congr (hothers _)) (hthread _) h)

/-- A serial run is a run of the machine, each request by a caller of its own. -/
theorem SerialRun.reachable {may : S → Call → Prop} (h : sv.SerialRun may s₀ s) :
    ∃ c : Config ℕ Call Op D ε ρ, sv.Reachable s₀ Regime.any c ∧ sv.after s₀ c.history = s := by
  -- the callers up to a number have been served, and the others have not started
  suffices hserved : ∃ (c : Config ℕ Call Op D ε ρ) (n : ℕ), sv.Reachable s₀ Regime.any c ∧
      sv.after s₀ c.history = s ∧ ∀ j, Alone c j ∧ (n ≤ j → c.threads j = none) by
    obtain ⟨c, -, hreach, hafter, -⟩ := hserved
    exact ⟨c, hreach, hafter⟩
  induction h with
  | refl => exact ⟨Config.init, 0, .refl, rfl, fun j => ⟨nofun, fun _ => rfl⟩⟩
  | @serve s₁ s₂ call r _ _ hends ih =>
    obtain ⟨c, n, hreach, rfl, hidle⟩ := ih
    have hstart : sv.Step s₀ Regime.any c (c.move n call (.script (sv.body call))) :=
      .start call ((hidle n).2 (Nat.le_refl n))
    have hmay : ∀ h β op, (Regime.any : Regime ℕ Call Op D).may n call h β op :=
      fun _ _ _ => trivial
    obtain ⟨c', hruns, hafter, hreturns, hothers⟩ := servedAlone_of_ends hmay
      ((hidle n).1.congr (move_others c n call _)) (move_threads _) hends
    have hsame : ∀ j ≠ n, c'.threads j = c.threads j := fun j hj =>
      (hothers j hj).trans (move_others c n call _ j hj)
    refine ⟨c', n + 1, (hreach.tail hstart).trans hruns, hafter, fun j => ⟨?_, fun hj => ?_⟩⟩
    · intro k hk th hth hlive
      by_cases hkn : k = n
      · subst hkn
        rw [hreturns] at hth
        cases hth
        exact hlive
      · rw [hsame k hkn] at hth
        exact (hidle (k + 1)).1 k (Nat.ne_of_lt k.lt_succ_self) th hth hlive
    · rw [hsame j (by omega)]
      exact (hidle j).2 (by omega)

end Machine

section Execution

variable {Choice : Type} (sv) (run : (β : Type) → Op β → S → Choice → Option (β × List D))

/-- A callback on the snapshot `s`, all of whose calls answer as `x` picks. -/
def playWithin (s : S) (x : Choice) : Prog Op α → List D → Option (α × List D)
  | .done a, buffer => some (a, buffer)
  | @Prog.call _ _ β op next, buffer =>
    (run β op (sv.putAll buffer s) x).bind fun r => playWithin s x (next (some r.1)) (r.2 ++ buffer)

/-- A script on its own, all of whose calls answer as `x` picks. -/
def play (x : Choice) : Script Op ε α → S → Option (α × S)
  | .done a, s => some (a, s)
  | @Script.call _ _ _ β op next, s =>
    (run β op s x).bind fun r => play x (next (some r.1)) (sv.putAll r.2 s)
  | .transact work next, s =>
    (playWithin sv run s x work.run []).bind fun r =>
      play x (next (some r.1)) (match r.1 with
        | .ok _ => sv.putAll r.2 s
        | .error _ => s)

/-- Requests one after another, each where it may be served. -/
def playAll (allowed : S → Call → Bool) : List (Call × Choice) → S → Option S
  | [], s => some s
  | (call, x) :: calls, s =>
    if allowed s call then (play sv run x (sv.body call) s).bind fun r => playAll allowed calls r.2
    else none

variable {sv run} (hrun : ∀ {β op s x b docs}, run β op s x = some (b, docs) → sv.exec β op s b docs)

include hrun

theorem playWithin_evals {x : Choice} {code : Prog Op α} {buffer docs : List D} {a : α}
    (h : playWithin sv run s x code buffer = some (a, docs)) :
    Evals (sv.execWithin s) (fun _ _ => True) code buffer a docs := by
  induction code generalizing buffer with
  | done b =>
    cases h
    exact ⟨rfl, rfl⟩
  | call op next ih =>
    obtain ⟨⟨b, docs'⟩, hb, hrest⟩ := Option.bind_eq_some_iff.mp h
    exact .inl ⟨b, _, ⟨docs', hrun hb, rfl⟩, ih _ hrest⟩

theorem play_ends {x : Choice} {code : Script Op ε α} {a : α}
    (h : play sv run x code s = some (a, s')) : sv.Ends code s a s' := by
  induction code generalizing s with
  | done b =>
    cases h
    exact ⟨rfl, rfl⟩
  | call op next ih =>
    obtain ⟨⟨b, docs⟩, hb, hrest⟩ := Option.bind_eq_some_iff.mp h
    exact .inl ⟨b, docs, hrun hb, ih _ hrest⟩
  | transact work next ih =>
    obtain ⟨⟨r, docs⟩, hr, hrest⟩ := Option.bind_eq_some_iff.mp h
    have hout : sv.Outcome s work r docs := ⟨playWithin_evals hrun hr⟩
    cases r with
    | ok b => exact .inl ⟨b, docs, hout, ih _ hrest⟩
    | error e => exact .inr (.inl ⟨e, docs, hout, ih _ hrest⟩)

theorem SerialRun.playAll {may : S → Call → Prop} {allowed : S → Call → Bool}
    (hallowed : ∀ {s call}, allowed s call = true → may s call) {calls : List (Call × Choice)}
    {s₀ : S} (hbefore : sv.SerialRun may s₀ s)
    (h : Service.playAll sv run allowed calls s = some s') : sv.SerialRun may s₀ s' := by
  induction calls generalizing s with
  | nil =>
    cases h
    exact hbefore
  | cons call calls ih =>
    simp only [Service.playAll] at h
    split at h
    · next hmay =>
      obtain ⟨⟨r, s₁⟩, hserved, hrest⟩ := Option.bind_eq_some_iff.mp h
      exact ih (hbefore.serve (hallowed hmay) (play_ends hrun hserved)) hrest
    · cases h

end Execution

section Confined

/-- A confined callback leaves only documents of the kind that its calls write. -/
theorem evals_docs {P : (β : Type) → Op β → Prop} {Q : D → Prop}
    (hP : ∀ {β op s b docs}, P β op → sv.exec β op s b docs → ∀ d ∈ docs, Q d)
    {code : Prog Op α} {buffer buffer' : List D} {a : α} (hcode : code.Confined P)
    (h : Evals (sv.execWithin s) (fun _ _ => True) code buffer a buffer')
    (hbuffer : ∀ d ∈ buffer, Q d) : ∀ d ∈ buffer', Q d := by
  induction code generalizing buffer with
  | done b =>
    obtain ⟨-, rfl⟩ := h
    exact hbuffer
  | call op next ih =>
    obtain ⟨hop, hnext⟩ := hcode
    rcases h with ⟨b, _, ⟨docs, hexec, rfl⟩, h⟩ | ⟨-, h⟩
    · refine ih _ (hnext _) h fun d hd => ?_
      rcases List.mem_append.mp hd with hnew | hold
      · exact hP hop hexec d hnew
      · exact hbuffer d hold
    · exact ih _ (hnext _) h hbuffer

end Confined

end Service

end Transactions
