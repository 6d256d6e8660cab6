import BookLibrary.Transactions.Machine

/-!
# Reasoning about one request at a time

While a request is being served the history only grows, by commits of others that the
regime allows. So a request is walked through once against any such history
(`Conforms`), a transaction in one stride from its snapshot to its commit, and every
commit is shown to keep an invariant of the history. `WellFormed.runs` carries the
invariant over every run.
-/

namespace Transactions

open Interleaving

variable {ι Call : Type} {Op : Type → Type} {S D K ε ρ : Type}

/-- The history `h` has grown to `h'` while caller `i` waited. -/
def Grows (R : Regime ι Call Op D) (i : ι) (call : Call) (h h' : List (Commit ι Call D)) : Prop :=
  ∃ recent, h' = recent ++ h ∧ ∀ c ∈ recent, c.caller ≠ i ∧ R.beside call c.call

section Grows

variable {R : Regime ι Call Op D} {i : ι} {call : Call} {h h₁ h₂ : List (Commit ι Call D)}

theorem Grows.refl : Grows R i call h h := ⟨[], rfl, by simp⟩

theorem Grows.suffix (hg : Grows R i call h h₁) : h <:+ h₁ := by
  obtain ⟨recent, rfl, -⟩ := hg
  exact List.suffix_append _ _

theorem Grows.trans (hg : Grows R i call h h₁) (hg' : Grows R i call h₁ h₂) :
    Grows R i call h h₂ := by
  obtain ⟨recent, rfl, hr⟩ := hg
  obtain ⟨recent', rfl, hr'⟩ := hg'
  refine ⟨recent' ++ recent, (List.append_assoc _ _ _).symm, fun c hc => ?_⟩
  rcases List.mem_append.mp hc with hc | hc
  · exact hr' c hc
  · exact hr c hc

theorem Grows.cons {c : Commit ι Call D} (hg : Grows R i call h h₁) (hi : c.caller ≠ i)
    (hb : R.beside call c.call) : Grows R i call h (c :: h₁) := by
  obtain ⟨recent, rfl, hr⟩ := hg
  refine ⟨c :: recent, rfl, fun c' hc' => ?_⟩
  rcases List.mem_cons.mp hc' with rfl | hc'
  · exact ⟨hi, hb⟩
  · exact hr c' hc'

end Grows

namespace Service

variable (sv : Service Call Op S D K ε ρ) (s₀ : S) (R : Regime ι Call Op D)
  (inv : List (Commit ι Call D) → Prop)

/-- Every commit of `call` by caller `i` keeps the invariant, and the script ends as
`post` says of the history it ends with. -/
def Conforms (i : ι) (call : Call) {α : Type} (post : List (Commit ι Call D) → α → Prop) :
    List (Commit ι Call D) → Script Op ε α → Prop
  | h, .done a => post h a
  | h, @Script.call _ _ _ β op next => ∀ h', Grows R i call h h' → inv h' →
    (∀ b docs, R.may i call h' β op → sv.exec β op (sv.after s₀ h') b docs →
      inv (⟨i, call, docs⟩ :: h') ∧ Conforms i call post (⟨i, call, docs⟩ :: h') (next (some b)) ∧
      Conforms i call post (⟨i, call, docs⟩ :: h') (next none)) ∧
    Conforms i call post h' (next none)
  | h, .transact work next => ∀ h₁ h₂, Grows R i call h h₁ → inv h₁ → Grows R i call h₁ h₂ →
    inv h₂ →
    (∀ b docs, sv.Outcome (sv.after s₀ h₁) work (.ok b) docs →
      (∀ recent, h₂ = recent ++ h₁ → sv.Unconflicted docs recent) →
      inv (⟨i, call, docs⟩ :: h₂) ∧
      Conforms i call post (⟨i, call, docs⟩ :: h₂) (next (some (.ok b))) ∧
      Conforms i call post (⟨i, call, docs⟩ :: h₂) (next none)) ∧
    (∀ e docs, sv.Outcome (sv.after s₀ h₁) work (.error e) docs →
      Conforms i call post h₂ (next (some (.error e)))) ∧
    Conforms i call post h₂ (next none)

namespace Conforms

variable {sv s₀ R inv} {i : ι} {call : Call} {α β : Type} {h : List (Commit ι Call D)}

theorem mono {post post' : List (Commit ι Call D) → α → Prop} {p : Script Op ε α}
    (hpost : ∀ h a, post h a → post' h a) (hp : sv.Conforms s₀ R inv i call post h p) :
    sv.Conforms s₀ R inv i call post' h p := by
  induction p generalizing h with
  | done a => exact hpost _ _ hp
  | call op next ih =>
    intro h' hg hi
    obtain ⟨happlied, hlost⟩ := hp h' hg hi
    refine ⟨fun b docs hmay heff => ?_, ih _ hlost⟩
    obtain ⟨hinv, hok, hraised⟩ := happlied b docs hmay heff
    exact ⟨hinv, ih _ hok, ih _ hraised⟩
  | transact work next ih =>
    intro h₁ h₂ hg₁ hi₁ hg₂ hi₂
    obtain ⟨hcommit, habort, hgone⟩ := hp h₁ h₂ hg₁ hi₁ hg₂ hi₂
    refine ⟨fun b docs hout hfree => ?_, fun e docs hout => ih _ (habort e docs hout), ih _ hgone⟩
    obtain ⟨hinv, hok, hunheard⟩ := hcommit b docs hout hfree
    exact ⟨hinv, ih _ hok, ih _ hunheard⟩

theorem bind {post : List (Commit ι Call D) → β → Prop} {p : Script Op ε α}
    {f : α → Script Op ε β}
    (hp : sv.Conforms s₀ R inv i call (fun h a => sv.Conforms s₀ R inv i call post h (f a)) h p) :
    sv.Conforms s₀ R inv i call post h (p >>= f) := by
  induction p generalizing h with
  | done a => exact hp
  | call op next ih =>
    intro h' hg hi
    obtain ⟨happlied, hlost⟩ := hp h' hg hi
    refine ⟨fun b docs hmay heff => ?_, ih _ hlost⟩
    obtain ⟨hinv, hok, hraised⟩ := happlied b docs hmay heff
    exact ⟨hinv, ih _ hok, ih _ hraised⟩
  | transact work next ih =>
    intro h₁ h₂ hg₁ hi₁ hg₂ hi₂
    obtain ⟨hcommit, habort, hgone⟩ := hp h₁ h₂ hg₁ hi₁ hg₂ hi₂
    refine ⟨fun b docs hout hfree => ?_, fun e docs hout => ih _ (habort e docs hout), ih _ hgone⟩
    obtain ⟨hinv, hok, hunheard⟩ := hcommit b docs hout hfree
    exact ⟨hinv, ih _ hok, ih _ hunheard⟩

/-- What has been walked through from a shorter history need not be walked again. -/
theorem grown {post : List (Commit ι Call D) → α → Prop} {p : Script Op ε α}
    {h' : List (Commit ι Call D)} (hlive : p.Live)
    (hg : Grows R i call h h') (hp : sv.Conforms s₀ R inv i call post h p) :
    sv.Conforms s₀ R inv i call post h' p := by
  cases p with
  | done a => exact hlive.elim
  | call op next => exact fun h₁ hg₁ => hp h₁ (hg.trans hg₁)
  | transact work next => exact fun h₁ h₂ hg₁ => hp h₁ h₂ (hg.trans hg₁)

variable {post : List (Commit ι Call D) → Except ε α → Prop}

theorem run_pure {a : α} (hpost : post h (.ok a)) :
    sv.Conforms s₀ R inv i call post h (pure a : Routine Op ε α).run := hpost

theorem run_throw {e : ε} (hpost : post h (.error e)) :
    sv.Conforms s₀ R inv i call post h (throw e : Routine Op ε α).run := hpost

/-- The walk through `x` and then through `f`, with what holds between them named. -/
theorem run_then {mid : List (Commit ι Call D) → Except ε β → Prop} {x : Routine Op ε β}
    {f : β → Routine Op ε α} (hx : sv.Conforms s₀ R inv i call mid h x.run)
    (hok : ∀ h b, mid h (.ok b) → sv.Conforms s₀ R inv i call post h (f b).run)
    (herr : ∀ h e, mid h (.error e) → post h (.error e)) :
    sv.Conforms s₀ R inv i call post h (x >>= f).run := by
  refine bind (f := ExceptT.bindCont f) (hx.mono fun h r hr => ?_)
  cases r with
  | ok b => exact hok h b hr
  | error e => exact herr h e hr

/-- A result is only handed on. -/
theorem run_return {g : β → α} {x : Routine Op ε β}
    (hx : sv.Conforms s₀ R inv i call (fun _ _ => True) h x.run) :
    sv.Conforms s₀ R inv i call (fun _ _ => True) h (x >>= fun b => pure (g b)).run :=
  run_then hx (fun _ _ _ => trivial) fun _ _ _ => trivial

/-- The walk through a `try`, with what holds at its end named. -/
theorem run_handle {mid : List (Commit ι Call D) → Except ε α → Prop} {x : Routine Op ε α}
    {f : ε → Routine Op ε α} (hx : sv.Conforms s₀ R inv i call mid h x.run)
    (hok : ∀ h a, mid h (.ok a) → post h (.ok a))
    (herr : ∀ h e, mid h (.error e) → sv.Conforms s₀ R inv i call post h (f e).run) :
    sv.Conforms s₀ R inv i call post h (tryCatch x f).run := by
  rw [Routine.run_tryCatch]
  refine bind (hx.mono fun h r hr => ?_)
  cases r with
  | ok a => exact hok h a hr
  | error e => exact herr h e hr

/-- An atomic call: what it commits keeps the invariant, whether it answers or throws. -/
theorem run_perform {thrown : ε} {op : Op α}
    (happlied : ∀ h' b docs, Grows R i call h h' → inv h' → R.may i call h' α op →
      sv.exec α op (sv.after s₀ h') b docs → inv (⟨i, call, docs⟩ :: h') ∧
      post (⟨i, call, docs⟩ :: h') (.ok b) ∧ post (⟨i, call, docs⟩ :: h') (.error thrown))
    (hlost : ∀ h', Grows R i call h h' → inv h' → post h' (.error thrown)) :
    sv.Conforms s₀ R inv i call post h (Routine.perform thrown op).run := by
  intro h' hg hi
  exact ⟨fun b docs hmay heff => happlied h' b docs hg hi hmay heff, hlost h' hg hi⟩

/-- A transaction: what it commits keeps the invariant, whether it is heard of or not. -/
theorem run_withTransaction {thrown : ε} {work : Action Op ε α}
    (hcommit : ∀ h₁ h₂ b docs, Grows R i call h h₁ → inv h₁ → Grows R i call h₁ h₂ → inv h₂ →
      sv.Outcome (sv.after s₀ h₁) work (.ok b) docs →
      (∀ recent, h₂ = recent ++ h₁ → sv.Unconflicted docs recent) →
      inv (⟨i, call, docs⟩ :: h₂) ∧ post (⟨i, call, docs⟩ :: h₂) (.ok b) ∧
      post (⟨i, call, docs⟩ :: h₂) (.error thrown))
    (habort : ∀ h₁ h₂ e docs, Grows R i call h h₁ → inv h₁ → Grows R i call h₁ h₂ → inv h₂ →
      sv.Outcome (sv.after s₀ h₁) work (.error e) docs → post h₂ (.error e))
    (hgone : ∀ h', Grows R i call h h' → inv h' → post h' (.error thrown)) :
    sv.Conforms s₀ R inv i call post h (Routine.withTransaction thrown work).run := by
  intro h₁ h₂ hg₁ hi₁ hg₂ hi₂
  exact ⟨fun b docs hout hfree => hcommit h₁ h₂ b docs hg₁ hi₁ hg₂ hi₂ hout hfree,
    fun e docs hout => habort h₁ h₂ e docs hg₁ hi₁ hg₂ hi₂ hout, hgone h₂ (hg₁.trans hg₂) hi₂⟩

end Conforms

/-- What holds of a store and survives every document off the key `k` survives commits
that keep off it. -/
theorem kept {P : S → Prop} {k : K} {h recent : List (Commit ι Call D)}
    (hput : ∀ d s, sv.key d ≠ k → P s → P (sv.put d s))
    (hfree : ∀ c ∈ recent, ∀ d ∈ c.docs, sv.key d ≠ k) (hP : P (sv.after s₀ h)) :
    P (sv.after s₀ (recent ++ h)) := by
  induction recent with
  | nil => exact hP
  | cons c recent ih =>
    have hdocs : ∀ docs : List D, (∀ d ∈ docs, sv.key d ≠ k) →
        P (sv.putAll docs (sv.after s₀ (recent ++ h))) := by
      intro docs
      induction docs with
      | nil => exact fun _ => ih fun c' hc' => hfree c' (List.mem_cons_of_mem _ hc')
      | cons d docs ihd =>
        intro hoff
        exact hput _ _ (hoff d List.mem_cons_self)
          (ihd fun d' hd' => hoff d' (List.mem_cons_of_mem _ hd'))
    exact hdocs c.docs (hfree c List.mem_cons_self)

/-- What every document leaves as it is, every history leaves as it is. -/
theorem always {P : S → Prop} {h : List (Commit ι Call D)} (hput : ∀ d s, P s → P (sv.put d s))
    (hP : P s₀) : P (sv.after s₀ h) := by
  induction h with
  | nil => exact hP
  | cons c h ih =>
    show P (sv.putAll c.docs (sv.after s₀ h))
    generalize c.docs = docs
    induction docs with
    | nil => exact ih
    | cons d docs ihd => exact hput d _ ihd

/-- An invariant of the history that every request of the service keeps. -/
structure Keeps : Prop where
  init : inv []
  body : ∀ i call h, inv h → sv.Conforms s₀ R inv i call (fun _ _ => True) h (sv.body call)

/-- What is known of caller `i`, whose request is `call`, when the history is `h`. -/
def Serves (h : List (Commit ι Call D)) (i : ι) (call : Call) : Stage ι Call Op D ε ρ → Prop
  | .script p => ∃ h', h' <:+ h ∧ (p.Live →
      Grows R i call h' h) ∧ sv.Conforms s₀ R inv i call (fun _ _ => True) h' p
  | .within base buffer code work next => Grows R i call base h ∧ inv base ∧
      (∀ r docs, Evals (sv.execWithin (sv.after s₀ base)) (fun _ _ => True) code buffer r docs →
        sv.Outcome (sv.after s₀ base) work r docs) ∧
      sv.Conforms s₀ R inv i call (fun _ _ => True) base (.transact work next)
  | .crashed => True

structure WellFormed (c : Config ι Call Op D ε ρ) : Prop where
  holds : inv c.history
  serves : ∀ i th, c.threads i = some th → sv.Serves s₀ R inv c.history i th.call th.stage

variable {sv s₀ R inv}

theorem Serves.of_conforms {h : List (Commit ι Call D)} {i : ι} {call : Call} {p : Script Op ε ρ}
    (hp : sv.Conforms s₀ R inv i call (fun _ _ => True) h p) :
    sv.Serves s₀ R inv h i call (.script p) := ⟨h, List.suffix_refl h, fun _ => Grows.refl, hp⟩

/-- A live script conforms from the present history on. -/
theorem Serves.conforms {h : List (Commit ι Call D)} {i : ι} {call : Call} {p : Script Op ε ρ}
    (hs : sv.Serves s₀ R inv h i call (.script p))
    (hlive : p.Live) :
    sv.Conforms s₀ R inv i call (fun _ _ => True) h p := by
  obtain ⟨h', -, hg, hp⟩ := hs
  exact hp.grown hlive (hg hlive)

/-- A commit of another caller that the regime allows beside a request. -/
theorem Serves.other {h : List (Commit ι Call D)} {i : ι} {call : Call} {st : Stage ι Call Op D ε ρ}
    {c : Commit ι Call D} (hs : sv.Serves s₀ R inv h i call st) (hi : c.caller ≠ i)
    (hb : st.Live → R.beside call c.call) : sv.Serves s₀ R inv (c :: h) i call st := by
  cases st with
  | script p =>
    obtain ⟨h', hsuff, hg, hp⟩ := hs
    exact ⟨h', hsuff.trans (List.suffix_cons _ _), fun hl => (hg hl).cons hi (hb hl), hp⟩
  | within base buffer code work next =>
    obtain ⟨hg, hrest⟩ := hs
    exact ⟨hg.cons hi (hb trivial), hrest⟩
  | crashed => trivial

namespace WellFormed

variable {c c' : Config ι Call Op D ε ρ}

theorem init (k : sv.Keeps s₀ R inv) : sv.WellFormed s₀ R inv (Config.init) :=
  ⟨k.init, fun i th h => by cases h⟩

variable [DecidableEq ι]

/-- Caller `i` moves on without a commit. -/
theorem move (w : sv.WellFormed s₀ R inv c) {i : ι} {call : Call} {st : Stage ι Call Op D ε ρ}
    (hst : sv.Serves s₀ R inv c.history i call st) : sv.WellFormed s₀ R inv (c.move i call st) := by
  refine ⟨w.holds, fun j th hj => ?_⟩
  by_cases hji : j = i
  · subst hji
    have heq : (⟨call, st⟩ : Thread ι Call Op D ε ρ) = th := by simpa [Config.move] using hj
    rw [← heq]
    exact hst
  · exact w.serves j th (by simpa [Config.move, Function.update_of_ne hji] using hj)

/-- Caller `i` moves on with a commit that the regime allows and that keeps the invariant. -/
theorem commit (w : sv.WellFormed s₀ R inv c) {i : ι} {call : Call} {docs : List D}
    {st : Stage ι Call Op D ε ρ} (hb : Admits R c i call)
    (hinv : inv (⟨i, call, docs⟩ :: c.history))
    (hst : sv.Serves s₀ R inv (⟨i, call, docs⟩ :: c.history) i call st) :
    sv.WellFormed s₀ R inv (c.commit i call docs st) := by
  refine ⟨hinv, fun j th hj => ?_⟩
  by_cases hji : j = i
  · subst hji
    have heq : (⟨call, st⟩ : Thread ι Call Op D ε ρ) = th := by simpa [Config.commit] using hj
    rw [← heq]
    exact hst
  · have hold : c.threads j = some th := by
      simpa [Config.commit, Function.update_of_ne hji] using hj
    exact (w.serves j th hold).other (Ne.symm hji) (hb j hji th hold)

theorem step (k : sv.Keeps s₀ R inv) (w : sv.WellFormed s₀ R inv c) (h : sv.Step s₀ R c c') :
    sv.WellFormed s₀ R inv c' := by
  cases h with
  | start call free => exact w.move (Serves.of_conforms (k.body _ _ _ w.holds))
  | reply running may beside effect =>
    have hp := (w.serves _ _ running).conforms trivial
    obtain ⟨hinv, hok, -⟩ := (hp _ Grows.refl w.holds).1 _ _ may effect
    exact w.commit beside hinv (Serves.of_conforms hok)
  | raise running may beside effect =>
    have hp := (w.serves _ _ running).conforms trivial
    obtain ⟨hinv, -, hraised⟩ := (hp _ Grows.refl w.holds).1 _ _ may effect
    exact w.commit beside hinv (Serves.of_conforms hraised)
  | lose running =>
    have hp := (w.serves _ _ running).conforms trivial
    exact w.move (Serves.of_conforms (hp _ Grows.refl w.holds).2)
  | begin running =>
    have hp := (w.serves _ _ running).conforms trivial
    exact w.move ⟨Grows.refl, w.holds, fun _ _ h => ⟨h⟩, hp⟩
  | act running effect =>
    obtain ⟨hg, hbase, hout, hp⟩ := w.serves _ _ running
    exact w.move ⟨hg, hbase, fun r docs h => hout r docs (.inl ⟨_, _, effect, h⟩), hp⟩
  | fail running =>
    obtain ⟨hg, hbase, hout, hp⟩ := w.serves _ _ running
    exact w.move ⟨hg, hbase, fun r docs h => hout r docs (.inr ⟨trivial, h⟩), hp⟩
  | rerun running =>
    obtain ⟨hg, -, -, hp⟩ := w.serves _ _ running
    exact w.move ⟨Grows.refl, w.holds, fun _ _ h => ⟨h⟩, hp.grown trivial hg⟩
  | abandon running =>
    obtain ⟨hg, hbase, -, hp⟩ := w.serves _ _ running
    exact w.move (Serves.of_conforms (hp _ _ Grows.refl hbase hg w.holds).2.2)
  | commit running beside since free =>
    obtain ⟨hg, hbase, hout, hp⟩ := w.serves _ _ running
    obtain ⟨hinv, hok, -⟩ := (hp _ _ Grows.refl hbase hg w.holds).1 _ _ (hout _ _ ⟨rfl, rfl⟩)
      fun recent heq => by rwa [List.append_cancel_right (since.symm.trans heq)] at free
    exact w.commit beside hinv (Serves.of_conforms hok)
  | commitUnheard running beside since free =>
    obtain ⟨hg, hbase, hout, hp⟩ := w.serves _ _ running
    obtain ⟨hinv, -, hunheard⟩ := (hp _ _ Grows.refl hbase hg w.holds).1 _ _ (hout _ _ ⟨rfl, rfl⟩)
      fun recent heq => by rwa [List.append_cancel_right (since.symm.trans heq)] at free
    exact w.commit beside hinv (Serves.of_conforms hunheard)
  | abort running =>
    obtain ⟨hg, hbase, hout, hp⟩ := w.serves _ _ running
    exact w.move (Serves.of_conforms
      ((hp _ _ Grows.refl hbase hg w.holds).2.1 _ _ (hout _ _ ⟨rfl, rfl⟩)))
  | crash running live => exact w.move trivial

/-- Every run keeps the invariant. -/
theorem runs (k : sv.Keeps s₀ R inv) (w : sv.WellFormed s₀ R inv c) (h : sv.Runs s₀ R c c') :
    sv.WellFormed s₀ R inv c' := by
  induction h with
  | refl => exact w
  | tail _ hs ih => exact ih.step k hs

end WellFormed

theorem Keeps.reachable [DecidableEq ι] (k : sv.Keeps s₀ R inv) {c : Config ι Call Op D ε ρ}
    (h : sv.Reachable s₀ R c) : inv c.history := ((WellFormed.init k).runs k h).holds

end Service

end Transactions
