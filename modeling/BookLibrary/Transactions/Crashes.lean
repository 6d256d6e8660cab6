import BookLibrary.Interleaving.Crashes
import BookLibrary.Transactions.Handlers

/-!
# Requests that may stop

A request on its own over a document store: what its calls see, within a transaction or
outside of all, and what it has committed wherever it stops.
-/

namespace Sessions

open Interleaving

variable {Q : Type → Type} {W S D K E F : Type} {X : Type → Type} {α β ε : Type}

section Views

variable (sc : Schema Q W S D K) (I : S → Prop)

/-- What the calls of a session see: the store itself, or the writes of a transaction over
its snapshot `base`, which nobody has changed. -/
def At (session : Option ℕ) (base v : S) (s : Store S D) : Prop :=
  I s.committed ∧ match session with
    | none => s.committed = v
    | some n => s.committed = base ∧ ∃ t, s.transactions n = some t ∧ t.snapshot = base ∧
      sc.putAll t.buffer base = v

/-- The program works on the view of one session, and what is committed is always of `I`. -/
abbrev Works (drawFails : (β : Type) → X β → Prop) (session : Option ℕ) (base : S)
    (p : Prog (Op Q W D X) α) (v : S) (R : α → S → Prop) : Prop :=
  Interleaving.Works (Op.exec sc) (Op.fallible drawFails) (fun s => I s.committed)
    (At sc I session base) p v R

/-- The same of an action, where it ends without an exception. -/
abbrev Yields (drawFails : (β : Type) → X β → Prop) (session : Option ℕ) (base : S)
    (x : Action (Op Q W D X) ε α) (v : S) (R : α → S → Prop) : Prop :=
  Interleaving.Yields (Op.exec sc) (Op.fallible drawFails) (fun s => I s.committed)
    (At sc I session base) x v R

end Views

/-- The store with the documents of a write. -/
def Schema.wrote (sc : Schema Q W S D K) (w : W) (v : S) : S := sc.putAll (sc.write w v).docs v

variable {sc : Schema Q W S D K} {I : S → Prop} {drawFails : (β : Type) → X β → Prop}
  {session : Option ℕ} {base v : S} {s s₁ : Store S D} {err : Errors X ε}

theorem At.inv (h : At sc I session base v s) : I s.committed := h.1

theorem At.view (h : At sc I session base v s) : sc.view s session = some v := by
  cases session with
  | none => exact congrArg some h.2
  | some n =>
    obtain ⟨-, -, t, ht, rfl, rfl⟩ := h
    rw [Schema.view, ht]
    rfl

/-- One call, whose failure is passed on with the driver's error. -/
theorem perform_works {op : Op Q W D X β} {R : Except ε β → S → Prop}
    (h : ∀ s, At sc I session base v s → ∀ o s₁, Goes (Op.exec sc) (Op.fallible drawFails) op s o s₁ →
      ∃ v₁, At sc I session base v₁ s₁ ∧ match o with
        | .answered b => R (.ok b) v₁
        | .threw _ => ∀ x, R (.error (err.raise x)) v₁) :
    Works sc I drawFails session base (perform err op).run v R := by
  refine Interleaving.Works.call fun s hs o s₁ hgoes => ?_
  obtain ⟨v₁, hv₁, hR⟩ := h s hs o s₁ hgoes
  refine ⟨hv₁.inv, v₁, hv₁, ?_⟩
  cases o with
  | answered b => exact .done hR
  | threw r =>
    refine Interleaving.Works.call fun s₁ hs₁ o s₂ hgoes => ?_
    have hsame : s₂ = s₁ := by
      rcases hgoes.applied with ⟨-, heq⟩ | ⟨x, -, heq⟩
      · exact heq
      · exact heq
    subst hsame
    exact ⟨hs₁.inv, v₁, hs₁, .done (hR _)⟩

theorem find_works {q : Q β} {R : Except ε β → S → Prop}
    (hok : ∀ b, sc.answers β q v b → R (.ok b) v) (herr : ∀ x, R (.error (err.raise x)) v) :
    Works sc I drawFails session base (perform err (.find session q)).run v R := by
  refine perform_works fun s hs o s₁ hgoes => ?_
  have same : ∀ b, sc.query β session q s b s₁ → s₁ = s ∧ sc.answers β q v b := by
    rintro b ⟨⟨v', hv', hq⟩, heq⟩
    rw [hs.view] at hv'
    cases hv'
    exact ⟨heq, hq⟩
  cases o with
  | answered b =>
    obtain ⟨rfl, hq⟩ := same b hgoes
    exact ⟨v, hs, hok b hq⟩
  | threw r =>
    cases r with
    | none =>
      obtain ⟨-, rfl⟩ := hgoes
      exact ⟨v, hs, herr⟩
    | some b =>
      obtain ⟨rfl, -⟩ := same b hgoes.2
      exact ⟨v, hs, herr⟩

theorem draw_works {x : X β} {R : Except ε β → S → Prop} (hok : ∀ b, R (.ok b) v)
    (herr : drawFails β x → ∀ e, R (.error (err.raise e)) v) :
    Works sc I drawFails session base (perform err (.draw x)).run v R := by
  refine perform_works fun s hs o s₁ hgoes => ?_
  cases o with
  | answered b =>
    obtain rfl : s₁ = s := hgoes
    exact ⟨v, hs, hok b⟩
  | threw r =>
    cases r with
    | none =>
      obtain ⟨hfails, rfl⟩ := hgoes
      exact ⟨v, hs, herr hfails⟩
    | some b =>
      obtain ⟨hfails, heq⟩ := hgoes
      obtain rfl : s₁ = s := heq
      exact ⟨v, hs, herr hfails⟩

/-- Outside of all transactions what is written is committed. -/
theorem write_works {w : W} {R : Except ε (WriteResult D) → S → Prop}
    (hinv : session = none → I v → I (sc.wrote w v)) (hok : R (.ok (sc.write w v)) (sc.wrote w v))
    (hlost : ∀ x, R (.error (err.raise x)) v)
    (happlied : ∀ x, R (.error (err.raise x)) (sc.wrote w v)) :
    Works sc I drawFails session base (perform err (.change (.write session w))).run v R := by
  refine perform_works fun s hs o s₁ hgoes => ?_
  have applied : ∀ r, sc.change _ (.write session w) s r s₁ →
      r = sc.write w v ∧ At sc I session base (sc.wrote w v) s₁ := by
    intro r hexec
    cases session with
    | none =>
      obtain ⟨hI, rfl⟩ := hs
      obtain ⟨rfl, rfl⟩ := hexec
      exact ⟨rfl, hinv rfl hI, rfl⟩
    | some n =>
      obtain ⟨hI, hbase, t, ht, rfl, rfl⟩ := hs
      obtain ⟨t', ht', rfl, rfl⟩ := hexec
      rw [ht] at ht'
      cases ht'
      refine ⟨rfl, hI, hbase, _, Function.update_self .., rfl, ?_⟩
      rw [sc.putAll_append]
      rfl
  cases o with
  | answered r =>
    obtain ⟨rfl, hs₁⟩ := applied r hgoes
    exact ⟨_, hs₁, hok⟩
  | threw r =>
    cases r with
    | none =>
      obtain ⟨-, rfl⟩ := hgoes
      exact ⟨v, hs, hlost⟩
    | some r =>
      obtain ⟨rfl, hs₁⟩ := applied r hgoes.2
      exact ⟨_, hs₁, happlied⟩

/-- Queries and draws. -/
def Quiet : (β : Type) → Op Q W D X β → Prop
  | _, .find .. => True
  | _, .change _ => False
  | _, .draw _ => True

/-- A program that changes nothing. -/
theorem quiet_works {p : Prog (Op Q W D X) α} (hp : p.Confined Quiet) :
    Works sc I drawFails session base p v fun _ v' => v' = v := by
  induction p with
  | done a => exact .done rfl
  | call op next ih =>
    obtain ⟨hop, hnext⟩ := hp
    refine Interleaving.Works.call fun s hs o s₁ hgoes => ?_
    have hsame : s₁ = s := by
      rcases hgoes.applied with ⟨-, heq⟩ | ⟨b, -, hexec⟩
      · exact heq
      · cases op with
        | find session q => exact hexec.2
        | change c => exact hop.elim
        | draw x => exact hexec
    subst hsame
    exact ⟨hs.inv, v, hs, ih _ (hnext _)⟩

section Transactions

variable {callback : ℕ → Action (Op Q W D X) ε α} {R : Except ε α → S → Prop}

/-- One run of the callback on the store as it is; it leaves the store so or commits. -/
theorem attempt_works
    (hcallback : ∀ n, I v → Works sc I drawFails (some n) v (callback n).run v fun r v' => ∀ a, r = .ok a →
      sc.indexed v' = true → I v' ∧ R (.ok a) v' ∧ ∀ x, R (.error (err.raise x)) v')
    (herr : ∀ e, R (.error e) v) :
    Works sc I drawFails none base (attempt err callback).run v R := by
  intro s hs
  have hv : I v := hs.2 ▸ hs.1
  -- what is shown of the end, on the store itself
  let R' (r : Except ε α) (s' : Store S D) : Prop := ∃ v', At sc I none base v' s' ∧ R r v'
  have outside : ∀ {n : ℕ} {v' : S} {s : Store S D}, At sc I (some n) v v' s →
      At sc I none base v s := by
    rintro n v' s ⟨hI, hbase, -⟩
    exact ⟨hI, hbase⟩
  -- a call that is issued, and what follows whether it answers or throws
  have issue : ∀ {γ : Type} {op : Op Q W D X γ} {f : γ → Action (Op Q W D X) ε α} {s : Store S D},
      (∀ o s₁, Goes (Op.exec sc) (Op.fallible drawFails) op s o s₁ → I s₁.committed ∧ match o with
        | .answered b => Guards (Op.exec sc) (Op.fallible drawFails) (fun s => I s.committed) R'
            (f b).run s₁
        | .threw _ => ∀ x, R' (.error (err.raise x)) s₁) →
      Guards (Op.exec sc) (Op.fallible drawFails) (fun s => I s.committed) R'
        (perform err op >>= f).run s := by
    intro γ op f s h o s₁ hgoes
    obtain ⟨hI, hrest⟩ := h o s₁ hgoes
    refine ⟨hI, ?_⟩
    cases o with
    | answered b => exact hrest
    | threw r =>
      intro o s₂ hgoes
      have hsame : s₂ = s₁ := by
        rcases hgoes.applied with ⟨-, heq⟩ | ⟨x, -, heq⟩
        · exact heq
        · exact heq
      subst hsame
      exact ⟨hI, hrest _⟩
  refine issue fun o s₁ hgoes => ?_
  cases o with
  | threw r =>
    cases r with
    | none => exact hgoes.1.elim
    | some n => exact hgoes.1.elim
  | answered n =>
    obtain ⟨rfl, rfl⟩ : n = s.started ∧ s₁ = { s with
        transactions := Function.update s.transactions n (some ⟨s.committed, []⟩)
        started := s.started + 1 } := hgoes
    have hbegun : At sc I (some s.started) v v { s with
        transactions := Function.update s.transactions s.started (some ⟨s.committed, []⟩)
        started := s.started + 1 } :=
      ⟨hs.1, hs.2, _, Function.update_self .., hs.2, rfl⟩
    refine ⟨hs.1, ?_⟩
    show Guards _ _ _ _ (ExceptT.run (tryCatch _ _)) _
    rw [Action.run_tryCatch]
    refine Guards.bind (R := R') ?_ fun r s₂ hR => ?_
    · refine Guards.bind (hcallback s.started hv _ hbegun) fun r s₂ hR => ?_
      obtain ⟨v', hv', hR⟩ := hR
      cases r with
      | error e => exact ⟨v, outside hv', herr e⟩
      | ok a =>
        have committed : ∀ b s₃, sc.change Unit (.commitTransaction s.started) s₂ b s₃ →
            At sc I none base v' s₃ ∧ R (.ok a) v' ∧ ∀ x, R (.error (err.raise x)) v' := by
          rintro b s₃ ⟨t, ht, -, hindexed, rfl⟩
          obtain ⟨-, hbase, t', ht', -, rfl⟩ := hv'
          rw [ht] at ht'
          cases ht'
          rw [hbase] at hindexed
          obtain ⟨hI, hok, herr'⟩ := hR a rfl hindexed
          refine ⟨⟨?_, ?_⟩, hok, herr'⟩
          · rw [hbase]
            exact hI
          · rw [hbase]
        refine issue fun o s₃ hgoes => ?_
        cases o with
        | answered b =>
          obtain ⟨hat, hok, -⟩ := committed b s₃ hgoes
          exact ⟨hat.inv, v', hat, hok⟩
        | threw r =>
          cases r with
          | none =>
            obtain ⟨-, rfl⟩ := hgoes
            exact ⟨hv'.inv, fun x => ⟨v, outside hv', herr _⟩⟩
          | some b =>
            obtain ⟨hat, -, herr'⟩ := committed b s₃ hgoes.2
            exact ⟨hat.inv, fun x => ⟨v', hat, herr' x⟩⟩
    · cases r with
      | ok a => exact hR
      | error e =>
        refine issue fun o s₃ hgoes => ?_
        cases o with
        | answered b =>
          obtain rfl : s₃ = { s₂ with
            transactions := Function.update s₂.transactions s.started none } := hgoes
          obtain ⟨v', hv', hR⟩ := hR
          exact ⟨hv'.inv, v', ⟨hv'.1, hv'.2⟩, hR⟩
        | threw r =>
          cases r with
          | none => exact hgoes.1.elim
          | some b => exact hgoes.1.elim

/-- Every run of the callback starts on what the runs before have committed. -/
theorem withTransaction_works {isTransient : ε → Bool} {P : S → Prop}
    (hcallback : ∀ v n, P v → I v → Works sc I drawFails (some n) v (callback n).run v fun r v' =>
      ∀ a, r = .ok a → sc.indexed v' = true → I v' ∧ P v' ∧ R (.ok a) v')
    (herr : ∀ v e, P v → R (.error e) v) {retries : ℕ} (hv : P v) :
    Works sc I drawFails none base (withTransaction err isTransient callback retries).run v R := by
  have hattempt : ∀ {v}, P v → Works sc I drawFails none base (attempt err callback).run v fun r v' =>
      (∀ a, r = .ok a → R r v') ∧ ∀ e, r = .error e → P v' := by
    intro v hv
    refine attempt_works (fun n hI => (hcallback v n hv hI).mono fun r v' h a ha hindexed => ?_)
      fun _ => ⟨by rintro _ ⟨⟩, fun _ _ => hv⟩
    obtain ⟨hI', hP, hR⟩ := h a ha hindexed
    exact ⟨hI', ⟨fun _ _ => hR, by rintro _ ⟨⟩⟩, fun _ => ⟨by rintro _ ⟨⟩, fun _ _ => hP⟩⟩
  induction retries generalizing v with
  | zero =>
    refine (hattempt hv).mono fun r v' h => ?_
    cases r with
    | ok a => exact h.1 a rfl
    | error e => exact herr v' e (h.2 e rfl)
  | succ retries ih =>
    refine Interleaving.Works.run_tryCatch (hattempt hv) (fun a _ h => h.1 a rfl) fun e v' h => ?_
    exact Interleaving.Works.run_ite (fun _ => ih (h.2 e rfl)) fun _ =>
      .run_throw (herr v' e (h.2 e rfl))

/-- Where the callback ends well, what it leaves is committed. -/
theorem withTransaction_yields {isTransient : ε → Bool} {P : S → Prop} {R : α → S → Prop}
    (hcallback : ∀ v n, P v → I v → Yields sc I drawFails (some n) v (callback n) v fun a v' =>
      sc.indexed v' = true → I v' ∧ P v' ∧ R a v') {retries : ℕ} (hv : P v) :
    Yields sc I drawFails none base (withTransaction err isTransient callback retries) v R := by
  refine .of_works (withTransaction_works (P := P) (R := fun r v' => ∀ a, r = .ok a → R a v')
    (fun v n hP hI => ?_) (fun v e _ a ha => ?_) hv) fun a v' h => h a rfl
  · refine Interleaving.Works.mono (hcallback v n hP hI) fun r v' h a ha hindexed => ?_
    obtain ⟨hI', hP', hR⟩ := h a ha hindexed
    refine ⟨hI', hP', fun b hb => ?_⟩
    cases hb
    exact hR
  · cases ha

end Transactions

end Sessions
