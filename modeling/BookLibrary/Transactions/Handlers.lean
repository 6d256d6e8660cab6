import BookLibrary.Interleaving.Walks
import BookLibrary.Transactions.Sessions

/-!
# Handlers over a document store

The calls of a request: queries and changes, within a transaction or outside of all, and
what its process draws. A call that throws passes on the error of the driver, which is
drawn as well.
-/

namespace Sessions

open Interleaving

/-- A call of a request. -/
inductive Op (Q : Type → Type) (W D : Type) (X : Type → Type) (β : Type) : Type where
  | find (session : Option ℕ) (q : Q β)
  | change (c : Change W D β)
  | draw (x : X β)

/-- The draw of the error that the driver has just thrown, and what is made of it. -/
structure Errors (X : Type → Type) (ε : Type) where
  {F : Type}
  lastError : X F
  raise : Option F → ε

/-- What a call leaves in the journal; of the answers to queries that is what is `seen` of
them. -/
inductive Event (E W D : Type) where
  | saw (session : Option ℕ) (e : E)
  | wrote (session : Option ℕ) (w : W) (r : WriteResult D)
  | began (session : ℕ)
  | committed (session : ℕ)

variable {Q : Type → Type} {W S D K E F : Type} {X : Type → Type} {α β ε : Type}

namespace Op

/-- What a call answers, and the store that it leaves. -/
def exec (sc : Schema Q W S D K) (β : Type) (op : Op Q W D X β) (s : Store S D) (b : β)
    (s' : Store S D) : Prop :=
  match op with
  | .find session q => sc.query β session q s b s'
  | .change c => sc.change β c s b s'
  | .draw _ => s' = s

/-- Queries may throw, and so may some of the draws. -/
def fallible (drawFails : (β : Type) → X β → Prop) (β : Type) (op : Op Q W D X β) : Prop :=
  match op with
  | .find .. => True
  | .change c => Sessions.fallible β c
  | .draw x => drawFails β x

def note (seen : (β : Type) → Q β → β → List E) (β : Type) (op : Op Q W D X β) (r : Option β) :
    List (Event E W D) :=
  match β, op, r with
  | _, .find session q, some b => (seen _ q b).map (.saw session)
  | _, .change (.write session w), some r => [.wrote session w r]
  | _, .change .startTransaction, some n => [.began n]
  | _, .change (.commitTransaction n), some _ => [.committed n]
  | _, _, _ => []

end Op

/-- The system of the requests over one store. -/
def system {Call ρ : Type} (sc : Schema Q W S D K) (drawFails : (β : Type) → X β → Prop)
    (seen : (β : Type) → Q β → β → List E) (body : Call → Prog (Op Q W D X) ρ) :
    System Call (Op Q W D X) (Store S D) ρ (Event E W D) where
  body := body
  exec := Op.exec sc
  fallible := Op.fallible drawFails
  env s s' := s' = s
  note := Op.note seen

section Programs

variable (err : Errors X ε)

/-- Issue a call; when it throws, the driver's error is passed on. -/
def perform (op : Op Q W D X β) : Action (Op Q W D X) ε β :=
  ExceptT.mk (.call op fun
    | some b => .done (.ok b)
    | none => .call (.draw err.lastError) fun e => .done (.error (err.raise e)))

/-- One run of the callback of a transaction, which is rolled back unless it is committed. -/
def attempt (callback : ℕ → Action (Op Q W D X) ε α) : Action (Op Q W D X) ε α := do
  let session ← perform err (.change .startTransaction)
  tryCatch (do
    let a ← callback session
    let _ ← perform err (.change (.commitTransaction session))
    return a) fun error => do
      let _ ← perform err (.change (.abortTransaction session))
      throw error

/-- `session.withTransaction(callback)`, run again at most `retries` times: the driver does
so after an error that it labels as transient. -/
def withTransaction (isTransient : ε → Bool) (callback : ℕ → Action (Op Q W D X) ε α) :
    (retries : ℕ) → Action (Op Q W D X) ε α
  | 0 => attempt err callback
  | retries + 1 => tryCatch (attempt err callback) fun error =>
    if isTransient error then withTransaction isTransient callback retries else throw error

end Programs

section Confined

variable {err : Errors X ε} {P : (β : Type) → Op Q W D X β → Prop}

theorem perform_confined {op : Op Q W D X β} (h : P β op) (hlast : P _ (.draw err.lastError)) :
    (perform err op).run.Confined P := by
  refine ⟨h, fun r => ?_⟩
  cases r with
  | some b => trivial
  | none => exact ⟨hlast, fun _ => trivial⟩

variable {callback : ℕ → Action (Op Q W D X) ε α}
  (hstart : P _ (.change .startTransaction)) (hcommit : ∀ n, P _ (.change (.commitTransaction n)))
  (habort : ∀ n, P _ (.change (.abortTransaction n))) (hlast : P _ (.draw err.lastError))
  (hcallback : ∀ n, (callback n).run.Confined P)

include hstart hcommit habort hlast hcallback

theorem attempt_confined : (attempt err callback).run.Confined P := by
  refine .run_bind (perform_confined hstart hlast) fun session => ?_
  refine .run_tryCatch (.run_bind (hcallback session) fun a => ?_) fun error => ?_
  · exact .run_bind (perform_confined (hcommit session) hlast) fun _ => .run_pure
  · exact .run_bind (perform_confined (habort session) hlast) fun _ => .run_throw

theorem withTransaction_confined {isTransient : ε → Bool} {retries : ℕ} :
    (withTransaction err isTransient callback retries).run.Confined P := by
  have hattempt : (attempt err callback).run.Confined P :=
    attempt_confined hstart hcommit habort hlast hcallback
  induction retries with
  | zero => exact hattempt
  | succ retries ih =>
    refine .run_tryCatch hattempt fun error => ?_
    exact .run_ite (fun _ => ih) fun _ => .run_throw

end Confined

section Conforms

variable {ι Call ρ : Type} {err : Errors X ε} {sc : Schema Q W S D K}
  {drawFails : (β : Type) → X β → Prop} {seen : (β : Type) → Q β → β → List E}
  {body : Call → Prog (Op Q W D X) ρ}
  {legal : Bool → List (Event E W D) → (β : Type) → Op Q W D X β → Prop}
  {fl : Bool} {l : List (Event E W D)}

/-- A call whose failure is passed on, with the driver's error. -/
theorem perform_conforms {op : Op Q W D X β}
    {R : Bool → List (Event E W D) → Except ε β → Prop} (hop : legal fl l β op)
    (hlast : ∀ fl l, legal fl l _ (.draw err.lastError))
    (hok : ∀ b, (system sc drawFails seen body).Answers op b →
      R fl (op.note seen β (some b) ++ l) (.ok b))
    (herr : ∀ fl r x, R fl (op.note seen β r ++ l) (.error (err.raise x))) :
    Conforms (system sc drawFails seen body) legal R fl l (perform err op).run := by
  refine ⟨hop, hok, fun _ r _ => ⟨hlast _ _, fun e _ => ?_, fun _ e _ => ?_⟩⟩
  · exact herr true r e
  · cases e with
    | none => exact herr true r none
    | some e => exact herr true r none

/-- One run of a callback that leaves its transaction fit for a commit. -/
theorem attempt_conforms {callback : ℕ → Action (Op Q W D X) ε α}
    {R : Bool → List (Event E W D) → Except ε α → Prop}
    (hstart : ∀ fl l, legal fl l ℕ (.change .startTransaction))
    (habort : ∀ fl l n, legal fl l Unit (.change (.abortTransaction n)))
    (hlast : ∀ fl l, legal fl l _ (.draw err.lastError))
    (herr : ∀ fl l' e, l <:+ l' → R fl l' (.error e))
    (hcallback : ∀ fl l' n, l <:+ l' → Conforms (system sc drawFails seen body) legal
      (fun fl m r => l <:+ m ∧ ∀ a, r = .ok a →
        legal fl m Unit (.change (.commitTransaction n)) ∧ R fl (.committed n :: m) (.ok a))
      fl (.began n :: l') (callback n).run) :
    ∀ {fl l'}, l <:+ l' → Conforms (system sc drawFails seen body) legal
      (fun fl m r => l <:+ m ∧ R fl m r) fl l' (attempt err callback).run := by
  intro fl l' hl
  refine Conforms.run_then (R := fun fl m r => l <:+ m ∧ ∀ n, r = .ok n → ∃ m', l <:+ m' ∧
    m = .began n :: m') ?_ ?_ (fun fl m e h => ⟨h.1, herr fl m e h.1⟩)
  · refine perform_conforms (hstart _ _) hlast (fun n _ => ?_) fun fl r e => ?_
    · refine ⟨hl.trans (List.suffix_append _ _), fun n' hn => ?_⟩
      cases hn
      exact ⟨l', hl, rfl⟩
    · exact ⟨hl.trans (List.suffix_append _ _), nofun⟩
  · rintro fl m n ⟨-, h⟩
    obtain ⟨m', hm', rfl⟩ := h n rfl
    refine Conforms.run_handle (R := fun fl m r => l <:+ m ∧ ∀ a, r = .ok a → R fl m (.ok a)) ?_
      (fun fl m a h => ⟨h.1, h.2 a rfl⟩) fun fl m e h => ?_
    · refine Conforms.run_then (hcallback fl m' n hm') (fun fl m a h => ?_)
        fun fl m e h => ⟨h.1, nofun⟩
      have hcommit := h.2 a rfl
      refine Conforms.run_then (R := fun fl m r => l <:+ m ∧ ∀ b, r = .ok b → R fl m (.ok a))
        (perform_conforms hcommit.1 hlast (fun _ _ => ?_) fun fl r e => ?_)
        (fun fl m b h => ⟨h.1, fun a' ha => ?_⟩) fun fl m e h => ⟨h.1, nofun⟩
      · exact ⟨h.1.trans (List.suffix_append _ _), fun _ _ => hcommit.2⟩
      · exact ⟨h.1.trans (List.suffix_append _ _), nofun⟩
      · cases ha
        exact h.2 b rfl
    · refine Conforms.run_then (R := fun _ m _ => l <:+ m)
        (perform_conforms (habort _ _ _) hlast (fun _ _ => ?_) fun fl r e => ?_)
        (fun fl m b h => ⟨h, herr fl m e h⟩) fun fl m e h => ⟨h, herr fl m e h⟩
      · exact h.1.trans (List.suffix_append _ _)
      · exact h.1.trans (List.suffix_append _ _)

theorem withTransaction_conforms {callback : ℕ → Action (Op Q W D X) ε α} {isTransient : ε → Bool}
    {R : Bool → List (Event E W D) → Except ε α → Prop}
    (hstart : ∀ fl l, legal fl l ℕ (.change .startTransaction))
    (habort : ∀ fl l n, legal fl l Unit (.change (.abortTransaction n)))
    (hlast : ∀ fl l, legal fl l _ (.draw err.lastError))
    (herr : ∀ fl l' e, l <:+ l' → R fl l' (.error e))
    (hcallback : ∀ fl l' n, l <:+ l' → Conforms (system sc drawFails seen body) legal
      (fun fl m r => l <:+ m ∧ ∀ a, r = .ok a →
        legal fl m Unit (.change (.commitTransaction n)) ∧ R fl (.committed n :: m) (.ok a))
      fl (.began n :: l') (callback n).run) {retries : ℕ} :
    ∀ {fl l'}, l <:+ l' → Conforms (system sc drawFails seen body) legal
      (fun fl m r => l <:+ m ∧ R fl m r) fl l'
      (withTransaction err isTransient callback retries).run := by
  have hattempt : ∀ {fl l'}, l <:+ l' → Conforms (system sc drawFails seen body) legal
      (fun fl m r => l <:+ m ∧ R fl m r) fl l' (attempt err callback).run :=
    attempt_conforms hstart habort hlast herr hcallback
  induction retries with
  | zero => exact hattempt
  | succ retries ih =>
    intro fl l' hl
    refine Conforms.run_handle (hattempt hl) (fun _ _ _ h => h) fun fl m e h => ?_
    exact Conforms.run_ite (fun _ => ih h.1) fun _ => Conforms.run_throw ⟨h.1, herr fl m e h.1⟩

end Conforms

end Sessions
