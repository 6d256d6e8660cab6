import Mathlib.Logic.Function.Basic
import Mathlib.Logic.Relation
import BookLibrary.Interleaving.Sequential

/-!
# Transactions under snapshot isolation

Requests issue atomic calls and run transactions against one store of documents.
A transaction works on a snapshot: its calls see the documents committed when it
began and those it has written itself. It commits unless another commit has written
one of its documents since; otherwise its callback is run again on a new snapshot.
The history of the commits is what the store is made of.
-/

namespace Transactions

open Interleaving

/-- A request: atomic calls outside of any transaction, and transactions. The
continuation is handed `none` when the call or the transaction fails. -/
inductive Script (Op : Type → Type) (ε α : Type) : Type 1 where
  | done (a : α)
  | call {β : Type} (op : Op β) (next : Option β → Script Op ε α)
  | transact {β : Type} (work : Action Op ε β) (next : Option (Except ε β) → Script Op ε α)

namespace Script

variable {Op : Type → Type} {ε α β : Type}

def bind : Script Op ε α → (α → Script Op ε β) → Script Op ε β
  | .done a, f => f a
  | .call op next, f => .call op fun r => (next r).bind f
  | .transact work next, f => .transact work fun r => (next r).bind f

instance : Monad (Script Op ε) where
  pure := .done
  bind := bind

/-- There is something left to do. -/
def Live : Script Op ε α → Prop
  | .done _ => False
  | _ => True

end Script

/-- Requests with exceptions of type `ε`. -/
abbrev Routine (Op : Type → Type) (ε : Type) := ExceptT ε (Script Op ε)

namespace Routine

variable {Op : Type → Type} {ε α β : Type}

/-- Issue one atomic call outside of any transaction. -/
def perform (thrown : ε) (op : Op β) : Routine Op ε β :=
  ExceptT.mk (.call op fun
    | some b => .done (.ok b)
    | none => .done (.error thrown))

/-- `session.withTransaction(work)` -/
def withTransaction (thrown : ε) (work : Action Op ε β) : Routine Op ε β :=
  ExceptT.mk (.transact work fun
    | some r => .done r
    | none => .done (.error thrown))

theorem run_tryCatch (x : Routine Op ε α) (f : ε → Routine Op ε α) :
    (tryCatch x f).run = (x.run >>= fun r => match r with
      | .ok a => .done (.ok a)
      | .error e => (f e).run) := by
  show ExceptT.run (ExceptT.tryCatch x f) = _
  unfold ExceptT.tryCatch
  refine congrArg (x.run >>= ·) (funext fun r => ?_)
  cases r with
  | ok a => rfl
  | error e => rfl

end Routine

/-- A service: the script of each request, what an atomic call answers on a store and
which documents it writes there, and how the store takes a document in. -/
structure Service (Call : Type) (Op : Type → Type) (S D K ε ρ : Type) where
  body : Call → Script Op ε ρ
  exec : (β : Type) → Op β → S → β → List D → Prop
  put : D → S → S
  key : D → K

/-- What one step has written, latest first, and who took it. -/
structure Commit (ι Call D : Type) where
  caller : ι
  call : Call
  docs : List D

/-- A condition on steps: which call outside of transactions a request may issue
after which commits, and whose commits may fall while it is being served. -/
structure Regime (ι Call : Type) (Op : Type → Type) (D : Type) where
  may : ι → Call → List (Commit ι Call D) → (β : Type) → Op β → Prop
  beside : Call → Call → Prop

/-- The regime that allows every step. -/
def Regime.any {ι Call : Type} {Op : Type → Type} {D : Type} : Regime ι Call Op D where
  may _ _ _ _ _ := True
  beside _ _ := True

variable {ι Call : Type} {Op : Type → Type} {S D K ε ρ : Type}

/-- How far a request has come. A transaction keeps the history it began with, the
documents it has written, and what is left of its callback. -/
inductive Stage (ι Call : Type) (Op : Type → Type) (D ε ρ : Type) : Type 1 where
  | script (code : Script Op ε ρ)
  | within {β : Type} (base : List (Commit ι Call D)) (buffer : List D)
      (code : Prog Op (Except ε β)) (work : Action Op ε β)
      (next : Option (Except ε β) → Script Op ε ρ)
  | crashed

/-- The request can still take a step. -/
def Stage.Live : Stage ι Call Op D ε ρ → Prop
  | .script p => p.Live
  | .within .. => True
  | .crashed => False

structure Thread (ι Call : Type) (Op : Type → Type) (D ε ρ : Type) : Type 1 where
  call : Call
  stage : Stage ι Call Op D ε ρ

structure Config (ι Call : Type) (Op : Type → Type) (D ε ρ : Type) : Type 1 where
  history : List (Commit ι Call D)
  threads : ι → Option (Thread ι Call Op D ε ρ)

namespace Config

def init : Config ι Call Op D ε ρ := ⟨[], fun _ => none⟩

variable [DecidableEq ι] (c : Config ι Call Op D ε ρ) (i : ι)

/-- Caller `i` comes to the stage `st` of its request. -/
def move (call : Call) (st : Stage ι Call Op D ε ρ) : Config ι Call Op D ε ρ :=
  { c with threads := Function.update c.threads i (some ⟨call, st⟩) }

/-- The same, with a commit of the documents `docs`. -/
def commit (call : Call) (docs : List D) (st : Stage ι Call Op D ε ρ) : Config ι Call Op D ε ρ :=
  ⟨⟨i, call, docs⟩ :: c.history, Function.update c.threads i (some ⟨call, st⟩)⟩

omit [DecidableEq ι] in
/-- Caller `i` has finished the request `call` with `a`. -/
def Returns (call : Call) (a : ρ) : Prop := c.threads i = some ⟨call, .script (.done a)⟩

end Config

namespace Service

variable (sv : Service Call Op S D K ε ρ) (s₀ : S)

/-- The store with the documents taken in, the head last. -/
def putAll (docs : List D) (s : S) : S := docs.foldr sv.put s

/-- The store after a history that began with `s₀`. -/
def after (history : List (Commit ι Call D)) : S :=
  history.foldr (fun c s => sv.putAll c.docs s) s₀

/-- A call of a transaction whose snapshot is `s`. -/
def execWithin (s : S) (β : Type) (op : Op β) (buffer : List D) (b : β) (buffer' : List D) : Prop :=
  ∃ docs, sv.exec β op (sv.putAll buffer s) b docs ∧ buffer' = docs ++ buffer

/-- The callback `work` may end with `r` on the snapshot `s`, having written `docs`. -/
structure Outcome {β : Type} (s : S) (work : Action Op ε β) (r : Except ε β) (docs : List D) :
    Prop where
  evals : Evals (sv.execWithin s) (fun _ _ => True) work.run [] r docs

/-- No document that `recent` has written is among `docs`. -/
def Unconflicted (docs : List D) (recent : List (Commit ι Call D)) : Prop :=
  ∀ c ∈ recent, ∀ d ∈ c.docs, ∀ d' ∈ docs, sv.key d ≠ sv.key d'

/-- Every other request that is being served allows a commit of `call` beside it. -/
def Admits (R : Regime ι Call Op D) (c : Config ι Call Op D ε ρ) (i : ι) (call : Call) : Prop :=
  ∀ j ≠ i, ∀ th, c.threads j = some th → th.stage.Live → R.beside th.call call

variable [DecidableEq ι] (R : Regime ι Call Op D)

inductive Step : Config ι Call Op D ε ρ → Config ι Call Op D ε ρ → Prop where
  | start {c i} (call : Call) (free : c.threads i = none) :
      Step c (c.move i call (.script (sv.body call)))
  /-- A call outside of any transaction is applied, and answers. -/
  | reply {c i call} {β : Type} {op : Op β} {next b docs}
      (running : c.threads i = some ⟨call, .script (.call op next)⟩)
      (may : R.may i call c.history β op) (beside : Admits R c i call)
      (effect : sv.exec β op (sv.after s₀ c.history) b docs) :
      Step c (c.commit i call docs (.script (next (some b))))
  /-- It is applied, and throws. -/
  | raise {c i call} {β : Type} {op : Op β} {next b docs}
      (running : c.threads i = some ⟨call, .script (.call op next)⟩)
      (may : R.may i call c.history β op) (beside : Admits R c i call)
      (effect : sv.exec β op (sv.after s₀ c.history) b docs) :
      Step c (c.commit i call docs (.script (next none)))
  /-- It is not applied, and throws. -/
  | lose {c i call} {β : Type} {op : Op β} {next}
      (running : c.threads i = some ⟨call, .script (.call op next)⟩) :
      Step c (c.move i call (.script (next none)))
  | begin {c i call} {β : Type} {work : Action Op ε β} {next}
      (running : c.threads i = some ⟨call, .script (.transact work next)⟩) :
      Step c (c.move i call (.within c.history [] work.run work next))
  | act {c i call} {β γ : Type} {op : Op γ} {base buffer next b buffer' work} {k : _ → Prog Op _}
      (running : c.threads i = some ⟨call, @Stage.within _ _ _ _ _ _ β base buffer (.call op k) work next⟩)
      (effect : sv.execWithin (sv.after s₀ base) γ op buffer b buffer') :
      Step c (c.move i call (.within base buffer' (k (some b)) work next))
  | fail {c i call} {β γ : Type} {op : Op γ} {base buffer next work} {k : _ → Prog Op _}
      (running : c.threads i = some ⟨call, @Stage.within _ _ _ _ _ _ β base buffer (.call op k) work next⟩) :
      Step c (c.move i call (.within base buffer (k none) work next))
  /-- The transaction is aborted, and its callback is run again. -/
  | rerun {c i call} {β : Type} {base buffer code} {work : Action Op ε β} {next}
      (running : c.threads i = some ⟨call, .within base buffer code work next⟩) :
      Step c (c.move i call (.within c.history [] work.run work next))
  /-- The transaction is aborted, and the driver gives up on it. -/
  | abandon {c i call} {β : Type} {base buffer code} {work : Action Op ε β} {next}
      (running : c.threads i = some ⟨call, .within base buffer code work next⟩) :
      Step c (c.move i call (.script (next none)))
  | commit {c i call} {β : Type} {base recent buffer b} {work : Action Op ε β} {next}
      (running : c.threads i = some ⟨call, .within base buffer (.done (.ok b)) work next⟩)
      (beside : Admits R c i call) (since : c.history = recent ++ base)
      (free : sv.Unconflicted buffer recent) :
      Step c (c.commit i call buffer (.script (next (some (.ok b)))))
  /-- The transaction is committed, but the caller does not hear of it. -/
  | commitUnheard {c i call} {β : Type} {base recent buffer b} {work : Action Op ε β} {next}
      (running : c.threads i = some ⟨call, .within base buffer (.done (.ok b)) work next⟩)
      (beside : Admits R c i call) (since : c.history = recent ++ base)
      (free : sv.Unconflicted buffer recent) :
      Step c (c.commit i call buffer (.script (next none)))
  /-- The callback has thrown: the transaction is aborted. -/
  | abort {c i call} {β : Type} {base buffer e} {work : Action Op ε β} {next}
      (running : c.threads i = some ⟨call, .within base buffer (.done (.error e)) work next⟩) :
      Step c (c.move i call (.script (next (some (.error e)))))
  | crash {c i call st} (running : c.threads i = some ⟨call, st⟩) (live : st.Live) :
      Step c (c.move i call .crashed)

def Runs : Config ι Call Op D ε ρ → Config ι Call Op D ε ρ → Prop :=
  Relation.ReflTransGen (sv.Step s₀ R)

/-- A configuration some run from the store `s₀`, with nobody started, leads to. -/
def Reachable (c : Config ι Call Op D ε ρ) : Prop := sv.Runs s₀ R Config.init c

end Service

end Transactions
