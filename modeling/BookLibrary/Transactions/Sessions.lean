import Mathlib.Data.Nat.Notation
import Mathlib.Logic.Function.Basic
import BookLibrary.Interleaving.Program

/-!
# Transactions of a document store

A call may name the transaction it is part of. A transaction works on a snapshot, the
store as it was when the transaction began, and keeps the documents it has written to
itself. It commits them all at once, unless one of them has been changed since by
somebody else or they would break a unique index.
-/

namespace Sessions

/-- What a write answers: the documents it leaves, latest first, or why it leaves none. -/
inductive WriteResult (D : Type) where
  | written (docs : List D)
  | unmatched
  | duplicateKey
  deriving DecidableEq

def WriteResult.docs {D : Type} : WriteResult D → List D
  | .written docs => docs
  | _ => []

/-- How a store holds its documents, what the queries answer and the writes leave. -/
structure Schema (Q : Type → Type) (W S D K : Type) where
  key : D → K
  find : K → S → Option D
  put : D → S → S
  indexed : S → Bool
  answers : (β : Type) → Q β → S → β → Prop
  write : W → S → WriteResult D

/-- The calls that change the store or a transaction. -/
inductive Change (W D : Type) : Type → Type where
  | write (session : Option ℕ) (w : W) : Change W D (WriteResult D)
  | startTransaction : Change W D ℕ
  | commitTransaction (session : ℕ) : Change W D Unit
  | abortTransaction (session : ℕ) : Change W D Unit

structure Transaction (S D : Type) where
  snapshot : S
  buffer : List D

/-- The store, its transactions by their numbers, and how many there have been. -/
structure Store (S D : Type) where
  committed : S
  transactions : ℕ → Option (Transaction S D)
  started : ℕ

def Store.init {S D : Type} (s : S) : Store S D := ⟨s, fun _ => none, 0⟩

namespace Schema

variable {Q : Type → Type} {W S D K : Type} (sc : Schema Q W S D K)

/-- The store with the documents taken in, the head last. -/
def putAll (docs : List D) (s : S) : S := docs.foldr sc.put s

@[simp] theorem putAll_nil (s : S) : sc.putAll [] s = s := rfl

@[simp] theorem putAll_cons (d : D) (docs : List D) (s : S) :
    sc.putAll (d :: docs) s = sc.put d (sc.putAll docs s) := rfl

theorem putAll_append (docs docs' : List D) (s : S) :
    sc.putAll (docs ++ docs') s = sc.putAll docs (sc.putAll docs' s) := List.foldr_append

/-- What a call sees of the store. -/
def view (s : Store S D) : Option ℕ → Option S
  | none => some s.committed
  | some n => (s.transactions n).map fun t => sc.putAll t.buffer t.snapshot

/-- Nobody has changed a document of the transaction since it began. -/
def Unconflicted (t : Transaction S D) (s : S) : Prop :=
  ∀ d ∈ t.buffer, sc.find (sc.key d) s = sc.find (sc.key d) t.snapshot

def change : (β : Type) → Change W D β → Store S D → β → Store S D → Prop
  | _, .write none w, s, r, s' =>
    r = sc.write w s.committed ∧ s' = { s with committed := sc.putAll r.docs s.committed }
  | _, .write (some n) w, s, r, s' =>
    ∃ t, s.transactions n = some t ∧ r = sc.write w (sc.putAll t.buffer t.snapshot) ∧
      s' = { s with
        transactions := Function.update s.transactions n
          (some { t with buffer := r.docs ++ t.buffer }) }
  | _, .startTransaction, s, n, s' =>
    n = s.started ∧ s' = { s with
      transactions := Function.update s.transactions n (some ⟨s.committed, []⟩)
      started := s.started + 1 }
  | _, .commitTransaction n, s, _, s' =>
    ∃ t, s.transactions n = some t ∧ sc.Unconflicted t s.committed ∧
      sc.indexed (sc.putAll t.buffer s.committed) = true ∧
      s' = { s with
        committed := sc.putAll t.buffer s.committed
        transactions := Function.update s.transactions n none }
  | _, .abortTransaction n, s, _, s' =>
    s' = { s with transactions := Function.update s.transactions n none }

/-- A query answers on what it sees, and changes nothing. -/
def query (β : Type) (session : Option ℕ) (q : Q β) (s : Store S D) (b : β) (s' : Store S D) : Prop :=
  (∃ v, sc.view s session = some v ∧ sc.answers β q v b) ∧ s' = s

end Schema

/-- Beginning and giving up a transaction concern the client alone and never throw. -/
def fallible {W D : Type} : (β : Type) → Change W D β → Prop
  | _, .write .. => True
  | _, .startTransaction => False
  | _, .commitTransaction _ => True
  | _, .abortTransaction _ => False

end Sessions
