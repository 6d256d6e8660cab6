import BookLibrary.Circulation.Service
import BookLibrary.Transactions.Schedule

/-!
# Executing lending and the catalogue

Each atomic call as a function, given what it is to draw.
-/

namespace Circulation

open Documents Interleaving Transactions

structure Draw where
  date : Date
  id : ObjectId

/-- `saveOne` as a function. -/
def saveFirst {α : Type} (key : α → ObjectId) (id : ObjectId) (update : Option (α → α))
    (doc : α → Doc) (stored : List α) : Option (List Doc) :=
  match update with
  | none => some []
  | some f => (stored.find? fun a => decide (key a = id)).map fun a => [doc (f a)]

theorem saveFirst_saveOne {α : Type} {key : α → ObjectId} {id : ObjectId}
    {update : Option (α → α)} {doc : α → Doc} {stored : List α} {docs : List Doc}
    (h : saveFirst key id update doc stored = some docs) : saveOne key id update doc stored docs := by
  cases update with
  | none =>
    cases h
    exact rfl
  | some f =>
    obtain ⟨a, hfind, rfl⟩ := Option.map_eq_some_iff.mp h
    exact ⟨a, hfind ▸ findOne_find?, rfl⟩

/-- `exec` as a function. -/
def perform : (β : Type) → Op β → Database → Draw → Option (β × List Doc)
  | _, .currentDate, _, x => some (x.date, [])
  | _, .newObjectId, _, x => some (x.id, [])
  | _, .findMember id, s, _ => some (s.members.find? fun m => decide (m.id = id), [])
  | _, .findBook id, s, _ => some (s.books.find? fun b => decide (b.id = id), [])
  | _, .findCategory id, s, _ => some (s.categories.find? fun c => decide (c.id = id), [])
  | _, .findMembershipType id, s, _ =>
    some (s.membershipTypes.find? fun t => decide (t.id = id), [])
  | _, .findBorrowing id, s, _ => some (s.borrowings.find? fun b => decide (b.id = id), [])
  | _, .existsOverdue memberId now, s, _ =>
    some (s.borrowings.any (Borrowing.isOverdue memberId now), [])
  | _, .insertBorrowing b, s, _ =>
    if ∀ x ∈ s.borrowings, x.id ≠ b.id then some ((), [.borrowing b]) else none
  | _, .insertBook b, s, _ =>
    if (0 ≤ b.totalQuantity ∧ 0 ≤ b.availableQuantity) ∧ s.admitsBook b = true then
      some ((), [.book b])
    else none
  | _, .saveBorrowing id changes, s, _ =>
    (saveFirst (·.id) id changes.update .borrowing s.borrowings).map ((), ·)
  | _, .saveBook id changes, s, _ =>
    if changes.valid = true then
      (saveFirst (·.id) id changes.update .book s.books).map ((), ·)
    else none
  | _, .saveMember id changes, s, _ =>
    if changes.valid = true then
      (saveFirst (·.id) id changes.update .member s.members).map ((), ·)
    else none

theorem perform_exec {β : Type} {op : Op β} {s : Database} {x : Draw} {b : β} {docs : List Doc}
    (h : perform β op s x = some (b, docs)) : exec β op s b docs := by
  cases op with
  | currentDate | newObjectId =>
    cases h
    exact rfl
  | findMember | findBook | findCategory | findMembershipType | findBorrowing =>
    cases h
    exact ⟨findOne_find?, rfl⟩
  | existsOverdue =>
    cases h
    exact ⟨rfl, rfl⟩
  | insertBorrowing b =>
    simp only [perform] at h
    split at h
    · next hnew =>
      cases h
      exact ⟨hnew, rfl⟩
    · cases h
  | insertBook b =>
    simp only [perform] at h
    split at h
    · next hnew =>
      cases h
      exact ⟨hnew.1, hnew.2, rfl⟩
    · cases h
  | saveBorrowing id changes =>
    obtain ⟨docs', hsave, heq⟩ := Option.map_eq_some_iff.mp h
    cases heq
    exact saveFirst_saveOne hsave
  | saveBook id changes | saveMember id changes =>
    simp only [perform] at h
    split at h
    · next hvalid =>
      obtain ⟨docs', hsave, heq⟩ := Option.map_eq_some_iff.mp h
      cases heq
      exact ⟨hvalid, saveFirst_saveOne hsave⟩
    · cases h

/-- The driver of lending, under no condition. -/
def loansDriver (s₀ : Database) :
    Driver ℕ loans s₀ (Regime.any : Regime ℕ LoanCall Op Doc) Draw where
  run := perform
  run_exec := perform_exec
  may := fun _ _ _ _ _ => true
  may_sound _ := trivial
  beside := fun _ _ _ => true
  beside_sound _ := fun _ _ _ _ _ => trivial

section Schedules

def bookId : ObjectId := ⟨"b10000000000000000000000", by decide⟩

def categoryId : ObjectId := ⟨"c10000000000000000000000", by decide⟩

def memberId : ObjectId := ⟨"a10000000000000000000000", by decide⟩

def typeId : ObjectId := ⟨"e10000000000000000000000", by decide⟩

/-- A loan's id. -/
def loanId : ℕ → ObjectId
  | 0 => ⟨"f10000000000000000000000", by decide⟩
  | _ => ⟨"f10000000000000000000001", by decide⟩

/-- One book in five copies and one member, who may borrow two. -/
def library : Database where
  books := [⟨bookId, "Clean Code", none, none, none, "BOOK-0001", categoryId, 5, 5, .active, none⟩]
  categories := [⟨categoryId, 14, .active⟩]
  members := [⟨memberId, "M-1004", "Olivia Overdue", typeId, .active, 0, none⟩]
  membershipTypes := [⟨typeId, 2, .active⟩]
  borrowings := []

theorem library_indexed : library.Indexed :=
  ⟨List.nodup_singleton _, List.nodup_singleton _, List.nodup_singleton _, List.nodup_nil⟩

def staff : Option AuditActor := some ⟨"s1"⟩

/-- Caller `i` issues its next call of a transaction. -/
def go (i : ℕ) : Transactions.Move ℕ LoanCall Draw := .act i ⟨1000, loanId i⟩

def lends (_ : ℕ) : LoanCall := .create ⟨memberId.1, bookId.1⟩ staff

end Schedules

end Circulation
