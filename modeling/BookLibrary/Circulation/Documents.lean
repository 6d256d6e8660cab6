import BookLibrary.Documents.Collection
import BookLibrary.Documents.ObjectId

/-!
# Books, members and loans

The documents that lending and the catalogue read and write. A save sends the fields
that differ from the document as it was loaded.
-/

namespace Circulation

open Documents

inductive LibraryItemStatus where
  | active | deactivated
  deriving DecidableEq

inductive MemberStatus where
  | active | suspended | inactive
  deriving DecidableEq

inductive LoanState where
  | active | returned | overdue | cancelled
  deriving DecidableEq

structure Book where
  id : ObjectId
  title : String
  author : Option String
  isbn : Option String
  coverImageUrl : Option String
  catalogIdentifier : String
  categoryId : ObjectId
  totalQuantity : ℤ
  availableQuantity : ℤ
  status : LibraryItemStatus
  updatedBy : Option String
  deriving DecidableEq

structure BookCategory where
  id : ObjectId
  loanPeriodDays : ℤ
  status : LibraryItemStatus
  deriving DecidableEq

structure Member where
  id : ObjectId
  memberNumber : String
  fullName : String
  membershipTypeId : ObjectId
  status : MemberStatus
  activeLoanCount : ℤ
  updatedBy : Option String
  deriving DecidableEq

structure MembershipType where
  id : ObjectId
  maxActiveLoans : ℤ
  status : LibraryItemStatus
  deriving DecidableEq

structure Borrowing where
  id : ObjectId
  memberId : ObjectId
  bookId : ObjectId
  bookCategoryId : ObjectId
  borrowedAt : Date
  dueAt : Date
  returnedAt : Option Date
  status : LoanState
  borrowedByStaffId : String
  returnedByStaffId : Option String
  deriving DecidableEq

/-- The loan has not been returned, and can be. -/
def Borrowing.isOpen (b : Borrowing) : Bool :=
  b.returnedAt.isNone && (decide (b.status = .active) || decide (b.status = .overdue))

structure Database where
  books : List Book
  categories : List BookCategory
  members : List Member
  membershipTypes : List MembershipType
  borrowings : List Borrowing
  deriving DecidableEq

namespace Database

/-- The number of open loans that `p` selects. -/
def openLoans (s : Database) (p : Borrowing → Bool) : ℕ :=
  s.borrowings.countP fun b => b.isOpen && p b

def bookLoans (s : Database) (id : ObjectId) : ℕ := s.openLoans fun b => decide (b.bookId = id)

def memberLoans (s : Database) (id : ObjectId) : ℕ := s.openLoans fun b => decide (b.memberId = id)

/-- The index on `_id` of each collection. -/
structure Indexed (s : Database) : Prop where
  books : (s.books.map (·.id)).Nodup
  members : (s.members.map (·.id)).Nodup
  membershipTypes : (s.membershipTypes.map (·.id)).Nodup
  borrowings : (s.borrowings.map (·.id)).Nodup

end Database

/-- The new value of a field, if it has changed. -/
def modified {α : Type} [DecidableEq α] (loaded now : α) : Option α :=
  if now = loaded then none else some now

@[simp] theorem getD_modified {α : Type} [DecidableEq α] (loaded now : α) :
    (modified loaded now).getD loaded = now := by
  by_cases h : now = loaded
  · simp [modified, h]
  · simp [modified, h]

/-- The fields that a save of a book sends. -/
structure BookChanges where
  title : Option String
  author : Option (Option String)
  isbn : Option (Option String)
  coverImageUrl : Option (Option String)
  catalogIdentifier : Option String
  categoryId : Option ObjectId
  totalQuantity : Option ℤ
  availableQuantity : Option ℤ
  status : Option LibraryItemStatus
  updatedBy : Option (Option String)
  deriving DecidableEq

namespace BookChanges

def between (loaded now : Book) : BookChanges where
  title := modified loaded.title now.title
  author := modified loaded.author now.author
  isbn := modified loaded.isbn now.isbn
  coverImageUrl := modified loaded.coverImageUrl now.coverImageUrl
  catalogIdentifier := modified loaded.catalogIdentifier now.catalogIdentifier
  categoryId := modified loaded.categoryId now.categoryId
  totalQuantity := modified loaded.totalQuantity now.totalQuantity
  availableQuantity := modified loaded.availableQuantity now.availableQuantity
  status := modified loaded.status now.status
  updatedBy := modified loaded.updatedBy now.updatedBy

def apply (changes : BookChanges) (b : Book) : Book where
  id := b.id
  title := changes.title.getD b.title
  author := changes.author.getD b.author
  isbn := changes.isbn.getD b.isbn
  coverImageUrl := changes.coverImageUrl.getD b.coverImageUrl
  catalogIdentifier := changes.catalogIdentifier.getD b.catalogIdentifier
  categoryId := changes.categoryId.getD b.categoryId
  totalQuantity := changes.totalQuantity.getD b.totalQuantity
  availableQuantity := changes.availableQuantity.getD b.availableQuantity
  status := changes.status.getD b.status
  updatedBy := changes.updatedBy.getD b.updatedBy

def none : BookChanges :=
  ⟨.none, .none, .none, .none, .none, .none, .none, .none, .none, .none⟩

/-- What the save does to a document; `none` if it sends nothing. -/
def update (changes : BookChanges) : Option (Book → Book) :=
  if changes = none then .none else some changes.apply

/-- `min: 0` of the quantities. -/
def valid (changes : BookChanges) : Bool :=
  changes.totalQuantity.all (decide <| 0 ≤ ·) && changes.availableQuantity.all (decide <| 0 ≤ ·)

/-- The changes to a loaded document make it what it was to become. -/
theorem apply_between {loaded now : Book} (h : now.id = loaded.id) :
    (between loaded now).apply loaded = now := by
  cases now
  simp only at h
  simp [between, apply, h]

theorem update_between {loaded now : Book} (h : now.id = loaded.id) (hne : now ≠ loaded) :
    ∃ f, (between loaded now).update = some f ∧ f loaded = now := by
  have hsend : between loaded now ≠ none := by
    intro hnone
    have happly := apply_between h
    rw [hnone] at happly
    exact hne happly.symm
  exact ⟨_, if_neg hsend, apply_between h⟩

end BookChanges

/-- The fields that a save of a member sends. -/
structure MemberChanges where
  activeLoanCount : Option ℤ
  updatedBy : Option (Option String)
  deriving DecidableEq

namespace MemberChanges

def between (loaded now : Member) : MemberChanges where
  activeLoanCount := modified loaded.activeLoanCount now.activeLoanCount
  updatedBy := modified loaded.updatedBy now.updatedBy

def apply (changes : MemberChanges) (m : Member) : Member :=
  { m with
    activeLoanCount := changes.activeLoanCount.getD m.activeLoanCount
    updatedBy := changes.updatedBy.getD m.updatedBy }

def none : MemberChanges := ⟨.none, .none⟩

def update (changes : MemberChanges) : Option (Member → Member) :=
  if changes = none then .none else some changes.apply

def valid (changes : MemberChanges) : Bool := changes.activeLoanCount.all (decide <| 0 ≤ ·)

theorem update_between {loaded now : Member} (h : (between loaded now).apply loaded = now)
    (hne : now ≠ loaded) : ∃ f, (between loaded now).update = some f ∧ f loaded = now := by
  have hsend : between loaded now ≠ none := by
    intro hnone
    rw [hnone] at h
    exact hne h.symm
  exact ⟨_, if_neg hsend, h⟩

end MemberChanges

/-- The fields that a save of a borrowing sends. -/
structure BorrowingChanges where
  returnedAt : Option (Option Date)
  returnedByStaffId : Option (Option String)
  status : Option LoanState
  deriving DecidableEq

namespace BorrowingChanges

def between (loaded now : Borrowing) : BorrowingChanges where
  returnedAt := modified loaded.returnedAt now.returnedAt
  returnedByStaffId := modified loaded.returnedByStaffId now.returnedByStaffId
  status := modified loaded.status now.status

def apply (changes : BorrowingChanges) (b : Borrowing) : Borrowing :=
  { b with
    returnedAt := changes.returnedAt.getD b.returnedAt
    returnedByStaffId := changes.returnedByStaffId.getD b.returnedByStaffId
    status := changes.status.getD b.status }

def none : BorrowingChanges := ⟨.none, .none, .none⟩

def update (changes : BorrowingChanges) : Option (Borrowing → Borrowing) :=
  if changes = none then .none else some changes.apply

theorem update_between {loaded now : Borrowing} (h : (between loaded now).apply loaded = now)
    (hne : now ≠ loaded) : ∃ f, (between loaded now).update = some f ∧ f loaded = now := by
  have hsend : between loaded now ≠ none := by
    intro hnone
    rw [hnone] at h
    exact hne h.symm
  exact ⟨_, if_neg hsend, h⟩

end BorrowingChanges

/-- A document that a step writes. -/
inductive Doc where
  | book (b : Book)
  | member (m : Member)
  | borrowing (b : Borrowing)
  deriving DecidableEq

inductive DocKey where
  | book (id : ObjectId)
  | member (id : ObjectId)
  | borrowing (id : ObjectId)
  deriving DecidableEq

def Doc.key : Doc → DocKey
  | .book b => .book b.id
  | .member m => .member m.id
  | .borrowing b => .borrowing b.id

def Database.put (d : Doc) (s : Database) : Database :=
  match d with
  | .book b => { s with books := replaceOne (·.id) b s.books }
  | .member m => { s with members := replaceOne (·.id) m s.members }
  | .borrowing b => { s with borrowings := replaceOne (·.id) b s.borrowings }

theorem Database.Indexed.put {s : Database} (h : s.Indexed) (d : Doc) : (s.put d).Indexed := by
  obtain ⟨hbooks, hmembers, htypes, hborrowings⟩ := h
  cases d with
  | book b => exact ⟨nodup_replaceOne hbooks, hmembers, htypes, hborrowings⟩
  | member m => exact ⟨hbooks, nodup_replaceOne hmembers, htypes, hborrowings⟩
  | borrowing b => exact ⟨hbooks, hmembers, htypes, nodup_replaceOne hborrowings⟩

end Circulation
