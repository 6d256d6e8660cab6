import BookLibrary.Circulation.Documents
import BookLibrary.Transactions.Machine

/-!
# Lending and the catalogue

`BorrowingsService.create` and `returnBorrowing`, each one transaction, and
`BooksService.update`, which reads and saves outside of any.
-/

namespace Circulation

open Documents Interleaving Transactions

inductive Op : Type → Type where
  | currentDate : Op Date
  | newObjectId : Op ObjectId
  | findMember (id : ObjectId) : Op (Option Member)
  | findBook (id : ObjectId) : Op (Option Book)
  | findCategory (id : ObjectId) : Op (Option BookCategory)
  | findMembershipType (id : ObjectId) : Op (Option MembershipType)
  | findBorrowing (id : ObjectId) : Op (Option Borrowing)
  | existsOverdue (memberId : ObjectId) (now : Date) : Op Bool
  | insertBorrowing (borrowing : Borrowing) : Op Unit
  | insertBook (book : Book) : Op Unit
  | saveBorrowing (id : ObjectId) (changes : BorrowingChanges) : Op Unit
  | saveBook (id : ObjectId) (changes : BookChanges) : Op Unit
  | saveMember (id : ObjectId) (changes : MemberChanges) : Op Unit

def Borrowing.isOverdue (memberId : ObjectId) (now : Date) (b : Borrowing) : Bool :=
  decide (b.memberId = memberId) && b.isOpen && decide (b.dueAt < now)

/-- A save: the document of that id with the changes, or nothing if there are none. A
save of a document that is gone does not get an answer. -/
def saveOne {α : Type} (key : α → ObjectId) (id : ObjectId) (update : Option (α → α))
    (doc : α → Doc) (stored : List α) (docs : List Doc) : Prop :=
  match update with
  | none => docs = []
  | some f => ∃ a, FindOne (fun a => decide (key a = id)) stored (some a) ∧ docs = [doc (f a)]

/-- The unique indexes of the books admit a new one. -/
def Database.admitsBook (s : Database) (b : Book) : Bool :=
  s.books.all fun x => !decide (x.id = b.id) && !decide (x.catalogIdentifier = b.catalogIdentifier) &&
    (b.isbn.isNone || !decide (x.isbn = b.isbn))

/-- What a call answers on a store, and which documents it writes. A write that breaks a
validator or a unique index does not get an answer. -/
def exec : (β : Type) → Op β → Database → β → List Doc → Prop
  | _, .currentDate, _, _, docs => docs = []
  | _, .newObjectId, _, _, docs => docs = []
  | _, .findMember id, s, r, docs => FindOne (fun m => decide (m.id = id)) s.members r ∧ docs = []
  | _, .findBook id, s, r, docs => FindOne (fun b => decide (b.id = id)) s.books r ∧ docs = []
  | _, .findCategory id, s, r, docs =>
    FindOne (fun c => decide (c.id = id)) s.categories r ∧ docs = []
  | _, .findMembershipType id, s, r, docs =>
    FindOne (fun t => decide (t.id = id)) s.membershipTypes r ∧ docs = []
  | _, .findBorrowing id, s, r, docs =>
    FindOne (fun b => decide (b.id = id)) s.borrowings r ∧ docs = []
  | _, .existsOverdue memberId now, s, r, docs =>
    r = s.borrowings.any (Borrowing.isOverdue memberId now) ∧ docs = []
  | _, .insertBorrowing b, s, _, docs => (∀ x ∈ s.borrowings, x.id ≠ b.id) ∧ docs = [.borrowing b]
  | _, .insertBook b, s, _, docs =>
    (0 ≤ b.totalQuantity ∧ 0 ≤ b.availableQuantity) ∧ s.admitsBook b = true ∧ docs = [.book b]
  | _, .saveBorrowing id changes, s, _, docs =>
    saveOne (·.id) id changes.update .borrowing s.borrowings docs
  | _, .saveBook id changes, s, _, docs =>
    changes.valid = true ∧ saveOne (·.id) id changes.update .book s.books docs
  | _, .saveMember id changes, s, _, docs =>
    changes.valid = true ∧ saveOne (·.id) id changes.update .member s.members docs

inductive Failure where
  | badRequest (message : String)
  | unauthorized (message : String)
  | notFound (message : String)
  | conflict (message : String)
  | database
  deriving DecidableEq

/-- Calls of a transaction. -/
abbrev Work := Action Op Failure

/-- Requests. -/
abbrev Request := Routine Op Failure

def call {β : Type} (op : Op β) : Work β := Action.perform .database op

/-- `toMongoObjectId` -/
def toMongoObjectId (value fieldName : String) : Except Failure ObjectId :=
  match ObjectId.parse value with
  | some id => .ok id
  | none => .error (.badRequest (fieldName ++ " must be a valid MongoDB ObjectId"))

section Rules

/-- `BorrowingsRulesService.assertCanBorrow` -/
def assertCanBorrow (book : Book) (category : BookCategory) (member : Member)
    (membershipType : MembershipType) (hasOverdueLoans : Bool) : Except Failure Unit :=
  if book.status ≠ .active ∨ book.availableQuantity < 1 then
    .error (.conflict "Book is not available for borrowing")
  else if category.status ≠ .active ∨ category.loanPeriodDays < 1 then
    .error (.conflict "Book category has no active loan period")
  else if member.status ≠ .active then .error (.conflict "Member is not active")
  else if membershipType.status ≠ .active then .error (.conflict "Membership type is not active")
  else if membershipType.maxActiveLoans ≤ member.activeLoanCount then
    .error (.conflict "Member borrowing limit has been reached")
  else if hasOverdueLoans then .error (.conflict "Member has overdue loans")
  else .ok ()

end Rules

section BorrowingsService

structure CreateBorrowingDto where
  memberId : String
  bookId : String
  deriving DecidableEq

structure ReturnBorrowingDto where
  returnedAt : Option Date
  deriving DecidableEq

structure AuditActor where
  id : String
  deriving DecidableEq

structure BorrowingResponseDto where
  id : ObjectId
  memberId : ObjectId
  memberDisplayName : String
  memberNumber : String
  bookId : ObjectId
  bookTitle : String
  bookCatalogIdentifier : String
  bookCategoryId : ObjectId
  borrowedAt : Date
  dueAt : Date
  returnedAt : Option Date
  status : LoanState
  borrowedByStaffId : String
  returnedByStaffId : Option String
  deriving DecidableEq

/-- The document a query was to find, or `NotFoundException`. -/
def found {α : Type} (message : String) : Option α → Except Failure α
  | some a => .ok a
  | none => .error (.notFound message)

/-- Go on with a checked value. -/
def lift {α : Type} (r : Except Failure α) : Work α :=
  match r with
  | .ok a => pure a
  | .error e => throw e

/-- A document by its id. -/
def findDocument {α : Type} (fieldName message : String) (op : ObjectId → Op (Option α))
    (id : String) : Work α := do
  let id ← lift (toMongoObjectId id fieldName)
  lift (found message (← call (op id)))

def findMember : String → Work Member := findDocument "memberId" "Member not found" .findMember

def findBook : String → Work Book := findDocument "bookId" "Book not found" .findBook

def findCategory : String → Work BookCategory :=
  findDocument "categoryId" "Book category not found" .findCategory

def findMembershipType : String → Work MembershipType :=
  findDocument "membershipTypeId" "Membership type not found" .findMembershipType

def findBorrowing : String → Work Borrowing :=
  findDocument "id" "Borrowing record not found" .findBorrowing

def hasOverdueLoans (memberId : String) (now : Date) : Work Bool := do
  let memberId ← lift (toMongoObjectId memberId "memberId")
  call (.existsOverdue memberId now)

def saveBook (loaded now : Book) : Work Unit :=
  call (.saveBook loaded.id (.between loaded now))

def saveMember (loaded now : Member) : Work Unit :=
  call (.saveMember loaded.id (.between loaded now))

def saveBorrowing (loaded now : Borrowing) : Work Unit :=
  call (.saveBorrowing loaded.id (.between loaded now))

def requireActor (actor : Option AuditActor) : Except Failure AuditActor :=
  match actor with
  | some actor =>
    if actor.id = "" then .error (.unauthorized "Authenticated staff actor is required")
    else .ok actor
  | none => .error (.unauthorized "Authenticated staff actor is required")

def calculateDueAt (borrowedAt : Date) (loanPeriodDays : ℤ) : Date :=
  borrowedAt + loanPeriodDays * 86400000

def toResponse (borrowing : Borrowing) (now : Date) (book : Book) (member : Member) :
    BorrowingResponseDto where
  id := borrowing.id
  memberId := borrowing.memberId
  memberDisplayName := member.fullName
  memberNumber := member.memberNumber
  bookId := borrowing.bookId
  bookTitle := book.title
  bookCatalogIdentifier := book.catalogIdentifier
  bookCategoryId := borrowing.bookCategoryId
  borrowedAt := borrowing.borrowedAt
  dueAt := borrowing.dueAt
  returnedAt := borrowing.returnedAt
  status :=
    if borrowing.status = .active ∧ borrowing.returnedAt = none ∧ borrowing.dueAt < now then
      .overdue
    else borrowing.status
  borrowedByStaffId := borrowing.borrowedByStaffId
  returnedByStaffId := borrowing.returnedByStaffId

def newLoan (id : ObjectId) (member : Member) (book : Book) (category : BookCategory)
    (borrowedAt : Date) (staffId : String) : Borrowing where
  id := id
  memberId := member.id
  bookId := book.id
  bookCategoryId := category.id
  borrowedAt := borrowedAt
  dueAt := calculateDueAt borrowedAt category.loanPeriodDays
  returnedAt := none
  status := .active
  borrowedByStaffId := staffId
  returnedByStaffId := none

def Book.lent (book : Book) (staffId : String) : Book :=
  { book with availableQuantity := book.availableQuantity - 1, updatedBy := some staffId }

def Member.borrowed (member : Member) (staffId : String) : Member :=
  { member with activeLoanCount := member.activeLoanCount + 1, updatedBy := some staffId }

/-- The callback of `create`. -/
def createWork (dto : CreateBorrowingDto) (auditActor : AuditActor) : Work BorrowingResponseDto := do
  let borrowedAt ← call .currentDate
  let member ← findMember dto.memberId
  let book ← findBook dto.bookId
  let category ← findCategory book.categoryId.1
  let membershipType ← findMembershipType member.membershipTypeId.1
  let overdue ← hasOverdueLoans member.id.1 borrowedAt
  lift (assertCanBorrow book category member membershipType overdue)
  let id ← call .newObjectId
  let borrowing := newLoan id member book category borrowedAt auditActor.id
  call (.insertBorrowing borrowing)
  saveBook book (book.lent auditActor.id)
  saveMember member (member.borrowed auditActor.id)
  return toResponse borrowing borrowedAt (book.lent auditActor.id) (member.borrowed auditActor.id)

def Borrowing.closed (borrowing : Borrowing) (returnedAt : Date) (staffId : String) : Borrowing :=
  { borrowing with
    returnedAt := some returnedAt
    returnedByStaffId := some staffId
    status := .returned }

def Book.takenBack (book : Book) (staffId : String) : Book :=
  { book with availableQuantity := book.availableQuantity + 1, updatedBy := some staffId }

def Member.relieved (member : Member) (staffId : String) : Member :=
  { member with
    activeLoanCount := max (member.activeLoanCount - 1) 0
    updatedBy := some staffId }

/-- The checks of `returnBorrowing`. -/
def assertCanReturn (borrowing : Borrowing) : Except Failure Unit :=
  if borrowing.returnedAt.isSome ∨ borrowing.status = .returned then
    .error (.conflict "Borrowing record has already been returned")
  else if borrowing.status ≠ .active ∧ borrowing.status ≠ .overdue then
    .error (.conflict "Borrowing record cannot be returned")
  else .ok ()

/-- `dto.returnedAt ? new Date(dto.returnedAt) : new Date()` -/
def returnDate (dto : ReturnBorrowingDto) : Work Date :=
  match dto.returnedAt with
  | some date => pure date
  | none => call .currentDate

/-- The callback of `returnBorrowing`. -/
def returnWork (id : String) (dto : ReturnBorrowingDto) (auditActor : AuditActor) :
    Work BorrowingResponseDto := do
  let returnedAt ← returnDate dto
  let borrowing ← findBorrowing id
  lift (assertCanReturn borrowing)
  let book ← findBook borrowing.bookId.1
  let member ← findMember borrowing.memberId.1
  let now := borrowing.closed returnedAt auditActor.id
  saveBorrowing borrowing now
  saveBook book (book.takenBack auditActor.id)
  saveMember member (member.relieved auditActor.id)
  return toResponse now returnedAt (book.takenBack auditActor.id) (member.relieved auditActor.id)

/-- Go on with a checked value outside of a transaction. -/
def check {α : Type} (r : Except Failure α) : Request α :=
  match r with
  | .ok a => pure a
  | .error e => throw e

def create (dto : CreateBorrowingDto) (actor : Option AuditActor) :
    Request BorrowingResponseDto := do
  let auditActor ← check (requireActor actor)
  Routine.withTransaction .database (createWork dto auditActor)

def returnBorrowing (id : String) (dto : ReturnBorrowingDto) (actor : Option AuditActor) :
    Request BorrowingResponseDto := do
  let auditActor ← check (requireActor actor)
  Routine.withTransaction .database (returnWork id dto auditActor)

/-- The requests of `BorrowingsService` that write. -/
inductive LoanCall where
  | create (dto : CreateBorrowingDto) (actor : Option AuditActor)
  | returnBorrowing (id : String) (dto : ReturnBorrowingDto) (actor : Option AuditActor)
  deriving DecidableEq

def serve : LoanCall → Request BorrowingResponseDto
  | .create dto actor => create dto actor
  | .returnBorrowing id dto actor => returnBorrowing id dto actor

/-- Lending on its own. -/
def loans : Service LoanCall Op Database Doc DocKey Failure (Except Failure BorrowingResponseDto) where
  body request := (serve request).run
  exec := exec
  put := Database.put
  key := Doc.key

end BorrowingsService

section BooksService

structure UpdateBookDto where
  title : Option String
  author : Option String
  isbn : Option String
  coverImageUrl : Option String
  catalogIdentifier : Option String
  categoryId : Option ObjectId
  totalQuantity : Option ℤ
  status : Option LibraryItemStatus
  deriving DecidableEq

structure BookResponseDto where
  id : ObjectId
  title : String
  author : Option String
  isbn : Option String
  coverImageUrl : Option String
  catalogIdentifier : String
  categoryId : ObjectId
  totalQuantity : ℤ
  availableQuantity : ℤ
  status : LibraryItemStatus
  deriving DecidableEq

def Book.toResponse (book : Book) : BookResponseDto where
  id := book.id
  title := book.title
  author := book.author
  isbn := book.isbn
  coverImageUrl := book.coverImageUrl
  catalogIdentifier := book.catalogIdentifier
  categoryId := book.categoryId
  totalQuantity := book.totalQuantity
  availableQuantity := book.availableQuantity
  status := book.status

def validateQuantity (totalQuantity : ℤ) : Except Failure Unit :=
  if totalQuantity < 0 then .error (.badRequest "Book total quantity must be zero or greater")
  else .ok ()

/-- The quantities of a book that is to have `totalQuantity` copies. -/
def withQuantity (book : Book) (totalQuantity : ℤ) : Except Failure Book := do
  validateQuantity totalQuantity
  let activeLoans := book.totalQuantity - book.availableQuantity
  if totalQuantity < activeLoans then
    throw (.conflict "Total quantity cannot be lower than active loans")
  else
    let quantityDelta := totalQuantity - book.totalQuantity
    return { book with
      totalQuantity := totalQuantity
      availableQuantity := book.availableQuantity + quantityDelta }

/-- The edits of `update`, in memory. -/
def edited (book : Book) (dto : UpdateBookDto) (actor : Option AuditActor) : Except Failure Book := do
  let book ← match dto.totalQuantity with
    | some totalQuantity => withQuantity book totalQuantity
    | none => pure book
  return { book with
    title := dto.title.getD book.title
    author := dto.author <|> book.author
    isbn := dto.isbn <|> book.isbn
    coverImageUrl := dto.coverImageUrl <|> book.coverImageUrl
    catalogIdentifier := dto.catalogIdentifier.getD book.catalogIdentifier
    categoryId := dto.categoryId.getD book.categoryId
    status := dto.status.getD book.status
    updatedBy := actor.map (·.id) }

/-- `BooksService.update` -/
def updateBook (id : String) (dto : UpdateBookDto) (actor : Option AuditActor) :
    Request BookResponseDto := do
  let id ← check (toMongoObjectId id "id")
  let book ← check (found "Book not found" (← Routine.perform .database (.findBook id)))
  let now ← check (edited book dto actor)
  Routine.perform .database (.saveBook book.id (.between book now))
  return now.toResponse

/-- The requests of lending and of the catalogue that write books. -/
inductive CirculationCall where
  | loan (request : LoanCall)
  | updateBook (id : String) (dto : UpdateBookDto) (actor : Option AuditActor)
  deriving DecidableEq

inductive CirculationResponse where
  | loan (response : BorrowingResponseDto)
  | book (response : BookResponseDto)
  deriving DecidableEq

/-- Lending beside edits of the catalogue. -/
def circulation :
    Service CirculationCall Op Database Doc DocKey Failure (Except Failure CirculationResponse) where
  body
    | .loan request => (do return .loan (← serve request) : Request CirculationResponse).run
    | .updateBook id dto actor =>
      (do return .book (← updateBook id dto actor) : Request CirculationResponse).run
  exec := exec
  put := Database.put
  key := Doc.key

end BooksService

end Circulation
