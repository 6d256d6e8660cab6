import BookLibrary.Circulation.Inventory
import BookLibrary.Transactions.Serial

/-!
# The catalogue and lending, one request at a time

`BooksService.create` beside the requests that lend and edit books. Served one after
another, they keep the quantities of every book, and what is rejected changes nothing.
-/

namespace Circulation

open Documents Interleaving Transactions

section BooksService

structure CreateBookDto where
  title : String
  author : Option String
  isbn : Option String
  coverImageUrl : Option String
  catalogIdentifier : String
  categoryId : ObjectId
  totalQuantity : ℤ
  deriving DecidableEq

def newBook (id : ObjectId) (dto : CreateBookDto) (actor : Option AuditActor) : Book where
  id := id
  title := dto.title
  author := dto.author
  isbn := dto.isbn
  coverImageUrl := dto.coverImageUrl
  catalogIdentifier := dto.catalogIdentifier
  categoryId := dto.categoryId
  totalQuantity := dto.totalQuantity
  availableQuantity := dto.totalQuantity
  status := .active
  updatedBy := actor.map (·.id)

/-- `BooksService.create` -/
def createBook (dto : CreateBookDto) (actor : Option AuditActor) : Request BookResponseDto := do
  check (validateQuantity dto.totalQuantity)
  let id ← Routine.perform .database .newObjectId
  Routine.perform .database (.insertBook (newBook id dto actor))
  return (newBook id dto actor).toResponse

/-- The requests of lending and of the catalogue. -/
inductive CatalogueCall where
  | circulation (request : CirculationCall)
  | createBook (dto : CreateBookDto) (actor : Option AuditActor)
  deriving DecidableEq

def catalogue :
    Service CatalogueCall Op Database Doc DocKey Failure (Except Failure CirculationResponse) where
  body
    | .circulation request => circulation.body request
    | .createBook dto actor =>
      (do return .book (← createBook dto actor) : Request CirculationResponse).run
  exec := exec
  put := Database.put
  key := Doc.key

end BooksService

variable {s s' : Database} {docs : List Doc}

/-- The quantities are right, and what is lent are books of the store. -/
structure Stocked (s : Database) : Prop where
  indexed : s.Indexed
  counted : BooksCounted s
  lent : ∀ b ∈ s.borrowings, b.isOpen = true → ∃ book ∈ s.books, book.id = b.bookId

theorem Stocked.inventory (h : Stocked s) : InventoryKept s := by
  intro b hb
  obtain ⟨hpos, hcount⟩ := h.counted b hb
  exact ⟨hcount, hpos, by omega⟩

namespace Stocked

theorem put_member (h : Stocked s) (m : Member) : Stocked (s.put (.member m)) :=
  ⟨h.indexed.put _, h.counted, h.lent⟩

/-- A book of the store is in it under its id whatever book is put there. -/
theorem exists_book {b : Book} {id : ObjectId} (h : ∃ book ∈ s.books, book.id = id) :
    ∃ book ∈ (s.put (.book b)).books, book.id = id := by
  obtain ⟨book, hbook, rfl⟩ := h
  by_cases heq : book.id = b.id
  · exact ⟨b, mem_replaceOne.mpr (.inl rfl), heq.symm⟩
  · exact ⟨book, mem_replaceOne.mpr (.inr ⟨hbook, heq⟩), rfl⟩

theorem put_book (h : Stocked s) {b : Book} (hcounted : BooksCounted (s.put (.book b))) :
    Stocked (s.put (.book b)) :=
  ⟨h.indexed.put _, hcounted, fun x hx hopen => exists_book (h.lent x hx hopen)⟩

theorem lend (h : Stocked s) {dto : CreateBorrowingDto} (hl : Lent s dto docs) :
    Stocked (view s docs) := by
  obtain ⟨member, -, book, hbook, _, -, loan, staffId, -, havailable, -, -, hopen, -, hbid, hnew,
    rfl⟩ := hl.lends
  have hcounted : BooksCounted ((s.put (.borrowing loan)).put (.book (book.lent staffId))) :=
    h.counted.lend hopen hnew hbook havailable hbid
  refine put_member ⟨(h.indexed.put _).put _, hcounted, fun x hx hx' => exists_book ?_⟩ _
  rcases mem_replaceOne.mp hx with rfl | ⟨hold, -⟩
  · exact ⟨book, hbook, hbid.symm⟩
  · exact h.lent x hold hx'

theorem takeBack (h : Stocked s) {id : String} {dto : ReturnBorrowingDto} {actor : AuditActor}
    {r : BorrowingResponseDto} (hout : loans.Outcome s (returnWork id dto actor) (.ok r) docs) :
    Stocked (view s docs) := by
  obtain ⟨borrowing, hmem, book, hbook, member, -, returnedAt, staffId, -, hopen, hbid, -, saved,
    hsaved, rfl⟩ := returnWork_writes h.indexed hout
  have hbooks : Stocked ((s.put (.borrowing (borrowing.closed returnedAt staffId))).put
      (.book (book.takenBack staffId))) := by
    refine ⟨(h.indexed.put _).put _,
      h.counted.takeBack h.indexed hmem hopen rfl rfl hbook hbid, fun x hx hx' => exists_book ?_⟩
    rcases mem_replaceOne.mp hx with rfl | ⟨hold, -⟩
    · cases hx'
    · exact h.lent x hold hx'
  -- what is written of the member does not matter here
  rcases hsaved with rfl | ⟨rfl, -⟩
  · exact hbooks.put_member _
  · exact hbooks

/-- A new book is not lent. -/
theorem insertBook (h : Stocked s) {b : Book} (hnew : s.admitsBook b = true)
    (hpos : 0 ≤ b.availableQuantity) (htotal : b.totalQuantity = b.availableQuantity) :
    Stocked (s.put (.book b)) := by
  refine h.put_book (h.counted.put_book hpos ?_)
  have hzero : s.bookLoans b.id = 0 := by
    refine List.countP_eq_zero.mpr fun x hx hcounted => ?_
    rw [Bool.and_eq_true, decide_eq_true_eq] at hcounted
    obtain ⟨book, hbook, hid⟩ := h.lent x hx hcounted.1
    have hne := List.all_eq_true.mp hnew book hbook
    simp [hid, hcounted.2] at hne
  rw [hzero, htotal]
  simp

end Stocked

section Requests

theorem ends_check {α : Type} {x : Except Failure α} {r : Except Failure α}
    (h : catalogue.Ends (check x).run s r s') : r = x ∧ s' = s := by
  cases x with
  | ok a => exact Service.Ends.run_pure.mp h
  | error e => exact Service.Ends.run_throw.mp h

theorem check_triple {α : Type} {x : Except Failure α} {P : Database → Prop} :
    catalogue.Triple P (check x) fun r s => P s ∧ r = x := by
  intro s r s' hs hends
  obtain ⟨rfl, rfl⟩ := ends_check hends
  exact ⟨hs, rfl⟩

/-- A request keeps the stores stocked, whatever it answers. -/
abbrev Keeps {α : Type} (x : Request α) : Prop := catalogue.Triple Stocked x fun _ s => Stocked s

theorem keeps_check {α β : Type} {x : Except Failure β} {f : β → Request α}
    (h : ∀ b, x = .ok b → Keeps (f b)) : Keeps (check x >>= f) := by
  refine .bind check_triple (fun b s r s' hs => ?_) fun _ _ hs => hs.1
  exact h b hs.2.symm s r s' hs.1

/-- A response is only handed on. -/
theorem keeps_return {α β : Type} {x : Request β} (hx : Keeps x) {g : β → α} :
    Keeps (x >>= fun b => pure (g b)) :=
  .bind hx (fun _ => .pure fun _ hs => hs) fun _ _ hs => hs

theorem serve_keeps {request : LoanCall} : Keeps (serve request) := by
  cases request with
  | create dto actor =>
    refine keeps_check fun auditActor _ => .withTransaction (fun s r docs hs hout => ?_) fun _ _ hs => hs
    exact hs.lend (createWork_outcome hs.indexed ⟨hout.evals⟩)
  | returnBorrowing id dto actor =>
    refine keeps_check fun auditActor _ => .withTransaction (fun s r docs hs hout => ?_) fun _ _ hs => hs
    exact hs.takeBack ⟨hout.evals⟩

/-- An edit saves what it has computed from the book as it is. -/
theorem updateBook_keeps {id : String} {dto : UpdateBookDto} {actor : Option AuditActor} :
    Keeps (updateBook id dto actor) := by
  refine keeps_check fun bookId _ => ?_
  have hfind : catalogue.Triple Stocked (Routine.perform .database (.findBook bookId)) fun r s =>
      Stocked s ∧ ∀ book, r = .ok (some book) → book ∈ s.books := by
    refine .perform (fun s found docs hs hexec => ?_) fun s hs => ⟨hs, fun _ heq => by cases heq⟩
    obtain ⟨hfound, rfl⟩ := hexec
    exact ⟨hs, fun book heq => by cases heq; exact hfound.mem⟩
  refine .bind hfind (fun found => ?_) fun _ _ hs => hs.1
  refine .bind check_triple (fun book => ?_) fun _ _ hs => hs.1.1
  refine .bind check_triple (fun now => ?_) fun _ _ hs => hs.1.1.1
  refine .bind (R := fun _ => Stocked) (.perform (fun s _ docs hs hexec => ?_) fun s hs => hs.1.1.1)
    (fun _ => .pure fun _ hs => hs) fun _ _ hs => hs
  obtain ⟨⟨⟨hstocked, hread⟩, hfound⟩, hedited⟩ := hs
  obtain rfl := found_ok.mp hfound.symm
  obtain ⟨-, hquantities⟩ := edited_quantities hedited.symm
  obtain ⟨hpos, hcount⟩ := hstocked.counted book (hread book rfl)
  -- the loans of the book are those it was read with
  have hsaved := hstocked.counted.saved
    (hquantities.imp_right fun hnew => ⟨hnew.2.1.trans hcount, hnew.2.2⟩) hexec.2
  rcases hsaved with rfl | ⟨b, rfl, -, hcounted⟩
  · exact hstocked
  · exact hstocked.put_book hcounted

theorem createBook_keeps {dto : CreateBookDto} {actor : Option AuditActor} :
    Keeps (createBook dto actor) := by
  refine keeps_check fun _ hvalid => ?_
  have hpos : 0 ≤ dto.totalQuantity := by
    by_contra hneg
    rw [validateQuantity, if_pos (not_le.mp hneg)] at hvalid
    cases hvalid
  refine .bind (R := fun _ => Stocked) (.perform (fun s id docs hs hexec => ?_) fun _ hs => hs)
    (fun id => keeps_return (.perform (fun s _ docs hs hexec => ?_) fun _ hs => hs)) fun _ _ hs => hs
  · obtain rfl : docs = [] := hexec
    exact hs
  · obtain ⟨-, hnew, rfl⟩ := hexec
    exact hs.insertBook hnew hpos rfl

theorem request_keeps {call : CatalogueCall} {r : Except Failure CirculationResponse}
    (hs : Stocked s) (h : catalogue.Ends (catalogue.body call) s r s') : Stocked s' := by
  match call with
  | .circulation (.loan request) => exact keeps_return serve_keeps _ _ _ hs h
  | .circulation (.updateBook id dto actor) => exact keeps_return updateBook_keeps _ _ _ hs h
  | .createBook dto actor => exact keeps_return createBook_keeps _ _ _ hs h

end Requests

section Rejected

theorem rejects_check {α : Type} {x : Except Failure α} : catalogue.Rejects (check x) :=
  fun _ _ _ h => (ends_check h).2

theorem reads_check {α : Type} {x : Except Failure α} : catalogue.Reads (check x) :=
  fun _ _ _ h => (ends_check h).2

theorem serve_rejects {request : LoanCall} : catalogue.Rejects (serve request) := by
  cases request with
  | create dto actor => exact rejects_check.bind reads_check fun _ => .withTransaction
  | returnBorrowing id dto actor => exact rejects_check.bind reads_check fun _ => .withTransaction

theorem updateBook_rejects {id : String} {dto : UpdateBookDto} {actor : Option AuditActor} :
    catalogue.Rejects (updateBook id dto actor) := by
  refine rejects_check.bind reads_check fun id => ?_
  refine .bind .perform (.perform fun _ _ _ h => h.2) fun found => ?_
  refine rejects_check.bind reads_check fun book => ?_
  exact rejects_check.bind reads_check fun now => .map .perform

theorem createBook_rejects {dto : CreateBookDto} {actor : Option AuditActor} :
    catalogue.Rejects (createBook dto actor) := by
  refine rejects_check.bind reads_check fun _ => ?_
  exact .bind .perform (.perform fun _ _ _ h => h) fun id => .map .perform

theorem request_rejects {call : CatalogueCall} {e : Failure}
    (h : catalogue.Ends (catalogue.body call) s (.error e) s') : s' = s := by
  match call with
  | .circulation (.loan request) => exact Service.Rejects.map serve_rejects _ _ _ h
  | .circulation (.updateBook id dto actor) => exact Service.Rejects.map updateBook_rejects _ _ _ h
  | .createBook dto actor => exact Service.Rejects.map createBook_rejects _ _ _ h

end Rejected

section Main

variable {s₀ : Database}

theorem library_stocked : Stocked library :=
  ⟨library_indexed, library_consistent.books, fun _ hb => absurd hb List.not_mem_nil⟩

/-- A book is created, a copy of the other one is lent, its stock is raised to six, and an
edit to no copies at all is rejected. -/
def stocktaking : List (CatalogueCall × Draw) :=
  [(.createBook ⟨"Refactoring", none, none, none, "BOOK-0002", categoryId, 2⟩ staff, ⟨0, loanId 0⟩),
    (.circulation (.loan (lends 0)), ⟨1000, loanId 1⟩),
    (.circulation (resizes 6), ⟨0, loanId 0⟩),
    (.circulation (resizes 0), ⟨0, loanId 0⟩)]

end Main

end Circulation
