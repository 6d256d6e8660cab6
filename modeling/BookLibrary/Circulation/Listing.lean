import BookLibrary.Circulation.Effects
import BookLibrary.Circulation.Execution
import BookLibrary.Transactions.Serial

/-!
# Listing loans

`BorrowingsService.findAll`: the filter that it makes of a query, and the status that its
response reports of a loan. A loan that is late is stored as an active one.
-/

namespace Circulation

open Documents Interleaving Transactions

structure BorrowingQueryDto where
  page : ℕ
  limit : ℕ
  memberId : Option String
  bookId : Option String
  status : Option LoanState
  overdueOnly : Bool
  currentOnly : Bool
  deriving DecidableEq

/-- A filter on borrowings; a field that is missing is not looked at. -/
structure ListFilter where
  memberId : Option ObjectId
  bookId : Option ObjectId
  returnedAt : Option Bool
  status : Option (List LoanState)
  dueAt : Option Date
  deriving DecidableEq

namespace ListFilter

/-- `returnedAt` asks whether there is such a field, `status` for one of a list, and `dueAt`
for an earlier date. -/
def selects (filter : ListFilter) (b : Borrowing) : Bool :=
  filter.memberId.all (fun id => decide (b.memberId = id)) &&
    filter.bookId.all (fun id => decide (b.bookId = id)) &&
    filter.returnedAt.all (fun present => b.returnedAt.isSome == present) &&
    filter.status.all (fun states => decide (b.status ∈ states)) &&
    filter.dueAt.all (fun now => decide (b.dueAt < now))

/-- The filter of `hasOverdueLoans`. -/
def overdue (memberId : ObjectId) (now : Date) : ListFilter where
  memberId := some memberId
  bookId := none
  returnedAt := some false
  status := some [.active, .overdue]
  dueAt := some now

theorem overdue_selects {memberId : ObjectId} {now : Date} {b : Borrowing} :
    (overdue memberId now).selects b = Borrowing.isOverdue memberId now b := by
  simp [selects, overdue, Borrowing.isOverdue, Borrowing.isOpen, Bool.and_assoc]

end ListFilter

/-- The id a query may name; an empty one is left aside. -/
def queriedId (fieldName : String) : Option String → Except Failure (Option ObjectId)
  | some value => if value = "" then .ok none else (toMongoObjectId value fieldName).map some
  | none => .ok none

def buildListFilter (query : BorrowingQueryDto) (now : Date) : Except Failure ListFilter := do
  let memberId ← queriedId "memberId" query.memberId
  let bookId ← queriedId "bookId" query.bookId
  let filter : ListFilter := ⟨memberId, bookId, none, none, none⟩
  if query.overdueOnly then
    return { filter with
      returnedAt := some false
      status := some [.active, .overdue]
      dueAt := some now }
  else if query.currentOnly then
    return { filter with
      returnedAt := some false
      status := some [.active, .overdue] }
  else
    return { filter with status := query.status.map fun status => [status] }

/-- A borrowing as a list shows it. The documents it refers to may be missing. -/
structure ListedBorrowingDto where
  id : ObjectId
  memberId : String
  memberDisplayName : String
  memberNumber : Option String
  bookId : String
  bookTitle : String
  bookCatalogIdentifier : Option String
  bookCategoryId : ObjectId
  borrowedAt : Date
  dueAt : Date
  returnedAt : Option Date
  status : LoanState
  borrowedByStaffId : String
  returnedByStaffId : Option String
  deriving DecidableEq

/-- The status that a response reports. -/
def Borrowing.effectiveStatus (borrowing : Borrowing) (now : Date) : LoanState :=
  if borrowing.status = .active ∧ borrowing.returnedAt = none ∧ borrowing.dueAt < now then .overdue
  else borrowing.status

theorem toResponse_status {borrowing : Borrowing} {now : Date} {book : Book} {member : Member} :
    (toResponse borrowing now book member).status = borrowing.effectiveStatus now := rfl

/-- `toResponse` of a borrowing whose member and book are populated; a reference to nothing
is `null`. -/
def listed (s : Database) (now : Date) (borrowing : Borrowing) : ListedBorrowingDto :=
  let member := s.members.find? fun m => decide (m.id = borrowing.memberId)
  let book := s.books.find? fun b => decide (b.id = borrowing.bookId)
  { id := borrowing.id
    memberId := member.elim "null" fun m => m.id.1
    memberDisplayName := member.elim "Unknown member" (·.fullName)
    memberNumber := member.map (·.memberNumber)
    bookId := book.elim "null" fun b => b.id.1
    bookTitle := book.elim "Book unavailable" (·.title)
    bookCatalogIdentifier := book.map (·.catalogIdentifier)
    bookCategoryId := borrowing.bookCategoryId
    borrowedAt := borrowing.borrowedAt
    dueAt := borrowing.dueAt
    returnedAt := borrowing.returnedAt
    status := borrowing.effectiveStatus now
    borrowedByStaffId := borrowing.borrowedByStaffId
    returnedByStaffId := borrowing.returnedByStaffId }

/-- What the filter of `findAll` selects, before paging. -/
def Database.selected (s : Database) (filter : ListFilter) : List Borrowing :=
  s.borrowings.filter filter.selects

/-- `findAll` on the store `s`: a page of what is selected, in the order of the due dates. -/
structure FindAll (s : Database) (query : BorrowingQueryDto) (now : Date) (filter : ListFilter)
    (response : List ListedBorrowingDto) : Prop where
  built : buildListFilter query now = .ok filter
  paged : ∃ sorted : List Borrowing, sorted.Perm (s.selected filter) ∧
    sorted.Pairwise (fun b b' => b.dueAt ≤ b'.dueAt) ∧
    response = ((sorted.drop ((query.page - 1) * query.limit)).take query.limit).map (listed s now)

/-- A list shows what is selected. -/
theorem FindAll.selected {s : Database} {query : BorrowingQueryDto} {now : Date}
    {filter : ListFilter} {response : List ListedBorrowingDto}
    (h : FindAll s query now filter response) {r : ListedBorrowingDto} (hr : r ∈ response) :
    ∃ b ∈ s.selected filter, r = listed s now b := by
  obtain ⟨sorted, hperm, -, rfl⟩ := h.paged
  obtain ⟨b, hb, rfl⟩ := List.mem_map.mp hr
  exact ⟨b, hperm.subset (List.mem_of_mem_drop (List.mem_of_mem_take hb)), rfl⟩

section Records

/-- The borrowing is as lending and returning leave one. -/
def Borrowing.Recorded (b : Borrowing) : Prop :=
  b.status = .active ∧ b.returnedAt = none ∨ b.status = .returned ∧ b.returnedAt.isSome = true

/-- The call writes only such borrowings. -/
def records : (β : Type) → Op β → Prop
  | _, .insertBorrowing b => b.Recorded
  | _, .saveBorrowing _ changes =>
    (∃ date, changes.returnedAt = some (some date)) ∧ changes.status = some .returned
  | _, _ => True

/-- The document is none of a borrowing, or of one as lending and returning leave it. -/
def Doc.Recorded : Doc → Prop
  | .borrowing b => b.Recorded
  | _ => True

theorem saveOne_doc {α : Type} {key : α → ObjectId} {id : ObjectId} {update : Option (α → α)}
    {doc : α → Doc} {stored : List α} {docs : List Doc}
    (h : saveOne key id update doc stored docs) {d : Doc} (hd : d ∈ docs) :
    ∃ f a, update = some f ∧ a ∈ stored ∧ d = doc (f a) := by
  cases update with
  | none =>
    obtain rfl : docs = [] := h
    cases hd
  | some f =>
    obtain ⟨a, hfind, rfl⟩ := h
    exact ⟨f, a, rfl, hfind.mem, List.mem_singleton.mp hd⟩

theorem docs_recorded {β : Type} {op : Op β} {s : Database} {r : β} {docs : List Doc}
    (hop : records β op) (h : exec β op s r docs) : ∀ d ∈ docs, d.Recorded := by
  intro d hd
  cases op with
  | insertBorrowing b =>
    obtain ⟨-, rfl⟩ := h
    rw [List.mem_singleton.mp hd]
    exact hop
  | saveBorrowing id changes =>
    obtain ⟨f, b, hupdate, -, rfl⟩ := saveOne_doc h hd
    obtain ⟨⟨date, hdate⟩, hstatus⟩ := hop
    simp only [BorrowingChanges.update] at hupdate
    split_ifs at hupdate
    cases hupdate
    exact .inr ⟨by simp [BorrowingChanges.apply, hstatus], by simp [BorrowingChanges.apply, hdate]⟩
  | insertBook b =>
    obtain ⟨-, -, rfl⟩ := h
    rw [List.mem_singleton.mp hd]
    trivial
  | saveBook id changes =>
    obtain ⟨f, b, -, -, rfl⟩ := saveOne_doc h.2 hd
    trivial
  | saveMember id changes =>
    obtain ⟨f, m, -, -, rfl⟩ := saveOne_doc h.2 hd
    trivial
  | currentDate | newObjectId =>
    obtain rfl : docs = [] := h
    cases hd
  | findMember | findBook | findCategory | findMembershipType | findBorrowing | existsOverdue =>
    obtain ⟨-, rfl⟩ := h
    cases hd

theorem call_confined {β : Type} {op : Op β} (h : records β op) : (call op).run.Confined records := by
  refine ⟨h, fun r => ?_⟩
  cases r with
  | some b => trivial
  | none => trivial

theorem lift_confined {α : Type} {r : Except Failure α} : (lift r).run.Confined records := by
  cases r with
  | ok a => trivial
  | error e => trivial

theorem findDocument_confined {α : Type} {fieldName message id : String}
    {op : ObjectId → Op (Option α)} (h : ∀ id, records _ (op id)) :
    (findDocument fieldName message op id).run.Confined records := by
  refine .run_bind lift_confined fun id => ?_
  exact .run_bind (call_confined (h id)) fun r => lift_confined

theorem createWork_confined {dto : CreateBorrowingDto} {auditActor : AuditActor} :
    (createWork dto auditActor).run.Confined records := by
  have hfind : ∀ {α : Type} {fieldName message id : String} {op : ObjectId → Op (Option α)},
      (∀ id, records _ (op id)) → (findDocument fieldName message op id).run.Confined records :=
    findDocument_confined
  refine .run_bind (call_confined trivial) fun borrowedAt => ?_
  refine .run_bind (hfind fun _ => trivial) fun member => ?_
  refine .run_bind (hfind fun _ => trivial) fun book => ?_
  refine .run_bind (hfind fun _ => trivial) fun category => ?_
  refine .run_bind (hfind fun _ => trivial) fun membershipType => ?_
  refine .run_bind (.run_bind lift_confined fun _ => call_confined trivial) fun overdue => ?_
  refine .run_bind lift_confined fun _ => ?_
  refine .run_bind (call_confined trivial) fun id => ?_
  refine .run_bind (call_confined (.inl ⟨rfl, rfl⟩)) fun _ => ?_
  refine .run_bind (call_confined trivial) fun _ => ?_
  exact .run_bind (call_confined trivial) fun _ => .run_pure

/-- The save of a loan that is being closed sends its return. -/
theorem records_closed {borrowing : Borrowing} (h : assertCanReturn borrowing = .ok ())
    (returnedAt : Date) (staffId : String) : records _ (.saveBorrowing borrowing.id
      (.between borrowing (borrowing.closed returnedAt staffId))) := by
  simp only [assertCanReturn] at h
  split_ifs at h with hreturned hother
  rw [not_or, Option.not_isSome_iff_eq_none] at hreturned
  obtain ⟨hnone, hstatus⟩ := hreturned
  refine ⟨⟨returnedAt, ?_⟩, ?_⟩
  · show modified borrowing.returnedAt (some returnedAt) = _
    rw [hnone]
    rfl
  · exact if_neg (Ne.symm hstatus)

theorem returnWork_confined {id : String} {dto : ReturnBorrowingDto} {auditActor : AuditActor} :
    (returnWork id dto auditActor).run.Confined records := by
  refine .run_bind ?_ fun returnedAt => ?_
  · rw [returnDate]
    split
    · trivial
    · exact call_confined trivial
  refine .run_bind (findDocument_confined fun _ => trivial) fun borrowing => ?_
  cases hcan : assertCanReturn borrowing with
  | error e => exact .run_throw
  | ok _ =>
    refine .run_bind lift_confined fun _ => ?_
    refine .run_bind (findDocument_confined fun _ => trivial) fun book => ?_
    refine .run_bind (findDocument_confined fun _ => trivial) fun member => ?_
    refine .run_bind (call_confined (records_closed hcan returnedAt auditActor.id)) fun _ => ?_
    refine .run_bind (call_confined trivial) fun _ => ?_
    exact .run_bind (call_confined trivial) fun _ => .run_pure

variable {ι : Type} {s₀ : Database} {h : List (Commit ι LoanCall Doc)}

theorem recorded_put {s : Database} {d : Doc} (hd : d.Recorded)
    (hs : ∀ b ∈ s.borrowings, b.Recorded) : ∀ b ∈ (s.put d).borrowings, b.Recorded := by
  intro b hb
  cases d with
  | book x => exact hs b hb
  | member m => exact hs b hb
  | borrowing x =>
    rcases mem_replaceOne.mp hb with rfl | ⟨hold, -⟩
    · exact hd
    · exact hs b hold

theorem recorded_putAll {s : Database} {docs : List Doc} (hdocs : ∀ d ∈ docs, d.Recorded)
    (hs : ∀ b ∈ s.borrowings, b.Recorded) : ∀ b ∈ (loans.putAll docs s).borrowings, b.Recorded := by
  induction docs with
  | nil => exact hs
  | cons d docs ih =>
    exact recorded_put (hdocs d List.mem_cons_self)
      (ih fun d' hd' => hdocs d' (List.mem_cons_of_mem _ hd'))

theorem recorded_of_outcome {s : Database} {α : Type} {work : Work α} {r : Except Failure α}
    {docs : List Doc} (hwork : work.run.Confined records) (h : loans.Outcome s work r docs) :
    ∀ d ∈ docs, d.Recorded :=
  Service.evals_docs docs_recorded hwork h.evals (by simp)

/-- Every request of lending leaves the borrowings so. -/
theorem loans_record (h₀ : ∀ b ∈ s₀.borrowings, b.Recorded) :
    loans.Keeps s₀ (Regime.any : Regime ι LoanCall Op Doc)
      fun h => ∀ b ∈ (loans.after s₀ h).borrowings, b.Recorded where
  init := h₀
  body i request h _ := by
    have transaction : ∀ {h} {work : Work BorrowingResponseDto}, work.run.Confined records →
        loans.Conforms s₀ Regime.any (fun h => ∀ b ∈ (loans.after s₀ h).borrowings, b.Recorded) i
          request (fun _ _ => True) h (Routine.withTransaction .database work).run := by
      intro h work hwork
      refine Service.Conforms.run_withTransaction (fun _ _ _ docs _ _ _ hs hout _ => ?_)
        (fun _ _ _ _ _ _ _ _ _ => trivial) fun _ _ _ => trivial
      exact ⟨recorded_putAll (recorded_of_outcome hwork hout) hs, trivial, trivial⟩
    cases request with
    | create dto actor =>
      exact Service.Conforms.run_then check_conforms (fun _ _ _ => transaction createWork_confined)
        fun _ _ _ => trivial
    | returnBorrowing id dto actor =>
      exact Service.Conforms.run_then check_conforms (fun _ _ _ => transaction returnWork_confined)
        fun _ _ _ => trivial

end Records

section Statuses

/-- The loan is late: not returned, and past its due date. -/
def Borrowing.isLate (now : Date) (b : Borrowing) : Bool := b.isOpen && decide (b.dueAt < now)

/-- The query is about the borrowing's member and book. -/
def ListFilter.covers (filter : ListFilter) (b : Borrowing) : Bool :=
  filter.memberId.all (fun id => decide (b.memberId = id)) &&
    filter.bookId.all (fun id => decide (b.bookId = id))

/-- The statuses a query asks for: the flags come first. -/
def BorrowingQueryDto.asks (query : BorrowingQueryDto) (state : LoanState) : Bool :=
  if query.overdueOnly then decide (state = .overdue)
  else if query.currentOnly then decide (state = .active) || decide (state = .overdue)
  else query.status.all fun status => decide (state = status)

/-- The query asks for loans that are not late, or for those that are, by their status. -/
def BorrowingQueryDto.asksLateness (query : BorrowingQueryDto) : Prop :=
  query.overdueOnly = false ∧ query.currentOnly = false ∧
    (query.status = some .active ∨ query.status = some .overdue)

theorem buildListFilter_ok {query : BorrowingQueryDto} {now : Date} {filter : ListFilter}
    (h : buildListFilter query now = .ok filter) : filter.returnedAt =
        (if query.overdueOnly then some false else if query.currentOnly then some false else none) ∧
      filter.status =
        (if query.overdueOnly then some [.active, .overdue]
          else if query.currentOnly then some [.active, .overdue]
          else query.status.map fun status => [status]) ∧
      filter.dueAt = if query.overdueOnly then some now else none := by
  simp only [buildListFilter] at h
  cases hm : queriedId "memberId" query.memberId with
  | error e =>
    rw [hm] at h
    cases h
  | ok memberId =>
    cases hb : queriedId "bookId" query.bookId with
    | error e =>
      rw [hm, hb] at h
      cases h
    | ok bookId =>
      rw [hm, hb] at h
      cases hoverdue : query.overdueOnly <;> cases hcurrent : query.currentOnly <;>
        simp only [hoverdue, hcurrent] at h ⊢ <;> cases h <;> exact ⟨rfl, rfl, rfl⟩

variable {query : BorrowingQueryDto} {now : Date} {filter : ListFilter} {b : Borrowing}

theorem effectiveStatus_overdue (hb : b.Recorded) :
    b.effectiveStatus now = .overdue ↔ b.isLate now = true := by
  rcases hb with ⟨hs, hr⟩ | ⟨hs, hr⟩
  · simp [Borrowing.effectiveStatus, Borrowing.isLate, Borrowing.isOpen, hs, hr]
  · simp [Borrowing.effectiveStatus, Borrowing.isLate, Borrowing.isOpen, hs]

theorem effectiveStatus_of_not_late (hlate : b.isLate now = false) (hb : b.Recorded) :
    b.effectiveStatus now = b.status := by
  have hne : b.effectiveStatus now ≠ .overdue := by
    intro heq
    rw [effectiveStatus_overdue hb, hlate] at heq
    cases heq
  rw [Borrowing.effectiveStatus] at hne ⊢
  split_ifs at hne ⊢ with hlateActive
  · exact absurd rfl hne
  · rfl

/-- A late loan is stored as an active one. -/
theorem status_of_late (hlate : b.isLate now = true) (hb : b.Recorded) : b.status = .active := by
  rcases hb with ⟨hs, -⟩ | ⟨hs, -⟩
  · exact hs
  · simp [Borrowing.isLate, Borrowing.isOpen, hs] at hlate

theorem isOpen_iff_active (hb : b.Recorded) : b.isOpen = true ↔ b.status = .active := by
  rcases hb with ⟨hs, hr⟩ | ⟨hs, hr⟩
  · simp [Borrowing.isOpen, hs, hr]
  · simp [Borrowing.isOpen, hs]

theorem isLate_iff : b.isLate now = true ↔
    (b.returnedAt = none ∧ (b.status = .active ∨ b.status = .overdue)) ∧ b.dueAt < now := by
  simp [Borrowing.isLate, Borrowing.isOpen]

/-- What is reported as active or overdue is what has not been returned. -/
theorem reported_open_iff (hb : b.Recorded) :
    b.effectiveStatus now = .active ∨ b.effectiveStatus now = .overdue ↔
      b.returnedAt = none ∧ (b.status = .active ∨ b.status = .overdue) := by
  by_cases hlate : b.isLate now = true
  · have hreported := (effectiveStatus_overdue hb).mpr hlate
    simp [hreported, (isLate_iff.mp hlate).1]
  · rw [effectiveStatus_of_not_late (Bool.eq_false_iff.mpr hlate) hb]
    rcases hb with ⟨hs, hr⟩ | ⟨hs, hr⟩
    · simp [hs, hr]
    · simp [hs]

/-- The stored status is the reported one, except of a late loan: that one is stored as
active and reported as overdue. -/
theorem stored_iff_reported (hb : b.Recorded) (state : LoanState) :
    (b.status = state ↔ b.effectiveStatus now = state) ↔
      (state = .active ∨ state = .overdue → b.isLate now = false) := by
  cases hlate : b.isLate now with
  | true =>
    rw [(effectiveStatus_overdue hb).mpr hlate, status_of_late hlate hb]
    cases state <;> simp
  | false => simp [effectiveStatus_of_not_late hlate hb]

/-- A borrowing that lending has left is selected as the query asks, unless it is late and the
query tells late loans from others by their status. -/
theorem selects_iff (hquery : buildListFilter query now = .ok filter) (hb : b.Recorded) :
    (filter.selects b = true ↔
      filter.covers b = true ∧ query.asks (b.effectiveStatus now) = true) ↔
    (query.asksLateness → filter.covers b = true → b.isLate now = false) := by
  obtain ⟨hreturned, hstatus, hdue⟩ := buildListFilter_ok hquery
  have hselects : filter.selects b = (filter.covers b &&
      (filter.returnedAt.all (fun present => b.returnedAt.isSome == present) &&
        filter.status.all (fun states => decide (b.status ∈ states)) &&
        filter.dueAt.all fun now => decide (b.dueAt < now))) := by
    simp only [ListFilter.selects, ListFilter.covers, Bool.and_assoc]
  rw [hselects, Bool.and_eq_true, hreturned, hstatus, hdue]
  by_cases hcovers : filter.covers b = true
  swap
  · simp [hcovers]
  cases hoverdue : query.overdueOnly with
  | true =>
    simp [hcovers, hoverdue, BorrowingQueryDto.asks, BorrowingQueryDto.asksLateness,
      effectiveStatus_overdue hb, isLate_iff]
  | false =>
    cases hcurrent : query.currentOnly with
    | true =>
      simp [hcovers, hoverdue, hcurrent, BorrowingQueryDto.asks, BorrowingQueryDto.asksLateness,
        reported_open_iff hb]
    | false =>
      cases hstate : query.status with
      | none =>
        simp [hcovers, hoverdue, hcurrent, hstate, BorrowingQueryDto.asks,
          BorrowingQueryDto.asksLateness]
      | some state =>
        simpa [hcovers, hoverdue, hcurrent, hstate, BorrowingQueryDto.asks,
          BorrowingQueryDto.asksLateness] using stored_iff_reported hb state

end Statuses

section Main

variable {ι : Type} [DecidableEq ι] {s₀ : Database} {query : BorrowingQueryDto} {now : Date}
  {filter : ListFilter} {cfg : Transactions.Config ι LoanCall Op Doc Failure (Except Failure BorrowingResponseDto)}

/-- A query for the loans of one status. -/
def statusQuery (status : LoanState) : BorrowingQueryDto :=
  ⟨1, 20, none, none, some status, false, false⟩

/-- A loan of fourteen days is made at the date 1000. -/
def lendsOnce : List (Transactions.Move ℕ LoanCall Draw) :=
  [.start 0 (lends 0), .begin 0] ++ List.replicate 10 (go 0) ++ [.commit 0]

/-- The last moment of the loan, and the one after it. -/
def dueDate : Date := 1000 + 14 * 86400000

theorem lendsOnce_run : ∃ cfg, loans.Reachable library (Regime.any : Regime ℕ LoanCall Op Doc) cfg ∧
    ∃ b, (loans.after library cfg.history).borrowings = [b] ∧
      b.status = .active ∧ b.returnedAt = none ∧ b.dueAt = dueDate := by
  have hrun : ((loansDriver library).play Config.init lendsOnce).map
      (fun cfg => (loans.after library cfg.history).borrowings.map fun b =>
        (b.status, b.returnedAt, b.dueAt)) = some [(.active, none, dueDate)] := by
    decide +kernel
  obtain ⟨cfg, hplay, hview⟩ := Option.map_eq_some_iff.mp hrun
  obtain ⟨b, hb, heq⟩ := List.map_eq_singleton_iff.mp hview
  obtain ⟨hstatus, hreturned, hdue⟩ : b.status = .active ∧ b.returnedAt = none ∧ b.dueAt = dueDate := by
    simpa only [Prod.mk.injEq] using heq
  exact ⟨cfg, Driver.play_runs hplay, b, hb, hstatus, hreturned, hdue⟩

end Main

end Circulation
