import BookLibrary.Circulation.Listing

/-!
# What members see of themselves

The routes under `members/me`, which take the member's id from the access token. Whatever else
the library holds, their answers depend on what is the member's own.
-/

namespace Circulation

open Documents

inductive SelfServiceFailure where
  | forbidden (message : String)
  | failed (error : Failure)
  deriving DecidableEq

structure MemberPolicyStatusResponseDto where
  memberId : ObjectId
  status : MemberStatus
  membershipTypeId : ObjectId
  maxActiveLoans : ℤ
  activeLoanCount : ℤ
  remainingAllowance : ℤ
  eligibleByStatus : Bool
  withinLimit : Bool
  limitReached : Bool
  deriving DecidableEq

section Services

variable (s : Database) (now : Date)

/-- `findAll`, which may end in an error of the filter or of the database. -/
def findAll (query : BorrowingQueryDto) (r : Except Failure (List ListedBorrowingDto)) : Prop :=
  match buildListFilter query now with
  | .error error => r = .error error
  | .ok filter =>
    r = .error .database ∨ ∃ response, FindAll s query now filter response ∧ r = .ok response

def findByMember (memberId : String) (query : BorrowingQueryDto)
    (r : Except SelfServiceFailure (List ListedBorrowingDto)) : Prop :=
  if query.memberId.getD "" ≠ "" ∧ query.memberId ≠ some memberId then
    r = .error (.forbidden "Member id must come from the token")
  else ∃ r', findAll s now { query with memberId := some memberId } r' ∧
    r = r'.mapError SelfServiceFailure.failed

def findOneForMember (id memberId : String) (r : Except Failure ListedBorrowingDto) : Prop :=
  match toMongoObjectId id "id", toMongoObjectId memberId "memberId" with
  | .error error, _ => r = .error error
  | .ok _, .error error => r = .error error
  | .ok id, .ok memberId =>
    r = .error .database ∨ ∃ borrowing,
      FindOne (fun b => decide (b.id = id) && decide (b.memberId = memberId)) s.borrowings borrowing ∧
        r = (found "Borrowing record not found" borrowing).map (listed s now)

/-- `MembershipTypesService.validateActivePolicy` on the type that was found. -/
def validateActivePolicy (membershipType : Option MembershipType) : Except Failure MembershipType := do
  let membershipType ← found "Membership type not found" membershipType
  if membershipType.status ≠ .active then throw (.conflict "Membership type is not active")
  else return membershipType

def policyStatus (member : Member) (membershipType : MembershipType) :
    MemberPolicyStatusResponseDto where
  memberId := member.id
  status := member.status
  membershipTypeId := member.membershipTypeId
  maxActiveLoans := membershipType.maxActiveLoans
  activeLoanCount := member.activeLoanCount
  remainingAllowance := max (membershipType.maxActiveLoans - member.activeLoanCount) 0
  eligibleByStatus := decide (member.status = .active)
  withinLimit := decide (member.activeLoanCount < membershipType.maxActiveLoans)
  limitReached := !decide (member.activeLoanCount < membershipType.maxActiveLoans)

def getPolicyStatus (id : String) (r : Except Failure MemberPolicyStatusResponseDto) : Prop :=
  match toMongoObjectId id "id" with
  | .error error => r = .error error
  | .ok id =>
    r = .error .database ∨ ∃ member, FindOne (fun m => decide (m.id = id)) s.members member ∧
      match member with
      | none => r = .error (.notFound "Member not found")
      | some member => r = .error .database ∨ ∃ membershipType,
          FindOne (fun t => decide (t.id = member.membershipTypeId)) s.membershipTypes
            membershipType ∧
          r = (validateActivePolicy membershipType).map (policyStatus member)

end Services

/-- A request under `members/me`. -/
inductive SelfServiceCall where
  | getMyPolicyStatus
  | findMyBorrowings (query : BorrowingQueryDto)
  | findMyBorrowing (borrowingId : String)

inductive SelfServiceResponse where
  | policyStatus (r : Except Failure MemberPolicyStatusResponseDto)
  | borrowings (r : Except SelfServiceFailure (List ListedBorrowingDto))
  | borrowing (r : Except Failure ListedBorrowingDto)

/-- The controller rejects another member's id before the service does. -/
def rejectUserSuppliedMemberId (query : BorrowingQueryDto) (authenticatedMemberId : String) :
    Except SelfServiceFailure Unit :=
  if query.memberId.getD "" ≠ "" ∧ query.memberId ≠ some authenticatedMemberId then
    .error (.forbidden "Member id must come from the token")
  else .ok ()

/-- What the request of the member may be answered at the time `now`. -/
def SelfServiceCall.Answers (s : Database) (memberId : String) (now : Date) :
    SelfServiceCall → SelfServiceResponse → Prop
  | .getMyPolicyStatus, .policyStatus r => getPolicyStatus s memberId r
  | .findMyBorrowings query, .borrowings r =>
    match rejectUserSuppliedMemberId query memberId with
    | .error error => r = .error error
    | .ok _ => findByMember s now memberId query r
  | .findMyBorrowing borrowingId, .borrowing r => findOneForMember s now borrowingId memberId r
  | _, _ => False

/-- The loans of a member. -/
def Database.ownedBy (s : Database) (id : ObjectId) : List Borrowing :=
  s.borrowings.filter fun b => decide (b.memberId = id)

/-- Two libraries that hold the same of a member: its document with the membership type, its
loans, and the books of these. -/
structure SeenAlike (id : ObjectId) (s s' : Database) : Prop where
  loans : (s.ownedBy id).Perm (s'.ownedBy id)
  books : ∀ loan ∈ s.ownedBy id, ∀ book : Book, book.id = loan.bookId →
    (book ∈ s.books ↔ book ∈ s'.books)
  member : ∀ m : Member, m.id = id → (m ∈ s.members ↔ m ∈ s'.members)
  membershipType : ∀ m ∈ s.members, m.id = id → ∀ t : MembershipType, t.id = m.membershipTypeId →
    (t ∈ s.membershipTypes ↔ t ∈ s'.membershipTypes)

theorem SeenAlike.symm {id : ObjectId} {s s' : Database} (h : SeenAlike id s s') :
    SeenAlike id s' s where
  loans := h.loans.symm
  books loan hloan book hbook := (h.books loan (h.loans.mem_iff.mpr hloan) book hbook).symm
  member m hm := (h.member m hm).symm
  membershipType m hm hid t ht := (h.membershipType m ((h.member m hid).mpr hm) hid t ht).symm

section Collections

variable {α κ : Type} [DecidableEq κ] {key : α → κ} {k : κ} {docs docs' : List α}

theorem find?_key_eq_some (hu : (docs.map key).Nodup) {a : α} :
    docs.find? (fun x => decide (key x = k)) = some a ↔ a ∈ docs ∧ key a = k := by
  constructor
  · exact fun h => ⟨List.mem_of_find?_eq_some h, by simpa using List.find?_some h⟩
  · rintro ⟨hmem, rfl⟩
    exact FindOne.eq_find? ⟨hmem, decide_eq_true rfl⟩ hu

/-- What a unique key finds depends on the documents that carry it. -/
theorem find?_key_congr (hu : (docs.map key).Nodup) (hu' : (docs'.map key).Nodup)
    (h : ∀ a, key a = k → (a ∈ docs ↔ a ∈ docs')) :
    docs.find? (fun x => decide (key x = k)) = docs'.find? fun x => decide (key x = k) := by
  refine Option.ext fun a => ?_
  rw [find?_key_eq_some hu, find?_key_eq_some hu']
  exact and_congr_left fun ha => h a ha

theorem findOne_congr {p : α → Bool} (h : ∀ a, p a = true → (a ∈ docs ↔ a ∈ docs')) {r : Option α}
    (hr : FindOne p docs r) : FindOne p docs' r := by
  cases r with
  | some a => exact ⟨(h a hr.2).mp hr.1, hr.2⟩
  | none =>
    intro a ha
    by_contra hp
    rw [Bool.not_eq_false] at hp
    exact absurd (hr a ((h a hp).mpr ha)) (by simp [hp])

end Collections

section Isolation

variable {id : ObjectId} {s s' : Database} {now : Date}

theorem mem_ownedBy {b : Borrowing} : b ∈ s.ownedBy id ↔ b ∈ s.borrowings ∧ b.memberId = id := by
  simp [Database.ownedBy]

/-- A loan of the member is listed alike. -/
theorem SeenAlike.listed (h : SeenAlike id s s') (hs : s.Indexed) (hs' : s'.Indexed) {b : Borrowing}
    (hb : b ∈ s.ownedBy id) : listed s now b = listed s' now b := by
  have hmember : b.memberId = id := (mem_ownedBy.mp hb).2
  have hmembers := find?_key_congr (k := b.memberId) hs.members hs'.members
    fun m hm => h.member m (hm.trans hmember)
  have hbooks := find?_key_congr (k := b.bookId) hs.books hs'.books fun book => h.books b hb book
  simp only [Circulation.listed, hmembers, hbooks]

theorem queriedId_text (fieldName : String) (id : ObjectId) :
    queriedId fieldName (some id.1) = .ok (some id) := by
  have hne : id.1 ≠ "" := by
    intro hempty
    have hcanonical := id.2
    rw [hempty] at hcanonical
    exact absurd hcanonical (by decide)
  simp only [queriedId, if_neg hne, toMongoObjectId, ObjectId.parse_text]
  rfl

/-- The filter of a query for the member asks for its loans. -/
theorem buildListFilter_own {query : BorrowingQueryDto} {filter : ListFilter}
    (hfilter : buildListFilter { query with memberId := some id.1 } now = .ok filter) :
    filter.memberId = some id := by
  simp only [buildListFilter, queriedId_text] at hfilter
  cases hbook : queriedId "bookId" query.bookId with
  | error e =>
    rw [hbook] at hfilter
    cases hfilter
  | ok bookId =>
    rw [hbook] at hfilter
    by_cases hoverdue : query.overdueOnly = true
    · simp only [hoverdue] at hfilter
      cases hfilter
      rfl
    · by_cases hcurrent : query.currentOnly = true
      · simp only [hoverdue, hcurrent] at hfilter
        cases hfilter
        rfl
      · simp only [hoverdue, hcurrent] at hfilter
        cases hfilter
        rfl

theorem selected_own {filter : ListFilter} (hfilter : filter.memberId = some id) :
    s.selected filter = (s.ownedBy id).filter filter.selects := by
  rw [Database.selected, Database.ownedBy, List.filter_filter]
  refine List.filter_congr fun b _ => ?_
  by_cases hb : b.memberId = id
  · simp [hb]
  · simp [ListFilter.selects, hfilter, hb]

/-- What a page shows is the member's. -/
theorem FindAll.own {query : BorrowingQueryDto} {filter : ListFilter}
    {response : List ListedBorrowingDto} (hfilter : filter.memberId = some id)
    (h : FindAll s query now filter response) :
    ∀ r ∈ response, ∃ loan ∈ s.ownedBy id, r = listed s now loan := by
  intro r hr
  obtain ⟨b, hb, rfl⟩ := h.selected hr
  rw [selected_own hfilter] at hb
  exact ⟨b, (List.mem_filter.mp hb).1, rfl⟩

theorem SeenAlike.findAll (h : SeenAlike id s s') (hs : s.Indexed) (hs' : s'.Indexed)
    {query : BorrowingQueryDto} {r : Except Failure (List ListedBorrowingDto)}
    (hr : findAll s now { query with memberId := some id.1 } r) :
    findAll s' now { query with memberId := some id.1 } r := by
  rw [Circulation.findAll] at hr ⊢
  cases hfilter : buildListFilter { query with memberId := some id.1 } now with
  | error e =>
    rw [hfilter] at hr
    exact hr
  | ok filter =>
    rw [hfilter] at hr
    refine hr.imp_right ?_
    rintro ⟨response, ⟨hbuilt, sorted, hperm, hsorted, rfl⟩, rfl⟩
    have hown := buildListFilter_own hfilter
    rw [selected_own hown] at hperm
    refine ⟨_, ⟨hbuilt, sorted, ?_, hsorted, rfl⟩, congrArg Except.ok (List.map_congr_left ?_)⟩
    · rw [selected_own hown]
      exact hperm.trans (h.loans.filter _)
    · intro b hb
      have hmem := hperm.subset (List.mem_of_mem_drop (List.mem_of_mem_take hb))
      exact h.listed hs hs' (List.mem_filter.mp hmem).1

theorem SeenAlike.findOneForMember (h : SeenAlike id s s') (hs : s.Indexed) (hs' : s'.Indexed)
    {borrowingId : String} {r : Except Failure ListedBorrowingDto}
    (hr : findOneForMember s now borrowingId id.1 r) :
    findOneForMember s' now borrowingId id.1 r := by
  have hid : toMongoObjectId id.1 "memberId" = .ok id := by
    rw [toMongoObjectId, ObjectId.parse_text]
  rw [Circulation.findOneForMember, hid] at hr ⊢
  cases hborrowing : toMongoObjectId borrowingId "id" with
  | error e =>
    rw [hborrowing] at hr
    exact hr
  | ok oid =>
    rw [hborrowing] at hr
    refine hr.imp_right ?_
    rintro ⟨borrowing, hfound, rfl⟩
    refine ⟨borrowing, findOne_congr (fun b hb => ?_) hfound, ?_⟩
    · -- the filter asks for a loan of the member
      rw [Bool.and_eq_true, decide_eq_true_eq, decide_eq_true_eq] at hb
      have hmem := h.loans.mem_iff (a := b)
      rwa [mem_ownedBy, mem_ownedBy, and_iff_left hb.2, and_iff_left hb.2] at hmem
    · cases borrowing with
      | none => rfl
      | some b =>
        have hb := hfound.2
        rw [Bool.and_eq_true, decide_eq_true_eq, decide_eq_true_eq] at hb
        exact congrArg Except.ok (h.listed hs hs' (mem_ownedBy.mpr ⟨hfound.1, hb.2⟩))

theorem SeenAlike.getPolicyStatus (h : SeenAlike id s s')
    {r : Except Failure MemberPolicyStatusResponseDto} (hr : getPolicyStatus s id.1 r) :
    getPolicyStatus s' id.1 r := by
  rw [Circulation.getPolicyStatus, toMongoObjectId, ObjectId.parse_text] at hr ⊢
  refine hr.imp_right ?_
  rintro ⟨member, hfound, hrest⟩
  refine ⟨member, findOne_congr (fun m hm => h.member m (of_decide_eq_true hm)) hfound, ?_⟩
  cases member with
  | none => exact hrest
  | some m =>
    refine hrest.imp_right ?_
    rintro ⟨membershipType, htype, rfl⟩
    refine ⟨membershipType, findOne_congr (fun t ht => ?_) htype, rfl⟩
    exact h.membershipType m hfound.1 (of_decide_eq_true hfound.2) t (of_decide_eq_true ht)

/-- A list of the member's loans, unless the query names somebody else. -/
theorem answers_findMyBorrowings {query : BorrowingQueryDto}
    {r : Except SelfServiceFailure (List ListedBorrowingDto)} :
    (SelfServiceCall.findMyBorrowings query).Answers s id.1 now (.borrowings r) ↔
      if query.memberId.getD "" ≠ "" ∧ query.memberId ≠ some id.1 then
        r = .error (.forbidden "Member id must come from the token")
      else ∃ r', findAll s now { query with memberId := some id.1 } r' ∧
        r = r'.mapError SelfServiceFailure.failed := by
  simp only [SelfServiceCall.Answers, rejectUserSuppliedMemberId, findByMember]
  by_cases hother : query.memberId.getD "" ≠ "" ∧ query.memberId ≠ some id.1
  · simp only [if_pos hother]
  · simp only [if_neg hother]

theorem findAll_own {query : BorrowingQueryDto} {response : List ListedBorrowingDto}
    (h : findAll s now { query with memberId := some id.1 } (.ok response)) :
    ∀ r ∈ response, ∃ loan ∈ s.ownedBy id, r = listed s now loan := by
  rw [Circulation.findAll] at h
  cases hfilter : buildListFilter { query with memberId := some id.1 } now with
  | error e =>
    rw [hfilter] at h
    cases h
  | ok filter =>
    rw [hfilter] at h
    obtain ⟨_, hpage, heq⟩ := h.resolve_left (fun h => by cases h)
    cases heq
    exact hpage.own (buildListFilter_own hfilter)

theorem SeenAlike.answers (h : SeenAlike id s s') (hs : s.Indexed) (hs' : s'.Indexed)
    {call : SelfServiceCall} {response : SelfServiceResponse}
    (hr : call.Answers s id.1 now response) : call.Answers s' id.1 now response := by
  cases call with
  | getMyPolicyStatus =>
    cases response with
    | policyStatus r => exact h.getPolicyStatus hr
    | _ => cases hr
  | findMyBorrowings query =>
    cases response with
    | borrowings r =>
      rw [answers_findMyBorrowings] at hr ⊢
      by_cases hother : query.memberId.getD "" ≠ "" ∧ query.memberId ≠ some id.1
      · rw [if_pos hother] at hr ⊢
        exact hr
      · rw [if_neg hother] at hr ⊢
        obtain ⟨r', hr', rfl⟩ := hr
        exact ⟨r', h.findAll hs hs' hr', rfl⟩
    | _ => cases hr
  | findMyBorrowing borrowingId =>
    cases response with
    | borrowing r => exact h.findOneForMember hs hs' hr
    | _ => cases hr

end Isolation

section Neighbours

def neighbourId : ObjectId := ⟨"a20000000000000000000000", by decide⟩

/-- The library with another member, who has lent the book. -/
def sharedLibrary : Database :=
  { library with
    members := ⟨neighbourId, "M-1005", "Bea Borrower", typeId, .active, 1, none⟩ :: library.members
    borrowings := [⟨loanId 0, neighbourId, bookId, categoryId, 0, 1209600000, none, .active, "s1",
      none⟩] }

end Neighbours

end Circulation
