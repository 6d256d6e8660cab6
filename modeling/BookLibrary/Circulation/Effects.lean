import BookLibrary.Circulation.Service
import BookLibrary.Transactions.Contract

/-!
# What lending writes

The outcomes of the two transactions on a snapshot, and what their documents do to the
open loans of a store.
-/

namespace Circulation

open Documents Interleaving Transactions

variable {s : Database} {buffer buffer' docs : List Doc}

/-- The outcomes of a piece of a transaction on the snapshot `s`. -/
structure Ends (s : Database) {α : Type} (work : Work α) (buffer : List Doc)
    (r : Except Failure α) (buffer' : List Doc) : Prop where
  evals : Evals (loans.execWithin s) (fun _ _ => True) work.run buffer r buffer'

/-- What a transaction sees. -/
def view (s : Database) (buffer : List Doc) : Database := buffer.foldr Database.put s

theorem view_indexed (h : s.Indexed) : (view s buffer).Indexed := by
  induction buffer with
  | nil => exact h
  | cons d buffer ih => exact ih.put d

section Pieces

variable {α β : Type}

theorem ends_pure {a b : α} (h : Ends s (pure a) buffer (.ok b) buffer') :
    b = a ∧ buffer' = buffer := by
  obtain ⟨hr, hb⟩ := Evals.run_pure.mp h.evals
  exact ⟨Except.ok.inj hr, hb⟩

theorem ends_bind {x : Work β} {f : β → Work α} {a : α}
    (h : Ends s (x >>= f) buffer (.ok a) buffer') :
    ∃ b mid, Ends s x buffer (.ok b) mid ∧ Ends s (f b) mid (.ok a) buffer' := by
  obtain ⟨b, mid, hx, hf⟩ := Evals.run_bind_ok.mp h.evals
  exact ⟨b, mid, ⟨hx⟩, ⟨hf⟩⟩

theorem ends_lift {r : Except Failure α} {a : α} (h : Ends s (lift r) buffer (.ok a) buffer') :
    r = .ok a ∧ buffer' = buffer := by
  cases r with
  | ok b =>
    obtain ⟨rfl, hb⟩ := ends_pure h
    exact ⟨rfl, hb⟩
  | error e => cases (Evals.run_throw.mp h.evals).1

theorem ends_call {op : Op β} {b : β} (h : Ends s (call op) buffer (.ok b) buffer') :
    ∃ docs, exec β op (view s buffer) b docs ∧ buffer' = docs ++ buffer :=
  Evals.run_perform_ok.mp h.evals

theorem toMongoObjectId_ok {value fieldName : String} {id : ObjectId} :
    toMongoObjectId value fieldName = .ok id ↔ ObjectId.parse value = some id := by
  rw [toMongoObjectId]
  split
  · next heq => rw [heq]; simp
  · next heq => rw [heq]; simp

theorem found_ok {message : String} {r : Option α} {a : α} :
    found message r = .ok a ↔ r = some a := by
  cases r <;> simp [found]

/-- A document found by its id is read from the view, and nothing is written. -/
theorem ends_findDocument {raw fieldName message : String} (op : ObjectId → Op (Option α))
    (key : α → ObjectId) (docsOf : Database → List α)
    (hop : ∀ id s r docs, exec _ (op id) s r docs →
      FindOne (fun d => decide (key d = id)) (docsOf s) r ∧ docs = []) {a : α}
    (h : Ends s (findDocument fieldName message op raw) buffer (.ok a) buffer') :
    ObjectId.parse raw = some (key a) ∧ a ∈ docsOf (view s buffer) ∧ buffer' = buffer := by
  obtain ⟨id, mid, hlift, hrest⟩ := ends_bind h
  obtain ⟨hid, rfl⟩ := ends_lift hlift
  obtain ⟨r, mid', hcall, hlast⟩ := ends_bind hrest
  obtain ⟨docs, hexec, rfl⟩ := ends_call hcall
  obtain ⟨hfind, rfl⟩ := hop _ _ _ _ hexec
  obtain ⟨hfound, rfl⟩ := ends_lift hlast
  obtain rfl := found_ok.mp hfound
  have hkey : key a = id := of_decide_eq_true hfind.select
  refine ⟨?_, hfind.mem, rfl⟩
  rw [toMongoObjectId_ok.mp hid, hkey]

theorem ends_findMember {raw : String} {m : Member}
    (h : Ends s (findMember raw) buffer (.ok m) buffer') :
    ObjectId.parse raw = some m.id ∧ m ∈ (view s buffer).members ∧ buffer' = buffer :=
  ends_findDocument Op.findMember Member.id Database.members (fun _ _ _ _ h => h) h

theorem ends_findBook {raw : String} {b : Book}
    (h : Ends s (findBook raw) buffer (.ok b) buffer') :
    ObjectId.parse raw = some b.id ∧ b ∈ (view s buffer).books ∧ buffer' = buffer :=
  ends_findDocument Op.findBook Book.id Database.books (fun _ _ _ _ h => h) h

theorem ends_findCategory {raw : String} {c : BookCategory}
    (h : Ends s (findCategory raw) buffer (.ok c) buffer') : buffer' = buffer :=
  (ends_findDocument Op.findCategory BookCategory.id Database.categories (fun _ _ _ _ h => h) h).2.2

theorem ends_findMembershipType {raw : String} {t : MembershipType}
    (h : Ends s (findMembershipType raw) buffer (.ok t) buffer') :
    ObjectId.parse raw = some t.id ∧ t ∈ (view s buffer).membershipTypes ∧ buffer' = buffer :=
  ends_findDocument Op.findMembershipType MembershipType.id Database.membershipTypes (fun _ _ _ _ h => h) h

theorem ends_findBorrowing {raw : String} {b : Borrowing}
    (h : Ends s (findBorrowing raw) buffer (.ok b) buffer') :
    ObjectId.parse raw = some b.id ∧ b ∈ (view s buffer).borrowings ∧ buffer' = buffer :=
  ends_findDocument Op.findBorrowing Borrowing.id Database.borrowings (fun _ _ _ _ h => h) h

/-- The save of a loaded document that has changed writes what it has become. -/
theorem saveOne_loaded {key : α → ObjectId} {update : Option (α → α)} {doc : α → Doc}
    {stored : List α} {loaded now : α} (hn : (stored.map key).Nodup) (hmem : loaded ∈ stored)
    (hupdate : ∃ f, update = some f ∧ f loaded = now)
    (h : saveOne key (key loaded) update doc stored docs) : docs = [doc now] := by
  obtain ⟨f, rfl, rfl⟩ := hupdate
  obtain ⟨a, hfind, rfl⟩ := h
  have heq : a = loaded := List.inj_on_of_nodup_map hn hfind.mem hmem
    (of_decide_eq_true hfind.select)
  rw [heq]

theorem ends_saveBook {loaded now : Book} {u : Unit}
    (h : Ends s (saveBook loaded now) buffer (.ok u) buffer') (hs : (view s buffer).Indexed)
    (hmem : loaded ∈ (view s buffer).books) (hid : now.id = loaded.id) (hne : now ≠ loaded) :
    buffer' = .book now :: buffer := by
  obtain ⟨docs, ⟨-, hsave⟩, rfl⟩ := ends_call h
  rw [saveOne_loaded hs.books hmem (BookChanges.update_between hid hne) hsave]
  rfl

/-- A save of a member writes what it has become, or nothing if it is as it was. -/
theorem ends_saveMember_cases {loaded now : Member} {u : Unit}
    (h : Ends s (saveMember loaded now) buffer (.ok u) buffer') (hs : (view s buffer).Indexed)
    (hmem : loaded ∈ (view s buffer).members)
    (happly : (MemberChanges.between loaded now).apply loaded = now) :
    buffer' = .member now :: buffer ∨ buffer' = buffer ∧ now = loaded := by
  obtain ⟨docs, ⟨-, hsave⟩, rfl⟩ := ends_call h
  by_cases hsame : now = loaded
  · right
    have hnone : (MemberChanges.between loaded now).update = none := by
      rw [hsame]
      simp [MemberChanges.between, MemberChanges.update, MemberChanges.none, modified]
    rw [hnone] at hsave
    obtain rfl : docs = [] := hsave
    exact ⟨rfl, hsame⟩
  · left
    rw [saveOne_loaded hs.members hmem (MemberChanges.update_between happly hsame) hsave]
    rfl

theorem ends_saveMember {loaded now : Member} {u : Unit}
    (h : Ends s (saveMember loaded now) buffer (.ok u) buffer') (hs : (view s buffer).Indexed)
    (hmem : loaded ∈ (view s buffer).members)
    (happly : (MemberChanges.between loaded now).apply loaded = now) (hne : now ≠ loaded) :
    buffer' = .member now :: buffer :=
  (ends_saveMember_cases h hs hmem happly).resolve_right fun hsame => hne hsame.2

theorem ends_saveBorrowing {loaded now : Borrowing} {u : Unit}
    (h : Ends s (saveBorrowing loaded now) buffer (.ok u) buffer') (hs : (view s buffer).Indexed)
    (hmem : loaded ∈ (view s buffer).borrowings)
    (happly : (BorrowingChanges.between loaded now).apply loaded = now) (hne : now ≠ loaded) :
    buffer' = .borrowing now :: buffer := by
  obtain ⟨docs, hsave, rfl⟩ := ends_call h
  rw [saveOne_loaded hs.borrowings hmem (BorrowingChanges.update_between happly hne) hsave]
  rfl

end Pieces

section Transactions

theorem Book.lent_ne (book : Book) (staffId : String) : book.lent staffId ≠ book := by
  intro heq
  have hsame : book.availableQuantity - 1 = book.availableQuantity :=
    congrArg Book.availableQuantity heq
  omega

theorem Book.takenBack_ne (book : Book) (staffId : String) : book.takenBack staffId ≠ book := by
  intro heq
  have hsame : book.availableQuantity + 1 = book.availableQuantity :=
    congrArg Book.availableQuantity heq
  omega

theorem Member.borrowed_ne (member : Member) (staffId : String) :
    member.borrowed staffId ≠ member := by
  intro heq
  have hsame : member.activeLoanCount + 1 = member.activeLoanCount :=
    congrArg Member.activeLoanCount heq
  omega

theorem Member.relieved_ne {member : Member} (h : member.activeLoanCount ≠ 0) (staffId : String) :
    member.relieved staffId ≠ member := by
  intro heq
  have hsame : max (member.activeLoanCount - 1) 0 = member.activeLoanCount :=
    congrArg Member.activeLoanCount heq
  omega

/-- What a committed `create` has found and written. -/
structure Lent (s : Database) (dto : CreateBorrowingDto) (docs : List Doc) : Prop where
  lends : ∃ member ∈ s.members, ∃ book ∈ s.books, ∃ membershipType ∈ s.membershipTypes,
    ∃ loan : Borrowing, ∃ staffId,
    ObjectId.parse dto.memberId = some member.id ∧ 1 ≤ book.availableQuantity ∧
    membershipType.id = member.membershipTypeId ∧
    member.activeLoanCount < membershipType.maxActiveLoans ∧
    loan.isOpen = true ∧ loan.memberId = member.id ∧ loan.bookId = book.id ∧
    (∀ x ∈ s.borrowings, x.id ≠ loan.id) ∧
    docs = [.member (member.borrowed staffId), .book (book.lent staffId), .borrowing loan]

theorem assertCanBorrow_ok {book : Book} {category : BookCategory} {member : Member}
    {membershipType : MembershipType} {overdue : Bool}
    (h : assertCanBorrow book category member membershipType overdue = .ok ()) :
    1 ≤ book.availableQuantity ∧ member.activeLoanCount < membershipType.maxActiveLoans := by
  simp only [assertCanBorrow] at h
  split_ifs at h with hbook _ _ _ hlimit _
  rw [not_or, not_lt] at hbook
  exact ⟨hbook.2, not_le.mp hlimit⟩

theorem createWork_outcome {dto : CreateBorrowingDto} {actor : AuditActor}
    {r : BorrowingResponseDto} (hs : s.Indexed)
    (h : loans.Outcome s (createWork dto actor) (.ok r) docs) : Lent s dto docs := by
  have hends : Ends s (createWork dto actor) [] (.ok r) docs := ⟨h.evals⟩
  obtain ⟨borrowedAt, b₁, hdate, k₁⟩ := ends_bind hends
  obtain ⟨_, hnow, rfl⟩ := ends_call hdate
  obtain rfl : _ = [] := hnow
  obtain ⟨member, b₂, hmember, k₂⟩ := ends_bind k₁
  obtain ⟨hid, hmem, rfl⟩ := ends_findMember hmember
  obtain ⟨book, b₃, hbook, k₃⟩ := ends_bind k₂
  obtain ⟨-, hbmem, rfl⟩ := ends_findBook hbook
  obtain ⟨category, b₄, hcategory, k₄⟩ := ends_bind k₃
  obtain rfl := ends_findCategory hcategory
  obtain ⟨membershipType, b₅, htype, k₅⟩ := ends_bind k₄
  obtain ⟨htid, htmem, rfl⟩ := ends_findMembershipType htype
  obtain ⟨overdue, b₆, hoverdue, k₆⟩ := ends_bind k₅
  obtain ⟨memberId, b₇, hparse, hexists⟩ := ends_bind hoverdue
  obtain ⟨-, rfl⟩ := ends_lift hparse
  obtain ⟨_, ⟨-, rfl⟩, rfl⟩ := ends_call hexists
  obtain ⟨u, b₈, hrules, k₇⟩ := ends_bind k₆
  obtain ⟨hcan, rfl⟩ := ends_lift hrules
  obtain ⟨havailable, hlimit⟩ := assertCanBorrow_ok hcan
  obtain ⟨id, b₉, hdraw, k₈⟩ := ends_bind k₇
  obtain ⟨_, hdrawn, rfl⟩ := ends_call hdraw
  obtain rfl : _ = [] := hdrawn
  -- the writes: the loan, the book, the member
  obtain ⟨u₁, b₁₀, hinsert, k₉⟩ := ends_bind k₈
  obtain ⟨_, ⟨hnew, rfl⟩, rfl⟩ := ends_call hinsert
  obtain ⟨u₂, b₁₁, hsaveBook, k₁₀⟩ := ends_bind k₉
  obtain rfl := ends_saveBook hsaveBook (view_indexed hs) hbmem rfl (Book.lent_ne book _)
  obtain ⟨u₃, b₁₂, hsaveMember, k₁₁⟩ := ends_bind k₁₀
  obtain rfl := ends_saveMember hsaveMember (view_indexed hs) hmem
    (by simp [MemberChanges.between, MemberChanges.apply, Member.borrowed])
    (Member.borrowed_ne member _)
  obtain ⟨-, rfl⟩ := ends_pure k₁₁
  rw [ObjectId.parse_text, Option.some.injEq] at htid
  exact ⟨member, hmem, book, hbmem, membershipType, htmem, _, actor.id, hid, havailable,
    htid.symm, hlimit, rfl, rfl, rfl, hnew, rfl⟩

/-- What a committed `returnBorrowing` has found and written. -/
structure TakenBack (s : Database) (id : String) (docs : List Doc) : Prop where
  takes : ∃ borrowing ∈ s.borrowings, ∃ book ∈ s.books, ∃ member ∈ s.members, ∃ returnedAt staffId,
    ObjectId.parse id = some borrowing.id ∧ borrowing.isOpen = true ∧
    book.id = borrowing.bookId ∧ member.id = borrowing.memberId ∧
    docs = [.member (member.relieved staffId), .book (book.takenBack staffId),
      .borrowing (borrowing.closed returnedAt staffId)]

theorem assertCanReturn_ok {borrowing : Borrowing} (h : assertCanReturn borrowing = .ok ()) :
    borrowing.isOpen = true := by
  simp only [assertCanReturn] at h
  split_ifs at h with hreturned hother
  rw [not_or, Option.not_isSome_iff_eq_none] at hreturned
  rw [not_and_or, not_not, not_not] at hother
  simpa [Borrowing.isOpen, hreturned.1] using hother

theorem ends_returnDate {dto : ReturnBorrowingDto} {date : Date}
    (h : Ends s (returnDate dto) buffer (.ok date) buffer') : buffer' = buffer := by
  rw [returnDate] at h
  split at h
  · exact (ends_pure h).2
  · obtain ⟨_, hnow, rfl⟩ := ends_call h
    obtain rfl : _ = [] := hnow
    rfl

/-- What a committed `returnBorrowing` has found and written; a member whose counter is zero
already is written only if the actor is another than the last. -/
theorem returnWork_writes {id : String} {dto : ReturnBorrowingDto} {actor : AuditActor}
    {r : BorrowingResponseDto} (hs : s.Indexed)
    (h : loans.Outcome s (returnWork id dto actor) (.ok r) docs) :
    ∃ borrowing ∈ s.borrowings, ∃ book ∈ s.books, ∃ member ∈ s.members, ∃ returnedAt staffId,
      ObjectId.parse id = some borrowing.id ∧ borrowing.isOpen = true ∧
      book.id = borrowing.bookId ∧ member.id = borrowing.memberId ∧
      ∃ saved, (saved = [.member (member.relieved staffId)] ∨
          saved = [] ∧ member.relieved staffId = member) ∧
        docs = saved ++ [.book (book.takenBack staffId),
          .borrowing (borrowing.closed returnedAt staffId)] := by
  have hends : Ends s (returnWork id dto actor) [] (.ok r) docs := ⟨h.evals⟩
  obtain ⟨returnedAt, b₁, hdate, k₁⟩ := ends_bind hends
  obtain rfl := ends_returnDate hdate
  obtain ⟨borrowing, b₂, hborrowing, k₂⟩ := ends_bind k₁
  obtain ⟨hid, hmem, rfl⟩ := ends_findBorrowing hborrowing
  obtain ⟨u, b₃, hrules, k₃⟩ := ends_bind k₂
  obtain ⟨hcan, rfl⟩ := ends_lift hrules
  have hopen := assertCanReturn_ok hcan
  obtain ⟨book, b₄, hbook, k₄⟩ := ends_bind k₃
  obtain ⟨hbid, hbmem, rfl⟩ := ends_findBook hbook
  obtain ⟨member, b₅, hmember, k₅⟩ := ends_bind k₄
  obtain ⟨hmid, hmmem, rfl⟩ := ends_findMember hmember
  rw [ObjectId.parse_text, Option.some.injEq] at hbid hmid
  refine ⟨borrowing, hmem, book, hbmem, member, hmmem, returnedAt, actor.id, hid, hopen,
    hbid.symm, hmid.symm, ?_⟩
  obtain ⟨u₁, b₆, hsave, k₆⟩ := ends_bind k₅
  obtain rfl := ends_saveBorrowing hsave (view_indexed hs) hmem
    (by simp [BorrowingChanges.between, BorrowingChanges.apply, Borrowing.closed])
    (fun heq => by
      rw [← heq] at hopen
      simp [Borrowing.isOpen, Borrowing.closed] at hopen)
  obtain ⟨u₂, b₇, hsaveBook, k₇⟩ := ends_bind k₆
  obtain rfl := ends_saveBook hsaveBook (view_indexed hs) hbmem rfl (Book.takenBack_ne book _)
  obtain ⟨u₃, b₈, hsaveMember, k₈⟩ := ends_bind k₇
  have hsaved := ends_saveMember_cases hsaveMember (view_indexed hs) hmmem
    (by simp [MemberChanges.between, MemberChanges.apply, Member.relieved])
  obtain ⟨-, rfl⟩ := ends_pure k₈
  rcases hsaved with rfl | ⟨rfl, hsame⟩
  · exact ⟨[_], .inl rfl, rfl⟩
  · exact ⟨[], .inr ⟨rfl, hsame⟩, rfl⟩

theorem returnWork_outcome {id : String} {dto : ReturnBorrowingDto} {actor : AuditActor}
    {r : BorrowingResponseDto} (hs : s.Indexed)
    (hcount : ∀ m ∈ s.members, ∀ b ∈ s.borrowings, b.isOpen = true → m.id = b.memberId →
      m.activeLoanCount ≠ 0)
    (h : loans.Outcome s (returnWork id dto actor) (.ok r) docs) : TakenBack s id docs := by
  obtain ⟨borrowing, hmem, book, hbook, member, hmember, returnedAt, staffId, hid, hopen, hbid,
    hmid, saved, hsaved, rfl⟩ := returnWork_writes hs h
  refine ⟨borrowing, hmem, book, hbook, member, hmember, returnedAt, staffId, hid, hopen, hbid,
    hmid, ?_⟩
  rcases hsaved with rfl | ⟨-, hsame⟩
  · rfl
  · exact absurd hsame (Member.relieved_ne (hcount member hmember borrowing hmem hopen hmid) _)

end Transactions

section Stores

/-- The later store `s'` still has what the snapshot `s` had under the ids of `docs`. -/
structure Agree (docs : List Doc) (s s' : Database) : Prop where
  books : ∀ b, .book b ∈ docs → ∀ x ∈ s.books, x.id = b.id → x ∈ s'.books
  members : ∀ m, .member m ∈ docs → ∀ x ∈ s.members, x.id = m.id → x ∈ s'.members
  borrowings : ∀ b, .borrowing b ∈ docs → ∀ x, x.id = b.id → (x ∈ s'.borrowings ↔ x ∈ s.borrowings)
  membershipTypes : s'.membershipTypes = s.membershipTypes

theorem mem_books_put {d : Doc} {x : Book} (h : d.key ≠ .book x.id) :
    x ∈ (s.put d).books ↔ x ∈ s.books := by
  cases d with
  | book b =>
    have hne : x.id ≠ b.id := fun heq => h (congrArg DocKey.book heq.symm)
    have hnew : x ≠ b := fun heq => hne (congrArg Book.id heq)
    simp [Database.put, mem_replaceOne, hne, hnew]
  | member m => exact Iff.rfl
  | borrowing b => exact Iff.rfl

theorem mem_members_put {d : Doc} {x : Member} (h : d.key ≠ .member x.id) :
    x ∈ (s.put d).members ↔ x ∈ s.members := by
  cases d with
  | member m =>
    have hne : x.id ≠ m.id := fun heq => h (congrArg DocKey.member heq.symm)
    have hnew : x ≠ m := fun heq => hne (congrArg Member.id heq)
    simp [Database.put, mem_replaceOne, hne, hnew]
  | book b => exact Iff.rfl
  | borrowing b => exact Iff.rfl

theorem mem_borrowings_put {d : Doc} {x : Borrowing} (h : d.key ≠ .borrowing x.id) :
    x ∈ (s.put d).borrowings ↔ x ∈ s.borrowings := by
  cases d with
  | borrowing b =>
    have hne : x.id ≠ b.id := fun heq => h (congrArg DocKey.borrowing heq.symm)
    have hnew : x ≠ b := fun heq => hne (congrArg Borrowing.id heq)
    simp [Database.put, mem_replaceOne, hne, hnew]
  | book b => exact Iff.rfl
  | member m => exact Iff.rfl

theorem membershipTypes_put {d : Doc} : (s.put d).membershipTypes = s.membershipTypes := by
  cases d <;> rfl

variable {ι Call ε ρ : Type} {sv : Service Call Op Database Doc DocKey ε ρ} {s₀ : Database}
  {h recent : List (Commit ι Call Doc)}

theorem after_indexed (hput : sv.put = Database.put) (hs : s₀.Indexed) :
    (sv.after s₀ h).Indexed :=
  sv.always s₀ (fun d s hs => by rw [hput]; exact hs.put d) hs

/-- A transaction without a conflict commits to a store that agrees with its snapshot. -/
theorem agree_of_unconflicted (hput : sv.put = Database.put) (hkey : sv.key = Doc.key)
    (hfree : sv.Unconflicted docs recent) :
    Agree docs (sv.after s₀ h) (sv.after s₀ (recent ++ h)) := by
  have hoff : ∀ d' ∈ docs, ∀ c ∈ recent, ∀ d ∈ c.docs, sv.key d ≠ d'.key := by
    intro d' hd' c hc d hd
    have hne := hfree c hc d hd d' hd'
    rwa [hkey] at hne ⊢
  constructor
  · intro b hb x hx hid
    refine sv.kept s₀ (P := fun s => x ∈ s.books) (fun d s hd hmem => ?_) (hoff _ hb) hx
    rw [hkey] at hd
    rw [hput]
    exact (mem_books_put (hid ▸ hd)).mpr hmem
  · intro m hm x hx hid
    refine sv.kept s₀ (P := fun s => x ∈ s.members) (fun d s hd hmem => ?_) (hoff _ hm) hx
    rw [hkey] at hd
    rw [hput]
    exact (mem_members_put (hid ▸ hd)).mpr hmem
  · intro b hb x hid
    refine sv.kept s₀ (P := fun s => x ∈ s.borrowings ↔ x ∈ (sv.after s₀ h).borrowings)
      (fun d s hd hiff => ?_) (hoff _ hb) Iff.rfl
    rw [hkey] at hd
    rw [hput]
    exact (mem_borrowings_put (hid ▸ hd)).trans hiff
  · have hsame : ∀ h : List (Commit ι Call Doc), (sv.after s₀ h).membershipTypes =
        s₀.membershipTypes := fun h =>
      sv.always s₀ (P := fun s => s.membershipTypes = s₀.membershipTypes)
        (fun d s hs => by rw [hput, membershipTypes_put, hs]) rfl
    rw [hsame, hsame]

/-- A checked value, at the history it was checked in. -/
theorem check_conforms {R : Regime ι Call Op Doc} {inv : List (Commit ι Call Doc) → Prop} {i : ι}
    {call : Call} {α : Type} {r : Except Failure α} {sv : Service Call Op Database Doc DocKey Failure ρ} :
    sv.Conforms s₀ R inv i call (fun h' r' => h' = h ∧ r' = r) h (check r).run := by
  cases r with
  | ok a => exact ⟨rfl, rfl⟩
  | error e => exact ⟨rfl, rfl⟩

theorem Lent.moved {dto : CreateBorrowingDto} {s' : Database} (hl : Lent s dto docs)
    (ha : Agree docs s s') : Lent s' dto docs := by
  obtain ⟨member, hmember, book, hbook, membershipType, htype, loan, staffId, hid, havailable,
    htid, hlimit, hopen, hmid, hbid, hnew, rfl⟩ := hl.lends
  refine ⟨member, ha.members (member.borrowed staffId) (by simp) _ hmember rfl,
    book, ha.books (book.lent staffId) (by simp) _ hbook rfl,
    membershipType, by rw [ha.membershipTypes]; exact htype, loan, staffId, hid, havailable, htid,
    hlimit, hopen, hmid, hbid, fun x hx heq => ?_, rfl⟩
  exact hnew x ((ha.borrowings loan (by simp) x heq).mp hx) heq

theorem TakenBack.moved {id : String} {s' : Database} (ht : TakenBack s id docs)
    (ha : Agree docs s s') : TakenBack s' id docs := by
  obtain ⟨borrowing, hmem, book, hbook, member, hmember, returnedAt, staffId, hid, hopen, hbid,
    hmid, rfl⟩ := ht.takes
  exact ⟨borrowing,
    (ha.borrowings (borrowing.closed returnedAt staffId) (by simp) borrowing rfl).mpr hmem,
    book, ha.books (book.takenBack staffId) (by simp) _ hbook rfl,
    member, ha.members (member.relieved staffId) (by simp) _ hmember rfl,
    returnedAt, staffId, hid, hopen, hbid, hmid, rfl⟩

end Stores

end Circulation
