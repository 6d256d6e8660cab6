import BookLibrary.Circulation.Effects
import BookLibrary.Circulation.Execution

/-!
# Loan counters

Every committed state of concurrent lendings and returns counts its open loans: in the
books, in the members, within the limits, and each loan is returned once.
-/

namespace Circulation

open Documents Interleaving Transactions

variable {s s' : Database} {docs : List Doc}

/-- The counters of books and members agree with the open loans. -/
structure Consistent (s : Database) : Prop where
  books : ∀ b ∈ s.books, 0 ≤ b.availableQuantity ∧
    b.totalQuantity - b.availableQuantity = s.bookLoans b.id
  members : ∀ m ∈ s.members, m.activeLoanCount = s.memberLoans m.id

def BooksCounted (s : Database) : Prop :=
  ∀ b ∈ s.books, 0 ≤ b.availableQuantity ∧ b.totalQuantity - b.availableQuantity = s.bookLoans b.id

def MembersCounted (s : Database) : Prop := ∀ m ∈ s.members, m.activeLoanCount = s.memberLoans m.id

section OpenLoans

theorem openLoans_insert {loan : Borrowing} (hopen : loan.isOpen = true)
    (hnew : ∀ x ∈ s.borrowings, x.id ≠ loan.id) (p : Borrowing → Bool) :
    (s.put (.borrowing loan)).openLoans p = s.openLoans p + if p loan then 1 else 0 := by
  have hcount : (s.put (.borrowing loan)).openLoans p =
      s.openLoans p + if (loan.isOpen && p loan) = true then 1 else 0 :=
    countP_replaceOne_new _ hnew
  rw [hcount, hopen, Bool.true_and]

theorem openLoans_close {borrowing now : Borrowing} (hs : s.Indexed)
    (hmem : borrowing ∈ s.borrowings) (hopen : borrowing.isOpen = true) (hid : borrowing.id = now.id)
    (hclosed : now.isOpen = false) (p : Borrowing → Bool) :
    (s.put (.borrowing now)).openLoans p + (if p borrowing then 1 else 0) = s.openLoans p := by
  have hcount : (s.put (.borrowing now)).openLoans p +
      (if (borrowing.isOpen && p borrowing) = true then 1 else 0) =
      s.openLoans p + if (now.isOpen && p now) = true then 1 else 0 :=
    countP_replaceOne _ hs.borrowings hmem hid
  rwa [hopen, hclosed, Bool.true_and, Bool.false_and, if_neg Bool.false_ne_true,
    Nat.add_zero] at hcount

theorem openLoans_pos {borrowing : Borrowing} (hmem : borrowing ∈ s.borrowings)
    (hopen : borrowing.isOpen = true) {p : Borrowing → Bool} (hp : p borrowing = true) :
    0 < s.openLoans p := by
  rw [Database.openLoans, List.countP_pos_iff]
  exact ⟨borrowing, hmem, by rw [hopen, hp]; rfl⟩

/-- An open loan is counted in its member. -/
theorem MembersCounted.counted (h : MembersCounted s) {m : Member} {b : Borrowing}
    (hm : m ∈ s.members) (hb : b ∈ s.borrowings) (hopen : b.isOpen = true)
    (hid : m.id = b.memberId) : 1 ≤ m.activeLoanCount := by
  have hcount := h m hm
  have hpos : 0 < s.memberLoans m.id :=
    openLoans_pos hb hopen (decide_eq_true hid.symm)
  omega

theorem Consistent.counted (h : Consistent s) {m : Member} {b : Borrowing} (hm : m ∈ s.members)
    (hb : b ∈ s.borrowings) (hopen : b.isOpen = true) (hid : m.id = b.memberId) :
    1 ≤ m.activeLoanCount := MembersCounted.counted h.members hm hb hopen hid

end OpenLoans

section Lends

variable {book : Book} {member : Member} {loan : Borrowing} {staffId : String}
  (hopen : loan.isOpen = true) (hnew : ∀ x ∈ s.borrowings, x.id ≠ loan.id)

include hopen hnew

theorem BooksCounted.lend (hc : BooksCounted s) (hbook : book ∈ s.books)
    (havailable : 1 ≤ book.availableQuantity) (hbid : loan.bookId = book.id) :
    BooksCounted ((s.put (.borrowing loan)).put (.book (book.lent staffId))) := by
  have hopens := openLoans_insert hopen hnew
  intro b hb
  rcases mem_replaceOne.mp hb with rfl | ⟨hold, hne⟩
  · obtain ⟨hpos, hcount⟩ := hc book hbook
    have hloans : (s.put (.borrowing loan)).bookLoans book.id = s.bookLoans book.id + 1 :=
      (hopens _).trans (by rw [if_pos (decide_eq_true hbid)]; rfl)
    show 0 ≤ book.availableQuantity - 1 ∧ book.totalQuantity - (book.availableQuantity - 1) =
      ((s.put (.borrowing loan)).bookLoans book.id : ℕ)
    omega
  · have hother : ¬ decide (loan.bookId = b.id) = true := fun heq =>
      hne ((of_decide_eq_true heq).symm.trans hbid)
    have hloans : (s.put (.borrowing loan)).bookLoans b.id = s.bookLoans b.id :=
      (hopens _).trans (by rw [if_neg hother]; rfl)
    show _ ∧ _ = ((s.put (.borrowing loan)).bookLoans b.id : ℤ)
    rw [hloans]
    exact hc b hold

theorem memberLoans_lend (hmid : loan.memberId = member.id) :
    (s.put (.borrowing loan)).memberLoans member.id = s.memberLoans member.id + 1 :=
  (openLoans_insert hopen hnew _).trans (by rw [if_pos (decide_eq_true hmid)]; rfl)

theorem MembersCounted.lend (hc : MembersCounted s) (hmember : member ∈ s.members)
    (hmid : loan.memberId = member.id) :
    MembersCounted ((s.put (.borrowing loan)).put (.member (member.borrowed staffId))) := by
  intro m hm
  rcases mem_replaceOne.mp hm with rfl | ⟨hold, hne⟩
  · have hmembers := hc member hmember
    have hmine := memberLoans_lend hopen hnew hmid
    show member.activeLoanCount + 1 = ((s.put (.borrowing loan)).memberLoans member.id : ℕ)
    omega
  · have hother : ¬ decide (loan.memberId = m.id) = true := fun heq =>
      hne ((of_decide_eq_true heq).symm.trans hmid)
    have hloans : (s.put (.borrowing loan)).memberLoans m.id = s.memberLoans m.id :=
      (openLoans_insert hopen hnew _).trans (by rw [if_neg hother]; rfl)
    show _ = ((s.put (.borrowing loan)).memberLoans m.id : ℤ)
    rw [hloans]
    exact hc m hold

end Lends

section TakesBack

variable {borrowing now : Borrowing} {book : Book} {member : Member} {staffId : String}
  (hs : s.Indexed) (hmem : borrowing ∈ s.borrowings) (hopen : borrowing.isOpen = true)
  (hsame : borrowing.id = now.id) (hclosed : now.isOpen = false)

include hs hmem hopen hsame hclosed

/-- The loan that has been closed is no longer counted. -/
theorem openLoans_closed {p : Borrowing → Bool} (hp : p borrowing = true) :
    (s.put (.borrowing now)).openLoans p + 1 = s.openLoans p := by
  have hcount := openLoans_close hs hmem hopen hsame hclosed p
  rwa [if_pos hp] at hcount

theorem openLoans_others {p : Borrowing → Bool} (hp : ¬ p borrowing = true) :
    (s.put (.borrowing now)).openLoans p = s.openLoans p := by
  have hcount := openLoans_close hs hmem hopen hsame hclosed p
  rwa [if_neg hp, Nat.add_zero] at hcount

theorem BooksCounted.takeBack (hc : BooksCounted s) (hbook : book ∈ s.books)
    (hbid : book.id = borrowing.bookId) :
    BooksCounted ((s.put (.borrowing now)).put (.book (book.takenBack staffId))) := by
  intro b hb
  rcases mem_replaceOne.mp hb with rfl | ⟨hold, hne⟩
  · obtain ⟨hpos, hcount⟩ := hc book hbook
    have hloans : (s.put (.borrowing now)).bookLoans book.id + 1 = s.bookLoans book.id :=
      openLoans_closed hs hmem hopen hsame hclosed (decide_eq_true hbid.symm)
    show 0 ≤ book.availableQuantity + 1 ∧ book.totalQuantity - (book.availableQuantity + 1) =
      ((s.put (.borrowing now)).bookLoans book.id : ℕ)
    omega
  · have hloans : (s.put (.borrowing now)).bookLoans b.id = s.bookLoans b.id :=
      openLoans_others hs hmem hopen hsame hclosed fun heq =>
        hne ((of_decide_eq_true heq).symm.trans hbid.symm)
    show _ ∧ _ = ((s.put (.borrowing now)).bookLoans b.id : ℤ)
    rw [hloans]
    exact hc b hold

theorem MembersCounted.takeBack (hc : MembersCounted s) (hmember : member ∈ s.members)
    (hmid : member.id = borrowing.memberId) :
    MembersCounted ((s.put (.borrowing now)).put (.member (member.relieved staffId))) := by
  have hcounted := hc.counted hmember hmem hopen hmid
  intro m hm
  rcases mem_replaceOne.mp hm with rfl | ⟨hold, hne⟩
  · have hmembers := hc member hmember
    have hloans : (s.put (.borrowing now)).memberLoans member.id + 1 = s.memberLoans member.id :=
      openLoans_closed hs hmem hopen hsame hclosed (decide_eq_true hmid.symm)
    show max (member.activeLoanCount - 1) 0 = ((s.put (.borrowing now)).memberLoans member.id : ℕ)
    omega
  · have hloans : (s.put (.borrowing now)).memberLoans m.id = s.memberLoans m.id :=
      openLoans_others hs hmem hopen hsame hclosed fun heq =>
        hne ((of_decide_eq_true heq).symm.trans hmid.symm)
    show _ = ((s.put (.borrowing now)).memberLoans m.id : ℤ)
    rw [hloans]
    exact hc m hold

end TakesBack

section Commits

/-- The member of the request has at most as many open loans as its type allows. -/
def WithinLimit (s : Database) (dto : CreateBorrowingDto) : Prop :=
  ∃ m ∈ s.members, ObjectId.parse dto.memberId = some m.id ∧ ∃ t ∈ s.membershipTypes,
    t.id = m.membershipTypeId ∧ (s.memberLoans m.id : ℤ) ≤ t.maxActiveLoans

/-- A lending keeps the counters, and the limit of its member. -/
theorem Lent.consistent {dto : CreateBorrowingDto} (hl : Lent s dto docs) (hc : Consistent s) :
    Consistent (view s docs) ∧ WithinLimit (view s docs) dto := by
  obtain ⟨member, hmember, book, hbook, membershipType, htype, loan, staffId, hid, havailable,
    htid, hlimit, hopen, hmid, hbid, hnew, rfl⟩ := hl.lends
  have hmembers := hc.members member hmember
  have hmine := memberLoans_lend hopen hnew hmid
  refine ⟨⟨BooksCounted.lend hopen hnew hc.books hbook havailable hbid,
    MembersCounted.lend hopen hnew hc.members hmember hmid⟩, member.borrowed staffId,
    mem_replaceOne.mpr (.inl rfl), hid, membershipType, htype, htid, ?_⟩
  show ((s.put (.borrowing loan)).memberLoans member.id : ℤ) ≤ membershipType.maxActiveLoans
  omega

/-- A return keeps the counters, and leaves its loan closed. -/
theorem TakenBack.consistent {id : String} (ht : TakenBack s id docs) (hs : s.Indexed)
    (hc : Consistent s) : Consistent (view s docs) ∧
      ∃ b ∈ (view s docs).borrowings, ObjectId.parse id = some b.id ∧ b.isOpen = false := by
  obtain ⟨borrowing, hmem, book, hbook, member, hmember, returnedAt, staffId, hid, hopen, hbid,
    hmid, rfl⟩ := ht.takes
  generalize hnow : borrowing.closed returnedAt staffId = now
  have hclosed : now.isOpen = false := by rw [← hnow]; rfl
  have hsame : borrowing.id = now.id := by rw [← hnow]; rfl
  exact ⟨⟨BooksCounted.takeBack hs hmem hopen hsame hclosed hc.books hbook hbid,
    MembersCounted.takeBack hs hmem hopen hsame hclosed hc.members hmember hmid⟩, now,
    mem_replaceOne.mpr (.inl rfl), hsame ▸ hid, hclosed⟩

end Commits

section Main

variable {ι : Type} {s₀ : Database} {h h₁ h₂ : List (Commit ι LoanCall Doc)}

/-- The commit is that of a return of the borrowing. -/
def returnsBorrowing (id : ObjectId) (c : Commit ι LoanCall Doc) : Bool :=
  match c.call with
  | .returnBorrowing raw _ _ => decide (ObjectId.parse raw = some id)
  | .create .. => false

/-- What a history of lendings and returns that began with the store `s₀` keeps. -/
structure Sound (s₀ : Database) (h : List (Commit ι LoanCall Doc)) : Prop where
  consistent : ∀ older, older <:+ h → Consistent (loans.after s₀ older)
  limited : ∀ c older, c :: older <:+ h → ∀ dto actor, c.call = .create dto actor →
    WithinLimit (loans.after s₀ (c :: older)) dto
  returnedOnce : ∀ id, h.countP (returnsBorrowing id) ≤ 1

/-- A sound history whose returned loans are closed in its store. -/
structure Kept (s₀ : Database) (h : List (Commit ι LoanCall Doc)) : Prop where
  sound : Sound s₀ h
  closed : ∀ id, h.countP (returnsBorrowing id) ≠ 0 → ∃ b ∈ (loans.after s₀ h).borrowings,
    b.id = id ∧ b.isOpen = false

theorem Kept.now (hk : Kept s₀ h) : Consistent (loans.after s₀ h) :=
  hk.sound.consistent h (List.suffix_refl h)

theorem Kept.init (hc : Consistent s₀) : Kept s₀ ([] : List (Commit ι LoanCall Doc)) where
  sound :=
    { consistent := fun older hsuffix => by
        rw [List.suffix_nil.mp hsuffix]
        exact hc
      limited := fun c older hsuffix => by cases List.suffix_nil.mp hsuffix
      returnedOnce := fun id => Nat.zero_le 1 }
  closed id hne := absurd rfl hne

/-- One more commit. -/
theorem Kept.commit (hk : Kept s₀ h) {c : Commit ι LoanCall Doc}
    (hc : Consistent (loans.after s₀ (c :: h)))
    (hlimit : ∀ dto actor, c.call = .create dto actor → WithinLimit (loans.after s₀ (c :: h)) dto)
    (hstill : ∀ id, h.countP (returnsBorrowing id) ≠ 0 → returnsBorrowing id c = false)
    (hclosed : ∀ id, h.countP (returnsBorrowing id) ≠ 0 ∨ returnsBorrowing id c = true →
      ∃ b ∈ (loans.after s₀ (c :: h)).borrowings, b.id = id ∧ b.isOpen = false) :
    Kept s₀ (c :: h) := by
  refine ⟨⟨fun older hsuffix => ?_, fun c' older hsuffix => ?_, fun id => ?_⟩,
    fun id hcount => hclosed id ?_⟩
  · rcases List.suffix_cons_iff.mp hsuffix with rfl | hold
    · exact hc
    · exact hk.sound.consistent older hold
  · rcases List.suffix_cons_iff.mp hsuffix with heq | hold
    · cases heq
      exact hlimit
    · exact hk.sound.limited c' older hold
  · rw [List.countP_cons]
    by_cases hzero : h.countP (returnsBorrowing id) = 0
    · rw [hzero]
      split <;> omega
    · rw [hstill id hzero, if_neg Bool.false_ne_true]
      exact hk.sound.returnedOnce id
  · rw [List.countP_cons] at hcount
    by_cases hc : returnsBorrowing id c = true
    · exact .inr hc
    · rw [if_neg hc, Nat.add_zero] at hcount
      exact .inl hcount

/-- A loan that is closed stays closed when another one is lent. -/
theorem Kept.lend (hk : Kept s₀ h) {dto : CreateBorrowingDto} {actor : Option AuditActor} {i : ι}
    (hl : Lent (loans.after s₀ h) dto docs) : Kept s₀ (⟨i, .create dto actor, docs⟩ :: h) := by
  obtain ⟨hc, hlimit⟩ := hl.consistent hk.now
  refine hk.commit hc (fun dto' actor' heq => by cases heq; exact hlimit) (fun _ _ => rfl) ?_
  intro id hreturned
  obtain ⟨b, hb, hid, hclosed⟩ := hk.closed id (hreturned.resolve_right Bool.false_ne_true)
  obtain ⟨member, -, book, -, membershipType, -, loan, staffId, -, -, -, -, -, -, -, hnew, rfl⟩ :=
    hl.lends
  exact ⟨b, mem_replaceOne.mpr (.inr ⟨hb, hnew b hb⟩), hid, hclosed⟩

/-- A loan that is returned was open, so it had not been returned before. -/
theorem Kept.takeBack (hk : Kept s₀ h) (hs : s₀.Indexed) {raw : String} {dto : ReturnBorrowingDto}
    {actor : Option AuditActor} {i : ι} (ht : TakenBack (loans.after s₀ h) raw docs) :
    Kept s₀ (⟨i, .returnBorrowing raw dto actor, docs⟩ :: h) := by
  have hindexed : (loans.after s₀ h).Indexed := after_indexed rfl hs
  obtain ⟨hc, now, hnow, hraw, hclosed⟩ := ht.consistent hindexed hk.now
  obtain ⟨borrowing, hmem, book, -, member, -, returnedAt, staffId, hid, hopen, -, -, rfl⟩ := ht.takes
  refine hk.commit hc (fun dto' actor' heq => by cases heq) (fun id hreturned => ?_) fun id hor => ?_
  · obtain ⟨b, hb, hbid, hbclosed⟩ := hk.closed id hreturned
    refine decide_eq_false fun heq => ?_
    have hsame : b = borrowing := List.inj_on_of_nodup_map hindexed.borrowings hb hmem
      (hbid.trans (Option.some.inj (heq.symm.trans hid)))
    rw [hsame, hopen] at hbclosed
    cases hbclosed
  · by_cases hthis : ObjectId.parse raw = some id
    · exact ⟨now, hnow, Option.some.inj (hraw.symm.trans hthis), hclosed⟩
    · obtain ⟨b, hb, hbid, hbclosed⟩ := hk.closed id
        (hor.resolve_right fun heq => hthis (of_decide_eq_true heq))
      refine ⟨b, mem_replaceOne.mpr (.inr ⟨hb, fun heq => hthis ?_⟩), hbid, hbclosed⟩
      rw [hid, ← hbid]
      exact congrArg some heq.symm

/-- What lends or takes back on a snapshot does so on the store it commits to. -/
theorem agree_of_grows {R : Regime ι LoanCall Op Doc} {i : ι} {call : LoanCall}
    (hg : Grows R i call h₁ h₂)
    (hfree : ∀ recent, h₂ = recent ++ h₁ → loans.Unconflicted docs recent) :
    Agree docs (loans.after s₀ h₁) (loans.after s₀ h₂) := by
  obtain ⟨recent, rfl, -⟩ := hg
  exact agree_of_unconflicted rfl rfl (hfree recent rfl)

/-- Every request of lending keeps the history sound. -/
theorem loans_keeps (hs : s₀.Indexed) (hc : Consistent s₀) :
    loans.Keeps s₀ (Regime.any : Regime ι LoanCall Op Doc) (Kept s₀) where
  init := Kept.init hc
  body i call h _ := by
    cases call with
    | create dto actor =>
      refine Service.Conforms.run_then check_conforms (fun h' auditActor _ => ?_) fun _ _ _ => trivial
      refine Service.Conforms.run_withTransaction (fun h₁ h₂ b docs _ _ hg hk₂ hout hfree => ?_)
        (fun _ _ _ _ _ _ _ _ _ => trivial) fun _ _ _ => trivial
      have hlent := createWork_outcome (after_indexed rfl hs) hout
      exact ⟨hk₂.lend (hlent.moved (agree_of_grows hg hfree)), trivial, trivial⟩
    | returnBorrowing id dto actor =>
      refine Service.Conforms.run_then check_conforms (fun h' auditActor _ => ?_) fun _ _ _ => trivial
      refine Service.Conforms.run_withTransaction (fun h₁ h₂ b docs _ hk₁ hg hk₂ hout hfree => ?_)
        (fun _ _ _ _ _ _ _ _ _ => trivial) fun _ _ _ => trivial
      have htaken := returnWork_outcome (after_indexed rfl hs) (fun m hm b hb hopen hid => by
        have hcounted := hk₁.now.counted hm hb hopen hid
        omega) hout
      exact ⟨hk₂.takeBack hs (htaken.moved (agree_of_grows hg hfree)), trivial, trivial⟩

variable [DecidableEq ι] {cfg : Transactions.Config ι LoanCall Op Doc Failure (Except Failure BorrowingResponseDto)}

theorem library_consistent : Consistent library where
  books b hb := by
    rw [List.mem_singleton.mp hb]
    decide
  members m hm := by
    rw [List.mem_singleton.mp hm]
    decide

/-- Two lendings begin on one snapshot: the second conflicts with the first and is run
again. Then the first loan is returned. -/
def lendsTwice : List (Transactions.Move ℕ LoanCall Draw) :=
  [.start 0 (lends 0), .start 1 (lends 1), .begin 0, .begin 1] ++ List.replicate 10 (go 0) ++
    List.replicate 10 (go 1) ++ [.commit 0, .rerun 1] ++ List.replicate 10 (go 1) ++
    [.commit 1, .start 2 (.returnBorrowing (loanId 0).1 ⟨none⟩ staff), .begin 2] ++
    List.replicate 7 (go 2) ++ [.commit 2]

end Main

end Circulation
