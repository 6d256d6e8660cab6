import BookLibrary.Circulation.Loans

/-!
# Catalogue edits beside lending

`BooksService.update` saves quantities it has computed from the book as it read it. The
inventory survives exactly if as many loans of the book are open at the save as were at
the read.
-/

namespace Circulation

open Documents Interleaving Transactions

variable {ι : Type} [DecidableEq ι] {s₀ s : Database} {docs : List Doc}
  {h h₁ h₂ : List (Commit ι CirculationCall Doc)}

/-- The quantities of every book agree with its open loans. -/
def InventoryKept (s : Database) : Prop :=
  ∀ b ∈ s.books, b.totalQuantity - b.availableQuantity = s.bookLoans b.id ∧
    0 ≤ b.availableQuantity ∧ b.availableQuantity ≤ b.totalQuantity

theorem Consistent.inventory (h : Consistent s) : InventoryKept s := by
  intro b hb
  obtain ⟨hpos, hcount⟩ := h.books b hb
  exact ⟨hcount, hpos, by omega⟩

/-- The history as of the last call of caller `i`. -/
def lastSeen (i : ι) (h : List (Commit ι CirculationCall Doc)) :
    List (Commit ι CirculationCall Doc) :=
  h.dropWhile fun c => !decide (c.caller = i)

theorem lastSeen_of_grows {R : Regime ι CirculationCall Op Doc} {i : ι} {call : CirculationCall}
    {c : Commit ι CirculationCall Doc} (hi : c.caller = i) (hg : Grows R i call (c :: h₁) h₂) :
    lastSeen i h₂ = c :: h₁ := by
  obtain ⟨recent, rfl, hr⟩ := hg
  induction recent with
  | nil => simp [lastSeen, hi]
  | cons c' recent ih =>
    have hne : c'.caller ≠ i := (hr c' List.mem_cons_self).1
    have hrest := ih fun c'' hc'' => hr c'' (List.mem_cons_of_mem _ hc'')
    simpa [lastSeen, hne] using hrest

/-- When an edit saves a total that differs from the one it has read, as many loans of
the book are open as when it read it. -/
def savesFresh (s₀ : Database) : Regime ι CirculationCall Op Doc where
  may i request h _ op :=
    match request, op with
    | .updateBook _ dto _, .saveBook id _ =>
      ∀ b ∈ (circulation.after s₀ (lastSeen i h)).books, b.id = id →
        (∃ totalQuantity, dto.totalQuantity = some totalQuantity ∧
          totalQuantity ≠ b.totalQuantity) →
        (circulation.after s₀ (lastSeen i h)).bookLoans id = (circulation.after s₀ h).bookLoans id
    | _, _ => True
  beside _ _ := True

section Edits

theorem modified_eq_none {α : Type} [DecidableEq α] {loaded now : α} :
    modified loaded now = none ↔ now = loaded := by
  simp [modified]

theorem withQuantity_ok {book b : Book} {q : ℤ} (h : withQuantity book q = .ok b) :
    book.totalQuantity - book.availableQuantity ≤ q ∧ b = { book with
      totalQuantity := q
      availableQuantity := book.availableQuantity + (q - book.totalQuantity) } := by
  rw [withQuantity, validateQuantity] at h
  by_cases hnegative : q < 0
  · rw [if_pos hnegative] at h
    cases h
  · rw [if_neg hnegative] at h
    by_cases hlow : q < book.totalQuantity - book.availableQuantity
    · rw [if_pos hlow] at h
      cases h
    · rw [if_neg hlow] at h
      cases h
      exact ⟨not_lt.mp hlow, rfl⟩

/-- The quantities after an edit: as loaded, or with a new total that keeps the loans. -/
theorem edited_quantities {book now : Book} {dto : UpdateBookDto} {actor : Option AuditActor}
    (h : edited book dto actor = .ok now) : now.id = book.id ∧
      (now.totalQuantity = book.totalQuantity ∧ now.availableQuantity = book.availableQuantity ∨
      (∃ q, dto.totalQuantity = some q ∧ q ≠ book.totalQuantity) ∧
        now.totalQuantity - now.availableQuantity = book.totalQuantity - book.availableQuantity ∧
        0 ≤ now.availableQuantity ∧ now.totalQuantity ≠ book.totalQuantity ∧
        now.availableQuantity ≠ book.availableQuantity) := by
  cases hdto : dto.totalQuantity with
  | none =>
    rw [edited, hdto] at h
    cases h
    exact ⟨rfl, .inl ⟨rfl, rfl⟩⟩
  | some q =>
    rw [edited, hdto] at h
    cases hb : withQuantity book q with
    | error e =>
      simp only [hb] at h
      cases h
    | ok b =>
      obtain ⟨hq, rfl⟩ := withQuantity_ok hb
      simp only [hb] at h
      cases h
      refine ⟨rfl, ?_⟩
      by_cases hsame : q = book.totalQuantity
      · left
        refine ⟨hsame, ?_⟩
        show book.availableQuantity + (q - book.totalQuantity) = book.availableQuantity
        omega
      · right
        refine ⟨⟨q, rfl, hsame⟩, ?_, ?_, hsame, ?_⟩
        · show q - (book.availableQuantity + (q - book.totalQuantity)) = _
          omega
        · show 0 ≤ book.availableQuantity + (q - book.totalQuantity)
          omega
        · show book.availableQuantity + (q - book.totalQuantity) ≠ book.availableQuantity
          omega

/-- A book that is put in the store keeps the quantities right if its own are. -/
theorem BooksCounted.put_book (hc : BooksCounted s) {b : Book} (hpos : 0 ≤ b.availableQuantity)
    (hcount : b.totalQuantity - b.availableQuantity = s.bookLoans b.id) :
    BooksCounted (s.put (.book b)) := by
  intro x hx
  rcases mem_replaceOne.mp hx with rfl | ⟨hold, -⟩
  · exact ⟨hpos, hcount⟩
  · exact hc x hold

/-- A save of an edit writes the book, if anything, and keeps the quantities right. -/
theorem BooksCounted.saved (hc : BooksCounted s) {book now : Book}
    (hquantities : now.totalQuantity = book.totalQuantity ∧
        now.availableQuantity = book.availableQuantity ∨
      now.totalQuantity - now.availableQuantity = s.bookLoans book.id ∧
        0 ≤ now.availableQuantity ∧ now.totalQuantity ≠ book.totalQuantity ∧
        now.availableQuantity ≠ book.availableQuantity)
    (hsave : saveOne Book.id book.id (BookChanges.between book now).update .book s.books docs) :
    docs = [] ∨ ∃ b, docs = [.book b] ∧ b.id = book.id ∧ BooksCounted (s.put (.book b)) := by
  simp only [BookChanges.update] at hsave
  split_ifs at hsave with hnone
  · exact .inl hsave
  · obtain ⟨current, hfind, rfl⟩ := hsave
    have hcid : current.id = book.id := of_decide_eq_true hfind.select
    obtain ⟨hpos, hcount⟩ := hc current hfind.mem
    refine .inr ⟨_, rfl, hcid, ?_⟩
    rcases hquantities with ⟨htotal, havailable⟩ | ⟨hloans, hnow, htotal, havailable⟩
    · have ht : (BookChanges.between book now).totalQuantity = none := modified_eq_none.mpr htotal
      have ha : (BookChanges.between book now).availableQuantity = none :=
        modified_eq_none.mpr havailable
      refine hc.put_book ?_ ?_
      · simpa only [BookChanges.apply, ha, Option.getD_none] using hpos
      · simpa only [BookChanges.apply, ha, ht, Option.getD_none] using hcount
    · have ht : (BookChanges.between book now).totalQuantity = some now.totalQuantity :=
        if_neg htotal
      have ha : (BookChanges.between book now).availableQuantity = some now.availableQuantity :=
        if_neg havailable
      refine hc.put_book ?_ ?_
      · simpa only [BookChanges.apply, ha, Option.getD_some] using hnow
      · simpa only [BookChanges.apply, ha, ht, hcid, Option.getD_some] using hloans

theorem Consistent.saved (hc : Consistent s) {book now : Book}
    (hquantities : now.totalQuantity = book.totalQuantity ∧
        now.availableQuantity = book.availableQuantity ∨
      now.totalQuantity - now.availableQuantity = s.bookLoans book.id ∧
        0 ≤ now.availableQuantity ∧ now.totalQuantity ≠ book.totalQuantity ∧
        now.availableQuantity ≠ book.availableQuantity)
    (hsave : saveOne Book.id book.id (BookChanges.between book now).update .book s.books docs) :
    Consistent (view s docs) := by
  rcases BooksCounted.saved hc.books hquantities hsave with rfl | ⟨b, rfl, -, hbooks⟩
  · exact hc
  · exact ⟨hbooks, hc.members⟩

end Edits

section Main

omit [DecidableEq ι] in
/-- A request of lending keeps the counters, edits beside it or not. -/
theorem loan_conforms {R : Regime ι CirculationCall Op Doc} {i : ι}
    {call : CirculationCall} (hs : s₀.Indexed) (request : LoanCall) :
    circulation.Conforms s₀ R (fun h => Consistent (circulation.after s₀ h)) i call
      (fun _ _ => True) h (serve request).run := by
  cases request with
  | create dto actor =>
    refine Service.Conforms.run_then check_conforms (fun h' auditActor _ => ?_) fun _ _ _ => trivial
    refine Service.Conforms.run_withTransaction (fun h₁ h₂ b docs _ _ hg hc₂ hout hfree => ?_)
      (fun _ _ _ _ _ _ _ _ _ => trivial) fun _ _ _ => trivial
    obtain ⟨recent, rfl, -⟩ := hg
    have hlent := createWork_outcome (after_indexed rfl hs) ⟨hout.evals⟩
    have hagree : Agree docs (circulation.after s₀ h₁) (circulation.after s₀ (recent ++ h₁)) :=
      agree_of_unconflicted rfl rfl (hfree recent rfl)
    exact ⟨((hlent.moved hagree).consistent hc₂).1, trivial, trivial⟩
  | returnBorrowing id dto actor =>
    refine Service.Conforms.run_then check_conforms (fun h' auditActor _ => ?_) fun _ _ _ => trivial
    refine Service.Conforms.run_withTransaction (fun h₁ h₂ b docs _ hc₁ hg hc₂ hout hfree => ?_)
      (fun _ _ _ _ _ _ _ _ _ => trivial) fun _ _ _ => trivial
    obtain ⟨recent, rfl, -⟩ := hg
    have htaken := returnWork_outcome (after_indexed rfl hs) (fun m hm b hb hopen hid => by
      have hcounted := hc₁.counted hm hb hopen hid
      omega) ⟨hout.evals⟩
    have hagree : Agree docs (circulation.after s₀ h₁) (circulation.after s₀ (recent ++ h₁)) :=
      agree_of_unconflicted rfl rfl (hfree recent rfl)
    exact ⟨((htaken.moved hagree).consistent (after_indexed rfl hs) hc₂).1, trivial, trivial⟩

omit [DecidableEq ι] in
/-- The book an edit goes on with is one of the store it was read from. -/
theorem findBook_conforms {R : Regime ι CirculationCall Op Doc} {i : ι} {call : CirculationCall}
    (id : ObjectId) :
    circulation.Conforms s₀ R (fun h => Consistent (circulation.after s₀ h)) i call
      (fun h' r => ∀ b, r = .ok (some b) → ∃ older, h' = ⟨i, call, []⟩ :: older ∧
        Consistent (circulation.after s₀ older) ∧ b ∈ (circulation.after s₀ older).books)
      h (Routine.perform .database (.findBook id)).run := by
  refine Service.Conforms.run_perform (fun h' r docs _ hc _ hexec => ?_) fun _ _ _ b hb => by cases hb
  obtain ⟨hfind, rfl⟩ := hexec
  refine ⟨hc, fun b hb => ⟨h', rfl, hc, ?_⟩, fun b hb => by cases hb⟩
  cases hb
  exact hfind.mem

/-- An edit that saves on as many loans as it has read keeps the counters. -/
theorem updateBook_conforms {i : ι} (id : String) (dto : UpdateBookDto) (actor : Option AuditActor) :
    circulation.Conforms s₀ (savesFresh s₀) (fun h => Consistent (circulation.after s₀ h)) i
      (.updateBook id dto actor) (fun _ _ => True) h (updateBook id dto actor).run := by
  refine Service.Conforms.run_then check_conforms (fun h' bookId _ => ?_) fun _ _ _ => trivial
  refine Service.Conforms.run_then (findBook_conforms bookId) (fun h' r hread => ?_)
    fun _ _ _ => trivial
  refine Service.Conforms.run_then check_conforms (fun h'' book hfound => ?_) fun _ _ _ => trivial
  obtain ⟨rfl, hfound⟩ := hfound
  obtain rfl := found_ok.mp hfound.symm
  obtain ⟨older, rfl, hcold, hbook⟩ := hread book rfl
  refine Service.Conforms.run_then check_conforms (fun h' now hedited => ?_) fun _ _ _ => trivial
  obtain ⟨rfl, hedited⟩ := hedited
  obtain ⟨hid, hquantities⟩ := edited_quantities hedited.symm
  have hsave : circulation.Conforms s₀ (savesFresh s₀)
      (fun h => Consistent (circulation.after s₀ h)) i (.updateBook id dto actor) (fun _ _ => True)
      (⟨i, .updateBook id dto actor, []⟩ :: older)
      (Routine.perform .database (.saveBook book.id (.between book now))).run := by
    refine Service.Conforms.run_perform (fun h₂ u docs hg hc hmay hexec => ?_) fun _ _ _ => trivial
    refine ⟨hc.saved (hquantities.imp_right fun hnew => ?_) hexec.2, trivial, trivial⟩
    obtain ⟨hother, hloans, hnow, htotal, havailable⟩ := hnew
    have hseen : lastSeen i h₂ = _ := lastSeen_of_grows rfl hg
    have hfresh : (circulation.after s₀ older).bookLoans book.id =
        (circulation.after s₀ h₂).bookLoans book.id := by
      have hfresh := hmay book (by rw [hseen]; exact hbook) rfl hother
      rwa [hseen] at hfresh
    obtain ⟨-, hcount⟩ := hcold.books book hbook
    exact ⟨by omega, hnow, htotal, havailable⟩
  exact hsave.run_then (fun _ _ _ => trivial) fun _ _ _ => trivial

theorem circulation_keeps (hs : s₀.Indexed) (hc : Consistent s₀) :
    circulation.Keeps s₀ (savesFresh s₀ : Regime ι CirculationCall Op Doc)
      fun h => Consistent (circulation.after s₀ h) where
  init := hc
  body i call h _ := by
    cases call with
    | loan request => exact (loan_conforms hs request).run_return
    | updateBook id dto actor => exact (updateBook_conforms id dto actor).run_return

/-- A request of the catalogue for `total` copies. -/
def resizes (total : ℤ) : CirculationCall :=
  .updateBook bookId.1 ⟨none, none, none, none, none, none, some total, none⟩ staff

/-- The moves of a lending, from its start to its commit. -/
def lending (i : ℕ) : List (Transactions.Move ℕ CirculationCall Draw) :=
  [.start i (.loan (lends i)), .begin i] ++ List.replicate 10 (.act i ⟨1000, loanId i⟩) ++ [.commit i]

/-- `savesFresh`, evaluated. -/
def checkFresh (s₀ : Database) (i : ℕ) (request : CirculationCall)
    (h : List (Commit ℕ CirculationCall Doc)) (β : Type) (op : Op β) : Bool :=
  match request, op with
  | .updateBook _ dto _, .saveBook id _ =>
    (circulation.after s₀ (lastSeen i h)).books.all fun b =>
      !decide (b.id = id) || !dto.totalQuantity.any (fun q => !decide (q = b.totalQuantity)) ||
      decide ((circulation.after s₀ (lastSeen i h)).bookLoans id =
        (circulation.after s₀ h).bookLoans id)
  | _, _ => true

theorem checkFresh_sound {i : ℕ} {request : CirculationCall}
    {h : List (Commit ℕ CirculationCall Doc)} {β : Type} {op : Op β}
    (hcheck : checkFresh s₀ i request h β op = true) : (savesFresh s₀).may i request h β op := by
  cases request with
  | loan request => trivial
  | updateBook raw dto actor =>
    cases op with
    | saveBook id changes =>
      intro b hb hid hnew
      obtain ⟨q, hq, hne⟩ := hnew
      have hb := List.all_eq_true.mp hcheck b hb
      simpa [hid, hq, hne] using hb
    | _ => trivial

/-- The driver of lending beside the catalogue. -/
def freshDriver (s₀ : Database) :
    Driver ℕ circulation s₀ (savesFresh s₀ : Regime ℕ CirculationCall Op Doc) Draw where
  run := perform
  run_exec := perform_exec
  may := checkFresh s₀
  may_sound := checkFresh_sound
  beside := fun _ _ _ => true
  beside_sound _ := fun _ _ _ _ _ => trivial

/-- The same under no condition. -/
def circulationDriver (s₀ : Database) :
    Driver ℕ circulation s₀ (Regime.any : Regime ℕ CirculationCall Op Doc) Draw where
  run := perform
  run_exec := perform_exec
  may := fun _ _ _ _ _ => true
  may_sound _ := trivial
  beside := fun _ _ _ => true
  beside_sound _ := fun _ _ _ _ _ => trivial

/-- The total and the available copies of each book. -/
def quantities (s : Database) : List (ℤ × ℤ) :=
  s.books.map fun b => (b.totalQuantity, b.availableQuantity)

end Main

end Circulation
