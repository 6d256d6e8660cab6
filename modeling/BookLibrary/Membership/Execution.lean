import BookLibrary.Accounts.Execution
import BookLibrary.Circulation.Execution
import BookLibrary.Membership.Library

/-!
# Executing the requests of a library

One request after another as a function, each call answering as a draw picks.
-/

namespace Membership

open Documents Interleaving Transactions

/-- The library once lending has left its store as `s`. -/
def Library.settled (lib : Library) (s : Circulation.Database) : Library where
  accounts := { lib.accounts with
    members := lib.accounts.members.map fun m =>
      match s.members.find? fun b => decide (b.id.1 = m.id) with
      | some b => { m with activeLoanCount := b.activeLoanCount.toNat, updatedBy := b.updatedBy }
      | none => m }
  books := s.books
  categories := s.categories
  borrowings := s.borrowings
  maxActiveLoans := lib.maxActiveLoans

/-- `Lends` as a function. -/
def lend (x : Circulation.Draw) (request : Circulation.LoanCall) (lib : Library) :
    Option (Except Circulation.Failure Circulation.BorrowingResponseDto × Library) :=
  (Service.play Circulation.loans Circulation.perform x (Circulation.serve request).run
    lib.lending).bind fun (r, s) =>
      let lib' := lib.settled s
      if lib'.lending = s ∧ (lib'.accounts.members.map unlent).Perm (lib.accounts.members.map unlent)
      then some (r, lib')
      else none

theorem lends_of_lend {x : Circulation.Draw} {request : Circulation.LoanCall} {lib lib' : Library}
    {r : Except Circulation.Failure Circulation.BorrowingResponseDto}
    (h : lend x request lib = some (r, lib')) : Lends lib request r lib' := by
  obtain ⟨⟨r, s⟩, hplay, hsettled⟩ := Option.bind_eq_some_iff.mp h
  have hends := Service.play_ends Circulation.perform_exec hplay
  simp only at hsettled
  split at hsettled
  · next hsame =>
    cases hsettled
    exact ⟨hsame.1.symm ▸ hends, rfl, hsame.2, rfl⟩
  · cases hsettled

/-- `Edits` as a function, no call lost. -/
def edit {α : Type} (handler : Accounts.Handler α) (lib : Library) : Option Library :=
  (trace Accounts.execute Accounts.fails Accounts.drawsAnything [] handler.run
    (.init lib.accounts)).map fun (_, _, store) => { lib with accounts := store.committed }

theorem edits_of_edit {α : Type} {handler : Accounts.Handler α} {lib lib' : Library}
    (h : edit handler lib = some lib') : Edits lib handler lib' := by
  obtain ⟨⟨l, r, store⟩, htrace, rfl⟩ := Option.map_eq_some_iff.mp h
  exact ⟨l, r, store, traces_of_trace Accounts.execute_exec Accounts.fails_fallible htrace, rfl⟩

variable {env : SignIn.Environment}

/-- `Serves` as a function. -/
def performCall (env : SignIn.Environment) (x : Circulation.Draw) (lib : Library) :
    LibraryCall → Option Library
  | .createMember dto actor => edit (Accounts.MembersService.create env dto actor) lib
  | .updateMember id dto actor => edit (Accounts.MembersService.update env dto actor id) lib
  | .loan request => (lend x request lib).map (·.2)

theorem performCall_serves {x : Circulation.Draw} {lib lib' : Library} {call : LibraryCall}
    (h : performCall env x lib call = some lib') : Serves env lib call lib' := by
  cases call with
  | createMember | updateMember => exact edits_of_edit h
  | loan request =>
    obtain ⟨⟨r, lib'⟩, hlend, rfl⟩ := Option.map_eq_some_iff.mp h
    exact ⟨r, lends_of_lend hlend⟩

/-- Requests one after another, each where it is allowed. -/
def playCalls (env : SignIn.Environment) (allowed : Library → LibraryCall → Bool) :
    List (LibraryCall × Circulation.Draw) → Library → Option Library
  | [], lib => some lib
  | (call, x) :: calls, lib =>
    if allowed lib call then (performCall env x lib call).bind (playCalls env allowed calls)
    else none

theorem runs_of_playCalls {may : Library → LibraryCall → Prop}
    {allowed : Library → LibraryCall → Bool}
    (hallowed : ∀ {lib call}, allowed lib call = true → may lib call)
    {calls : List (LibraryCall × Circulation.Draw)} {lib₀ lib lib' : Library}
    (hbefore : Runs env may lib₀ lib) (h : playCalls env allowed calls lib = some lib') :
    Runs env may lib₀ lib' := by
  induction calls generalizing lib with
  | nil =>
    cases h
    exact hbefore
  | cons call calls ih =>
    simp only [playCalls] at h
    split at h
    · next hmay =>
      obtain ⟨lib₁, hserved, hrest⟩ := Option.bind_eq_some_iff.mp h
      exact ih (hbefore.serve (hallowed hmay) (performCall_serves hserved)) hrest
    · cases h

instance (lib : Library) : Decidable lib.Counted :=
  inferInstanceAs (Decidable (∀ m ∈ lib.accounts.members, m.activeLoanCount = lib.openLoans m.id))

instance (s : Circulation.Database) (dto : Circulation.CreateBorrowingDto) :
    Decidable (Circulation.WithinLimit s dto) :=
  inferInstanceAs (Decidable (∃ m ∈ s.members, ObjectId.parse dto.memberId = some m.id ∧
    ∃ t ∈ s.membershipTypes, t.id = m.membershipTypeId ∧
      (s.memberLoans m.id : ℤ) ≤ t.maxActiveLoans))

section Schedules

/-- The library of one book in five copies, whose one member may borrow a single one. -/
def branch : Library where
  accounts := { Accounts.Database.reserved [] with
    members := [{
      id := Circulation.memberId.1, memberNumber := "M-1004", fullName := "Olivia Overdue"
      email := none, membershipTypeId := Circulation.typeId.1, status := .active
      loginIdentifier := none, passwordHash := none, authStatus := some .active
      authVersion := some 0, phone := none, activeLoanCount := 0, passwordUpdatedAt := none
      createdBy := none, updatedBy := none }]
    membershipTypes := [⟨Circulation.typeId.1, .active⟩] }
  books := Circulation.library.books
  categories := Circulation.library.categories
  borrowings := []
  maxActiveLoans := fun _ => 1

/-- The book to the member. -/
def lentTo : Circulation.CreateBorrowingDto := ⟨Circulation.memberId.1, Circulation.bookId.1⟩

/-- The `n`-th loan, of the book to the member. -/
def borrows (n : ℕ) : LibraryCall × Circulation.Draw :=
  (.loan (.create lentTo Circulation.staff), ⟨1000, Circulation.loanId n⟩)

/-- An edit of the member that sets its counter. -/
def counts (n : ℕ) : LibraryCall × Circulation.Draw :=
  (.updateMember Circulation.memberId.1 ⟨none, none, none, none, none, some n⟩ none,
    ⟨1000, Circulation.loanId 0⟩)

end Schedules

end Membership
