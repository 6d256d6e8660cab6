import BookLibrary.Accounts.MemberEdits
import BookLibrary.Circulation.Loans
import BookLibrary.Transactions.Serial

/-!
# One library

The members that the account service edits are the ones that lending reads and counts
the loans of. A member is one document: the account service sees its own fields of it,
lending sees those of a borrower.
-/

namespace Membership

open Documents Interleaving Transactions

/-- The accounts with the catalogue and the loans; the account service reads of a
membership type no more than its status, so the limits stand on their own. -/
structure Library where
  accounts : Accounts.Database
  books : List Circulation.Book
  categories : List Circulation.BookCategory
  borrowings : List Circulation.Borrowing
  maxActiveLoans : String → ℤ

def memberStatus : SignIn.MemberStatus → Circulation.MemberStatus
  | .active => .active
  | .suspended => .suspended
  | .inactive => .inactive

/-- A member as lending reads it. -/
def borrower (m : Accounts.Member) : Option Circulation.Member :=
  match ObjectId.parse m.id, ObjectId.parse m.membershipTypeId with
  | some id, some membershipTypeId => some
      { id := id
        memberNumber := m.memberNumber
        fullName := m.fullName
        membershipTypeId := membershipTypeId
        status := memberStatus m.status
        activeLoanCount := m.activeLoanCount
        updatedBy := m.updatedBy }
  | _, _ => none

/-- A membership type as lending reads it. -/
def loanPolicy (maxActiveLoans : String → ℤ) (t : Accounts.MembershipType) :
    Option Circulation.MembershipType :=
  (ObjectId.parse t.id).map fun id => ⟨id, maxActiveLoans t.id, t.status⟩

namespace Library

/-- The collections as lending reads them. -/
def lending (lib : Library) : Circulation.Database where
  books := lib.books
  categories := lib.categories
  members := lib.accounts.members.filterMap borrower
  membershipTypes := lib.accounts.membershipTypes.filterMap (loanPolicy lib.maxActiveLoans)
  borrowings := lib.borrowings

/-- The open loans of the member under an id. -/
def openLoans (lib : Library) (id : String) : ℕ :=
  lib.borrowings.countP fun b => b.isOpen && decide (b.memberId.1 = id)

/-- The counter of every member agrees with its open loans. -/
def Counted (lib : Library) : Prop :=
  ∀ m ∈ lib.accounts.members, m.activeLoanCount = lib.openLoans m.id

end Library

/-- A member but for the fields that lending writes. -/
def unlent (m : Accounts.Member) : Accounts.Member :=
  { m with activeLoanCount := 0, updatedBy := none }

/-- Lending writes nothing of the accounts but two fields of members. -/
structure SameAccounts (lib lib' : Library) : Prop where
  others : lib'.accounts = { lib.accounts with members := lib'.accounts.members }
  members : (lib'.accounts.members.map unlent).Perm (lib.accounts.members.map unlent)
  limits : lib'.maxActiveLoans = lib.maxActiveLoans

/-- A request of lending, served on its own. -/
structure Lends (lib : Library) (request : Circulation.LoanCall)
    (r : Except Circulation.Failure Circulation.BorrowingResponseDto) (lib' : Library) : Prop where
  ends : Circulation.loans.Ends (Circulation.serve request).run lib.lending r lib'.lending
  accounts : SameAccounts lib lib'

/-- A request of the account service, served on its own; its calls may throw. -/
def Edits {α : Type} (lib : Library) (x : Accounts.Handler α) (lib' : Library) : Prop :=
  ∃ l r store, Traces Accounts.exec Accounts.fallible x.run (.init lib.accounts) l r store ∧
    lib' = { lib with accounts := store.committed }

inductive LibraryCall where
  | createMember (dto : Accounts.CreateMemberDto) (actor : Option Accounts.AuditActor)
  | updateMember (id : String) (dto : Accounts.UpdateMemberDto)
      (actor : Option Accounts.AuditActor)
  | loan (request : Circulation.LoanCall)

/-- What a request leaves of the library. -/
def Serves (env : SignIn.Environment) (lib : Library) : LibraryCall → Library → Prop
  | .createMember dto actor, lib' => Edits lib (Accounts.MembersService.create env dto actor) lib'
  | .updateMember id dto actor, lib' =>
    Edits lib (Accounts.MembersService.update env dto actor id) lib'
  | .loan request, lib' => ∃ r, Lends lib request r lib'

/-- One request after another, each one that `may` be served on the library as it is. -/
inductive Runs (env : SignIn.Environment) (may : Library → LibraryCall → Prop) (lib₀ : Library) :
    Library → Prop where
  | refl : Runs env may lib₀ lib₀
  | serve {lib lib' : Library} {call : LibraryCall} (before : Runs env may lib₀ lib)
      (allowed : may lib call) (served : Serves env lib call lib') : Runs env may lib₀ lib'

/-- A counter is only ever set to what it should be. -/
def SetsTrueCounts (lib : Library) : LibraryCall → Prop
  | .createMember dto _ => dto.activeLoanCount.getD 0 = 0
  | .updateMember id dto _ => ∀ n, dto.activeLoanCount = some n →
      ∀ oid, ObjectId.parse id = some oid → n = lib.openLoans oid.1
  | .loan _ => True

end Membership
