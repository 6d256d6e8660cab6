import BookLibrary.Accounts.Service

/-!
# The identifier service

`AuthIdentifierService` as programs.
-/

namespace Accounts

open AuthIdentifiers Documents Interleaving

structure AuthIdentifierAssignmentInput where
  assignmentId : String
  subjectType : AuthIdentifierSubjectType
  subjectId : String
  action : AuthIdentifierAssignmentAction
  normalizedIdentifier : Option String
  identifierType : Option AuthIdentifierType
  sourceReservationId : Option String
  identifierCorrelationHash : Option String
  correlationKeyVersion : Option ℕ
  deriving DecidableEq

namespace AuthIdentifierService

/-- The update of an account that goes with an assignment. -/
def updateAggregateIdentifier (assignment : AuthIdentifierAssignmentInput)
    (normalizedIdentifier : String) (session : Option ℕ) : Handler Unit := do
  match ← write session
      (.setAccountIdentifier assignment.subjectType assignment.subjectId normalizedIdentifier) with
  | .written _ => return
  | .unmatched => throw (.notFound "Identifier subject not found")
  | .duplicateKey => raiseDuplicateKey

end AuthIdentifierService

end Accounts
