import BookLibrary.AuthIdentifiers.Documents

/-!
# The validation of reservations

The hook of the reservations' schema. It runs when a reservation is created; updates by
operators go past it.
-/

namespace AuthIdentifiers

open Documents

namespace AuthIdentifier

variable (d : AuthIdentifier)

/-- Two claimants at least. -/
def Claimed : Prop := 2 ≤ (d.conflictingSubjects.getD []).length

/-- One owning subject; an empty id is none. -/
def Owned : Prop := d.subjectType ≠ none ∧ d.subjectId.getD "" ≠ ""

def Gated : Prop := d.activationGateOperationId.getD "" ≠ ""

instance : Decidable d.Claimed := inferInstanceAs (Decidable (_ ≤ _))

instance : Decidable d.Owned := inferInstanceAs (Decidable (_ ∧ _))

instance : Decidable d.Gated := inferInstanceAs (Decidable (_ ≠ _))

/-- The paths that the hook invalidates, with its messages. -/
def validateIdentifierState : List (String × String) :=
  (if d.status = .conflict then
    (if d.Claimed then []
      else [("conflictingSubjects", "Conflict identifiers require at least two subject references")]) ++
    (if d.conflictResolutionStatus = none then
      [("conflictResolutionStatus", "Conflict identifiers require a resolution status")]
      else [])
  else if d.Owned then []
  else [("subjectId", "Non-conflict identifiers require one owning subject")]) ++
  (if d.status = .pending ∧ (d.pendingOperationId.getD "" = "" ∨ d.pendingAction = none) then
    [("pendingOperationId", "Pending identifiers require an operation and pending action")]
    else []) ++
  (if d.Gated ∧ d.status ≠ .active then
    [("activationGateOperationId", "Only active identifiers may be activation gated")]
    else [])

/-- The hook has nothing to say against the reservation. -/
def Valid : Prop := d.validateIdentifierState = []

instance : Decidable d.Valid := inferInstanceAs (Decidable (_ = _))

variable {d}

theorem valid_iff : d.Valid ↔
    (d.status = .conflict → d.Claimed ∧ d.conflictResolutionStatus ≠ none) ∧
    (d.status ≠ .conflict → d.Owned) ∧
    (d.status = .pending → d.pendingOperationId.getD "" ≠ "" ∧ d.pendingAction ≠ none) ∧
    (d.Gated → d.status = .active) := by
  rw [Valid, validateIdentifierState, List.append_eq_nil_iff, List.append_eq_nil_iff]
  constructor
  · rintro ⟨⟨hsubjects, hpending⟩, hgate⟩
    refine ⟨fun hconflict => ?_, fun hconflict => ?_, fun hstatus => ?_, fun hgated => ?_⟩
    · rw [if_pos hconflict, List.append_eq_nil_iff] at hsubjects
      simpa using hsubjects
    · rw [if_neg hconflict] at hsubjects
      simpa using hsubjects
    · simpa [hstatus, not_or] using hpending
    · simpa [hgated] using hgate
  · rintro ⟨hconflict, howned, hpending, hgate⟩
    refine ⟨⟨?_, ?_⟩, ?_⟩
    · by_cases hstatus : d.status = .conflict
      · obtain ⟨hclaimed, hresolution⟩ := hconflict hstatus
        simp [hstatus, hclaimed, hresolution]
      · simp [hstatus, howned hstatus]
    · rw [if_neg]
      rintro ⟨hstatus, hnone⟩
      exact not_or.mpr (hpending hstatus) hnone
    · rw [if_neg]
      rintro ⟨hgated, hstatus⟩
      exact hstatus (hgate hgated)

end AuthIdentifier

end AuthIdentifiers
