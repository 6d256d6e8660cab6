import BookLibrary.AuthIdentifiers.Validation
import BookLibrary.Operations.System

/-!
# Updates and the validation of reservations

No update of a reservation runs the hook of its schema. Each leaves the reservation valid on
one condition, on the reservation that it finds.
-/

namespace Operations

open AuthIdentifiers Documents Interleaving

section Updates

variable {d : AuthIdentifier}

/-- An operation has taken up no reservation but one that has an owner. -/
def Tethered (d : AuthIdentifier) : Prop :=
  d.pendingOperationId ≠ none ∨ d.lastOperationId ≠ none → d.Owned

/-- What the reservation must be to be put back to a status. -/
def Restorable (d : AuthIdentifier) : AuthIdentifierStatus → Prop
  | .active => True
  | .released => ¬ d.Gated
  | .conflict => (d.Claimed ∧ d.conflictResolutionStatus ≠ none) ∧ ¬ d.Gated
  | .pending => False

/-- What the reservation must be for the update to leave it valid, and what the update must
name. -/
def IdentifierUpdate.Heeds : IdentifierUpdate → AuthIdentifier → Prop
  | .takeSource operationId _ _ _ _ subjectId _ _, d =>
    (operationId ≠ "" ∧ subjectId ≠ "") ∧ ¬ d.Gated
  | .finalizeReservation _ _ released _ _, d => released = true → ¬ d.Gated
  | .restoreReservation _ _ status _ _, d => Restorable d status
  | .releaseConflict _ _ subjectId _, _ => subjectId ≠ ""
  | .restoreConflict _, d => d.Claimed ∧ ¬ d.Gated
  | .recoverReservation _ _ status, d => Restorable d status
  | .resolveOriginal _ _ retained reassigned _, _ => (retained.getD reassigned).subjectId ≠ ""
  | .releaseReplacement _ _, d => d.Owned
  | .markConflict _, d => d.Claimed ∧ ¬ d.Gated

instance {status : AuthIdentifierStatus} : Decidable (Restorable d status) :=
  match status with
  | .active => inferInstanceAs (Decidable True)
  | .released => inferInstanceAs (Decidable (¬ _))
  | .conflict => inferInstanceAs (Decidable ((_ ∧ _ ≠ _) ∧ ¬ _))
  | .pending => inferInstanceAs (Decidable False)

instance {u : IdentifierUpdate} : Decidable (u.Heeds d) :=
  match u with
  | .takeSource .. => inferInstanceAs (Decidable ((_ ≠ _ ∧ _ ≠ _) ∧ ¬ _))
  | .finalizeReservation .. => inferInstanceAs (Decidable (_ = true → ¬ _))
  | .restoreReservation .. => inferInstanceAs (Decidable (Restorable ..))
  | .releaseConflict .. => inferInstanceAs (Decidable (_ ≠ _))
  | .restoreConflict _ => inferInstanceAs (Decidable (_ ∧ ¬ _))
  | .recoverReservation .. => inferInstanceAs (Decidable (Restorable ..))
  | .resolveOriginal .. => inferInstanceAs (Decidable (_ ≠ _))
  | .releaseReplacement .. => inferInstanceAs (Decidable (AuthIdentifier.Owned _))
  | .markConflict _ => inferInstanceAs (Decidable (_ ∧ ¬ _))

theorem gated_iff {d d' : AuthIdentifier}
    (h : d'.activationGateOperationId = d.activationGateOperationId) : d'.Gated ↔ d.Gated := by
  rw [AuthIdentifier.Gated, AuthIdentifier.Gated, h]

theorem owned_iff {d d' : AuthIdentifier} (htype : d'.subjectType = d.subjectType)
    (hid : d'.subjectId = d.subjectId) : d'.Owned ↔ d.Owned := by
  rw [AuthIdentifier.Owned, AuthIdentifier.Owned, htype, hid]

/-- What has been put back to a status is valid if it is restorable. -/
theorem valid_restored {d' : AuthIdentifier} (howned : d.Owned)
    (htype : d'.subjectType = d.subjectType) (hid : d'.subjectId = d.subjectId)
    (hsubjects : d'.conflictingSubjects = d.conflictingSubjects)
    (hresolution : d'.conflictResolutionStatus = d.conflictResolutionStatus)
    (hgate : d'.activationGateOperationId = d.activationGateOperationId)
    (hpending : d'.pendingOperationId = none) : d'.Valid ↔ Restorable d d'.status := by
  have howned' : d'.Owned := (owned_iff htype hid).mpr howned
  have hclaimed : d'.Claimed ↔ d.Claimed := by
    rw [AuthIdentifier.Claimed, AuthIdentifier.Claimed, hsubjects]
  rw [AuthIdentifier.valid_iff, hclaimed, hresolution, gated_iff hgate, hpending]
  cases d'.status with
  | pending => simp [Restorable]
  | active => simp [Restorable, howned']
  | released => simp [Restorable, howned']
  | conflict => simp [Restorable]

/-- What has been put into conflict is valid if it has its claimants. -/
theorem valid_conflict {d' : AuthIdentifier} (hstatus : d'.status = .conflict)
    (hsubjects : d'.conflictingSubjects = d.conflictingSubjects)
    (hresolution : d'.conflictResolutionStatus ≠ none)
    (hgate : d'.activationGateOperationId = d.activationGateOperationId) :
    d'.Valid ↔ d.Claimed ∧ ¬ d.Gated := by
  have hclaimed : d'.Claimed ↔ d.Claimed := by
    rw [AuthIdentifier.Claimed, AuthIdentifier.Claimed, hsubjects]
  rw [AuthIdentifier.valid_iff, hclaimed, gated_iff hgate, hstatus]
  simp [hresolution]

/-- What nobody gates, and is neither pending nor in conflict, is valid if it has an owner. -/
theorem valid_owned {d' : AuthIdentifier} (hstatus : d'.status = .active ∨ d'.status = .released)
    (hgate : d'.status = .active ∨ ¬ d'.Gated) : d'.Valid ↔ d'.Owned := by
  rw [AuthIdentifier.valid_iff]
  rcases hstatus with hstatus | hstatus
  · simp [hstatus]
  · have hungated : ¬ d'.Gated := hgate.resolve_left (by simp [hstatus])
    simp [hstatus, hungated]

/-- What an operation has made pending is valid if the names are none of them empty. -/
theorem valid_pending {d' : AuthIdentifier} {operationId subjectId : String}
    (hstatus : d'.status = .pending) (hoperation : d'.pendingOperationId = some operationId)
    (haction : d'.pendingAction ≠ none) (htype : d'.subjectType ≠ none)
    (hid : d'.subjectId = some subjectId)
    (hgate : d'.activationGateOperationId = d.activationGateOperationId) :
    d'.Valid ↔ (operationId ≠ "" ∧ subjectId ≠ "") ∧ ¬ d.Gated := by
  rw [AuthIdentifier.valid_iff, gated_iff hgate, AuthIdentifier.Owned, hstatus, hoperation, hid]
  simp [haction, htype]
  constructor
  · rintro ⟨hsubject, hoperation, hgate⟩
    exact ⟨⟨hoperation, hsubject⟩, hgate⟩
  · rintro ⟨⟨hoperation, hsubject⟩, hgate⟩
    exact ⟨hsubject, hoperation, hgate⟩

theorem ungated_of_conflict (h : d.Valid) (hstatus : d.status = .conflict) : ¬ d.Gated := by
  intro hgated
  have hactive := (AuthIdentifier.valid_iff.mp h).2.2.2 hgated
  rw [hstatus] at hactive
  cases hactive

/-- The update of a valid reservation leaves a valid one if, and only if, it heeds it. -/
theorem IdentifierUpdate.valid_apply {u : IdentifierUpdate} (h : d.Valid) (ht : Tethered d)
    (hu : u.selects d = true) : (u.apply d).Valid ↔ u.Heeds d := by
  generalize hd' : u.apply d = d'
  cases u with
  | takeSource operationId id action sources subjectType subjectId actorId now =>
    subst hd'
    exact valid_pending rfl rfl (Option.some_ne_none _) (Option.some_ne_none _) rfl rfl
  | finalizeReservation operationId id released actorId now =>
    have howned : d.Owned := ht (.inl (by simp_all [IdentifierUpdate.selects]))
    have hvalid : d'.Valid ↔ Restorable d d'.status := by
      subst hd'
      exact valid_restored howned rfl rfl rfl rfl rfl rfl
    rw [hvalid, ← hd']
    cases released with
    | true => simp [Restorable, Heeds, apply]
    | false => simp [Restorable, Heeds, apply]
  | restoreReservation operationId id status actorId now =>
    have howned : d.Owned := ht (.inr (by simp_all [IdentifierUpdate.selects]))
    subst hd'
    exact valid_restored howned rfl rfl rfl rfl rfl rfl
  | releaseConflict id subjectType subjectId now =>
    have hconflict : d.status = .conflict := by simp_all [IdentifierUpdate.selects]
    have hbefore := ungated_of_conflict h hconflict
    have hungated : ¬ d'.Gated := by
      subst hd'
      exact hbefore
    have hstatus : d'.status = .released := by rw [← hd', apply]
    rw [valid_owned (.inr hstatus) (.inr hungated), ← hd']
    simp [AuthIdentifier.Owned, Heeds, apply]
  | restoreConflict id =>
    subst hd'
    exact valid_conflict rfl rfl (Option.some_ne_none _) rfl
  | recoverReservation operationId id status =>
    have howned : d.Owned := ht (.inl (by simp_all [IdentifierUpdate.selects]))
    subst hd'
    exact valid_restored howned rfl rfl rfl rfl rfl rfl
  | resolveOriginal operationId id retained reassigned now =>
    have hconflict : d.status = .conflict := by simp_all [IdentifierUpdate.selects]
    have hbefore := ungated_of_conflict h hconflict
    cases retained with
    | some retained =>
      subst hd'
      rw [valid_owned (.inl rfl) (.inl rfl)]
      simp [AuthIdentifier.Owned, Heeds, apply]
    | none =>
      have hungated : ¬ d'.Gated := by
        subst hd'
        exact hbefore
      have hstatus : d'.status = .released := by rw [← hd', apply]
      rw [valid_owned (.inr hstatus) (.inr hungated), ← hd']
      simp [AuthIdentifier.Owned, Heeds, apply]
  | releaseReplacement id now =>
    subst hd'
    rw [valid_owned (.inr rfl) (.inr (by simp [AuthIdentifier.Gated, apply]))]
    exact owned_iff rfl rfl
  | markConflict id =>
    subst hd'
    exact valid_conflict rfl rfl (Option.some_ne_none _) rfl

/-- Whatever an update leaves to an operation has an owner. -/
theorem IdentifierUpdate.tethered_apply {u : IdentifierUpdate} (ht : Tethered d)
    (hu : u.selects d = true) (h : u.Heeds d) : Tethered (u.apply d) := by
  cases u with
  | takeSource operationId id action sources subjectType subjectId actorId now =>
    intro _
    exact ⟨Option.some_ne_none _, h.1.2⟩
  | finalizeReservation operationId id released actorId now =>
    have howned : d.Owned := ht (.inl (by simp_all [IdentifierUpdate.selects]))
    intro _
    exact howned
  | restoreReservation operationId id status actorId now =>
    have howned : d.Owned := ht (.inr (by simp_all [IdentifierUpdate.selects]))
    intro _
    exact howned
  | releaseConflict id subjectType subjectId now =>
    intro _
    exact ⟨Option.some_ne_none _, h⟩
  | restoreConflict id => exact ht
  | recoverReservation operationId id status =>
    have howned : d.Owned := ht (.inl (by simp_all [IdentifierUpdate.selects]))
    intro _
    exact howned
  | resolveOriginal operationId id retained reassigned now =>
    intro _
    cases retained with
    | some retained => exact ⟨Option.some_ne_none _, h⟩
    | none => exact ⟨Option.some_ne_none _, h⟩
  | releaseReplacement id now =>
    intro _
    exact h
  | markConflict id => exact ht

namespace IdentifierUpsert

variable {u : IdentifierUpsert}

/-- What the upsert names, and what it finds. -/
def Heeds (u : IdentifierUpsert) (d : AuthIdentifier) : Prop :=
  (u.operationId ≠ "" ∧ u.subjectId ≠ "") ∧ ¬ d.Gated

theorem valid_apply : (u.apply d).Valid ↔ u.Heeds d :=
  valid_pending rfl rfl (Option.some_ne_none _) (Option.some_ne_none _) rfl rfl

theorem tethered_apply (h : u.Heeds d) : Tethered (u.apply d) := by
  intro _
  exact ⟨Option.some_ne_none _, h.1.2⟩

theorem valid_created : u.created.Valid ↔ u.operationId ≠ "" ∧ u.subjectId ≠ "" := by
  have hvalid : u.created.Valid ↔ (u.operationId ≠ "" ∧ u.subjectId ≠ "") ∧ ¬ u.created.Gated :=
    valid_pending rfl rfl (Option.some_ne_none _) (Option.some_ne_none _) rfl rfl
  rw [hvalid]
  simp [AuthIdentifier.Gated, created]

theorem tethered_created (h : u.operationId ≠ "" ∧ u.subjectId ≠ "") : Tethered u.created := by
  intro _
  exact ⟨Option.some_ne_none _, h.2⟩

end IdentifierUpsert

namespace IdentifiersUpdate

variable {u : IdentifiersUpdate}

def Heeds : IdentifiersUpdate → AuthIdentifier → Prop
  | ungate _ releases, d => releases = true → d.Owned
  | activate _ _, _ => True

instance : Decidable (u.Heeds d) :=
  match u with
  | ungate .. => inferInstanceAs (Decidable (_ = true → AuthIdentifier.Owned _))
  | activate .. => inferInstanceAs (Decidable True)

theorem valid_apply (h : d.Valid) (ht : Tethered d) (hu : u.selects d = true) :
    (u.apply d).Valid ↔ u.Heeds d := by
  generalize hd' : u.apply d = d'
  cases u with
  | ungate ids releases =>
    have hungated : ¬ d'.Gated := by
      subst hd'
      simp [AuthIdentifier.Gated, apply]
    cases releases with
    | true =>
      have hstatus : d'.status = .released := by rw [← hd', apply, if_pos rfl]
      rw [valid_owned (.inr hstatus) (.inr hungated), ← hd']
      show d.Owned ↔ (true = true → d.Owned)
      simp
    | false =>
      obtain ⟨hconflict, howned, hpending, -⟩ := AuthIdentifier.valid_iff.mp h
      refine iff_of_true (AuthIdentifier.valid_iff.mpr ?_) (by simp [Heeds])
      subst hd'
      exact ⟨hconflict, howned, hpending, fun hgated => absurd hgated hungated⟩
  | activate operationId ids =>
    have howned : d.Owned := ht (.inl (by simp_all [selects]))
    subst hd'
    rw [valid_owned (.inl rfl) (.inl rfl)]
    exact iff_of_true howned trivial

theorem tethered_apply (ht : Tethered d) (hu : u.selects d = true) : Tethered (u.apply d) := by
  cases u with
  | ungate ids releases => exact ht
  | activate operationId ids =>
    have howned : d.Owned := ht (.inl (by simp_all [selects]))
    intro _
    exact howned

end IdentifiersUpdate

section Accounts

open Accounts (isHeldBy)

/-- A released reservation that an account claims. -/
theorem valid_claim {identifierType : Option AuthIdentifierType}
    {subjectType : AuthIdentifierSubjectType} {subjectId updatedBy : String} :
    (Accounts.AuthIdentifier.claim identifierType subjectType subjectId updatedBy d).Valid ↔
      subjectId ≠ "" := by
  rw [valid_owned (.inl rfl) (.inl rfl)]
  simp [AuthIdentifier.Owned, Accounts.AuthIdentifier.claim]

/-- An active reservation that its account releases. -/
theorem valid_release {releasedAt : Date} {updatedBy : String} (h : d.Valid)
    (hstatus : d.status = .active) :
    (Accounts.AuthIdentifier.release releasedAt updatedBy d).Valid ↔ ¬ d.Gated := by
  have howned : d.Owned := (AuthIdentifier.valid_iff.mp h).2.1 (by simp [hstatus])
  rw [AuthIdentifier.valid_iff]
  constructor
  · rintro ⟨-, -, -, hgate⟩ hgated
    cases hgate hgated
  · intro hungated
    exact ⟨nofun, fun _ => howned, nofun, fun hgated => absurd hgated hungated⟩

end Accounts

end Updates

section Writes

open Accounts (isHeldBy)

/-- A valid reservation, tethered to operations by its owner alone. -/
structure Regular (d : AuthIdentifier) : Prop where
  valid : d.Valid
  tethered : Tethered d

/-- The write heeds the reservations that it finds. What it creates goes through the hook. -/
def Write.Heeds (v : Database) : Write → Prop
  | .account (.insertIdentifier d) => d.Valid
  | .account (.claimReleased id _ _ subjectId _) =>
    ∀ d ∈ v.identifiers, d.id = id → d.status = .released → subjectId ≠ ""
  | .account (.releaseIdentifier identifier subjectType subjectId _ _) =>
    ∀ d ∈ v.identifiers, isHeldBy identifier subjectType subjectId d = true → ¬ d.Gated
  | .upsertIdentifier u => (u.operationId ≠ "" ∧ u.subjectId ≠ "") ∧
      ∀ d ∈ v.identifiers, u.selects d = true → ¬ d.Gated
  | .updateIdentifier u => ∀ d ∈ v.identifiers, u.selects d = true → u.Heeds d
  | .updateIdentifiers u => ∀ d ∈ v.identifiers, u.selects d = true → u.Heeds d
  | _ => True

instance {v : Database} {w : Write} : Decidable (w.Heeds v) :=
  match w with
  | .account (.insertIdentifier _) => inferInstanceAs (Decidable (AuthIdentifier.Valid _))
  | .account (.claimReleased ..) => inferInstanceAs (Decidable (∀ d ∈ v.identifiers, _ → _ → _))
  | .account (.releaseIdentifier ..) => inferInstanceAs (Decidable (∀ d ∈ v.identifiers, _ → ¬ _))
  | .upsertIdentifier _ =>
    inferInstanceAs (Decidable ((_ ≠ _ ∧ _ ≠ _) ∧ ∀ d ∈ v.identifiers, _ → ¬ _))
  | .updateIdentifier u =>
    inferInstanceAs (Decidable (∀ d ∈ v.identifiers, u.selects d = true → u.Heeds d))
  | .updateIdentifiers u =>
    inferInstanceAs (Decidable (∀ d ∈ v.identifiers, u.selects d = true → u.Heeds d))
  | .account (.insertStaffUser _) | .account (.saveStaffUser ..) | .account (.insertMember _)
  | .account (.saveMember ..) | .account (.revokeFamilies ..) | .account (.recordActivity _)
  | .account (.bumpAuthVersion ..) | .account (.setAccountIdentifier ..)
  | .insertOperation _ | .updateOperation _ | .insertBatch _ | .updateBatch _
  | .expireBatches .. | .recordEvent _ => inferInstanceAs (Decidable True)

/-- A reservation that an account creates is not tied to an operation. -/
def Write.Unties : Write → Prop
  | .account (.insertIdentifier d) => d.pendingOperationId = none ∧ d.lastOperationId = none
  | _ => True

variable {v : Database} {w : Write} {d : AuthIdentifier}

theorem regular_account {w : Accounts.Write} (hv : ∀ d ∈ v.identifiers, Regular d)
    (hw : (Write.account w).Heeds v) (hu : (Write.account w).Unties)
    (hd : .identifier d ∈ (Accounts.Database.unchecked v w).docs) : Regular d := by
  cases w with
  | insertIdentifier x =>
    obtain ⟨heq, -⟩ := mem_docs_insert hd
    cases heq
    refine ⟨hw, fun htied => ?_⟩
    exact absurd htied (not_or.mpr ⟨not_not.mpr hu.1, not_not.mpr hu.2⟩)
  | claimReleased id identifierType subjectType subjectId updatedBy =>
    obtain ⟨x, hx, hsel, heq⟩ := mem_docs_update hd
    cases heq
    rw [Bool.and_eq_true, decide_eq_true_eq, decide_eq_true_eq] at hsel
    have hname := hw x hx hsel.1 hsel.2
    exact ⟨valid_claim.mpr hname, fun _ => ⟨Option.some_ne_none _, hname⟩⟩
  | releaseIdentifier identifier subjectType subjectId releasedAt updatedBy =>
    obtain ⟨x, hx, hsel, heq⟩ := mem_docs_update hd
    cases heq
    have hactive : x.status = .active := by
      rw [isHeldBy, Bool.and_eq_true, decide_eq_true_eq] at hsel
      exact hsel.2
    exact ⟨(valid_release (hv x hx).valid hactive).mpr (hw x hx hsel), (hv x hx).tethered⟩
  | insertStaffUser | insertMember | recordActivity =>
    obtain ⟨heq, -⟩ := mem_docs_insert hd
    cases heq
  | saveStaffUser | saveMember =>
    obtain ⟨x, -, -, heq⟩ := mem_docs_update hd
    cases heq
  | bumpAuthVersion subjectType | setAccountIdentifier subjectType =>
    cases subjectType with
    | staff =>
      obtain ⟨x, -, -, heq⟩ := mem_docs_update hd
      cases heq
    | member =>
      obtain ⟨x, -, -, heq⟩ := mem_docs_update hd
      cases heq
  | revokeFamilies =>
    obtain ⟨x, -, heq⟩ := List.mem_map.mp hd
    cases heq

/-- What a heedful write leaves is regular. -/
theorem regular_write (hi : v.Indexed) (hv : ∀ d ∈ v.identifiers, Regular d) (hw : w.Heeds v)
    (hu : w.Unties) (hd : .identifier d ∈ (schema.write w v).docs) : Regular d := by
  have hwritten := written_of_mem hi hd
  generalize Accounts.Database.find (Accounts.Document.identifier d).key v = x at hwritten
  cases hwritten with
  | account hdocs => exact regular_account hv hw hu hdocs
  | createIdentifier => exact ⟨IdentifierUpsert.valid_created.mpr hw.1, IdentifierUpsert.tethered_created hw.1⟩
  | upsertIdentifier hx hsel =>
    have hheeds : IdentifierUpsert.Heeds _ _ := ⟨hw.1, hw.2 _ hx hsel⟩
    exact ⟨IdentifierUpsert.valid_apply.mpr hheeds, IdentifierUpsert.tethered_apply hheeds⟩
  | updateIdentifier hx hsel =>
    obtain ⟨hvalid, htethered⟩ := hv _ hx
    exact ⟨(IdentifierUpdate.valid_apply hvalid htethered hsel).mpr (hw _ hx hsel),
      IdentifierUpdate.tethered_apply htethered hsel (hw _ hx hsel)⟩
  | updateIdentifiers hx hsel =>
    obtain ⟨hvalid, htethered⟩ := hv _ hx
    exact ⟨(IdentifiersUpdate.valid_apply hvalid htethered hsel).mpr (hw _ hx hsel),
      IdentifiersUpdate.tethered_apply htethered hsel⟩

/-- A store with its indexes whose reservations are all regular. -/
structure RegularStore (v : Database) : Prop where
  indexed : v.Indexed
  regular : ∀ d ∈ v.identifiers, Regular d

theorem RegularStore.write (h : RegularStore v) (hw : w.Heeds v) (hu : w.Unties) :
    RegularStore (schema.putAll (schema.write w v).docs v) := by
  have hindexed := schema_lawful.indexed_write w v (decide_eq_true h.indexed)
  refine ⟨of_decide_eq_true hindexed, fun d hd => ?_⟩
  have hfind : schema.find (.identifier d.id) (schema.putAll (schema.write w v).docs v) =
      some (.identifier d) := find_identifier (of_decide_eq_true hindexed) hd
  rcases schema_lawful.find_putAll_cases hfind with hnew | hold
  · exact regular_write h.indexed h.regular hw hu hnew
  · have hmem : d ∈ v.identifiers := (identifier_of_find (k := .identifier d.id) hold).1
    exact h.regular d hmem

theorem RegularStore.commit {t : Sessions.Transaction Database Document} (h : RegularStore v)
    (ht : RegularStore (schema.putAll t.buffer t.snapshot)) (hfree : schema.Unconflicted t v)
    (hindexed : schema.indexed (schema.putAll t.buffer v) = true) :
    RegularStore (schema.putAll t.buffer v) := by
  refine ⟨of_decide_eq_true hindexed, fun d hd => ?_⟩
  rcases identifier_of_commit hfree hindexed hd with hold | ⟨hview, -⟩
  · exact h.regular d hold
  · exact ht.regular d hview

end Writes

end Operations
