import BookLibrary.Documents.Collection

/-!
# Refresh-token families and replay markers

The two collections behind refresh sessions, with their unique and TTL indexes.
Dates are milliseconds. `clock` is the clock of the database, which only the TTL
monitor reads; `drawn` remembers the random values handed out so far.
-/

namespace TokenSession

open Documents

inductive RefreshTokenFamilyStatus where
  | active | revoked | replayed
  deriving DecidableEq

inductive AuthSubjectType where
  | staff | member
  deriving DecidableEq

structure RefreshTokenFamily where
  familyId : String
  clientId : String
  subjectType : AuthSubjectType
  subjectId : String
  scopes : List String
  authVersion : Option ℕ
  status : RefreshTokenFamilyStatus
  currentTokenHash : Option String
  lastRotationOperationId : Option String
  issuedAt : Date
  lastRotatedAt : Date
  expiresAt : Date
  revokedAt : Option Date
  revokedReason : Option String
  deriving DecidableEq

inductive RefreshTokenReplayMarkerStatus where
  | pending | committed
  deriving DecidableEq

structure RefreshTokenReplayMarker where
  tokenHash : String
  familyId : String
  status : RefreshTokenReplayMarkerStatus
  rotationOperationId : String
  leaseExpiresAt : Option Date
  committedAt : Option Date
  expiresAt : Date
  deriving DecidableEq

structure Database where
  families : List RefreshTokenFamily
  markers : List RefreshTokenReplayMarker
  clock : Date
  drawn : List String

namespace Database

def empty (clock : Date) : Database := ⟨[], [], clock, []⟩

/-- The unique indexes of both collections. -/
structure Indexed (s : Database) : Prop where
  familyId : Unique (fun f => some f.familyId) s.families
  currentTokenHash : Unique RefreshTokenFamily.currentTokenHash s.families
  tokenHash : Unique (fun m => some m.tokenHash) s.markers
  rotationOperationId : Unique (fun m => some m.rotationOperationId) s.markers

instance (s : Database) : Decidable s.Indexed :=
  decidable_of_iff
    (Unique (fun f => some f.familyId) s.families ∧
      Unique RefreshTokenFamily.currentTokenHash s.families ∧
      Unique (fun m => some m.tokenHash) s.markers ∧
      Unique (fun m => some m.rotationOperationId) s.markers)
    ⟨fun ⟨h₁, h₂, h₃, h₄⟩ => ⟨h₁, h₂, h₃, h₄⟩, fun ⟨h₁, h₂, h₃, h₄⟩ => ⟨h₁, h₂, h₃, h₄⟩⟩

/-- Time passes. With `ttl` the monitor may remove what has expired. -/
structure Elapse (ttl : Prop) (s s' : Database) : Prop where
  clock : s.clock ≤ s'.clock
  drawn : s'.drawn = s.drawn
  families : Expire RefreshTokenFamily.expiresAt s'.clock s.families s'.families
  markers : Expire RefreshTokenReplayMarker.expiresAt s'.clock s.markers s'.markers
  untouched : ¬ ttl → s'.families = s.families ∧ s'.markers = s.markers

/-- A document that expires at `date` cannot have been removed yet. -/
def Retains (ttl : Prop) (s : Database) (date : Date) : Prop :=
  ttl → s.clock < date

theorem Elapse.indexed {ttl : Prop} {s s' : Database} (h : Elapse ttl s s') (hs : s.Indexed) :
    s'.Indexed :=
  ⟨hs.familyId.sublist h.families.1, hs.currentTokenHash.sublist h.families.1,
    hs.tokenHash.sublist h.markers.1, hs.rotationOperationId.sublist h.markers.1⟩

theorem Elapse.retains {ttl : Prop} {s s' : Database} {date : Date} (h : Elapse ttl s s')
    (hd : s'.Retains ttl date) : s.Retains ttl date :=
  fun ht => lt_of_le_of_lt h.clock (hd ht)

theorem Elapse.marker {ttl : Prop} {s s' : Database} (h : Elapse ttl s s')
    {m : RefreshTokenReplayMarker} (hm : m ∈ s.markers) (hd : s'.Retains ttl m.expiresAt) :
    m ∈ s'.markers := by
  by_cases ht : ttl
  · exact h.markers.2 m hm (hd ht)
  · rw [(h.untouched ht).2]
    exact hm

end Database

end TokenSession
