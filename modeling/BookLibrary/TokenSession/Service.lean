import BookLibrary.Interleaving.Machine
import BookLibrary.TokenSession.Documents

/-!
# The token session service

`TokenSessionService` as programs over single database operations. `now` is the
date a method reads synchronously when it is called; later readings are calls of
their own. Clocks of the callers are not related to each other or to the
database's.
-/

namespace TokenSession

open Documents Interleaving

def maximumRefreshLifetimeSeconds : ℤ := 2592000
def rotationLeaseMs : ℤ := 30000
def reconciliationBatchSize : ℕ := 100

structure CreateRefreshTokenFamilyInput where
  clientId : String
  subjectType : AuthSubjectType
  subjectId : String
  scopes : List String
  authVersion : ℕ
  ttlSeconds : Rat

structure RefreshTokenRotationResult where
  familyId : String
  clientId : String
  subjectType : AuthSubjectType
  subjectId : String
  scopes : List String
  authVersion : ℕ
  refreshToken : String
  expiresAt : Date
  deriving DecidableEq

structure PreparedRotation where
  family : RefreshTokenFamily
  operationId : String

/-- Which active families a revocation is for. -/
inductive RevocationFilter where
  | currentTokenHash (hash : String)
  | familyId (id : String)
  | subject (subjectType : AuthSubjectType) (subjectId : String)
  deriving DecidableEq

def RevocationFilter.selects (filter : RevocationFilter) (f : RefreshTokenFamily) : Bool :=
  decide (f.status = .active) &&
    match filter with
    | .currentTokenHash hash => decide (f.currentTokenHash = some hash)
    | .familyId id => decide (f.familyId = id)
    | .subject subjectType subjectId =>
      decide (f.subjectType = subjectType) && decide (f.subjectId = subjectId)

/-- `RefreshTokenReplayMarker.create`: stored, or error 11000. -/
inductive Insertion where
  | inserted | duplicateKey
  deriving DecidableEq

/-- The atomic calls of the service, one constructor for each call site. -/
inductive Op : Type → Type where
  | randomToken : Op String
  | randomUUID : Op String
  | currentDate : Op Date
  | insertFamily (f : RefreshTokenFamily) : Op Unit
  | insertMarker (m : RefreshTokenReplayMarker) : Op Insertion
  | findMarker (tokenHash : String) : Op (Option RefreshTokenReplayMarker)
  | findCurrentFamily (tokenHash : String) (now : Date) : Op (Option RefreshTokenFamily)
  | findFamily (familyId : String) : Op (Option RefreshTokenFamily)
  | findFamilyByHash (tokenHash : String) : Op (Option RefreshTokenFamily)
  | findExpiredPending (now : Date) : Op (List RefreshTokenReplayMarker)
  | takeOverMarker (tokenHash rotationOperationId : String) (now : Date) (operationId : String)
      (leaseExpiresAt : Date) : Op (Option RefreshTokenReplayMarker)
  | swapFamily (familyId tokenHash : String) (now : Date) (nextTokenHash operationId : String) :
      Op (Option RefreshTokenFamily)
  | commitMarker (tokenHash operationId : String) (committedAt : Date) :
      Op (Option RefreshTokenReplayMarker)
  | revokeFamilies (filter : RevocationFilter) (status : RefreshTokenFamilyStatus)
      (reason : String) (revokedAt : Date) : Op ℕ

/-- The filter of the family compare-and-swap, also that of the current family. -/
def RefreshTokenFamily.isCurrent (tokenHash : String) (now : Date) (f : RefreshTokenFamily) :
    Bool :=
  decide (f.currentTokenHash = some tokenHash) && decide (f.status = .active) &&
    decide (now < f.expiresAt)

def RefreshTokenFamily.swap (now : Date) (nextTokenHash operationId : String)
    (f : RefreshTokenFamily) : RefreshTokenFamily :=
  { f with
    currentTokenHash := some nextTokenHash
    lastRotatedAt := now
    lastRotationOperationId := some operationId }

def revocationUpdate (status : RefreshTokenFamilyStatus) (reason : String) (revokedAt : Date)
    (f : RefreshTokenFamily) : RefreshTokenFamily :=
  { f with
    status := status
    revokedAt := some revokedAt
    revokedReason := some reason
    currentTokenHash := none }

namespace RefreshTokenReplayMarker

def isPending (tokenHash rotationOperationId : String) (m : RefreshTokenReplayMarker) : Bool :=
  decide (m.tokenHash = tokenHash) && decide (m.status = .pending) &&
    decide (m.rotationOperationId = rotationOperationId)

/-- `leaseExpiresAt: { $lte: now }`; a missing date does not match. -/
def leaseExpired (now : Date) (m : RefreshTokenReplayMarker) : Bool :=
  match m.leaseExpiresAt with
  | some date => decide (date ≤ now)
  | none => false

def takeOver (operationId : String) (leaseExpiresAt : Date) (m : RefreshTokenReplayMarker) :
    RefreshTokenReplayMarker :=
  { m with rotationOperationId := operationId, leaseExpiresAt := some leaseExpiresAt }

def commit (committedAt : Date) (m : RefreshTokenReplayMarker) : RefreshTokenReplayMarker :=
  { m with status := .committed, committedAt := some committedAt, leaseExpiresAt := none }

/-- The sort key of the reconciliation scan; the scan selects no marker without a lease. -/
def leaseKey (m : RefreshTokenReplayMarker) : ℤ := m.leaseExpiresAt.getD 0

/-- The schema's `validate` hook. -/
def validateReplayMarkerState (m : RefreshTokenReplayMarker) : Bool :=
  match m.status with
  | .pending => m.leaseExpiresAt.isSome
  | .committed => m.committedAt.isSome && m.leaseExpiresAt.isNone

end RefreshTokenReplayMarker

def Database.insertFamily (f : RefreshTokenFamily) (s : Database) : Database :=
  { s with families := f :: s.families }

def Database.insertMarker (m : RefreshTokenReplayMarker) (s : Database) : Database :=
  { s with markers := m :: s.markers }

/-- What each call does to the database, unique indexes aside. -/
def effect : (β : Type) → Op β → Database → β → Database → Prop
  | _, .randomToken, s, x, s' => x ≠ "" ∧ x ∉ s.drawn ∧ s' = { s with drawn := x :: s.drawn }
  | _, .randomUUID, s, x, s' => x ≠ "" ∧ x ∉ s.drawn ∧ s' = { s with drawn := x :: s.drawn }
  | _, .currentDate, s, _, s' => s' = s
  | _, .insertFamily f, s, _, s' => s' = s.insertFamily f
  | _, .insertMarker m, s, r, s' =>
    match r with
    | .inserted => m.validateReplayMarkerState = true ∧ s' = s.insertMarker m
    | .duplicateKey => ¬ (s.insertMarker m).Indexed ∧ s' = s
  | _, .findMarker hash, s, r, s' =>
    FindOne (fun m => decide (m.tokenHash = hash)) s.markers r ∧ s' = s
  | _, .findCurrentFamily hash now, s, r, s' =>
    FindOne (RefreshTokenFamily.isCurrent hash now) s.families r ∧ s' = s
  | _, .findFamily id, s, r, s' => FindOne (fun f => decide (f.familyId = id)) s.families r ∧ s' = s
  | _, .findFamilyByHash hash, s, r, s' =>
    FindOne (fun f => decide (f.currentTokenHash = some hash)) s.families r ∧ s' = s
  | _, .findExpiredPending now, s, r, s' =>
    FindSorted (fun m => decide (m.status = .pending) && m.leaseExpired now)
      RefreshTokenReplayMarker.leaseKey reconciliationBatchSize s.markers r ∧ s' = s
  | _, .takeOverMarker hash id now operationId lease, s, r, s' =>
    ∃ markers, UpdateOne (fun m => m.isPending hash id && m.leaseExpired now)
      (RefreshTokenReplayMarker.takeOver operationId lease) s.markers r markers ∧
      s' = { s with markers := markers }
  | _, .swapFamily id hash now next operationId, s, r, s' =>
    ∃ families, UpdateOne (fun f => decide (f.familyId = id) && f.isCurrent hash now)
      (RefreshTokenFamily.swap now next operationId) s.families r families ∧
      s' = { s with families := families }
  | _, .commitMarker hash id date, s, r, s' =>
    ∃ markers, UpdateOne (RefreshTokenReplayMarker.isPending hash id)
      (RefreshTokenReplayMarker.commit date) s.markers r markers ∧
      s' = { s with markers := markers }
  | _, .revokeFamilies filter status reason date, s, n, s' =>
    n = s.families.countP filter.selects ∧
      s' = { s with
        families := updateMany filter.selects (revocationUpdate status reason date) s.families }

/-- No write that breaks a unique index is applied. -/
def exec (β : Type) (op : Op β) (s : Database) (b : β) (s' : Database) : Prop :=
  effect β op s b s' ∧ s'.Indexed

/-- Random values and the clock of the process never throw. -/
def fallible : (β : Type) → Op β → Prop
  | _, .randomToken => False
  | _, .randomUUID => False
  | _, .currentDate => False
  | _, _ => True

inductive Event where
  | drew (x : String)
  | opened (f : RefreshTokenFamily)
  | prepared (m : RefreshTokenReplayMarker)
  | found (tokenHash : String) (m : Option RefreshTokenReplayMarker)
  | current (tokenHash : String) (f : Option RefreshTokenFamily)
  | read (familyId : String) (f : Option RefreshTokenFamily)
  | resolved (tokenHash : String) (f : Option RefreshTokenFamily)
  | batch (ms : List RefreshTokenReplayMarker)
  | swapped (tokenHash : String) (f : RefreshTokenFamily)
  | committed (tokenHash operationId : String) (m : Option RefreshTokenReplayMarker)
  | uncommitted (tokenHash operationId : String)
  | revoked (filter : RevocationFilter) (modified : ℕ)

/-- What a call leaves in the journal. -/
def note : (β : Type) → Op β → Option β → List Event
  | _, .randomToken, r => r.toList.map .drew
  | _, .randomUUID, r => r.toList.map .drew
  | _, .currentDate, _ => []
  | _, .insertFamily f, r => r.toList.map fun _ => .opened f
  | _, .insertMarker m, r => if r = some .inserted then [.prepared m] else []
  | _, .findMarker hash, r => r.toList.map (.found hash)
  | _, .findCurrentFamily hash _, r => r.toList.map (.current hash)
  | _, .findFamily id, r => r.toList.map (.read id)
  | _, .findFamilyByHash hash, r => r.toList.map (.resolved hash)
  | _, .findExpiredPending _, r => r.toList.map .batch
  | _, .takeOverMarker .., r => r.join.toList.map .prepared
  | _, .swapFamily _ hash .., r => r.join.toList.map (.swapped hash)
  | _, .commitMarker hash id _, r =>
    match r with
    | some m => [.committed hash id m]
    | none => [.uncommitted hash id]
  | _, .revokeFamilies filter .., r => r.toList.map (.revoked filter)

/-- `UnauthorizedException(genericRefreshDenial)`, or what a database call threw. -/
inductive RefreshFailure where
  | denied | thrown
  deriving DecidableEq

abbrev Refresh := Action Op RefreshFailure

def call {β : Type} (op : Op β) : Refresh β := Action.perform .thrown op

def denyRefresh {α : Type} : Refresh α := throw .denied

section Service

variable (sha256 : String → String)

def generateRefreshToken : Refresh String := call .randomToken

def hashRefreshToken (refreshToken : String) : String := sha256 refreshToken

def createFamily (input : CreateRefreshTokenFamilyInput) (now : Date) :
    Refresh RefreshTokenRotationResult := do
  let refreshToken ← generateRefreshToken
  let ttlSeconds := min (max 1 input.ttlSeconds.floor) maximumRefreshLifetimeSeconds
  let expiresAt := now + ttlSeconds * 1000
  let familyId ← call .randomUUID
  call (.insertFamily
    { familyId := familyId
      clientId := input.clientId
      subjectType := input.subjectType
      subjectId := input.subjectId
      scopes := input.scopes
      authVersion := some input.authVersion
      status := .active
      currentTokenHash := some (hashRefreshToken sha256 refreshToken)
      lastRotationOperationId := none
      issuedAt := now
      lastRotatedAt := now
      expiresAt := expiresAt
      revokedAt := none
      revokedReason := none })
  return {
    familyId := familyId
    clientId := input.clientId
    subjectType := input.subjectType
    subjectId := input.subjectId
    scopes := input.scopes
    authVersion := input.authVersion
    refreshToken := refreshToken
    expiresAt := expiresAt }

def commitMarker (tokenHash operationId : String) : Refresh (Option RefreshTokenReplayMarker) := do
  let committedAt ← call .currentDate
  call (.commitMarker tokenHash operationId committedAt)

/-- `updateMany` with a `revocationUpdate`, which reads the clock. -/
def revoke (filter : RevocationFilter) (status : RefreshTokenFamilyStatus) (reason : String) :
    Refresh Unit := do
  let revokedAt ← call .currentDate
  let _ ← call (.revokeFamilies filter status reason revokedAt)

def revokeFamily (familyId reason : String) : Refresh Unit :=
  revoke (.familyId familyId) .revoked reason

def revokeAsReplay (familyId : String) : Refresh Unit :=
  revoke (.familyId familyId) .replayed "refresh-token-replay"

def revokeSubject (subjectType : AuthSubjectType) (subjectId reason : String) : Refresh Unit :=
  revoke (.subject subjectType subjectId) .revoked reason

def revokeRefreshToken (refreshToken : Option String) (reason : String) : Refresh Unit :=
  match refreshToken with
  | none => return
  | some token =>
    if token = "" then return
    else revoke (.currentTokenHash (hashRefreshToken sha256 token)) .revoked reason

def finalizeAndRevoke (familyId tokenHash operationId reason : String) : Refresh Unit := do
  let _ ← tryCatch (commitMarker tokenHash operationId) fun _ => return none
  revokeFamily familyId reason

/-- The family is active, unexpired and still holds the presented hash. -/
def stillCurrent (tokenHash : String) (now : Date) : Option RefreshTokenFamily → Bool
  | some f => f.isCurrent tokenHash now
  | none => false

def rotatedBy (operationId : String) : Option RefreshTokenFamily → Bool
  | some f => decide (f.lastRotationOperationId = some operationId)
  | none => false

def recoveryReason (operationId : String) (family : Option RefreshTokenFamily) : String :=
  if rotatedBy operationId family then "refresh-rotation-orphaned"
  else "refresh-rotation-invariant"

def recoverAfterInterruptedCas (familyId tokenHash operationId : String) : Refresh Unit :=
  tryCatch (do
    let family ← call (.findFamily familyId)
    let now ← call .currentDate
    if stillCurrent tokenHash now family then return
    else finalizeAndRevoke familyId tokenHash operationId (recoveryReason operationId family))
    fun _ => return

def handleExistingMarker (marker : RefreshTokenReplayMarker) (now : Date) :
    Refresh PreparedRotation := do
  if marker.status = .committed then
    revokeAsReplay marker.familyId
    denyRefresh
  else
    let family ← call (.findFamily marker.familyId)
    if rotatedBy marker.rotationOperationId family then
      finalizeAndRevoke marker.familyId marker.tokenHash marker.rotationOperationId
        "refresh-rotation-orphaned"
      denyRefresh
    else match family with
    | none =>
      finalizeAndRevoke marker.familyId marker.tokenHash marker.rotationOperationId
        "refresh-rotation-invariant"
      denyRefresh
    | some f =>
      if !f.isCurrent marker.tokenHash now then
        finalizeAndRevoke marker.familyId marker.tokenHash marker.rotationOperationId
          "refresh-rotation-invariant"
        denyRefresh
      else match marker.leaseExpiresAt with
      | none =>
        finalizeAndRevoke marker.familyId marker.tokenHash marker.rotationOperationId
          "refresh-rotation-invariant"
        denyRefresh
      | some leaseExpiresAt =>
        if now < leaseExpiresAt then denyRefresh
        else
          let operationId ← call .randomUUID
          let takenOver ← call (.takeOverMarker marker.tokenHash marker.rotationOperationId now
            operationId (now + rotationLeaseMs))
          if takenOver.isNone then denyRefresh
          else return ⟨f, operationId⟩

def prepareRotation (tokenHash : String) (now : Date) : Refresh PreparedRotation := do
  match ← call (.findMarker tokenHash) with
  | some existingMarker => handleExistingMarker existingMarker now
  | none =>
    match ← call (.findCurrentFamily tokenHash now) with
    | none => denyRefresh
    | some family =>
      let operationId ← call .randomUUID
      let created ← tryCatch (call (.insertMarker
        { tokenHash := tokenHash
          familyId := family.familyId
          status := .pending
          rotationOperationId := operationId
          leaseExpiresAt := some (now + rotationLeaseMs)
          committedAt := none
          expiresAt := family.expiresAt })) fun _ => denyRefresh
      match created with
      | .inserted => return ⟨family, operationId⟩
      | .duplicateKey =>
        match ← call (.findMarker tokenHash) with
        | some racedMarker => handleExistingMarker racedMarker now
        | none => denyRefresh

def rotationResult (family : RefreshTokenFamily) (refreshToken : String) :
    RefreshTokenRotationResult where
  familyId := family.familyId
  clientId := family.clientId
  subjectType := family.subjectType
  subjectId := family.subjectId
  scopes := family.scopes
  authVersion := family.authVersion.getD 0
  refreshToken := refreshToken
  expiresAt := family.expiresAt

/-- The end of a rotation: no credential leaves before the marker is committed. -/
def commitRotation (prepared : PreparedRotation) (tokenHash : String) : Refresh Unit :=
  tryCatch (do
    let committed ← commitMarker tokenHash prepared.operationId
    if committed.isNone then
      revokeFamily prepared.family.familyId "refresh-rotation-orphaned"
      denyRefresh
    else return)
    fun _ => do
      tryCatch (revokeFamily prepared.family.familyId "refresh-rotation-orphaned") fun _ => return
      denyRefresh

def rotate (refreshToken : String) (now : Date) : Refresh RefreshTokenRotationResult := do
  if refreshToken = "" then denyRefresh
  else
    let tokenHash := hashRefreshToken sha256 refreshToken
    let prepared ← prepareRotation tokenHash now
    let nextRefreshToken ← generateRefreshToken
    let nextTokenHash := hashRefreshToken sha256 nextRefreshToken
    let rotatedFamily ← tryCatch
      (call (.swapFamily prepared.family.familyId tokenHash now nextTokenHash
        prepared.operationId))
      fun _ => do
        recoverAfterInterruptedCas prepared.family.familyId tokenHash prepared.operationId
        denyRefresh
    match rotatedFamily with
    | none =>
      finalizeAndRevoke prepared.family.familyId tokenHash prepared.operationId
        "refresh-rotation-invariant"
      denyRefresh
    | some family =>
      commitRotation prepared tokenHash
      return rotationResult family nextRefreshToken

def resolveFamilyId (refreshToken : Option String) : Refresh (Option String) :=
  match refreshToken with
  | none => return none
  | some token =>
    if token = "" then return none
    else do
      let tokenHash := hashRefreshToken sha256 token
      match ← call (.findFamilyByHash tokenHash) with
      | some family =>
        if family.familyId ≠ "" then return some family.familyId
        else return (← call (.findMarker tokenHash)).map (·.familyId)
      | none => return (← call (.findMarker tokenHash)).map (·.familyId)

/-- One marker of the batch; answers how many were reconciled. -/
def reconcileMarker (now : Date) (marker : RefreshTokenReplayMarker) : Refresh ℕ :=
  tryCatch (do
    let family ← call (.findFamily marker.familyId)
    if stillCurrent marker.tokenHash now family then return 0
    else
      finalizeAndRevoke marker.familyId marker.tokenHash marker.rotationOperationId
        (recoveryReason marker.rotationOperationId family)
      return 1)
    fun _ => return 0

def reconcileMarkers (now : Date) : List RefreshTokenReplayMarker → ℕ → Refresh ℕ
  | [], reconciled => return reconciled
  | marker :: markers, reconciled => do
    let n ← reconcileMarker now marker
    reconcileMarkers now markers (reconciled + n)

def runExpiredPendingMarkers (now : Date) : Refresh ℕ := do
  let markers ← call (.findExpiredPending now)
  reconcileMarkers now markers 0

/-- The methods, and the `updateMany` of `MembersService` and `StaffUsersService`
that revokes a subject's sessions (the same statement as `revokeSubject`). -/
inductive Call where
  | createFamily (input : CreateRefreshTokenFamilyInput) (now : Date)
  | rotate (refreshToken : String) (now : Date)
  | resolveFamilyId (refreshToken : Option String)
  | reconcileExpiredPendingMarkers (now : Date)
  | revokeRefreshToken (refreshToken : Option String) (reason : String)
  | revokeFamily (familyId reason : String)
  | revokeSubject (subjectType : AuthSubjectType) (subjectId reason : String)

inductive Answer where
  | credentials (result : RefreshTokenRotationResult)
  | family (familyId : Option String)
  | reconciled (count : ℕ)
  | nothing
  deriving DecidableEq

abbrev Reply := Except RefreshFailure Answer

def respond {α : Type} (answer : α → Answer) (x : Refresh α) : Prog Op Reply :=
  (do return answer (← x) : Refresh Answer).run

def body : Call → Prog Op Reply
  | .createFamily input now => respond .credentials (createFamily sha256 input now)
  | .rotate token now => respond .credentials (rotate sha256 token now)
  | .resolveFamilyId token => respond .family (resolveFamilyId sha256 token)
  | .reconcileExpiredPendingMarkers now => respond .reconciled (runExpiredPendingMarkers now)
  | .revokeRefreshToken token reason =>
    respond (fun _ => .nothing) (revokeRefreshToken sha256 token reason)
  | .revokeFamily id reason => respond (fun _ => .nothing) (revokeFamily id reason)
  | .revokeSubject subjectType subjectId reason =>
    respond (fun _ => .nothing) (revokeSubject subjectType subjectId reason)

/-- The service on one database; `ttl` says whether the TTL monitor runs. -/
def system (ttl : Prop) : System Call Op Database Reply Event where
  body := body sha256
  exec := exec
  fallible := fallible
  env := Database.Elapse ttl
  note := note

end Service

end TokenSession
