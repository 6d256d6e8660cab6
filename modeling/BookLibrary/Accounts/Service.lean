import BookLibrary.Accounts.Documents
import BookLibrary.Interleaving.Machine
import BookLibrary.Interleaving.Memory
import BookLibrary.SignIn.Guard
import BookLibrary.Transactions.Sessions

/-!
# The calls of the account services

What `MembersService`, `StaffUsersService` and the aggregate adapter of
`AuthIdentifierService` ask of the database, one constructor for each kind of query
and write, and what they do when a call throws.
-/

namespace Accounts

open AuthIdentifiers Documents Interleaving SignIn

inductive Query : Type → Type where
  | findStaffUser (id : String) : Query (Option StaffUser)
  | staffEmailExists (email : String) : Query Bool
  | findMember (id : String) : Query (Option Member)
  | memberNumberExists (memberNumber : String) : Query Bool
  | loginIdentifierExists (exceptId loginIdentifier : String) : Query Bool
  | findMembershipType (id : String) : Query (Option MembershipType)
  | findIdentifier (normalizedIdentifier : String) : Query (Option AuthIdentifier)

inductive Write where
  | insertStaffUser (d : StaffUser)
  | saveStaffUser (loaded now : StaffUser)
  | insertMember (d : Member)
  | saveMember (loaded now : Member)
  | bumpAuthVersion (subjectType : AuthIdentifierSubjectType) (id : String)
  | setAccountIdentifier (subjectType : AuthIdentifierSubjectType) (id identifier : String)
  | insertIdentifier (d : AuthIdentifier)
  | claimReleased (id : String) (identifierType : Option AuthIdentifierType)
      (subjectType : AuthIdentifierSubjectType) (subjectId updatedBy : String)
  | releaseIdentifier (normalizedIdentifier : String) (subjectType : AuthIdentifierSubjectType)
      (subjectId : String) (releasedAt : Date) (updatedBy : String)
  | revokeFamilies (subjectType : AuthIdentifierSubjectType) (subjectId reason : String)
      (revokedAt : Date)
  | recordActivity (e : SecurityActivityEvent)
  deriving DecidableEq

/-- What a call of the driver threw. -/
structure Fault where
  transient : Bool
  message : String
  deriving DecidableEq

/-- What a process draws: the date, ids, the salted hash of a password, a session, the
error of the call that has just thrown, and how often the driver runs a callback again. -/
inductive Draw : Type → Type where
  | currentDate : Draw Date
  | newObjectId : Draw ObjectId
  | hashPassword (rawPassword : String) : Draw String
  | startSession : Draw Unit
  | lastError : Draw Fault
  | retries : Draw ℕ

def Op (β : Type) : Type :=
  (Option ℕ × Query β) ⊕ Sessions.Change Write Document β ⊕ Draw β

/-- `{ $inc: { authVersion: 1 } }` -/
def incremented (authVersion : Option ℕ) : Option ℕ := some (authVersion.getD 0 + 1)

/-- The filter of `releaseIdentifier`. -/
def isHeldBy (normalizedIdentifier : String) (subjectType : AuthIdentifierSubjectType)
    (subjectId : String) (d : AuthIdentifier) : Bool :=
  decide (d.normalizedIdentifier = normalizedIdentifier) &&
    decide (d.subjectType = some subjectType) && decide (d.subjectId = some subjectId) &&
    decide (d.status = .active)

def AuthIdentifier.claim (identifierType : Option AuthIdentifierType)
    (subjectType : AuthIdentifierSubjectType) (subjectId updatedBy : String) (d : AuthIdentifier) :
    AuthIdentifier :=
  { d with
    status := .active
    identifierType := identifierType.getD d.identifierType
    subjectType := some subjectType
    subjectId := some subjectId
    updatedBy := updatedBy
    releasedAt := none }

def AuthIdentifier.release (releasedAt : Date) (updatedBy : String) (d : AuthIdentifier) :
    AuthIdentifier :=
  { d with
    status := .released
    releasedAt := some releasedAt
    updatedBy := updatedBy }

def sessionSubject : AuthIdentifierSubjectType → TokenSession.AuthSubjectType
  | .staff => .staff
  | .member => .member

namespace Database

variable (s : Database)

def answers : (β : Type) → Query β → Database → β → Prop
  | _, .findStaffUser id, s, r => FindOne (fun d => decide (d.id = id)) s.staffUsers r
  | _, .staffEmailExists email, s, r => r = s.staffUsers.any fun d => decide (d.email = email)
  | _, .findMember id, s, r => FindOne (fun d => decide (d.id = id)) s.members r
  | _, .memberNumberExists number, s, r => r = s.members.any fun d => decide (d.memberNumber = number)
  | _, .loginIdentifierExists id login, s, r =>
    r = s.members.any fun d => !decide (d.id = id) && decide (d.loginIdentifier = some login)
  | _, .findMembershipType id, s, r => FindOne (fun d => decide (d.id = id)) s.membershipTypes r
  | _, .findIdentifier identifier, s, r =>
    FindOne (fun d => decide (d.normalizedIdentifier = identifier)) s.identifiers r

/-- `updateOne` on a collection whose documents are `wrap`ped. -/
def update {D : Type} (wrap : D → Document) (p : D → Bool) (f : D → D) (docs : List D) :
    Sessions.WriteResult Document :=
  match docs.find? p with
  | some d => .written [wrap (f d)]
  | none => .unmatched

def insert (d : Document) : Sessions.WriteResult Document :=
  if (s.find d.key).isSome then .duplicateKey else .written [d]

/-- What each write leaves, unique indexes aside. -/
def unchecked : Write → Sessions.WriteResult Document
  | .insertStaffUser d => s.insert (.staffUser d)
  | .saveStaffUser loaded now =>
    update .staffUser (fun d => decide (d.id = loaded.id)) (StaffUser.saved loaded now) s.staffUsers
  | .insertMember d => s.insert (.member d)
  | .saveMember loaded now =>
    update .member (fun d => decide (d.id = loaded.id)) (Member.saved loaded now) s.members
  | .bumpAuthVersion .staff id =>
    update .staffUser (fun d => decide (d.id = id))
      (fun d => { d with authVersion := incremented d.authVersion }) s.staffUsers
  | .bumpAuthVersion .member id =>
    update .member (fun d => decide (d.id = id))
      (fun d => { d with authVersion := incremented d.authVersion }) s.members
  | .setAccountIdentifier .staff id identifier =>
    update .staffUser (fun d => decide (d.id = id))
      (fun d => { d with email := identifier, authVersion := incremented d.authVersion })
      s.staffUsers
  | .setAccountIdentifier .member id identifier =>
    update .member (fun d => decide (d.id = id))
      (fun d => { d with
        loginIdentifier := some identifier
        authVersion := incremented d.authVersion }) s.members
  | .insertIdentifier d => s.insert (.identifier d)
  | .claimReleased id identifierType subjectType subjectId updatedBy =>
    update .identifier (fun d => decide (d.id = id) && decide (d.status = .released))
      (AuthIdentifier.claim identifierType subjectType subjectId updatedBy) s.identifiers
  | .releaseIdentifier identifier subjectType subjectId releasedAt updatedBy =>
    update .identifier (isHeldBy identifier subjectType subjectId)
      (AuthIdentifier.release releasedAt updatedBy) s.identifiers
  | .revokeFamilies subjectType subjectId reason revokedAt =>
    .written ((s.families.filter (TokenSession.RevocationFilter.selects
      (.subject (sessionSubject subjectType) subjectId))).map fun f =>
        .family (TokenSession.revocationUpdate .revoked reason revokedAt f))
  | .recordActivity e => s.insert (.event e)

end Database

/-- The collections as a store of documents. No write that breaks a unique index is
applied. -/
def schema : Sessions.Schema Query Write Database Document Key where
  key := Document.key
  find := Database.find
  put := Database.put
  indexed s := decide s.Indexed
  answers := Database.answers
  write w s :=
    if ((s.unchecked w).docs.foldr Database.put s).Indexed then s.unchecked w else .duplicateKey

abbrev Store := Sessions.Store Database Document

def exec (β : Type) (op : Op β) (s : Store) (b : β) (s' : Store) : Prop :=
  match op with
  | .inl (session, q) => schema.query β session q s b s'
  | .inr (.inl c) => schema.change β c s b s'
  | .inr (.inr _) => s' = s

/-- The clock, ids, errors and the driver's patience are drawn without fail. -/
def fallible (β : Type) (op : Op β) : Prop :=
  match op with
  | .inl _ => True
  | .inr (.inl c) => Sessions.fallible β c
  | .inr (.inr (.hashPassword _)) => True
  | .inr (.inr .startSession) => True
  | .inr (.inr _) => False

/-- The exceptions of the services, with the texts that they carry. -/
inductive Failure where
  | badRequest (message : String)
  | notFound (message : String)
  | conflict (message : String)
  | unprocessable (message : String)
  | validation (path : String)
  | documentNotFound
  | duplicateKey (error : Fault)
  | thrown (error : Fault)
  deriving DecidableEq

abbrev Handler := Action Op Failure

def drawn {β : Type} (op : Draw β) : Op β := .inr (.inr op)

/-- Issue a call; when it throws, the driver's error is passed on. -/
def perform {β : Type} (op : Op β) : Handler β :=
  ExceptT.mk (.call op fun
    | some b => .done (.ok b)
    | none => .call (drawn .lastError) fun e => .done (.error (.thrown (e.getD ⟨false, ""⟩))))

def draw {β : Type} (op : Draw β) : Handler β := perform (drawn op)

def find {β : Type} (session : Option ℕ) (q : Query β) : Handler β := perform (.inl (session, q))

def change {β : Type} (c : Sessions.Change Write Document β) : Handler β := perform (.inr (.inl c))

def write (session : Option ℕ) (w : Write) : Handler (Sessions.WriteResult Document) :=
  change (.write session w)

def raiseDuplicateKey {α : Type} : Handler α := do
  let error ← draw .lastError
  throw (.duplicateKey error)

/-- `identifierModel.create` of an active reservation; the schema requires an identifier. -/
def createIdentifier (session : Option ℕ) (normalizedIdentifier : String)
    (identifierType : AuthIdentifierType) (subjectType : AuthIdentifierSubjectType)
    (subjectId actorId : String) : Handler (Sessions.WriteResult Document) := do
  let id ← draw .newObjectId
  if normalizedIdentifier = "" then throw (.validation "normalizedIdentifier")
  else write session (.insertIdentifier
    { id := id.1
      normalizedIdentifier := normalizedIdentifier
      identifierType := identifierType
      subjectType := some subjectType
      subjectId := some subjectId
      status := .active
      conflictingSubjects := none
      conflictResolutionStatus := none
      pendingOperationId := none
      activationGateOperationId := none
      lastOperationId := none
      pendingAction := none
      releasedAt := none
      createdBy := actorId
      updatedBy := actorId
      updatedAt := 0 })

/-- `reserveIdentifier`, which the two services share but for the type that they write. -/
def reserve (session : Option ℕ) (normalizedIdentifier : String)
    (claimedType : Option AuthIdentifierType) (createdType : AuthIdentifierType)
    (subjectType : AuthIdentifierSubjectType) (subjectId : String) (actorId : Option String) :
    Handler Unit := do
  let actorId := actorId.getD "system"
  match ← find session (.findIdentifier normalizedIdentifier) with
  | some existing =>
    if existing.status = .active ∧ existing.subjectType = some subjectType ∧
        existing.subjectId = some subjectId then return
    else if existing.status ≠ .released then
      throw (.conflict "Sign-in identifier is already reserved")
    else do
      -- the number of matched documents is not looked at
      let _ ← write session (.claimReleased existing.id claimedType subjectType subjectId actorId)
  | none =>
    match ← createIdentifier session normalizedIdentifier createdType subjectType subjectId
        actorId with
    | .duplicateKey => throw (.conflict "Sign-in identifier is already reserved")
    | _ => return

/-- `releaseIdentifier` -/
def release (session : Option ℕ) (normalizedIdentifier : String)
    (subjectType : AuthIdentifierSubjectType) (subjectId : String) (actorId : Option String) :
    Handler Unit := do
  let releasedAt ← draw .currentDate
  let _ ← write session (.releaseIdentifier normalizedIdentifier subjectType subjectId releasedAt
    (actorId.getD "system"))

structure AuditActor where
  id : String
  deriving DecidableEq

def toMongoObjectId (value fieldName : String) : Handler String :=
  match ObjectId.parse value with
  | some id => return id.1
  | none => throw (.badRequest (fieldName ++ " must be a valid MongoDB ObjectId"))

theorem toMongoObjectId_some {value : String} {id : ObjectId} (h : ObjectId.parse value = some id)
    (fieldName : String) : toMongoObjectId value fieldName = pure id.1 := by
  rw [toMongoObjectId, h]

theorem toMongoObjectId_none {value : String} (h : ObjectId.parse value = none)
    (fieldName : String) : toMongoObjectId value fieldName =
      throw (.badRequest (fieldName ++ " must be a valid MongoDB ObjectId")) := by
  rw [toMongoObjectId, h]

/-- An object of the process that stands for a document: the fields as they were loaded or
last saved, and as they are now. -/
structure Hydrated (D : Type) where
  loaded : D
  now : D
  isNew : Bool

/-- `securityActivityService.record` -/
def recordActivity (e : String → SecurityActivityEvent) : Handler Unit := do
  let id ← draw .newObjectId
  match ← write none (.recordActivity (e id.1)) with
  | .duplicateKey => raiseDuplicateKey
  | _ => return

/-- `updateMany` on the active families of the subject. -/
def revokeSessions (subjectType : AuthIdentifierSubjectType) (subjectId reason : String) :
    Handler Unit := do
  let revokedAt ← draw .currentDate
  let _ ← write none (.revokeFamilies subjectType subjectId reason revokedAt)

/-- What a call leaves in the journal. -/
inductive Event where
  | foundStaffUser (user : Option StaffUser)
  | foundMember (member : Option Member)
  | foundIdentifier (normalizedIdentifier : String) (reservation : Option AuthIdentifier)
  | wrote (session : Option ℕ) (w : Write) (r : Sessions.WriteResult Document)
  | committed (session : ℕ)

def note (β : Type) (op : Op β) (r : Option β) : List Event :=
  match β, op, r with
  | _, .inl (_, .findStaffUser _), r => r.toList.map .foundStaffUser
  | _, .inl (_, .findMember _), r => r.toList.map .foundMember
  | _, .inl (_, .findIdentifier identifier), r => r.toList.map (.foundIdentifier identifier)
  | _, .inl _, _ => []
  | _, .inr (.inl (.write session w)), r => r.toList.map (.wrote session w)
  | _, .inr (.inl (.commitTransaction n)), r => r.toList.map fun _ => .committed n
  | _, .inr (.inl _), _ => []
  | _, .inr (.inr _), _ => []

/-- Programs of requests on the account store. -/
def service {Call ρ : Type} (body : Call → Prog Op ρ) : System Call Op Store ρ Event where
  body := body
  exec := exec
  fallible := fallible
  env s s' := s' = s
  note := note

end Accounts
