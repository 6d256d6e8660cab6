import BookLibrary.Interleaving.Lifting
import BookLibrary.Migrations.Backfill
import BookLibrary.Migrations.Runner

/-!
# The migrations

The files of migrations/versions, and the look at the indexes that 003 leaves.
-/

namespace Migrate

open Documents Interleaving

inductive Value where
  | string (value : String)
  | number (value : ℤ)
  | date (value : Date)
  deriving DecidableEq

inductive Change where
  | set (field : String) (value : Value)
  | unset (field : String)
  deriving DecidableEq

inductive Update : Type → Type where
  | updateMany (collection : String) (filter : List (String × Condition)) (update : List Change) :
    Update Unit

/-- What the migrations ask of the documents of other collections. -/
abbrev DocumentCall (β : Type) : Type := Update β ⊕ Migrations.Op β

def updateMany (collection : String) (filter : List (String × Condition)) (update : List Change) :
    Handler DocumentCall Unit :=
  perform (.find none (.inr (.inl (.updateMany collection filter update))))

section Indexes

variable {U : Type → Type}

def createIndexes (indexes : List (String × Index)) : Handler U Unit :=
  indexes.forM fun x => createIndex x.1 x.2

/-- An index on fields, in ascending order. -/
def ascending (fields : List String) (options : IndexOptions) : Index :=
  ⟨fields.map fun field => (field, .ascending), options⟩

end Indexes

def migration000Indexes : List (String × Index) := [("migration_records", recordsIndex)]

def migration000 : MigrationDefinition DocumentCall where
  version := "000"
  name := "migration-record"
  rollbackNotes :=
    ["Drop the migration_records collection only when intentionally resetting migration history."]
  up _ := createIndexes migration000Indexes

def migration001Indexes : List (String × Index) :=
  [("staffusers", ascending ["email"] { unique := true }),
    ("staffusers", ascending ["status", "roles"] {}),
    ("bookcategories", ascending ["code"] { unique := true }),
    ("bookcategories", ascending ["status"] {}),
    ("books", ascending ["catalogIdentifier"] { unique := true }),
    ("books", ascending ["isbn"] { unique := true, sparse := true }),
    ("books", ascending ["title"] {}),
    ("books", ascending ["author"] {}),
    ("books", ascending ["status"] {}),
    ("books", ascending ["categoryId"] {}),
    ("membershiptypes", ascending ["code"] { unique := true }),
    ("membershiptypes", ascending ["status"] {}),
    ("members", ascending ["memberNumber"] { unique := true }),
    ("members", ascending ["email"] { unique := true, sparse := true }),
    ("members", ascending ["status", "membershipTypeId"] {}),
    ("borrowings", ascending ["memberId", "status"] {}),
    ("borrowings", ascending ["bookId", "status"] {}),
    ("borrowings", ascending ["dueAt", "status"] {})]

def migration001 : MigrationDefinition DocumentCall where
  version := "001"
  name := "library-core"
  rollbackNotes :=
    ["Drops for this migration must be reviewed per collection because deployed code depends on these indexes for auth, catalog, membership, and borrowing queries.",
      "If rollback is required, drop the staffusers email and status/roles indexes only after confirming no staff login or authorization flow depends on them.",
      "Drop bookcategories, books, membershiptypes, members, and borrowings indexes only after confirming replacement indexes or older code paths are deployed.",
      "Do not drop collections as part of rollback; borrowing history and audit-related records must be preserved unless an explicit data-retention decision is approved."]
  up _ := createIndexes migration001Indexes

def migration002Indexes : List (String × Index) :=
  [("members", ascending ["loginIdentifier"] { unique := true, sparse := true }),
    ("members", ascending ["authStatus"] {}),
    ("borrowings", ascending ["memberId", "status", "dueAt"] {})]

def migration002 : MigrationDefinition DocumentCall where
  version := "002"
  name := "member-auth"
  rollbackNotes :=
    ["Drop the members loginIdentifier unique sparse index only after member self-service login is disabled or replaced.",
      "Unset members loginIdentifier, passwordHash, passwordUpdatedAt, lastLoginAt, and authStatus only after confirming no member tokens or login flows depend on them.",
      "Keep member documents and borrowing history intact; rollback must not delete members or borrowings.",
      "Drop the borrowings memberId/status/dueAt index only after confirming member self-service borrowing queries no longer use it."]
  up _ := createIndexes migration002Indexes

def authIndexes : List (String × Index) :=
  [("auth_identifiers", ascending ["normalizedIdentifier"]
      { unique := true, name := some "uq_auth_identifier_normalized" }),
    ("auth_identifiers", ascending ["subjectType", "subjectId", "status"]
      { name := some "ix_auth_identifier_subject_status" }),
    ("auth_identifiers", ⟨[("status", .ascending), ("updatedAt", .descending)],
      { name := some "ix_auth_identifier_status_updated" }⟩),
    ("auth_identifiers", ascending ["pendingOperationId", "status"]
      { sparse := true, name := some "ix_auth_identifier_pending_operation" }),
    ("auth_identifiers", ascending ["activationGateOperationId", "status"]
      { sparse := true, name := some "ix_auth_identifier_activation_gate" }),
    ("auth_identifiers", ascending ["lastOperationId"]
      { sparse := true, name := some "ix_auth_identifier_last_operation" }),
    ("auth_identifier_operations", ascending ["operationId"]
      { unique := true, name := some "uq_auth_identifier_operation_id" }),
    ("auth_identifier_operations", ascending ["terminalEventId"]
      { unique := true, sparse := true, name := some "uq_auth_identifier_operation_terminal_event" }),
    ("auth_identifier_operations",
      ascending ["operationType", "status", "cleanupStatus", "manifestKeyVersion"]
        { name := some "ix_auth_identifier_operation_repair_key_policy"
          partialFilterExpression :=
            [("operationType", .equals "offline-repair"), ("manifestKeyVersion", .exists true)] }),
    ("auth_identifier_operations", ascending ["status", "leaseExpiresAt"]
      { name := some "ix_auth_identifier_operation_status_lease" }),
    ("auth_identifier_operations", ascending ["leaseOwner", "leaseExpiresAt"]
      { name := some "ix_auth_identifier_operation_owner_lease" }),
    ("auth_identifier_operations", ⟨[("createdAt", .descending)],
      { name := some "ix_auth_identifier_operation_created" }⟩),
    ("auth_identifier_operations", ascending ["expiresAt"]
      { expireAfterSeconds := some 0, name := some "ttl_auth_identifier_operation" }),
    ("auth_identifier_repair_batches", ascending ["parentOperationId", "batchNumber"]
      { unique := true, name := some "uq_auth_identifier_repair_batch_checkpoint" }),
    ("auth_identifier_repair_batches", ascending ["parentOperationId", "status"]
      { name := some "ix_auth_identifier_repair_batch_parent_status" }),
    ("auth_identifier_repair_batches", ascending ["expiresAt"]
      { expireAfterSeconds := some 0, name := some "ttl_auth_identifier_repair_batch" }),
    ("refresh_token_families", ascending ["familyId"]
      { unique := true, name := some "uq_refresh_token_family_id" }),
    ("refresh_token_families", ascending ["currentTokenHash"]
      { unique := true, sparse := true, name := some "uq_refresh_token_family_current_hash" }),
    ("refresh_token_families", ascending ["subjectType", "subjectId", "status"]
      { name := some "ix_refresh_token_family_subject_status" }),
    ("refresh_token_families", ascending ["lastRotationOperationId"]
      { sparse := true, name := some "ix_refresh_token_family_last_rotation" }),
    ("refresh_token_families", ascending ["expiresAt"]
      { expireAfterSeconds := some 0, name := some "ttl_refresh_token_family" }),
    ("refresh_token_replay_markers", ascending ["tokenHash"]
      { unique := true, name := some "uq_refresh_replay_marker_token_hash" }),
    ("refresh_token_replay_markers", ascending ["rotationOperationId"]
      { unique := true, name := some "uq_refresh_replay_marker_rotation_operation" }),
    ("refresh_token_replay_markers", ascending ["familyId", "expiresAt"]
      { name := some "ix_refresh_replay_marker_family_expiry" }),
    ("refresh_token_replay_markers", ascending ["status", "leaseExpiresAt"]
      { name := some "ix_refresh_replay_marker_status_lease" }),
    ("refresh_token_replay_markers", ascending ["expiresAt"]
      { expireAfterSeconds := some 0, name := some "ttl_refresh_replay_marker" }),
    ("auth_throttle_buckets", ascending ["dimension", "keyVersion", "bucketKey"]
      { unique := true, name := some "uq_auth_throttle_bucket_dimension_key" }),
    ("auth_throttle_buckets", ascending ["expiresAt"]
      { expireAfterSeconds := some 0, name := some "ttl_auth_throttle_bucket" }),
    ("auth_throttle_buckets", ascending ["dimension", "expiresAt"]
      { name := some "ix_auth_throttle_bucket_dimension_expiry" }),
    ("auth_throttle_buckets", ascending ["keyVersion", "expiresAt"]
      { name := some "ix_auth_throttle_bucket_key_version_expiry" }),
    ("security_activity_events", ascending ["eventId"]
      { unique := true, sparse := true, name := some "uq_security_activity_event_id" }),
    ("security_activity_events", ⟨[("createdAt", .descending)],
      { name := some "ix_security_activity_created" }⟩),
    ("security_activity_events", ⟨[("eventType", .ascending), ("createdAt", .descending)],
      { name := some "ix_security_activity_type_created" }⟩),
    ("security_activity_events",
      ⟨[("actorType", .ascending), ("actorId", .ascending), ("createdAt", .descending)],
        { name := some "ix_security_activity_actor_created" }⟩),
    ("security_activity_events",
      ⟨[("subjectType", .ascending), ("subjectId", .ascending), ("createdAt", .descending)],
        { name := some "ix_security_activity_subject_created" }⟩)]

def createAuthIndexes : Handler DocumentCall Unit := createIndexes authIndexes

/-- The backfill, which issues its calls outside of the session. -/
def backfillAuthIdentifiers (env : Migrations.Environment) (migrationStartedAt : Date) :
    Handler DocumentCall Unit :=
  Action.lift (fun op => .find none (.inr (.inr op))) (fun _ => .driver ⟨false, ""⟩)
    (Migrations.backfillAuthIdentifiers env migrationStartedAt)

def staffIndexes : List (String × Index) :=
  [("staffusers", ascending ["identityProvider", "identitySubject"] { unique := true, sparse := true }),
    ("staffusers", ascending ["status", "roles"] {})]

def memberIndexes : List (String × Index) :=
  [("members", ascending ["identityProvider", "identitySubject"] { unique := true, sparse := true }),
    ("members", ascending ["authStatus"] {}),
    ("members", ascending ["status", "membershipTypeId"] {})]

def migration003 (env : Migrations.Environment) : MigrationDefinition DocumentCall where
  version := "003"
  name := "auth-roles-permissions"
  rollbackNotes :=
    ["Legacy refresh-family revocation is irreversible: rollback must never restore currentTokenHash, previousTokenHash, or reactivate sessions revoked with security-upgrade-reauth.",
      "Remove only auth_identifiers whose createdBy is " ++ Migrations.MIGRATION_ACTOR ++
        ", and only after verifying the referenced account still owns the original normalized identifier; never rewrite account, borrowing, staff-action, or security-event history.",
      "Drop identifier, operation, repair-batch, throttle, and replay-marker indexes only after all upgraded authentication writers and reconciliation workers are disabled.",
      "Drop authVersion, passwordUpdatedAt, and identity-link fields only after all upgraded access credentials have expired or been revoked.",
      "Drop security_activity_events indexes and collection only after audit review requirements are replaced by another durable activity source."]
  up _ := do
    let migrationStartedAt ← perform (.draw .now)
    updateMany "refresh_token_families" [("status", .equals "active")]
      [.set "status" (.string "revoked"), .set "revokedAt" (.date migrationStartedAt),
        .set "revokedReason" (.string "security-upgrade-reauth"), .unset "currentTokenHash",
        .unset "previousTokenHash"]
    updateMany "refresh_token_families" [] [.unset "currentTokenHash", .unset "previousTokenHash"]
    updateMany "staffusers" [("authVersion", .exists false)] [.set "authVersion" (.number 0)]
    updateMany "staffusers" [("passwordHash", .exists true), ("passwordUpdatedAt", .exists false)]
      [.set "passwordUpdatedAt" (.date migrationStartedAt)]
    createIndexes staffIndexes
    updateMany "members" [("authVersion", .exists false)] [.set "authVersion" (.number 0)]
    createIndexes memberIndexes
    createAuthIndexes
    backfillAuthIdentifiers env migrationStartedAt

def AUTH_MIGRATION_REQUIRED_INDEXES : List (String × List String) :=
  [("auth_identifiers",
      ["uq_auth_identifier_normalized", "ix_auth_identifier_pending_operation",
        "ix_auth_identifier_activation_gate"]),
    ("auth_identifier_operations",
      ["uq_auth_identifier_operation_id", "uq_auth_identifier_operation_terminal_event",
        "ix_auth_identifier_operation_repair_key_policy",
        "ix_auth_identifier_operation_status_lease", "ttl_auth_identifier_operation"]),
    ("auth_identifier_repair_batches",
      ["uq_auth_identifier_repair_batch_checkpoint",
        "ix_auth_identifier_repair_batch_parent_status", "ttl_auth_identifier_repair_batch"]),
    ("refresh_token_families",
      ["uq_refresh_token_family_id", "uq_refresh_token_family_current_hash",
        "ix_refresh_token_family_last_rotation", "ttl_refresh_token_family"]),
    ("refresh_token_replay_markers",
      ["uq_refresh_replay_marker_token_hash", "uq_refresh_replay_marker_rotation_operation",
        "ix_refresh_replay_marker_status_lease", "ttl_refresh_replay_marker"]),
    ("auth_throttle_buckets",
      ["uq_auth_throttle_bucket_dimension_key", "ix_auth_throttle_bucket_key_version_expiry",
        "ttl_auth_throttle_bucket"]),
    ("security_activity_events",
      ["uq_security_activity_event_id", "ix_security_activity_created"])]

section Missing

variable {U : Type → Type}

/-- The names of the indexes on a collection; a collection that is missing has none. -/
def findIndexNames (collectionName : String) : Handler U (List String) :=
  tryCatch (do
    let indexes ← perform (.find none (.inl (.listIndexes collectionName)))
    return (indexes.map (·.name)).filter fun name => decide (name ≠ "")) fun _ => return []

def findMissingOf (collectionName : String) (requiredNames : List String) :
    Handler U (List String) := do
  let actualNames ← findIndexNames collectionName
  let missing := requiredNames.filter fun requiredName => decide (requiredName ∉ actualNames)
  return missing.map fun requiredName => collectionName ++ "." ++ requiredName

def findMissingAuthMigrationIndexes : Handler U (List String) := do
  let missing ← AUTH_MIGRATION_REQUIRED_INDEXES.mapM fun required =>
    findMissingOf required.1 required.2
  return missing.flatten

end Missing

end Migrate
