import BookLibrary.Interleaving.Machine
import BookLibrary.Documents.Collection

/-!
# The throttle service

`AuthThrottleService` as programs over single database operations. A bucket counts
the attempts of one value in one window; its key is an HMAC of the value under one
version of the correlation key.
-/

namespace AuthThrottle

open Documents Interleaving

inductive AuthThrottleDimension where
  | signInIdentifierFailure | signInSource | refreshFamily | refreshSource
  deriving DecidableEq

def AuthThrottleDimension.text : AuthThrottleDimension → String
  | .signInIdentifierFailure => "sign-in-identifier-failure"
  | .signInSource => "sign-in-source"
  | .refreshFamily => "refresh-family"
  | .refreshSource => "refresh-source"

/-- One entry of `candidates`: what identifies a bucket within its dimension. -/
structure Candidate where
  keyVersion : ℕ
  bucketKey : String
  deriving DecidableEq

structure AuthThrottleBucket where
  dimension : AuthThrottleDimension
  keyVersion : ℕ
  bucketKey : String
  count : ℕ
  windowStartedAt : Date
  expiresAt : Date
  createdAt : Date
  updatedAt : Date
  deriving DecidableEq

namespace AuthThrottleBucket

def candidate (b : AuthThrottleBucket) : Candidate := ⟨b.keyVersion, b.bucketKey⟩

/-- The filter of the first increment; a single candidate makes it that of the raced one. -/
def isLive (dimension : AuthThrottleDimension) (candidates : List Candidate) (now : Date)
    (b : AuthThrottleBucket) : Bool :=
  decide (b.dimension = dimension) && decide (now < b.expiresAt) &&
    decide (b.candidate ∈ candidates)

def increment (now : Date) (b : AuthThrottleBucket) : AuthThrottleBucket :=
  { b with count := b.count + 1, updatedAt := now }

/-- The pipeline of the upsert on a bucket that exists. -/
def roll (now expiresAt : Date) (b : AuthThrottleBucket) : AuthThrottleBucket :=
  if now < b.expiresAt then b.increment now
  else { b with count := 1, windowStartedAt := now, expiresAt := expiresAt, updatedAt := now }

/-- What the pipeline makes of no bucket at all. -/
def start (dimension : AuthThrottleDimension) (current : Candidate) (now expiresAt : Date) :
    AuthThrottleBucket where
  dimension := dimension
  keyVersion := current.keyVersion
  bucketKey := current.bucketKey
  count := 1
  windowStartedAt := now
  expiresAt := expiresAt
  createdAt := now
  updatedAt := now

end AuthThrottleBucket

/-- `clock` is the clock of the database, which only the TTL monitor reads. -/
structure Database where
  buckets : List AuthThrottleBucket
  clock : Date

namespace Database

def empty (clock : Date) : Database := ⟨[], clock⟩

/-- The unique index of the collection. -/
def Indexed (s : Database) : Prop :=
  Unique (fun b => some (b.dimension, b.candidate)) s.buckets

instance (s : Database) : Decidable s.Indexed := by unfold Indexed; infer_instance

/-- Time passes, and the TTL monitor may remove what has expired. -/
structure Elapse (s s' : Database) : Prop where
  clock : s.clock ≤ s'.clock
  buckets : Expire AuthThrottleBucket.expiresAt s'.clock s.buckets s'.buckets

end Database

/-- The upsert: the bucket after it, or error 11000 when another upsert of the same
bucket came first. -/
inductive Upsert where
  | bucket (b : AuthThrottleBucket)
  | duplicateKey
  deriving DecidableEq

/-- The atomic calls of the service, one constructor for each call site. -/
inductive Op : Type → Type where
  | findReferencedVersions (now : Date) : Op (List ℕ)
  | incrementLive (dimension : AuthThrottleDimension) (candidates : List Candidate) (now : Date) :
      Op (Option AuthThrottleBucket)
  | rollBucket (dimension : AuthThrottleDimension) (current : Candidate) (now expiresAt : Date) :
      Op Upsert
  | incrementRaced (dimension : AuthThrottleDimension) (current : Candidate) (now : Date) :
      Op (Option AuthThrottleBucket)

/-- What each call does to the database, the unique index aside. -/
def effect : (β : Type) → Op β → Database → β → Database → Prop
  | _, .findReferencedVersions now, s, r, s' =>
    r = (s.buckets.filter fun b => decide (now < b.expiresAt)).map (·.keyVersion) ∧ s' = s
  | _, .incrementLive dimension candidates now, s, r, s' =>
    ∃ buckets, UpdateGreatest (AuthThrottleBucket.isLive dimension candidates now) (·.keyVersion)
      (AuthThrottleBucket.increment now) s.buckets r buckets ∧ s' = { s with buckets := buckets }
  | _, .rollBucket dimension current now expiresAt, s, r, s' =>
    match r with
    | .bucket b => ∃ buckets, Upserts
        (fun b => decide (b.dimension = dimension) && decide (b.candidate = current))
        (AuthThrottleBucket.roll now expiresAt)
        (AuthThrottleBucket.start dimension current now expiresAt) s.buckets b buckets ∧
        s' = { s with buckets := buckets }
    | .duplicateKey => (∃ b ∈ s.buckets, b.dimension = dimension ∧ b.candidate = current) ∧ s' = s
  | _, .incrementRaced dimension current now, s, r, s' =>
    ∃ buckets, UpdateOne (AuthThrottleBucket.isLive dimension [current] now)
      (AuthThrottleBucket.increment now) s.buckets r buckets ∧ s' = { s with buckets := buckets }

def exec (β : Type) (op : Op β) (s : Database) (b : β) (s' : Database) : Prop :=
  effect β op s b s' ∧ s'.Indexed

inductive Event where
  | missed (dimension : AuthThrottleDimension) (candidates : List Candidate)
  | counted (b : AuthThrottleBucket)

/-- What a call leaves in the journal. -/
def note : (β : Type) → Op β → Option β → List Event
  | _, .findReferencedVersions _, _ => []
  | _, .incrementLive dimension candidates _, r =>
    match r with
    | some (some b) => [.counted b]
    | some none => [.missed dimension candidates]
    | none => []
  | _, .rollBucket .., r =>
    match r with
    | some (.bucket b) => [.counted b]
    | _ => []
  | _, .incrementRaced .., r => r.join.toList.map .counted

inductive GenericSignInFailureCategory where
  | unknown | ambiguous | invalidPassword | inactive | suspended | locked | missingCredential
  deriving DecidableEq

inductive AuthThrottleDenialReason where
  | throttleLimitExceeded | throttleKeyRequired
  deriving DecidableEq

structure AuthThrottleDecision where
  allowed : Bool
  reason : Option AuthThrottleDenialReason
  retryAfterSeconds : Option ℤ
  deriving DecidableEq

structure VersionedSecret where
  version : ℕ
  secret : String

structure ThrottlePolicy where
  limit : ℕ
  windowSeconds : ℕ

/-- The configuration: the keyring, current key first, whose versions the
validation of the configuration keeps apart, and the three policies. -/
structure Settings where
  keyring : List VersionedSecret
  apart : (keyring.map (·.version)).Nodup
  signInIdentifierFailure : ThrottlePolicy
  signInSource : ThrottlePolicy
  refresh : ThrottlePolicy

def Settings.policy (settings : Settings) : AuthThrottleDimension → ThrottlePolicy
  | .signInIdentifierFailure => settings.signInIdentifierFailure
  | .signInSource => settings.signInSource
  | .refreshFamily => settings.refresh
  | .refreshSource => settings.refresh

structure SignInThrottleInput where
  sourceIdentity : String
  normalizedIdentifier : Option String
  failureCategory : Option GenericSignInFailureCategory

structure RefreshThrottleInput where
  sourceIdentity : String
  familyId : Option String

structure ConsumeDimensionInput where
  dimension : AuthThrottleDimension
  value : String

/-- A database call threw. -/
inductive ThrottleFailure where
  | thrown
  deriving DecidableEq

abbrev Throttle := Action Op ThrottleFailure

def call {β : Type} (op : Op β) : Throttle β := Action.perform .thrown op

section Service

variable (hmac : String → String → String) (settings : Settings)

def deriveBucketKey (secret : String) (dimension : AuthThrottleDimension) (value : String) :
    String :=
  hmac secret ("book-library/auth-throttle/v1\x00" ++ dimension.text ++ "\x00" ++ value)

def candidatesFor (keyring : List VersionedSecret) (dimension : AuthThrottleDimension)
    (value : String) : List Candidate :=
  keyring.map fun key => ⟨key.version, deriveBucketKey hmac key.secret dimension value⟩

def allowedDecision : AuthThrottleDecision := ⟨true, none, none⟩

def deniedDecision (reason : AuthThrottleDenialReason) : AuthThrottleDecision :=
  ⟨false, some reason, none⟩

def toDecision (bucket : AuthThrottleBucket) (limit : ℕ) (now : Date) : AuthThrottleDecision :=
  if bucket.count ≤ limit then allowedDecision
  else
    { allowed := false
      reason := some .throttleLimitExceeded
      retryAfterSeconds := some (max 1 ((bucket.expiresAt - now + 999) / 1000)) }

/-- `candidates[0]` is the candidate of the current key. -/
def consumeDimension (input : ConsumeDimensionInput) (current : VersionedSecret)
    (previous : List VersionedSecret) (now : Date) : Throttle AuthThrottleDecision := do
  let policy := settings.policy input.dimension
  let candidates := candidatesFor hmac (current :: previous) input.dimension input.value
  match ← call (.incrementLive input.dimension candidates now) with
  | some existing => return toDecision existing policy.limit now
  | none =>
    let key : Candidate :=
      ⟨current.version, deriveBucketKey hmac current.secret input.dimension input.value⟩
    let expiresAt := now + policy.windowSeconds * 1000
    match ← call (.rollBucket input.dimension key now expiresAt) with
    | .bucket bucket => return toDecision bucket policy.limit now
    | .duplicateKey =>
      match ← call (.incrementRaced input.dimension key now) with
      | some bucket => return toDecision bucket policy.limit now
      | none => return deniedDecision .throttleLimitExceeded

/-- `Promise.all`: every dimension is consumed, whatever becomes of the others. They
are consumed in turn; no two of them share a bucket. -/
def consumeEach (current : VersionedSecret) (previous : List VersionedSecret) (now : Date) :
    List ConsumeDimensionInput → Throttle (List AuthThrottleDecision)
  | [] => return []
  | input :: inputs => do
    let decision ← tryCatch (some <$> consumeDimension hmac settings input current previous now)
      fun _ => return none
    let decisions ← consumeEach current previous now inputs
    match decision with
    | some decision => return decision :: decisions
    | none => throw .thrown

/-- Unexpired buckets refer to configured keys only. -/
def hasEveryReferencedKey (now : Date) : Throttle Bool := do
  let versions ← call (.findReferencedVersions now)
  return versions.all fun version => decide (version ∈ settings.keyring.map (·.version))

def retryAfter (denied : List AuthThrottleDecision) : Option ℤ :=
  (denied.map fun decision => decision.retryAfterSeconds.getD 1).max?

def consumeMany (dimensions : List ConsumeDimensionInput) (now : Date) :
    Throttle AuthThrottleDecision :=
  match settings.keyring with
  | [] => return deniedDecision .throttleKeyRequired
  | current :: previous => do
    if ← hasEveryReferencedKey settings now then
      let decisions ← consumeEach hmac settings current previous now dimensions
      let denied := decisions.filter fun decision => !decision.allowed
      if denied.isEmpty then return allowedDecision
      else
        return {
          allowed := false
          reason := some .throttleLimitExceeded
          retryAfterSeconds := retryAfter denied }
    else return deniedDecision .throttleKeyRequired

def signInDimensions (input : SignInThrottleInput) : List ConsumeDimensionInput :=
  ⟨.signInSource, input.sourceIdentity⟩ ::
    match input.normalizedIdentifier, input.failureCategory with
    | some identifier, some _ =>
      if identifier = "" then [] else [⟨.signInIdentifierFailure, identifier⟩]
    | _, _ => []

def consumeSignInAttempt (input : SignInThrottleInput) (now : Date) :
    Throttle AuthThrottleDecision :=
  consumeMany hmac settings (signInDimensions input) now

/-- Every category of the type is a generic failure. -/
def consumeSignInIdentifierFailure (normalizedIdentifier : String)
    (_failureCategory : GenericSignInFailureCategory) (now : Date) :
    Throttle AuthThrottleDecision :=
  consumeMany hmac settings [⟨.signInIdentifierFailure, normalizedIdentifier⟩] now

def consumeRefreshAttempt (input : RefreshThrottleInput) (now : Date) :
    Throttle AuthThrottleDecision :=
  consumeMany hmac settings
    (⟨.refreshSource, input.sourceIdentity⟩ ::
      match input.familyId with
      | some familyId => if familyId = "" then [] else [⟨.refreshFamily, familyId⟩]
      | none => []) now

/-- One attempt: the dimensions it consumes, and when. -/
structure Attempt where
  dimensions : List ConsumeDimensionInput
  now : Date

/-- The service on one database. -/
def system : System Attempt Op Database (Except ThrottleFailure AuthThrottleDecision) Event where
  body attempt := (consumeMany hmac settings attempt.dimensions attempt.now).run
  exec := exec
  fallible := fun _ _ => True
  env := Database.Elapse
  note := note

end Service

end AuthThrottle
