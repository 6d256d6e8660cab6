import Mathlib.Data.List.Sort
import BookLibrary.Documents.Collection
import BookLibrary.Documents.Maps
import BookLibrary.Transactions.Handlers

/-!
# The migration runner

`runPendingMigrations` and `printStatus` of migrate.ts. What a migration changes it changes
at once; the transaction that the runner opens around it holds its record alone.
-/

namespace Migrate

open Documents Interleaving

inductive Direction where
  | ascending
  | descending
  deriving DecidableEq

def Direction.text : Direction → String
  | .ascending => "1"
  | .descending => "-1"

/-- A condition of a partial index. -/
inductive Condition where
  | equals (value : String)
  | exists (present : Bool)
  deriving DecidableEq

structure IndexOptions where
  unique : Bool := false
  sparse : Bool := false
  name : Option String := none
  expireAfterSeconds : Option ℕ := none
  partialFilterExpression : List (String × Condition) := []
  deriving DecidableEq

structure Index where
  keys : List (String × Direction)
  options : IndexOptions := {}
  deriving DecidableEq

/-- An index without a name is named by the database after its keys. -/
def Index.name (index : Index) : String :=
  index.options.name.getD ("_".intercalate (index.keys.map fun key => key.1 ++ "_" ++ key.2.text))

structure MigrationRecord where
  version : String
  name : String
  rollbackNotes : List String
  appliedAt : Date
  deriving DecidableEq

inductive Document where
  | record (record : MigrationRecord)
  | index (collection : String) (index : Index)
  deriving DecidableEq

inductive Key where
  | version (version : String)
  | index (collection name : String)
  deriving DecidableEq

namespace Document

/-- Records have a unique index by version, which is there before the first is inserted. -/
def key : Document → Key
  | .record r => .version r.version
  | .index collection i => .index collection i.name

def record? : Document → Option MigrationRecord
  | .record r => some r
  | .index .. => none

/-- An index on the collection. -/
def index? (collection : String) : Document → Option Index
  | .record _ => none
  | .index collection' i => if collection' = collection then some i else none

/-- An index on the same keys of the same collection. -/
def hasKeys (collection : String) (keys : List (String × Direction)) : Document → Bool
  | .record _ => false
  | .index collection' i => decide (collection' = collection ∧ i.keys = keys)

end Document

/-- The collection `migration_records`, and the indexes of all collections. -/
abbrev Database := List Document

namespace Database

def findByKey (key : Key) (s : Database) : Option Document := s.find? fun d => decide (d.key = key)

def put (d : Document) (s : Database) : Database :=
  s.filter (fun d' => decide (d'.key ≠ d.key)) ++ [d]

def records (s : Database) : List MigrationRecord := s.filterMap Document.record?

def versions (s : Database) : List String := s.records.map (·.version)

def indexes (collection : String) (s : Database) : List Index :=
  s.filterMap (Document.index? collection)

end Database

inductive Write where
  | insertOne (document : MigrationRecord)
  | createIndex (collection : String) (index : Index)

/-- An index that is there already is left as it is; one of its name or on its keys that is
another is a conflict. -/
def write : Write → Database → Sessions.WriteResult Document
  | .insertOne document, s =>
    match s.findByKey (.version document.version) with
    | some _ => .duplicateKey
    | none => .written [.record document]
  | .createIndex collection index, s =>
    match s.findByKey (.index collection index.name) with
    | some d => if d = .index collection index then .written [d] else .unmatched
    | none =>
      if s.any (·.hasKeys collection index.keys) then .unmatched else .written [.index collection index]

inductive Inspection : Type → Type where
  | findRecords : Inspection (List MigrationRecord)
  | listIndexes (collection : String) : Inspection (List Index)

/-- What is asked of the database; `U` are the calls of the migrations on the documents of
the other collections. -/
abbrev Query (U : Type → Type) (β : Type) : Type := Inspection β ⊕ U β

variable {U : Type → Type}

def answers : (β : Type) → Query U β → Database → β → Prop
  | _, .inl .findRecords, s, r => r = s.records.insertionSort (·.version ≤ ·.version)
  | _, .inl (.listIndexes collection), s, r => r = s.indexes collection
  | _, .inr _, _, _ => True

/-- The keys of documents and of indexes are theirs alone. -/
def schema (U : Type → Type) : Sessions.Schema (Query U) Write Database Document Key where
  key := Document.key
  find := Database.findByKey
  put := Database.put
  indexed s := decide (s.map Document.key).Nodup
  answers := answers
  write := write

structure DriverError where
  isTransient : Bool
  message : String
  deriving DecidableEq

inductive Failure where
  | driver (error : DriverError)
  | duplicateKey
  | indexConflict
  deriving DecidableEq

/-- The error label that makes the driver run a callback again. -/
def Failure.isTransient : Failure → Bool
  | .driver error => error.isTransient
  | _ => false

inductive Draw : Type → Type where
  | startSession : Draw Unit
  | now : Draw Date
  | lastError : Draw DriverError
  | retries : Draw ℕ

/-- A session may not be had. -/
def drawFails : (β : Type) → Draw β → Prop
  | _, .startSession => True
  | _, _ => False

abbrev Op (U : Type → Type) : Type → Type := Sessions.Op (Query U) Write Document Draw

abbrev Handler (U : Type → Type) := Action (Op U) Failure

def errors : Sessions.Errors Draw Failure where
  lastError := .lastError
  raise e := .driver (e.getD ⟨false, ""⟩)

/-- What is remembered of the answers to queries. -/
inductive Sighting where
  | records (records : List MigrationRecord)
  | indexes (collection : String) (indexes : List Index)
  deriving DecidableEq

def seen : (β : Type) → Query U β → β → List Sighting
  | _, .inl .findRecords, r => [.records r]
  | _, .inl (.listIndexes collection), r => [.indexes collection r]
  | _, .inr _, _ => []

abbrev Event := Sessions.Event Sighting Write Document

def perform {β : Type} (op : Op U β) : Handler U β := Sessions.perform errors op

def createIndex (collection : String) (index : Index) : Handler U Unit := do
  match ← perform (.change (.write none (.createIndex collection index))) with
  | .written _ => return
  | _ => throw .indexConflict

def insertOne (session : ℕ) (document : MigrationRecord) : Handler U Unit := do
  match ← perform (.change (.write (some session) (.insertOne document))) with
  | .written _ => return
  | _ => throw .duplicateKey

structure MigrationDefinition (U : Type → Type) where
  version : String
  name : String
  rollbackNotes : List String
  up : (session : ℕ) → Handler U Unit

def MigrationDefinition.record (migration : MigrationDefinition U) (appliedAt : Date) :
    MigrationRecord where
  version := migration.version
  name := migration.name
  rollbackNotes := migration.rollbackNotes
  appliedAt := appliedAt

def recordsIndex : Index where
  keys := [("version", .ascending)]
  options := { unique := true }

/-- A map by version. -/
def getAppliedRecords : Handler U (List (String × MigrationRecord)) := do
  createIndex "migration_records" recordsIndex
  let records ← perform (.find none (.inl .findRecords))
  return records.foldl (fun applied record => setEntry record.version record applied) []

def statusLine (toISOString : Date → String) (applied : List (String × MigrationRecord))
    (migration : MigrationDefinition U) : String :=
  let state := match getEntry migration.version applied with
    | some record => "applied at " ++ toISOString record.appliedAt
    | none => "pending"
  migration.version ++ " " ++ migration.name ++ ": " ++ state

/-- What is printed. -/
def printStatus (toISOString : Date → String) (migrations : List (MigrationDefinition U)) :
    Handler U (List String) := do
  let applied ← getAppliedRecords
  if migrations.isEmpty then
    return ["No migration files found."]
  else
    return migrations.map (statusLine toISOString applied)

/-- One round of the loop, and what it prints. -/
def applyMigration (migration : MigrationDefinition U) : Handler U String := do
  perform (.draw .startSession)
  let retries ← perform (.draw .retries)
  Sessions.withTransaction errors Failure.isTransient (fun session => do
    migration.up session
    let appliedAt ← perform (.draw .now)
    insertOne session (migration.record appliedAt)) retries
  return "Applied " ++ migration.version ++ " " ++ migration.name

def runPendingMigrations (migrations : List (MigrationDefinition U)) : Handler U (List String) := do
  let applied ← getAppliedRecords
  let pending := migrations.filter fun migration => (getEntry migration.version applied).isNone
  if pending.isEmpty then
    return ["No pending migrations."]
  else
    pending.mapM applyMigration

end Migrate
