import BookLibrary.Text.CodeUnits
import BookLibrary.Text.Json
import BookLibrary.Text.Lines
import BookLibrary.Text.Trimming
import Mathlib.Data.Rat.Defs

/-!
# Mutation reports

A report of the five selected files with their mutants, and the checks that it has to pass.
Each check throws the text of what it finds wrong.
-/

namespace Quality

open Text

def SELECTED_SOURCES : List String :=
  ["src/auth/token-session.service.ts",
    "src/auth/auth-identifier-repair.service.ts",
    "src/auth/auth-identifier-reconciliation.service.ts",
    "src/members/members.service.ts",
    "src/borrowings/borrowings.service.ts"]

inductive MutantStatus where
  | killed | timeout | compileError | runtimeError | survived | noCoverage | ignored
  deriving DecidableEq

namespace MutantStatus

def text : MutantStatus → String
  | .killed => "Killed"
  | .timeout => "Timeout"
  | .compileError => "CompileError"
  | .runtimeError => "RuntimeError"
  | .survived => "Survived"
  | .noCoverage => "NoCoverage"
  | .ignored => "Ignored"

/-- `DETECTED_STATUSES` -/
def isDetected : MutantStatus → Bool
  | .killed | .timeout | .compileError | .runtimeError => true
  | _ => false

/-- `UNDETECTED_STATUSES` -/
def isUndetected : MutantStatus → Bool
  | .survived | .noCoverage => true
  | _ => false

end MutantStatus

structure Position where
  line : ℕ
  column : ℕ
  deriving DecidableEq

structure Location where
  startPosition : Position
  endPosition : Position
  deriving DecidableEq

structure Mutant where
  id : String
  mutatorName : String
  replacement : Option String
  status : MutantStatus
  location : Location
  deriving DecidableEq

structure MutatedFile where
  language : String
  source : String
  mutants : List Mutant
  deriving DecidableEq

structure MutationReport where
  schemaVersion : String
  files : List (String × MutatedFile)
  deriving DecidableEq

/-- The file of the report under a path, with nothing in it if there is none. -/
def MutationReport.file (report : MutationReport) (source : String) : MutatedFile :=
  (report.files.lookup source).getD ⟨"", "", []⟩

section Checks

/-! ### Checks -/

def failIf (bad : Prop) [Decidable bad] (message : String) : Except String Unit :=
  if bad then throw message else return

/-- Checks one item after the other; a check sees the items before its own. -/
def checkEach {α : Type} (check : List α → α → Except String Unit) (before : List α) :
    List α → Except String Unit
  | [] => return
  | item :: rest => do
    check before item
    checkEach check (before ++ [item]) rest

def isHex (c : Char) : Bool := ('0' ≤ c && c ≤ '9') || ('a' ≤ c && c ≤ 'f')

/-- `SHA256_PATTERN` -/
def isSha256 (value : String) : Bool := value.toList.length == 64 && value.toList.all isHex

/-- `COMMIT_PATTERN` -/
def isCommit (value : String) : Bool := value.toList.length == 40 && value.toList.all isHex

/-- A text with digits where the shape has `d`, and otherwise the characters of the shape. -/
def hasShape (shape value : Text) : Bool :=
  shape.length == value.length &&
    (shape.zip value).all fun (mark, c) => if mark = 'd' then c.isDigit else c == mark

/-- `ISO_UTC_PATTERN` -/
def isIsoUtc (value : String) : Bool :=
  hasShape "dddd-dd-ddTdd:dd:ddZ".toList value.toList ||
    hasShape "dddd-dd-ddTdd:dd:dd.dddZ".toList value.toList

/-- One or two, and up to two more numbers after full stops. -/
def isSchemaVersion (value : String) : Bool :=
  match value.toList.splitOn '.' with
  | [] => false
  | major :: others =>
    (major == ['1'] || major == ['2']) && decide (others.length ≤ 2) &&
      others.all fun number => !number.isEmpty && number.all Char.isDigit

def requireNonEmptyString (value label : String) : Except String Unit :=
  failIf (trim value.toList = []) (label ++ " must be a non-empty string.")

def requireSha256 (value label : String) : Except String Unit :=
  failIf (isSha256 value = false) (label ++ " must be a 64-character lowercase SHA-256.")

def requireTrackedPath (value label : String) : Except String Unit := do
  requireNonEmptyString value label
  failIf ('\\' ∈ value.toList) (label ++ " must use forward slashes.")
  failIf (value.toList.head? = some '/' ∨ value.toList.getLast? = some '/' ∨
      ∃ part ∈ value.toList.splitOn '/', part = [] ∨ part = ['.'] ∨ part = ['.', '.'])
    (label ++ " must be a normalized repository-relative path.")

def requirePosition (position : Position) (label : String) : Except String Unit := do
  failIf (position.line < 1) (label ++ " location line must be a positive integer.")
  failIf (position.column < 1) (label ++ " location column must be a positive integer.")

def requireLocation (location : Location) (label : String) : Except String Unit := do
  requirePosition location.startPosition (label ++ " start")
  requirePosition location.endPosition (label ++ " end")
  let startsBeforeEnd := location.startPosition.line < location.endPosition.line ∨
    (location.startPosition.line = location.endPosition.line ∧
      location.startPosition.column < location.endPosition.column)
  failIf (¬ startsBeforeEnd) (label ++ " location must have an exclusive end after its start.")

/-- The pieces between the line breaks, each of one character or of two. -/
def splitBreaks : Text → List Text
  | [] => [[]]
  | '\r' :: '\n' :: rest => [] :: splitBreaks rest
  | '\r' :: rest => [] :: splitBreaks rest
  | '\n' :: rest => [] :: splitBreaks rest
  | c :: rest =>
    match splitBreaks rest with
    | [] => [[c]]
    | line :: lines => (c :: line) :: lines

def requirePositionWithin (lines : List Text) (position : Position) (label : String) :
    Except String Unit := do
  failIf (lines.length < position.line) (label ++ " location line exceeds its source.")
  let line := lines.getD (position.line - 1) []
  failIf ((line.flatMap codeUnits).length + 1 < position.column)
    (label ++ " location column exceeds its source.")

def requireLocationWithinSource (location : Location) (sourceText label : String) :
    Except String Unit := do
  let lines := splitBreaks sourceText.toList
  requirePositionWithin lines location.startPosition (label ++ " start")
  requirePositionWithin lines location.endPosition (label ++ " end")

end Checks

def validateMutant (mutant : Mutant) (source sourceText : String) (index : ℕ) :
    Except String Unit := do
  let label := "report.files[" ++ String.ofList (jsonString source.toList) ++ "].mutants[" ++
    toString index ++ "]"
  requireNonEmptyString mutant.id (label ++ ".id")
  requireNonEmptyString mutant.mutatorName (label ++ ".mutatorName")
  requireLocation mutant.location label
  requireLocationWithinSource mutant.location sourceText label

/-- One file of a report; the ids of its mutants are its own. -/
def validateFile (source : String) (file : MutatedFile) : Except String Unit := do
  requireNonEmptyString file.language ("report.files[" ++ source ++ "].language")
  checkEach (fun before mutant => do
    validateMutant mutant source file.source before.length
    failIf (mutant.id ∈ before.map (·.id))
      ("report.files[" ++ source ++ "] contains duplicate mutant id " ++ mutant.id ++ "."))
    [] file.mutants

def validateReport (report : MutationReport) : Except String Unit := do
  failIf (isSchemaVersion report.schemaVersion = false)
    "report.schemaVersion is malformed or unsupported."
  report.files.forM fun file => requireTrackedPath file.1 "report file path"
  failIf (report.files.length ≠ SELECTED_SOURCES.length ∨
      ∃ source ∈ SELECTED_SOURCES, source ∉ report.files.map Prod.fst)
    "report mutated file set must be exactly the five selected files."
  SELECTED_SOURCES.forM fun source => validateFile source (report.file source)

end Quality
