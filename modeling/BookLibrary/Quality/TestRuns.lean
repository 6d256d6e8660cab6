import BookLibrary.Documents.Maps
import BookLibrary.PlainData.Value
import BookLibrary.Text.Trimming
import Mathlib.Data.Rat.Defs

/-!
# Test run summaries

What `parsePlaywrightResults` makes of a report: the results of all its tests and those of
each project, while it goes down the suites.
-/

namespace Quality

open Documents Text

structure TestRunCounts where
  passed : ℕ
  failed : ℕ
  skipped : ℕ
  flaky : ℕ
  total : ℕ
  deriving DecidableEq

structure TestRunSummary extends TestRunCounts where
  cleanPassRate : ℚ
  eventualPassRate : ℚ
  deriving DecidableEq

/-- The summary of a Playwright run. -/
structure PlaywrightRunSummary extends TestRunSummary where
  globalErrors : List String
  projects : List (String × TestRunSummary)
  deriving DecidableEq

/-- `keyof TestRunCounts` -/
inductive CountKey where
  | passed | failed | skipped | flaky | total
  deriving DecidableEq

def CountKey.text : CountKey → String
  | .passed => "passed"
  | .failed => "failed"
  | .skipped => "skipped"
  | .flaky => "flaky"
  | .total => "total"

namespace TestRunCounts

def none : TestRunCounts := ⟨0, 0, 0, 0, 0⟩

def get (counts : TestRunCounts) : CountKey → ℕ
  | .passed => counts.passed
  | .failed => counts.failed
  | .skipped => counts.skipped
  | .flaky => counts.flaky
  | .total => counts.total

def increment (counts : TestRunCounts) : CountKey → TestRunCounts
  | .passed => { counts with passed := counts.passed + 1 }
  | .failed => { counts with failed := counts.failed + 1 }
  | .skipped => { counts with skipped := counts.skipped + 1 }
  | .flaky => { counts with flaky := counts.flaky + 1 }
  | .total => { counts with total := counts.total + 1 }

end TestRunCounts

def addResult (summary : TestRunCounts) (target : CountKey) : TestRunCounts :=
  (summary.increment target).increment .total

inductive Failure where
  | error (message : String)
  | typeError
  deriving DecidableEq

def invalidTestResults : Failure := .error "invalid-test-results"

section Rates

variable (round : ℚ → ℚ)

/-- `Math.round` of a quotient, where numbers are rounded after an operation. -/
def percentage (numerator denominator : ℕ) : ℚ :=
  if denominator = 0 then 0
  else round ((round (round ((numerator : ℚ) / denominator) * 10000) + 1 / 2).floor / 100)

def createSummary (counts : TestRunCounts) : TestRunSummary :=
  let executed := counts.passed + counts.flaky + counts.failed
  { counts with
    cleanPassRate := percentage round counts.passed executed
    eventualPassRate := percentage round (counts.passed + counts.flaky) executed }

end Rates

section Fields

variable {ν : Type}

/-- The value of a field, `undefined` if there is none. -/
def field (entries : List (String × PlainData ν)) (name : String) : PlainData ν :=
  (entries.lookup name).getD .undefined

/-- The fields of a test that its classification looks at. -/
structure PlaywrightTest where
  projectName : String
  expectedStatus : String
  results : List String
  deriving DecidableEq

/-- `isRecord(result) && typeof result.status === 'string'` -/
def resultStatus : PlainData ν → Option String
  | .object result =>
    match field result "status" with
    | .string status => some status
    | _ => none
  | _ => none

def checkPlaywrightTest (test : List (String × PlainData ν)) : Except Failure PlaywrightTest :=
  match field test "projectName", field test "expectedStatus", field test "results" with
  | .string projectName, .string expectedStatus, .array results =>
    match results.mapM resultStatus with
    | some statuses => return ⟨projectName, expectedStatus, statuses⟩
    | none => throw invalidTestResults
  | _, _, _ => throw invalidTestResults

def PlaywrightTest.classification (test : PlaywrightTest) : CountKey :=
  let finalStatus := test.results.getLast?
  if test.expectedStatus = "skipped" ∨ finalStatus = some "skipped" then .skipped
  else if finalStatus = some "passed" then
    if test.results.length > 1 then .flaky else .passed
  else .failed

def classifyPlaywrightTest (test : List (String × PlainData ν)) : Except Failure CountKey := do
  let test ← checkPlaywrightTest test
  return test.classification

end Fields

/-- The properties that every object inherits. -/
def inheritedNames : List String :=
  ["constructor", "__defineGetter__", "__defineSetter__", "hasOwnProperty", "__lookupGetter__",
    "__lookupSetter__", "isPrototypeOf", "propertyIsEnumerable", "toString", "valueOf", "__proto__",
    "toLocaleString"]

/-- The counts of a visit, those of the projects in the order in which their names came, and
the names of the numbers that results have put on the prototype of all objects. -/
structure Tally where
  summary : TestRunCounts
  projects : List (String × TestRunCounts)
  prototype : List String
  deriving DecidableEq

abbrev Visit := ExceptT Failure (StateM Tally)

section Visits

variable {ν : Type}

/-- Adds a result to `projects[projectName] ??= { passed: 0, ... }`. -/
def addToProject (projectName : String) (classification : CountKey) : Visit Unit := do
  let tally ← get
  match getEntry projectName tally.projects with
  | some project =>
    set { tally with
      projects := setEntry projectName (addResult project classification) tally.projects }
  | none =>
    if projectName ∈ inheritedNames then
      -- the result goes to the inherited object, and no entry is made
      if projectName = "__proto__" then
        set { tally with prototype := tally.prototype ++ [classification.text, "total"] }
    else if projectName ∈ tally.prototype then
      -- a number is inherited, and has no properties to write to
      throw .typeError
    else
      set { tally with
        projects := setEntry projectName (addResult .none classification) tally.projects }

def visitTest : PlainData ν → Visit Unit
  | .object test =>
    match field test "projectName" with
    | .string projectName => do
      let classification ← liftExcept (classifyPlaywrightTest test)
      modify fun tally => { tally with summary := addResult tally.summary classification }
      addToProject projectName classification
    | _ => throw invalidTestResults
  | _ => throw invalidTestResults

def visitSpec : PlainData ν → Visit Unit
  | .object spec =>
    match field spec "tests" with
    | .array tests => forM tests visitTest
    | _ => throw invalidTestResults
  | _ => throw invalidTestResults

mutual

def visitSuites : PlainData ν → Visit Unit
  | .array suites => visitEach suites
  | _ => throw invalidTestResults

/-- The suites of an array, one after the other. -/
def visitEach : List (PlainData ν) → Visit Unit
  | [] => return
  | suite :: suites => do
    visitSuite suite
    visitEach suites

def visitSuite : PlainData ν → Visit Unit
  | .object suite =>
    match field suite "specs", field suite "suites" with
    | .array specs, .array _ | .array specs, .undefined => do
      forM specs visitSpec
      visitNested suite
    | _, _ => throw invalidTestResults
  | _ => throw invalidTestResults

/-- `visitSuites(suite.suites ?? [], ...)` -/
def visitNested : List (String × PlainData ν) → Visit Unit
  | [] => return
  | (key, value) :: entries =>
    if key = "suites" then
      match value with
      | .undefined => return
      | value => visitSuites value
    else visitNested entries

end

end Visits

section Report

variable {ν : Type}

/-- `text.replace(/\s+/g, ' ')` -/
def collapseWhite : Text → Text
  | [] => []
  | c :: rest =>
    if isWhite c then
      if (rest.head?.map isWhite).getD false then collapseWhite rest else ' ' :: collapseWhite rest
    else c :: collapseWhite rest

/-- The diagnostic of an error of the report. -/
def globalError : PlainData ν → Except Failure String
  | .object error =>
    let diagnostic := match field error "message", field error "value" with
      | .string message, _ => some message
      | _, .string value => some value
      | _, _ => none
    match diagnostic with
    | none => throw invalidTestResults
    | some diagnostic =>
      if trim diagnostic.toList = [] then throw invalidTestResults
      else match field error "stack" with
        | .undefined | .string _ =>
          return String.ofList (trim (collapseWhite diagnostic.toList))
        | _ => throw invalidTestResults
  | _ => throw invalidTestResults

/-- The state is what earlier reports have put on the prototype of all objects. -/
abbrev Reporting := ExceptT Failure (StateM (List String))

/-- The visit of the suites, from counts of nothing. -/
def countSuites (suites : PlainData ν) : Reporting Tally := fun prototype =>
  let (result, tally) := (visitSuites suites).run ⟨.none, [], prototype⟩
  (result.map fun _ => tally, tally.prototype)

variable (round : ℚ → ℚ)

def parsePlaywrightResults : PlainData ν → Reporting PlaywrightRunSummary
  | .object report =>
    match field report "suites", field report "errors" with
    | .array suites, .array errors => do
      let globalErrors ← liftExcept (errors.mapM globalError)
      let tally ← countSuites (.array suites)
      return { createSummary round tally.summary with
        globalErrors := globalErrors
        projects := tally.projects.map fun (name, counts) => (name, createSummary round counts) }
    | _, _ => throw invalidTestResults
  | _ => throw invalidTestResults

end Report

end Quality
