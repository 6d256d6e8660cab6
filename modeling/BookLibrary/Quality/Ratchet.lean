import BookLibrary.Quality.CoverageGate
import BookLibrary.Quality.TestRuns

/-!
# The coverage ratchet

A run of the quality report measures the coverage of a stream, holds it to the baseline that is
stored for its scope and, when it is told to and the gate passes, stores the greater of the two.
Runs follow one another on one file of baselines.
-/

namespace Quality

open Documents Text

inductive CoverageMetricName where
  | statements | branches | functions | lines
  deriving DecidableEq

def CoverageMetricName.text : CoverageMetricName → String
  | .statements => "statements"
  | .branches => "branches"
  | .functions => "functions"
  | .lines => "lines"

def metricNames : List CoverageMetricName := [.statements, .branches, .functions, .lines]

structure CoverageMetric where
  total : ℚ
  covered : ℚ
  skipped : ℚ
  pct : ℚ

abbrev CoverageMinimums := CoverageMetricName → ℚ

structure CoverageReport where
  scope : ChangedLineCoverageScope
  files : ℕ
  metrics : CoverageMetricName → CoverageMetric

structure CoverageBaselineFile where
  backend : CoverageMinimums
  frontend : Option CoverageMinimums

inductive QualityStream where
  | backend | frontendUnit | frontendE2e
  deriving DecidableEq

def QualityStream.text : QualityStream → String
  | .backend => "backend"
  | .frontendUnit => "frontend-unit"
  | .frontendE2e => "frontend-e2e"

def QualityStream.scope : QualityStream → ChangedLineCoverageScope
  | .backend => .backend
  | .frontendUnit | .frontendE2e => .frontend

section Coverage

variable (round : ℚ → ℚ)

/-- `Math.floor(((1000 * 100 * covered) / total) / 10) / 100` -/
def expectedPct (covered total : ℚ) : ℚ :=
  if 0 < total then
    round ((⌊round (round (round (100000 * covered) / total) / 10)⌋ : ℚ) / 100)
  else 100

def isCoverageMetric (metric : CoverageMetric) : Bool :=
  [metric.total, metric.covered, metric.skipped, metric.pct].all (fun number => decide (0 ≤ number)) &&
    decide (metric.covered ≤ metric.total) && decide (metric.skipped ≤ metric.total) &&
    decide (metric.covered + metric.skipped ≤ metric.total) &&
    decide (metric.pct = expectedPct round metric.covered metric.total)

def readCoverageMetric : PlainData ℚ → Option CoverageMetric
  | .object metric =>
    match field metric "total", field metric "covered", field metric "skipped", field metric "pct" with
    | .number total, .number covered, .number skipped, .number pct =>
      let read : CoverageMetric := ⟨total, covered, skipped, pct⟩
      if isCoverageMetric round read then some read else none
    | _, _, _, _ => none
  | _ => none

def parseCoverageSummary (raw : PlainData ℚ) (scope : ChangedLineCoverageScope) :
    Except String CoverageReport :=
  match raw with
  | .object entries =>
    match field entries "total" with
    | .object total =>
      let read (metric : CoverageMetricName) := readCoverageMetric round (field total metric.text)
      match read .statements, read .branches, read .functions, read .lines with
      | some statements, some branches, some functions, some lines =>
        .ok
          { scope := scope
            files := (entries.filter fun entry => entry.1 != "total").length
            metrics := fun
              | .statements => statements
              | .branches => branches
              | .functions => functions
              | .lines => lines }
      | _, _, _, _ => .error "invalid-coverage-summary"
    | _ => .error "invalid-coverage-summary"
  | _ => .error "invalid-coverage-summary"

structure CoverageFailure where
  metric : CoverageMetricName
  actual : ℚ
  required : ℚ

def evaluateCoverage (report : CoverageReport) (minimums : CoverageMinimums) :
    List CoverageFailure :=
  metricNames.flatMap fun metric =>
    let actual := (report.metrics metric).pct
    let required := minimums metric
    if actual < required then [⟨metric, actual, required⟩] else []

def ratchetCoverageBaseline (current : Option CoverageMinimums) (measured : CoverageMinimums) :
    CoverageMinimums := fun metric =>
  max ((current.map (· metric)).getD 0) (measured metric)

def coverageMinimums (report : CoverageReport) : CoverageMinimums := fun metric =>
  (report.metrics metric).pct

end Coverage

section Gate

/-- What the evaluation of a test run looks at: the suites are those of Jest and Vitest, the errors
those of Playwright. -/
structure EvaluatedRun where
  counts : TestRunCounts
  failedSuites : Option ℕ
  globalErrors : Option (List String)

/-- The reasons against a run, and the warnings. -/
def evaluateTestRun (summary : EvaluatedRun) : List String × List String :=
  ((if summary.counts.passed + summary.counts.flaky + summary.counts.failed = 0 then ["zero-tests"]
      else []) ++
    (if 0 < summary.counts.failed then ["final-failures:" ++ toString summary.counts.failed]
      else []) ++
    (match summary.failedSuites with
      | some failed => if 0 < failed then ["failed-suites:" ++ toString failed] else []
      | none => []) ++
    (match summary.globalErrors with
      | some errors =>
        if errors ≠ [] then ["global-errors:" ++ toString errors.length] else []
      | none => []),
    if 0 < summary.counts.flaky then ["flaky-tests:" ++ toString summary.counts.flaky] else [])

inductive ProducerOutcome where
  | success | failure | cancelled | skipped
  deriving DecidableEq

def ProducerOutcome.text : ProducerOutcome → String
  | .success => "success"
  | .failure => "failure"
  | .cancelled => "cancelled"
  | .skipped => "skipped"

structure QualityGate where
  passed : Bool
  reasons : List String
  warnings : List String

/-- What a run was given, read. -/
structure QualityInputs where
  producerOutcomes : List (String × ProducerOutcome)
  coverage : Option CoverageReport
  changedLineCoverage : Option ChangedCoverageGate
  unitTests : Option EvaluatedRun
  e2eTests : Option EvaluatedRun

def baselineOf (baselines : CoverageBaselineFile) : QualityStream → Option CoverageMinimums
  | .backend => some baselines.backend
  | .frontendUnit | .frontendE2e => baselines.frontend

variable (numberText : ℚ → String)

def coverageReasons (stream : QualityStream) (baselines : CoverageBaselineFile)
    (allowMissingCoverageBaseline : Bool) (coverage : CoverageReport) : List String :=
  match baselineOf baselines stream with
  | none => if allowMissingCoverageBaseline then [] else ["missing-coverage-baseline"]
  | some baseline => (evaluateCoverage coverage baseline).map fun failure =>
    "coverage:" ++ failure.metric.text ++ ":" ++ numberText failure.actual ++ "<" ++
      numberText failure.required

def changedLineReasons (gate : ChangedCoverageGate) : List String :=
  if gate.passed then []
  else ("changed-line-coverage:" ++ numberText gate.pct ++ "<" ++ numberText gate.minimum) ::
    gate.missingFiles.map fun path =>
      "changed-line-coverage:missing-lcov:" ++ String.ofList path

def testReasons (name : String) (summary : Option EvaluatedRun) : List String × List String :=
  match summary with
  | none => ([], [])
  | some summary =>
    let evaluation := evaluateTestRun summary
    (evaluation.1.map fun reason => name ++ ":" ++ reason,
      evaluation.2.map fun warning => name ++ ":" ++ warning)

def evaluateGate (stream : QualityStream) (inputs : QualityInputs)
    (baselines : CoverageBaselineFile) (allowMissingCoverageBaseline : Bool) : QualityGate :=
  let unitTests := testReasons "unit-tests" inputs.unitTests
  let e2eTests := testReasons "e2e-tests" inputs.e2eTests
  let reasons :=
    ((inputs.producerOutcomes.filter fun outcome => outcome.2 ≠ .success).map fun outcome =>
      "producer:" ++ outcome.1 ++ ":" ++ outcome.2.text) ++
    ((inputs.coverage.map (coverageReasons numberText stream baselines
      allowMissingCoverageBaseline)).getD []) ++
    ((inputs.changedLineCoverage.map (changedLineReasons numberText)).getD []) ++
    unitTests.1 ++ e2eTests.1
  { passed := reasons.isEmpty
    reasons := reasons
    warnings := unitTests.2 ++ e2eTests.2 }

end Gate

section Runs

/-- One call of the script: its options, and what it reads beside the baselines. -/
structure QualityRun where
  stream : QualityStream
  writeBaseline : Bool
  checkOnly : Bool
  expectedFiles : Option ℕ
  coverage : Option (PlainData ℚ)
  producerOutcomes : List (String × ProducerOutcome)
  changedLineCoverage : Option (Except String ChangedCoverageGate)
  unitTests : Option (Except String EvaluatedRun)
  e2eTests : Option (Except String EvaluatedRun)

/-- The inputs that a stream takes and the options that go together. -/
def assertInputs (run : QualityRun) : Except String Unit := do
  let takesCoverage := run.stream != .frontendE2e
  if run.coverage.isSome != takesCoverage then throw (run.stream.text ++ ":invalid-coverage")
  if run.unitTests.isSome != takesCoverage then throw (run.stream.text ++ ":invalid-unitTests")
  if run.e2eTests.isSome != (run.stream != .frontendUnit) then
    throw (run.stream.text ++ ":invalid-e2eTests")
  if run.writeBaseline && run.stream == .frontendE2e then
    throw (run.stream.text ++ ":baseline-not-supported")
  if run.expectedFiles.isSome && run.stream != .backend then
    throw (run.stream.text ++ ":invalid-expected-files")
  if run.changedLineCoverage.isSome && run.stream == .frontendE2e then
    throw (run.stream.text ++ ":invalid-changed-line-input")

variable (round : ℚ → ℚ) (numberText : ℚ → String)

/-- The inputs of the gate, or the first error among them. -/
def QualityRun.read (run : QualityRun) : Except String QualityInputs := do
  assertInputs run
  let coverage ← run.coverage.mapM fun raw => parseCoverageSummary round raw run.stream.scope
  if run.expectedFiles.isSome && run.expectedFiles != coverage.map (·.files) then
    throw (run.stream.text ++ "-source-denominator-mismatch")
  let changedLineCoverage ← run.changedLineCoverage.mapM id
  let unitTests ← run.unitTests.mapM id
  let e2eTests ← run.e2eTests.mapM id
  return ⟨run.producerOutcomes, coverage, changedLineCoverage, unitTests, e2eTests⟩

def nextBaselines (stream : QualityStream) (baselines : CoverageBaselineFile)
    (coverage : CoverageReport) : CoverageBaselineFile :=
  if stream = .backend then
    { baselines with
      backend := ratchetCoverageBaseline (some baselines.backend) (coverageMinimums coverage) }
  else
    { baselines with
      frontend := some (ratchetCoverageBaseline baselines.frontend (coverageMinimums coverage)) }

/-- The last `catch` of the script. -/
def prefixed (stream : QualityStream) (message : String) : String :=
  if startsWith (stream.text ++ ":") message.toList then message else stream.text ++ ":" ++ message

/-- The gate of the run, or its error, and the baselines that it leaves. -/
def runQualityReport (run : QualityRun) (baselines : CoverageBaselineFile) :
    Except String (QualityInputs × QualityGate) × CoverageBaselineFile :=
  match run.read round with
  | .error message => (.error (prefixed run.stream message), baselines)
  | .ok inputs =>
    let gate := evaluateGate numberText run.stream inputs baselines run.writeBaseline
    let written := match inputs.coverage with
      | some coverage =>
        if !run.checkOnly && run.writeBaseline && gate.passed then
          nextBaselines run.stream baselines coverage
        else baselines
      | none => baselines
    (if gate.passed then .ok (inputs, gate)
      else .error (run.stream.text ++ ":quality-gate-failed:" ++ String.intercalate "," gate.reasons),
      written)

end Runs

section Ratchet

variable {round : ℚ → ℚ} {numberText : ℚ → String} {run : QualityRun}
  {baselines : CoverageBaselineFile} {inputs : QualityInputs} {gate : QualityGate}
  {coverage : CoverageReport}

/-- No minimum of the one is above that of the other. -/
structure Below (baselines baselines' : CoverageBaselineFile) : Prop where
  backend : baselines.backend ≤ baselines'.backend
  frontend : ∀ minimums ∈ baselines.frontend, ∃ minimums' ∈ baselines'.frontend,
    minimums ≤ minimums'

theorem Below.refl (baselines : CoverageBaselineFile) : Below baselines baselines :=
  ⟨le_rfl, fun minimums h => ⟨minimums, h, le_rfl⟩⟩

theorem Below.trans {baselines' baselines'' : CoverageBaselineFile} (h : Below baselines baselines')
    (h' : Below baselines' baselines'') : Below baselines baselines'' := by
  refine ⟨h.backend.trans h'.backend, fun minimums hm => ?_⟩
  obtain ⟨minimums', hm', hle⟩ := h.frontend minimums hm
  obtain ⟨minimums'', hm'', hle'⟩ := h'.frontend minimums' hm'
  exact ⟨minimums'', hm'', hle.trans hle'⟩

theorem Below.baselineOf {baselines' : CoverageBaselineFile} (h : Below baselines baselines')
    {stream : QualityStream} {minimums : CoverageMinimums}
    (hm : baselineOf baselines stream = some minimums) :
    ∃ minimums', Quality.baselineOf baselines' stream = some minimums' ∧ minimums ≤ minimums' := by
  cases stream with
  | backend =>
    obtain rfl := Option.some.inj hm
    exact ⟨_, rfl, h.backend⟩
  | frontendUnit => exact h.frontend minimums hm
  | frontendE2e => exact h.frontend minimums hm

theorem baselineOf_congr {stream stream' : QualityStream} (h : stream.scope = stream'.scope) :
    baselineOf baselines stream = baselineOf baselines stream' := by
  cases stream <;> cases stream' <;> first | rfl | cases h

theorem ratchet_ge (current : CoverageMinimums) (measured : CoverageMinimums) :
    current ≤ ratchetCoverageBaseline (some current) measured := fun _ => le_max_left _ _

/-- The ratchet stores what is measured, unless it is below what is stored. -/
theorem ratchet_eq {current : Option CoverageMinimums} {measured : CoverageMinimums}
    (hpos : 0 ≤ measured) (hle : ∀ minimums ∈ current, minimums ≤ measured) :
    ratchetCoverageBaseline current measured = measured := by
  funext metric
  rw [ratchetCoverageBaseline, max_eq_right]
  cases current with
  | none => exact hpos metric
  | some minimums => exact hle minimums rfl metric

theorem below_nextBaselines (stream : QualityStream) :
    Below baselines (nextBaselines stream baselines coverage) := by
  rw [nextBaselines]
  by_cases h : stream = .backend
  · rw [if_pos h]
    exact ⟨ratchet_ge _ _, fun minimums hm => ⟨minimums, hm, le_rfl⟩⟩
  · rw [if_neg h]
    refine ⟨le_rfl, fun minimums hm => ⟨_, rfl, ?_⟩⟩
    rw [Option.mem_def.mp hm]
    exact ratchet_ge _ _

/-- A run leaves the baselines as they are, or raises those of its scope after a passed gate. -/
theorem runQualityReport_cases (run : QualityRun) (baselines : CoverageBaselineFile) :
    (runQualityReport round numberText run baselines).2 = baselines ∨
      ∃ coverage, (runQualityReport round numberText run baselines).2 =
        nextBaselines run.stream baselines coverage := by
  rw [runQualityReport]
  cases run.read round with
  | error message => exact .inl rfl
  | ok inputs =>
    simp only
    cases inputs.coverage with
    | none => exact .inl rfl
    | some coverage =>
      simp only
      split
      · exact .inr ⟨coverage, rfl⟩
      · exact .inl rfl

theorem below_run (run : QualityRun) (baselines : CoverageBaselineFile) :
    Below baselines (runQualityReport round numberText run baselines).2 := by
  obtain h | ⟨coverage, h⟩ := runQualityReport_cases run baselines
  · rw [h]
    exact .refl _
  · rw [h]
    exact below_nextBaselines _

/-- The baselines after some runs. -/
def afterRuns (round : ℚ → ℚ) (numberText : ℚ → String) (runs : List QualityRun)
    (baselines : CoverageBaselineFile) : CoverageBaselineFile :=
  runs.foldl (fun baselines run => (runQualityReport round numberText run baselines).2) baselines

theorem below_afterRuns (runs : List QualityRun) (baselines : CoverageBaselineFile) :
    Below baselines (afterRuns round numberText runs baselines) := by
  induction runs generalizing baselines with
  | nil => exact .refl _
  | cons run runs ih => exact (below_run run baselines).trans (ih _)

theorem runQualityReport_ok
    (h : (runQualityReport round numberText run baselines).1 = .ok (inputs, gate)) :
    run.read round = .ok inputs ∧
      gate = evaluateGate numberText run.stream inputs baselines run.writeBaseline ∧
      gate.passed = true := by
  rw [runQualityReport] at h
  cases hread : run.read round with
  | error message =>
    rw [hread] at h
    cases h
  | ok read =>
    rw [hread] at h
    simp only at h
    split at h
    · next hpassed =>
      obtain ⟨rfl, rfl⟩ := Prod.mk.inj (Except.ok.inj h)
      exact ⟨rfl, rfl, hpassed⟩
    · cases h

/-- A gate that passes has no reason against the coverage. -/
theorem le_of_passed (hpassed : (evaluateGate numberText run.stream inputs baselines
      run.writeBaseline).passed = true) (hcoverage : inputs.coverage = some coverage)
    {minimums : CoverageMinimums} (hm : baselineOf baselines run.stream = some minimums) :
    minimums ≤ coverageMinimums coverage := by
  intro metric
  simp only [evaluateGate, List.isEmpty_iff, List.append_eq_nil_iff, hcoverage, Option.map_some,
    Option.getD_some, coverageReasons, hm, List.map_eq_nil_iff, evaluateCoverage,
    List.flatMap_eq_nil_iff] at hpassed
  have hmetric : metric ∈ metricNames := by cases metric <;> decide
  have hnone := hpassed.1.1.1.2 metric hmetric
  by_contra hlt
  have hless : (coverage.metrics metric).pct < minimums metric := lt_of_not_ge hlt
  rw [if_pos hless] at hnone
  cases hnone

theorem readCoverageMetric_nonneg {raw : PlainData ℚ} {metric : CoverageMetric}
    (h : readCoverageMetric round raw = some metric) : 0 ≤ metric.pct := by
  cases raw with
  | undefined | null | bool | number | string | array => cases h
  | object entries =>
    simp only [readCoverageMetric] at h
    split at h
    · split at h
      · next hmetric =>
        obtain rfl := Option.some.inj h
        simp only [isCoverageMetric, List.all_cons, Bool.and_eq_true, decide_eq_true_eq] at hmetric
        exact hmetric.1.1.1.1.2.2.2.1
      · cases h
    · cases h

theorem parseCoverageSummary_nonneg {raw : PlainData ℚ} {scope : ChangedLineCoverageScope}
    (h : parseCoverageSummary round raw scope = .ok coverage) : 0 ≤ coverageMinimums coverage := by
  cases raw with
  | undefined | null | bool | number | string | array => cases h
  | object entries =>
    simp only [parseCoverageSummary] at h
    split at h
    · split at h
      · next statements branches functions lines hs hb hf hl =>
        obtain rfl := Except.ok.inj h
        intro metric
        cases metric with
        | statements => exact readCoverageMetric_nonneg hs
        | branches => exact readCoverageMetric_nonneg hb
        | functions => exact readCoverageMetric_nonneg hf
        | lines => exact readCoverageMetric_nonneg hl
      · cases h
    · cases h

theorem bind_ok {α β : Type} {x : Except String α} {f : α → Except String β} {b : β}
    (h : (x >>= f) = .ok b) : ∃ a, x = .ok a ∧ f a = .ok b := by
  cases x with
  | error message => cases h
  | ok a => exact ⟨a, rfl, h⟩

/-- The coverage of a run is that of a summary. -/
theorem read_coverage (h : run.read round = .ok inputs) (hcoverage : inputs.coverage = some coverage) :
    0 ≤ coverageMinimums coverage := by
  obtain ⟨_, -, h⟩ := bind_ok h
  obtain ⟨parsed, hparsed, h⟩ := bind_ok h
  have hinputs : inputs.coverage = parsed := by
    by_cases hfiles : (run.expectedFiles.isSome && run.expectedFiles != parsed.map (·.files)) = true
    · rw [if_pos hfiles] at h
      cases h
    · rw [if_neg hfiles] at h
      obtain ⟨_, -, h⟩ := bind_ok h
      obtain ⟨_, -, h⟩ := bind_ok h
      obtain ⟨_, -, h⟩ := bind_ok h
      exact congrArg QualityInputs.coverage (Except.ok.inj h).symm
  rw [hinputs] at hcoverage
  subst hcoverage
  cases hraw : run.coverage with
  | none =>
    rw [hraw] at hparsed
    cases hparsed
  | some raw =>
    rw [hraw] at hparsed
    obtain ⟨report, hreport, heq⟩ := bind_ok hparsed
    obtain rfl := Option.some.inj (Except.ok.inj heq)
    exact parseCoverageSummary_nonneg hreport

end Ratchet

/-- Over any sequence of runs no minimum falls. A run that passes is not below what is stored for
its scope; if it writes, exactly what it measured is stored then, and no later run of that scope
passes with less. -/
theorem ratchet_holds (round : ℚ → ℚ) (numberText : ℚ → String) (baselines : CoverageBaselineFile)
    (runs : List QualityRun) :
    Below baselines (afterRuns round numberText runs baselines) ∧
      ∀ run inputs gate coverage,
        (runQualityReport round numberText run (afterRuns round numberText runs baselines)).1 =
          .ok (inputs, gate) → inputs.coverage = some coverage →
        (∀ minimums ∈ baselineOf (afterRuns round numberText runs baselines) run.stream,
          minimums ≤ coverageMinimums coverage) ∧
        (run.writeBaseline = true → run.checkOnly = false → ∀ next,
          next = (runQualityReport round numberText run
            (afterRuns round numberText runs baselines)).2 →
          baselineOf next run.stream = some (coverageMinimums coverage) ∧
          ∀ later run' inputs' gate' coverage', run'.stream.scope = run.stream.scope →
            (runQualityReport round numberText run' (afterRuns round numberText later next)).1 =
              .ok (inputs', gate') → inputs'.coverage = some coverage' →
            coverageMinimums coverage ≤ coverageMinimums coverage') := by
  refine ⟨below_afterRuns runs baselines, fun run inputs gate coverage hok hcoverage => ?_⟩
  generalize afterRuns round numberText runs baselines = stored at hok ⊢
  obtain ⟨hread, hgate, hpassed⟩ := runQualityReport_ok hok
  rw [hgate] at hpassed
  have hle : ∀ minimums ∈ baselineOf stored run.stream, minimums ≤ coverageMinimums coverage :=
    fun minimums hm => le_of_passed hpassed hcoverage hm
  refine ⟨hle, fun hwrite hcheck next hnext => ?_⟩
  have hstored : baselineOf next run.stream = some (coverageMinimums coverage) := by
    have hwritten : next = nextBaselines run.stream stored coverage := by
      rw [hnext, runQualityReport, hread]
      simp only [hcoverage, hcheck, hwrite, Bool.not_false, Bool.true_and]
      rw [hwrite] at hpassed
      rw [if_pos hpassed]
    rw [hwritten, ← ratchet_eq (read_coverage hread hcoverage) hle]
    cases run.stream <;> rfl
  refine ⟨hstored, fun later run' inputs' gate' coverage' hscope hok' hcoverage' => ?_⟩
  obtain ⟨hread', hgate', hpassed'⟩ := runQualityReport_ok hok'
  rw [hgate'] at hpassed'
  obtain ⟨minimums, hm, habove⟩ := (below_afterRuns later next).baselineOf hstored
  rw [← baselineOf_congr hscope] at hm
  exact habove.trans (le_of_passed hpassed' hcoverage' hm)

end Quality
