import BookLibrary.Quality.MutationReports
import Mathlib.Algebra.Order.Ring.Rat

/-!
# The mutation policy

The gate over mutation reports. Critical rules name ranges of lines of the selected files, an
allowlist names mutants that are equivalent to the code under a rule, and a baseline holds the
score that the complete profile does not fall below.
-/

namespace Quality

open Text

/-- What the gate takes from its surroundings. Numbers are rounded after a division. -/
structure PolicyEnvironment where
  sha256 : String → String
  sha256_pattern : ∀ text, isSha256 (sha256 text) = true
  dateParse : String → Option ℤ
  round : ℚ → ℚ
  toFixed : ℚ → String

structure CriticalRule where
  id : String
  invariant : String
  source : String
  sourceSha256 : String
  startLine : ℕ
  endLine : ℕ
  startAnchor : String
  endAnchor : String
  deriving DecidableEq

structure CriticalManifest where
  schemaVersion : ℕ
  rules : List CriticalRule
  deriving DecidableEq

structure EquivalentEntry where
  fingerprint : String
  ruleId : String
  sourceSha256 : String
  proof : String
  reviewerModel : String
  reviewerReasoning : String
  reviewedAt : String
  expiresAt : String
  deriving DecidableEq

structure EquivalentAllowlist where
  schemaVersion : ℕ
  entries : List EquivalentEntry
  deriving DecidableEq

structure Baseline where
  schemaVersion : ℕ
  profile : String
  rawCombinedScore : ℚ
  generatedFromCommit : String
  generatedAt : String
  selectedSources : List String
  sourceSha256 : List (String × String)
  deriving DecidableEq

inductive Profile where
  | smoke | complete
  deriving DecidableEq

structure ModuleScore where
  source : String
  detected : ℕ
  undetected : ℕ
  ignored : ℕ
  rawScore : ℚ
  deriving DecidableEq

structure CriticalFinding where
  source : String
  mutantId : String
  status : MutantStatus
  ruleId : String
  fingerprint : String
  manifestLine : ℕ
  equivalent : Bool
  deriving DecidableEq

structure Evaluation where
  profile : Profile
  passed : Bool
  rawCombinedScore : ℚ
  detected : ℕ
  undetected : ℕ
  ignored : ℕ
  moduleScores : List ModuleScore
  criticalFindings : List CriticalFinding
  violations : List String
  deriving DecidableEq

section Manifest

/-! ### The manifest of critical rules -/

def validateRuleShape (rule : CriticalRule) (index : ℕ) : Except String Unit := do
  let label := "manifest.rules[" ++ toString index ++ "]"
  requireNonEmptyString rule.id (label ++ ".id")
  requireNonEmptyString rule.invariant (label ++ ".invariant")
  requireTrackedPath rule.source (label ++ ".source")
  failIf (rule.source ∉ SELECTED_SOURCES)
    (label ++ ".source is not one of the five selected files.")
  requireSha256 rule.sourceSha256 (label ++ ".sourceSha256")
  failIf (rule.startLine < 1) (label ++ ".startLine must be a positive integer.")
  failIf (rule.endLine < 1) (label ++ ".endLine must be a positive integer.")
  failIf (rule.endLine < rule.startLine) (label ++ " range must satisfy startLine <= endLine.")
  requireNonEmptyString rule.startAnchor (label ++ ".startAnchor")
  requireNonEmptyString rule.endAnchor (label ++ ".endAnchor")

def validateManifestShape (manifest : CriticalManifest) : Except String Unit := do
  failIf (manifest.schemaVersion ≠ 1) "manifest.schemaVersion must equal 1."
  failIf (manifest.rules = []) "manifest.rules must be a non-empty array."
  checkEach (fun before rule => do
    validateRuleShape rule before.length
    failIf (rule.id ∈ before.map (·.id)) ("manifest rule id " ++ rule.id ++ " is duplicated."))
    [] manifest.rules
  failIf ((manifest.rules.map (·.source)).dedup.length ≠ SELECTED_SOURCES.length ∨
      ∃ source ∈ SELECTED_SOURCES, source ∉ manifest.rules.map (·.source))
    "manifest must contain at least one rule for exactly the five selected files."

/-- The hash of each file that a rule names, in the order in which the rules name the files. -/
def hashesFrom (hashes : List (String × String)) :
    List CriticalRule → Except String (List (String × String))
  | [] => return hashes
  | rule :: rules =>
    match hashes.lookup rule.source with
    | none => hashesFrom (hashes ++ [(rule.source, rule.sourceSha256)]) rules
    | some existing => do
      failIf (existing ≠ rule.sourceSha256)
        ("manifest has inconsistent sourceSha256 values for " ++ rule.source ++ ".")
      hashesFrom hashes rules

def manifestHashes (manifest : CriticalManifest) : Except String (List (String × String)) :=
  hashesFrom [] manifest.rules

variable (env : PolicyEnvironment)

/-- Every line break of two characters. -/
def normalizeBreaks : Text → Text
  | [] => []
  | '\r' :: '\n' :: rest => '\r' :: '\n' :: normalizeBreaks rest
  | '\r' :: rest => '\r' :: '\n' :: normalizeBreaks rest
  | '\n' :: rest => '\r' :: '\n' :: normalizeBreaks rest
  | c :: rest => c :: normalizeBreaks rest

def sourceSha256 (text : String) : String :=
  env.sha256 (String.ofList (normalizeBreaks text.toList))

def validateRuleSource (rule : CriticalRule) (text : String) (index : ℕ) : Except String Unit := do
  let label := "manifest.rules[" ++ toString index ++ "]"
  failIf (sourceSha256 env text ≠ rule.sourceSha256) (label ++ " has a stale sourceSha256.")
  let lines := splitLines text.toList
  failIf (lines.length < rule.endLine) (label ++ " range exceeds its source.")
  failIf (lines[rule.startLine - 1]? ≠ some rule.startAnchor.toList)
    (label ++ ".startAnchor does not match its source line.")
  failIf (lines[rule.endLine - 1]? ≠ some rule.endAnchor.toList)
    (label ++ ".endAnchor does not match its source line.")
  failIf (lines.count rule.startAnchor.toList ≠ 1) (label ++ ".startAnchor is not unique.")
  failIf (lines.count rule.endAnchor.toList ≠ 1) (label ++ ".endAnchor is not unique.")

/-- The manifest against the sources of the report, which are those of the selected files. -/
def validateCriticalManifest (manifest : CriticalManifest) (sourceByPath : String → String) :
    Except String Unit := do
  validateManifestShape manifest
  checkEach (fun before rule => validateRuleSource env rule (sourceByPath rule.source) before.length)
    [] manifest.rules

end Manifest

variable (env : PolicyEnvironment)

section Allowlist

/-! ### The allowlist of equivalent mutants -/

def DAY_MS : ℤ := 24 * 60 * 60 * 1000

def parseIsoUtc (value label : String) : Except String ℤ := do
  failIf (isIsoUtc value = false) (label ++ " must be an ISO-8601 UTC timestamp.")
  match env.dateParse value with
  | none => throw (label ++ " must be an ISO-8601 UTC timestamp.")
  | some timestamp => return timestamp

def validateEntry (manifest : CriticalManifest) (now : ℤ) (before : List EquivalentEntry)
    (entry : EquivalentEntry) : Except String Unit := do
  let label := "allowlist.entries[" ++ toString before.length ++ "]"
  failIf (entry.fingerprint = "*" ∨ entry.ruleId = "*" ∨ entry.sourceSha256 = "*")
    (label ++ " must not contain wildcard values.")
  requireSha256 entry.fingerprint (label ++ ".fingerprint")
  requireNonEmptyString entry.ruleId (label ++ ".ruleId")
  requireSha256 entry.sourceSha256 (label ++ ".sourceSha256")
  requireNonEmptyString entry.proof (label ++ ".proof")
  requireNonEmptyString entry.reviewerModel (label ++ ".reviewerModel")
  requireNonEmptyString entry.reviewerReasoning (label ++ ".reviewerReasoning")
  match manifest.rules.reverse.find? (·.id = entry.ruleId) with
  | none => throw (label ++ ".ruleId does not name exactly one manifest rule.")
  | some rule => do
    failIf (entry.sourceSha256 ≠ rule.sourceSha256)
      (label ++ ".sourceSha256 does not match its manifest rule.")
    let reviewedAt ← parseIsoUtc env entry.reviewedAt (label ++ ".reviewedAt")
    let expiresAt ← parseIsoUtc env entry.expiresAt (label ++ ".expiresAt")
    failIf (now < reviewedAt) (label ++ ".reviewedAt must not be in the future.")
    failIf (expiresAt ≤ now) (label ++ " is expired.")
    failIf (expiresAt ≤ reviewedAt ∨ 90 * DAY_MS < expiresAt - reviewedAt)
      (label ++ ".expiresAt must be after review and no more than 90 days later.")
    let identity := entry.ruleId ++ ":" ++ entry.fingerprint
    failIf (identity ∈ before.map fun entry => entry.ruleId ++ ":" ++ entry.fingerprint)
      (label ++ " duplicates an equivalent fingerprint and rule id.")

def validateEquivalentAllowlist (allowlist : EquivalentAllowlist) (manifest : CriticalManifest)
    (nowIso : String) : Except String Unit := do
  validateManifestShape manifest
  failIf (allowlist.schemaVersion ≠ 1) "allowlist.schemaVersion must equal 1."
  let now ← parseIsoUtc env nowIso "nowIso"
  checkEach (validateEntry env manifest now) [] allowlist.entries

end Allowlist

def validateBaseline (baseline : Baseline) (manifest : CriticalManifest) : Except String Unit := do
  failIf (baseline.schemaVersion ≠ 1) "baseline.schemaVersion must equal 1."
  failIf (baseline.profile ≠ "complete") "baseline.profile must equal complete."
  failIf (baseline.rawCombinedScore < 70 ∨ 100 < baseline.rawCombinedScore)
    "baseline.rawCombinedScore must be between 70 and 100."
  failIf (isCommit baseline.generatedFromCommit = false)
    "baseline.generatedFromCommit must be a 40-character lowercase commit SHA."
  let _ ← parseIsoUtc env baseline.generatedAt "baseline.generatedAt"
  failIf (baseline.selectedSources ≠ SELECTED_SOURCES)
    "baseline.selectedSources must be the exact ordered five selected files."
  failIf (baseline.sourceSha256.length ≠ SELECTED_SOURCES.length ∨
      ∃ source ∈ SELECTED_SOURCES, source ∉ baseline.sourceSha256.map Prod.fst)
    "baseline.sourceSha256 must name exactly the five selected files."
  let currentHashes ← manifestHashes manifest
  SELECTED_SOURCES.forM fun source => do
    let hash := (baseline.sourceSha256.lookup source).getD ""
    requireSha256 hash ("baseline.sourceSha256[" ++ source ++ "]")
    failIf (some hash ≠ currentHashes.lookup source)
      ("baseline.sourceSha256 is stale for " ++ source ++ ".")

section Scores

/-! ### Scores -/

structure ScoreCounts where
  detected : ℕ
  undetected : ℕ
  ignored : ℕ
  deriving DecidableEq

def ScoreCounts.count (counts : ScoreCounts) (mutant : Mutant) : ScoreCounts :=
  if mutant.status.isDetected then { counts with detected := counts.detected + 1 }
  else if mutant.status.isUndetected then { counts with undetected := counts.undetected + 1 }
  else if mutant.status = .ignored then { counts with ignored := counts.ignored + 1 }
  else counts

def rawScore (detected undetected : ℕ) : ℚ :=
  if detected + undetected = 0 then 100
  else env.round (100 * detected / (detected + undetected : ℕ))

def scoreCounts (mutants : List Mutant) : ScoreCounts :=
  mutants.foldl ScoreCounts.count ⟨0, 0, 0⟩

def moduleScore (report : MutationReport) (source : String) : ModuleScore :=
  let counts := scoreCounts (report.file source).mutants
  { source := source
    detected := counts.detected
    undetected := counts.undetected
    ignored := counts.ignored
    rawScore := rawScore env counts.detected counts.undetected }

end Scores

section Findings

/-! ### Critical findings -/

/-- `mutantLineRange` of the mutant against the range of the rule. -/
def overlapsRule (mutant : Mutant) (rule : CriticalRule) : Bool :=
  decide (mutant.location.startPosition.line ≤ rule.endLine) &&
    decide (rule.startLine ≤ mutant.location.endPosition.line)

/-- The JSON text that a fingerprint is the hash of, its keys in order. -/
def canonicalMutant (mutant : Mutant) (source sourceSha256 : String) : Text :=
  let quoted (text : String) := jsonString text.toList
  let number (value : ℕ) := Nat.toDigits 10 value
  let fields := [("endColumn", number mutant.location.endPosition.column),
    ("endLine", number mutant.location.endPosition.line),
    ("mutatorName", quoted mutant.mutatorName),
    ("replacement", quoted (mutant.replacement.getD "")),
    ("source", quoted source),
    ("sourceSha256", quoted sourceSha256),
    ("startColumn", number mutant.location.startPosition.column),
    ("startLine", number mutant.location.startPosition.line)]
  '{' :: List.intercalate [','] (fields.map fun field => quoted field.1 ++ ':' :: field.2) ++ ['}']

def mutantFingerprint (mutant : Mutant) (source sourceSha256 : String) : Except String String := do
  requireSha256 sourceSha256 "sourceSha256"
  requireNonEmptyString source "mutant.source"
  let normalizedSource := String.ofList (source.toList.map fun c => if c = '\\' then '/' else c)
  requireTrackedPath normalizedSource "mutant.source"
  requireNonEmptyString mutant.mutatorName "mutant.mutatorName"
  requireLocation mutant.location "mutant"
  return env.sha256 (String.ofList (canonicalMutant mutant normalizedSource sourceSha256))

def allowlistKey (ruleId fingerprint sourceSha256 : String) : String :=
  ruleId ++ ":" ++ fingerprint ++ ":" ++ sourceSha256

def criticalFinding (allowlist : EquivalentAllowlist) (source sourceSha256 : String)
    (mutant : Mutant) (rule : CriticalRule) : Except String CriticalFinding := do
  let fingerprint ← mutantFingerprint env mutant source sourceSha256
  let allowlistIndex := allowlist.entries.map fun entry =>
    allowlistKey entry.ruleId entry.fingerprint entry.sourceSha256
  return {
    source := source
    mutantId := mutant.id
    status := mutant.status
    ruleId := rule.id
    fingerprint := fingerprint
    manifestLine := max rule.startLine mutant.location.startPosition.line
    equivalent := decide (allowlistKey rule.id fingerprint rule.sourceSha256 ∈ allowlistIndex) }

/-- The undetected mutants of a file, each with the rules that it overlaps. -/
def criticalPairs (report : MutationReport) (manifest : CriticalManifest) (source : String) :
    List (Mutant × CriticalRule) :=
  let rules := manifest.rules.filter (·.source = source)
  ((report.file source).mutants.filter (·.status.isUndetected)).flatMap fun mutant =>
    (rules.filter (overlapsRule mutant)).map fun rule => (mutant, rule)

def criticalFindings (report : MutationReport) (manifest : CriticalManifest)
    (allowlist : EquivalentAllowlist) (hashes : List (String × String)) :
    Except String (List CriticalFinding) := do
  let findings ← SELECTED_SOURCES.mapM fun source =>
    (criticalPairs report manifest source).mapM fun (mutant, rule) =>
      criticalFinding env allowlist source ((hashes.lookup source).getD "") mutant rule
  return findings.flatten

end Findings

section Evaluation

/-! ### The verdict -/

def scoreViolations (profile : Profile) (baseline : Option Baseline) (rawCombinedScore : ℚ) :
    List String :=
  (if rawCombinedScore < 70 then
    ["Raw combined mutation score " ++ env.toFixed rawCombinedScore ++ " is below 70.00."]
  else []) ++
  match profile, baseline with
  | .complete, some baseline =>
    if rawCombinedScore < baseline.rawCombinedScore then
      ["Complete raw mutation score " ++ env.toFixed rawCombinedScore ++ " is below baseline " ++
        env.toFixed baseline.rawCombinedScore ++ "."]
    else []
  | _, _ => []

def findingViolation (finding : CriticalFinding) : String :=
  "Critical mutant " ++ finding.fingerprint ++ " (" ++ finding.status.text ++
    ") is not an approved equivalent for " ++ finding.ruleId ++ "."

def evaluateMutationReport (profile : Profile) (report : MutationReport)
    (manifest : CriticalManifest) (allowlist : EquivalentAllowlist) (baseline : Option Baseline)
    (nowIso : String) : Except String Evaluation := do
  validateReport report
  validateCriticalManifest env manifest fun source => (report.file source).source
  validateEquivalentAllowlist env allowlist manifest nowIso
  baseline.forM fun baseline => validateBaseline env baseline manifest
  let moduleScores := SELECTED_SOURCES.map (moduleScore env report)
  let detected := (moduleScores.map (·.detected)).sum
  let undetected := (moduleScores.map (·.undetected)).sum
  let ignored := (moduleScores.map (·.ignored)).sum
  let rawCombinedScore := rawScore env detected undetected
  let hashes ← manifestHashes manifest
  let findings ← criticalFindings env report manifest allowlist hashes
  let violations := scoreViolations env profile baseline rawCombinedScore ++
    (findings.filter (!·.equivalent)).map findingViolation
  return {
    profile := profile
    passed := violations.isEmpty
    rawCombinedScore := rawCombinedScore
    detected := detected
    undetected := undetected
    ignored := ignored
    moduleScores := moduleScores
    criticalFindings := findings
    violations := violations }

end Evaluation

section Recording

/-! ### Recording a baseline -/

structure ShardResult where
  shardId : String
  source : String
  durationMs : ℚ
  budgetMs : ℚ
  timedOut : Bool
  strykerExitCode : ℤ
  artifactExitCode : ℤ
  deriving DecidableEq

/-- What the run of the complete profile says of itself. -/
structure MutationSummary where
  profile : String
  commitSha : String
  nodeMajor : ℕ
  sourceSha256 : List (String × String)
  configurationSha256 : String
  reportSchemaVersion : String
  canonicalMutantCount : ℕ
  maxShardDurationMs : ℚ
  budgetMs : ℚ
  timedOut : Bool
  referenceBudgetEvidence : Bool
  policyExitCode : ℤ
  policyPassed : Bool
  rawCombinedScore : ℚ
  moduleScores : List ModuleScore
  criticalFindings : List CriticalFinding
  violations : List String
  policyError : Option String
  shards : List ShardResult
  deriving DecidableEq

def shardIds : List String :=
  ["token-session", "identifier-repair", "identifier-reconciliation", "members", "borrowings"]

def validateShard (shard : ShardResult) (shardId source : String) (index : ℕ) :
    Except String Unit :=
  failIf (shard.shardId ≠ shardId ∨ shard.source ≠ source ∨ shard.durationMs < 0 ∨
      900000 < shard.durationMs ∨ shard.budgetMs ≠ 900000 ∨ shard.timedOut = true ∨
      shard.strykerExitCode ≠ 0 ∨ shard.artifactExitCode ≠ 0)
    ("complete summary.shards[" ++ toString index ++ "] is not policy-green.")

def validateCompleteProvenance (report : MutationReport) (summary : MutationSummary)
    (evaluation : Evaluation) (manifest : CriticalManifest) (currentCommit : String) :
    Except String Unit := do
  failIf (isCommit currentCommit = false)
    "currentCommit must be a 40-character lowercase commit SHA."
  failIf (summary.profile ≠ "complete") "complete summary profile must equal complete."
  failIf (summary.commitSha ≠ currentCommit)
    "complete summary commitSha must equal the current committed state."
  failIf (summary.nodeMajor ≠ 24) "complete summary nodeMajor must equal 24."
  requireSha256 summary.configurationSha256 "complete summary.configurationSha256"
  failIf (summary.reportSchemaVersion ≠ report.schemaVersion)
    "complete summary report schema must match the canonical report."
  let actualMutantCount := (SELECTED_SOURCES.map fun source =>
    (report.file source).mutants.length).sum
  failIf (summary.canonicalMutantCount ≠ 1744 ∨ actualMutantCount ≠ 1744)
    "complete report must contain exactly 1744 canonical mutants."
  failIf (summary.maxShardDurationMs < 0 ∨ 900000 < summary.maxShardDurationMs ∨
      summary.budgetMs ≠ 900000 ∨ summary.timedOut = true)
    "complete summary must satisfy the exact 900000 ms shard gate."
  failIf (summary.referenceBudgetEvidence = true ∨ summary.policyExitCode ≠ 0 ∨
      summary.policyPassed = false ∨ summary.policyError ≠ none)
    "complete summary must be a local policy-green producer."
  failIf (summary.rawCombinedScore ≠ evaluation.rawCombinedScore)
    "complete summary score must match the evaluated complete report."
  failIf (summary.moduleScores ≠ evaluation.moduleScores)
    "complete summary moduleScores does not match the evaluated complete report."
  failIf (summary.criticalFindings ≠ evaluation.criticalFindings)
    "complete summary criticalFindings does not match the evaluated complete report."
  failIf (summary.violations ≠ evaluation.violations)
    "complete summary violations does not match the evaluated complete report."
  let hashes ← manifestHashes manifest
  failIf (summary.sourceSha256.length ≠ SELECTED_SOURCES.length ∨
      ∃ source ∈ SELECTED_SOURCES, summary.sourceSha256.lookup source ≠ hashes.lookup source)
    "complete summary source hashes must match the exact selected scope."
  failIf (summary.shards.length ≠ 5) "complete summary must contain exactly five shard results."
  checkEach (fun before (shard, shardId, source) => validateShard shard shardId source before.length)
    [] (summary.shards.zip (shardIds.zip SELECTED_SOURCES))

/-- What is handed to a recording: the documents, the commit and the times. -/
structure Recording where
  report : MutationReport
  summary : MutationSummary
  manifest : CriticalManifest
  allowlist : EquivalentAllowlist
  currentCommit : String
  nowIso : String
  generatedAt : String
  deriving DecidableEq

def recordBaseline (recording : Recording) (previousBaseline : Option Baseline) :
    Except String Baseline := do
  let evaluation ← evaluateMutationReport env .complete recording.report recording.manifest
    recording.allowlist previousBaseline recording.nowIso
  failIf (evaluation.passed = false)
    "complete report must be policy-green before recording a baseline."
  validateCompleteProvenance recording.report recording.summary evaluation recording.manifest
    recording.currentCommit
  let _ ← parseIsoUtc env recording.generatedAt "generatedAt"
  let hashes ← manifestHashes recording.manifest
  let baseline : Baseline := {
    schemaVersion := 1
    profile := "complete"
    rawCombinedScore := evaluation.rawCombinedScore
    generatedFromCommit := recording.summary.commitSha
    generatedAt := recording.generatedAt
    selectedSources := SELECTED_SOURCES
    sourceSha256 := hashes }
  validateBaseline env baseline recording.manifest
  return baseline

/-- The baselines that runs of `recordBaselineCli` write, one after the other, from what the file
holds at first. A run that throws leaves the file as it is. -/
def recordedBaselines (file : Option Baseline) : List Recording → List Baseline
  | [] => []
  | recording :: recordings =>
    match recordBaseline env recording file with
    | .ok baseline => baseline :: recordedBaselines (some baseline) recordings
    | .error _ => recordedBaselines file recordings

end Recording

end Quality
