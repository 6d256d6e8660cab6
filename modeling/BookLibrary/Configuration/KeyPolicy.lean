import BookLibrary.Configuration.KeyRing
import BookLibrary.Operations.RepairKeys
import BookLibrary.Operations.Replay

/-!
# The policy of the keys

`AuthIdentifierRepairKeyPolicyService`: which versions of the key the repairs and the throttle
still need, whether they are all configured, and whether a rotation of the key can keep them.
-/

namespace KeyPolicy

open AuthIdentifiers AuthThrottle Configuration Documents

structure RequiredAuditKeyVersions where
  repairVersions : List ℕ
  throttleVersions : List ℕ
  requiredVersions : List ℕ

inductive AuthKeyPolicyReason where
  | ready | repairKeyRequired | throttleKeyRequired
  deriving DecidableEq

structure AuthKeyPolicyDecision where
  allowed : Bool
  reason : AuthKeyPolicyReason
  requiredVersion : Option ℕ

structure AuthKeyPolicyReadiness where
  ready : Bool
  reason : AuthKeyPolicyReason
  requiredVersions : List ℕ
  requiredVersionCount : ℕ
  missingVersions : List ℕ

structure AuditKeyRotationPreflightInput where
  candidateCurrentVersion : ℕ
  candidatePreviousVersions : List ℕ

/-- The reason `repair-key-rotation-blocked` goes with the one status, and none with the other. -/
inductive PreflightStatus where
  | ok | blocked
  deriving DecidableEq

structure AuditKeyRotationPreflightResult where
  requiredPreviousVersions : List ℕ
  requiredPreviousCount : ℕ
  maxPreviousKeys : ℕ
  status : PreflightStatus

def MAX_PREVIOUS_KEYS : ℕ := 2

section Policy

/-- The rows that the two queries find. -/
def getRequiredKeyVersions (repairs : List AuthIdentifierOperation)
    (buckets : List AuthThrottleBucket) (now : Date) : RequiredAuditKeyVersions :=
  let repairRows := repairs.filter Operations.requiresRepairKey
  let throttleRows := buckets.filter fun b => decide (now < b.expiresAt)
  let repairVersions := sortedVersions (repairRows.filterMap (·.manifestKeyVersion))
  let throttleVersions := sortedVersions (throttleRows.map (·.keyVersion))
  ⟨repairVersions, throttleVersions, sortedVersions (repairVersions ++ throttleVersions)⟩

def evaluateReadiness (config : AuthConfiguration) (required : RequiredAuditKeyVersions) :
    AuthKeyPolicyReadiness :=
  let configured := getConfiguredKeyVersions config
  let missingRepair := required.repairVersions.filter fun version => version ∉ configured
  let missingThrottle := required.throttleVersions.filter fun version => version ∉ configured
  let missingVersions := sortedVersions (missingRepair ++ missingThrottle)
  { ready := missingVersions.isEmpty
    reason :=
      if missingRepair ≠ [] then .repairKeyRequired
      else if missingThrottle ≠ [] then .throttleKeyRequired
      else .ready
    requiredVersions := required.requiredVersions
    requiredVersionCount := required.requiredVersions.length
    missingVersions := missingVersions }

def decisionForVersion (config : AuthConfiguration) (version : Option ℕ)
    (deniedReason : AuthKeyPolicyReason) : AuthKeyPolicyDecision :=
  match version with
  | none => ⟨false, deniedReason, none⟩
  | some version =>
    if (getKeyMaterial config version).isSome then ⟨true, .ready, some version⟩
    else ⟨false, deniedReason, some version⟩

def repairWorkerDecision (config : AuthConfiguration) (manifestKeyVersion : Option ℕ) :
    AuthKeyPolicyDecision :=
  decisionForVersion config manifestKeyVersion .repairKeyRequired

def throttleRequestDecision (config : AuthConfiguration) (keyVersion : Option ℕ) :
    AuthKeyPolicyDecision :=
  decisionForVersion config keyVersion .throttleKeyRequired

def preflightRotation (input : AuditKeyRotationPreflightInput)
    (required : RequiredAuditKeyVersions) : AuditKeyRotationPreflightResult :=
  let requiredPreviousVersions := sortedVersions (input.candidatePreviousVersions ++
    required.requiredVersions.filter fun version => version ≠ input.candidateCurrentVersion)
  { requiredPreviousVersions := requiredPreviousVersions
    requiredPreviousCount := requiredPreviousVersions.length
    maxPreviousKeys := MAX_PREVIOUS_KEYS
    status := if MAX_PREVIOUS_KEYS < requiredPreviousVersions.length then .blocked else .ok }

end Policy

section Preflight

variable {ν : Type} (host : Host ν) (integerOf : ν → Option ℤ)

/-- Why the process ends with an error; nothing else of the error is shown. -/
inductive PreflightFailure where
  | invalidInput | preflightFailed
  deriving DecidableEq

/-- `isPositiveVersion` of a value, with the number that it is. -/
def positiveVersion : PlainData ν → Option ℕ
  | .number value =>
    match integerOf value with
    | some n => if 0 < n then some n.toNat else none
    | none => none
  | _ => none

def INPUT_FIELDS : List String := ["candidateCurrentVersion", "candidatePreviousVersions"]

def parseAuditKeyRotationPreflightInput (rawInput : String) :
    Except PreflightFailure AuditKeyRotationPreflightInput :=
  match host.parseJson rawInput with
  | some (.object entries) =>
    let fields := entries.map (·.1)
    if fields.length ≠ INPUT_FIELDS.length ∨ ¬ fields.all (· ∈ INPUT_FIELDS) then
      .error .invalidInput
    else
      match (entries.lookup "candidateCurrentVersion").bind (positiveVersion integerOf),
          entries.lookup "candidatePreviousVersions" with
      | some candidateCurrentVersion, some (.array items) =>
        match items.mapM (positiveVersion integerOf) with
        | some candidatePreviousVersions =>
          let uniquePrevious := candidatePreviousVersions.eraseDups
          if uniquePrevious.length ≠ candidatePreviousVersions.length ∨
              candidateCurrentVersion ∈ uniquePrevious then
            .error .invalidInput
          else .ok ⟨candidateCurrentVersion, candidatePreviousVersions⟩
        | none => .error .invalidInput
      | _, _ => .error .invalidInput
  | _ => .error .invalidInput

/-- What the queries of the policy read, unless one of them throws. -/
structure PolicyRead where
  repairs : List AuthIdentifierOperation
  buckets : List AuthThrottleBucket
  now : Date

/-- The context of the application, when it comes up. -/
structure AuditKeyRotationPreflightContext where
  read : Option PolicyRead
  closes : Bool

inductive AuditKeyRotationOutput where
  | result (result : AuditKeyRotationPreflightResult)
  | error (reason : PreflightFailure) (requiredPreviousVersions : List ℕ)
    (requiredPreviousCount maxPreviousKeys : ℕ)

structure AuditKeyRotationProcessResult where
  exitCode : ℕ
  output : AuditKeyRotationOutput

def errorResult (reason : PreflightFailure) : AuditKeyRotationProcessResult :=
  ⟨1, .error reason [] 0 MAX_PREVIOUS_KEYS⟩

/-- `contextFactory` throws where it gives no context. -/
def runAuditKeyRotationPreflight (rawInput : String)
    (contextFactory : Option AuditKeyRotationPreflightContext) : AuditKeyRotationProcessResult :=
  match parseAuditKeyRotationPreflightInput host integerOf rawInput with
  | .error _ => errorResult .invalidInput
  | .ok input =>
    match contextFactory with
    | none => errorResult .preflightFailed
    | some context =>
      let result :=
        match context.read with
        | none => errorResult .preflightFailed
        | some ⟨repairs, buckets, now⟩ =>
          let output := preflightRotation input (getRequiredKeyVersions repairs buckets now)
          ⟨if output.status = .ok then 0 else 2, .result output⟩
      if context.closes then result else errorResult .preflightFailed

end Preflight

section Required

variable {config : AuthConfiguration} {repairs : List AuthIdentifierOperation}
  {buckets : List AuthThrottleBucket} {now : Date} {version : ℕ}

/-- A repair that is not through, or a bucket that is not expired, has the version. -/
def Refers (repairs : List AuthIdentifierOperation) (buckets : List AuthThrottleBucket)
    (now : Date) (version : ℕ) : Prop :=
  (∃ d ∈ repairs, Operations.requiresRepairKey d = true ∧ d.manifestKeyVersion = some version) ∨
    ∃ b ∈ buckets, now < b.expiresAt ∧ b.keyVersion = version

theorem mem_repairVersions : version ∈ (getRequiredKeyVersions repairs buckets now).repairVersions ↔
    0 < version ∧ ∃ d ∈ repairs, Operations.requiresRepairKey d = true ∧
      d.manifestKeyVersion = some version := by
  simp only [getRequiredKeyVersions, mem_sortedVersions, List.mem_filterMap, List.mem_filter,
    and_assoc]

theorem mem_throttleVersions :
    version ∈ (getRequiredKeyVersions repairs buckets now).throttleVersions ↔
      0 < version ∧ ∃ b ∈ buckets, now < b.expiresAt ∧ b.keyVersion = version := by
  simp only [getRequiredKeyVersions, mem_sortedVersions, List.mem_map, List.mem_filter,
    decide_eq_true_eq, and_assoc]

theorem mem_requiredVersions :
    version ∈ (getRequiredKeyVersions repairs buckets now).requiredVersions ↔
      0 < version ∧ Refers repairs buckets now version := by
  show version ∈ sortedVersions ((getRequiredKeyVersions repairs buckets now).repairVersions ++
    (getRequiredKeyVersions repairs buckets now).throttleVersions) ↔ _
  rw [mem_sortedVersions, List.mem_append, mem_repairVersions, mem_throttleVersions, ← and_or_left,
    ← and_assoc, and_self]
  rfl

/-- The readiness is that of the versions that are referred to. -/
theorem ready_iff :
    (evaluateReadiness config (getRequiredKeyVersions repairs buckets now)).ready = true ↔
      ∀ version, 0 < version → Refers repairs buckets now version →
        version ∈ getConfiguredKeyVersions config := by
  have hmem : ∀ version, version ∈ (evaluateReadiness config
      (getRequiredKeyVersions repairs buckets now)).missingVersions ↔
      (0 < version ∧ Refers repairs buckets now version) ∧
        version ∉ getConfiguredKeyVersions config := by
    intro version
    simp only [evaluateReadiness, mem_sortedVersions, List.mem_append, List.mem_filter,
      mem_repairVersions, mem_throttleVersions, decide_eq_true_eq, Refers]
    grind
  show (evaluateReadiness config _).missingVersions.isEmpty = true ↔ _
  rw [List.isEmpty_iff, List.eq_nil_iff_forall_not_mem]
  simp only [hmem, not_and, not_not, and_imp]

/-- The reason is `ready` where nothing is missing. -/
theorem reason_of_ready
    (h : (evaluateReadiness config (getRequiredKeyVersions repairs buckets now)).ready = true) :
    (evaluateReadiness config (getRequiredKeyVersions repairs buckets now)).reason = .ready := by
  rw [ready_iff] at h
  have hrepair : (getRequiredKeyVersions repairs buckets now).repairVersions.filter
      (fun version => version ∉ getConfiguredKeyVersions config) = [] := by
    rw [List.filter_eq_nil_iff]
    intro version hversion
    obtain ⟨hpos, hrefers⟩ := mem_repairVersions.mp hversion
    simpa using h version hpos (.inl hrefers)
  have hthrottle : (getRequiredKeyVersions repairs buckets now).throttleVersions.filter
      (fun version => version ∉ getConfiguredKeyVersions config) = [] := by
    rw [List.filter_eq_nil_iff]
    intro version hversion
    obtain ⟨hpos, hrefers⟩ := mem_throttleVersions.mp hversion
    simpa using h version hpos (.inr hrefers)
  rw [evaluateReadiness]
  dsimp only
  rw [if_neg (not_not.mpr hrepair), if_neg (not_not.mpr hthrottle)]

end Required

section Rotations

variable {ν : Type} {host : Host ν} {integerOf : ν → Option ℤ} {rawInput : String}
  {input : AuditKeyRotationPreflightInput} {config : AuthConfiguration} {read : PolicyRead}
  {version : ℕ}

def PolicyRead.required (read : PolicyRead) : RequiredAuditKeyVersions :=
  getRequiredKeyVersions read.repairs read.buckets read.now

/-- The keys after the rotation that the input describes. -/
structure Rotates (input : AuditKeyRotationPreflightInput) (config : AuthConfiguration) : Prop where
  keyed : config.Keyed
  safe : config.auditCorrelationKeyVersion ≤ maxSafeInteger
  current : config.auditCorrelationKeyVersion = input.candidateCurrentVersion
  previous : ∀ version ∈ input.candidatePreviousVersions,
    version ∈ config.auditCorrelationPreviousKeys.map (·.1)

/-- What the answer says of all the rotations that the input may become. -/
structure Foretells (input : AuditKeyRotationPreflightInput) (read : PolicyRead) (exitCode : ℕ)
    (result : AuditKeyRotationPreflightResult) : Prop where
  possible : (∃ config, Rotates input config ∧
      (evaluateReadiness config read.required).ready = true) ↔
    exitCode = 0 ∧ input.candidateCurrentVersion ≤ maxSafeInteger ∧
      ∀ version ∈ result.requiredPreviousVersions, version ≤ maxSafeInteger
  ready : ∀ config, Rotates input config →
    ((evaluateReadiness config read.required).ready = true ↔
      ∀ version ∈ result.requiredPreviousVersions,
        version ∈ config.auditCorrelationPreviousKeys.map (·.1))
  blocked : exitCode ≠ 0 → exitCode = 2 ∧ result.status = .blocked
  listed : result.requiredPreviousVersions.Pairwise (· < ·) ∧
    result.requiredPreviousCount = result.requiredPreviousVersions.length

/-- What the process ends with, for the input that was parsed and the context. -/
def AuditKeyRotationProcessResult.Tells
    (parsed : Except PreflightFailure AuditKeyRotationPreflightInput)
    (context : Option AuditKeyRotationPreflightContext) :
    AuditKeyRotationProcessResult → Prop
  | ⟨exitCode, .result result⟩ => ∃ input read, parsed = .ok input ∧
      context = some ⟨some read, true⟩ ∧ Foretells input read exitCode result
  | ⟨exitCode, .error reason requiredPreviousVersions requiredPreviousCount _⟩ =>
    exitCode = 1 ∧ requiredPreviousVersions = [] ∧ requiredPreviousCount = 0 ∧
      match parsed with
      | .error _ => reason = .invalidInput
      | .ok _ => reason = .preflightFailed ∧ ∀ read, context ≠ some ⟨some read, true⟩

/-- Versions that a rotation may go to. -/
structure AuditKeyRotationPreflightInput.Valid (input : AuditKeyRotationPreflightInput) : Prop where
  current : 0 < input.candidateCurrentVersion
  previous : ∀ version ∈ input.candidatePreviousVersions, 0 < version
  apart : input.candidateCurrentVersion ∉ input.candidatePreviousVersions

theorem positiveVersion_pos {value : PlainData ν} (h : positiveVersion integerOf value = some version) :
    0 < version := by
  cases value with
  | number value =>
    rw [positiveVersion] at h
    split at h
    · split at h
      · obtain rfl := Option.some.inj h
        omega
      · cases h
    · cases h
  | _ => cases h

theorem parse_ok (h : parseAuditKeyRotationPreflightInput host integerOf rawInput = .ok input) :
    input.Valid := by
  rw [parseAuditKeyRotationPreflightInput] at h
  split at h
  · dsimp only at h
    split at h
    · cases h
    · split at h
      · next hcurrent _ =>
        split at h
        · next hitems =>
          split at h
          · cases h
          · next hdistinct =>
            obtain rfl := Except.ok.inj h
            push Not at hdistinct
            obtain ⟨value, -, hvalue⟩ := Option.bind_eq_some_iff.mp hcurrent
            refine ⟨positiveVersion_pos hvalue, fun version hversion => ?_, fun hmem => ?_⟩
            · obtain ⟨item, -, hitem⟩ :=
                Operations.mem_of_forall₂ (Operations.forall₂_of_mapM hitems) hversion
              exact positiveVersion_pos hitem
            · exact hdistinct.2 (List.mem_eraseDups.mpr hmem)
        · cases h
      · cases h
  · cases h

theorem configured_iff (h : config.Keyed) : version ∈ getConfiguredKeyVersions config ↔
    version = config.auditCorrelationKeyVersion ∨
      version ∈ config.auditCorrelationPreviousKeys.map (·.1) := by
  rw [h.mem_getConfiguredKeyVersions, h.versions_loadKeyring.mem_iff, List.mem_cons]

theorem mem_requiredPreviousVersions :
    version ∈ (preflightRotation input read.required).requiredPreviousVersions ↔
      0 < version ∧ (version ∈ input.candidatePreviousVersions ∨
        Refers read.repairs read.buckets read.now version ∧
          version ≠ input.candidateCurrentVersion) := by
  simp only [preflightRotation, PolicyRead.required, mem_sortedVersions, List.mem_append,
    List.mem_filter, mem_requiredVersions, decide_eq_true_eq]
  grind

/-- The versions that the preflight names are those that the rotation has to keep. -/
theorem Rotates.ready_iff (h : Rotates input config) :
    (evaluateReadiness config read.required).ready = true ↔
      ∀ version ∈ (preflightRotation input read.required).requiredPreviousVersions,
        version ∈ config.auditCorrelationPreviousKeys.map (·.1) := by
  rw [PolicyRead.required, KeyPolicy.ready_iff]
  constructor
  · intro hready version hversion
    obtain ⟨hpos, hcandidate | ⟨hrefers, hne⟩⟩ := mem_requiredPreviousVersions.mp hversion
    · exact h.previous version hcandidate
    · rcases (configured_iff h.keyed).mp (hready version hpos hrefers) with heq | hprevious
      · exact absurd (heq.trans h.current) hne
      · exact hprevious
  · intro hkeeps version hpos hrefers
    rw [configured_iff h.keyed, h.current]
    by_cases heq : version = input.candidateCurrentVersion
    · exact .inl heq
    · exact .inr (hkeeps version (mem_requiredPreviousVersions.mpr ⟨hpos, .inr ⟨hrefers, heq⟩⟩))

theorem pairwise_requiredPreviousVersions :
    (preflightRotation input read.required).requiredPreviousVersions.Pairwise (· < ·) :=
  List.Pairwise.imp (fun h => Nat.lt_of_le_of_ne h.1 h.2)
    (pairwise_sortedVersions.and nodup_sortedVersions)

theorem status_ok_iff : (preflightRotation input read.required).status = .ok ↔
    (preflightRotation input read.required).requiredPreviousVersions.length ≤ MAX_PREVIOUS_KEYS := by
  simp only [preflightRotation]
  split
  · next h => simpa using h
  · next h => simpa using h

/-- A rotation that is ready has room for all of them. -/
theorem Rotates.fits (h : Rotates input config)
    (hready : (evaluateReadiness config read.required).ready = true) :
    (preflightRotation input read.required).status = .ok := by
  rw [h.ready_iff] at hready
  have hnodup : (preflightRotation input read.required).requiredPreviousVersions.Nodup :=
    nodup_sortedVersions
  have hlength := (hnodup.subperm hready).length_le
  rw [List.length_map] at hlength
  exact status_ok_iff.mpr (hlength.trans h.keyed.capacity)

deriving instance Inhabited for AuditCorrelationKeyRing
deriving instance Inhabited for AuthConfiguration

/-- A configuration with the keys of the versions, all of them the one of the development. -/
def withVersions (current : ℕ) (previous : List ℕ) : AuthConfiguration :=
  let previousKeys := previous.map fun version => (version, developmentAuditSecret)
  { (default : AuthConfiguration) with
    auditCorrelationSecret := developmentAuditSecret
    auditCorrelationKeyVersion := current
    auditCorrelationPreviousKeys := previousKeys
    auditCorrelationKeyRing :=
      ⟨current, setEntry current developmentAuditSecret previousKeys⟩ }

theorem canonical_developmentAuditSecret : Canonical developmentAuditSecret :=
  ⟨Text.utf8 "development-only-audit-correlation-key".toList, by decide +kernel,
    String.toList_ofList⟩

theorem versions_withVersions {current : ℕ} {previous : List ℕ} :
    (withVersions current previous).auditCorrelationPreviousKeys.map (·.1) = previous := by
  simp [withVersions, Function.comp_def]

theorem withVersions_keyed {current : ℕ} {previous : List ℕ} (hcurrent : 0 < current)
    (hnodup : previous.Nodup) (hlength : previous.length ≤ 2)
    (hprevious : ∀ version ∈ previous, 0 < version ∧ version ≤ maxSafeInteger ∧ version ≠ current) :
    (withVersions current previous).Keyed where
  positive := hcurrent
  current := canonical_developmentAuditSecret
  previous :=
    { nodup := by rwa [versions_withVersions]
      versions := by
        intro key hkey
        obtain ⟨version, hversion, rfl⟩ := List.mem_map.mp hkey
        exact hprevious version hversion
      canonical := by
        intro key hkey
        obtain ⟨version, -, rfl⟩ := List.mem_map.mp hkey
        exact canonical_developmentAuditSecret }
  capacity := by simpa [withVersions] using hlength
  ring := rfl

/-- The answer that the policy gives to a valid input. -/
theorem foretells (hvalid : input.Valid) :
    Foretells input read (if (preflightRotation input read.required).status = .ok then 0 else 2)
      (preflightRotation input read.required) where
  possible := by
    constructor
    · rintro ⟨config, hrotates, hready⟩
      refine ⟨if_pos (hrotates.fits hready), hrotates.current ▸ hrotates.safe, ?_⟩
      intro version hversion
      obtain ⟨key, hkey, rfl⟩ := List.mem_map.mp (hrotates.ready_iff.mp hready version hversion)
      exact (hrotates.keyed.previous.versions key hkey).2.1
    · rintro ⟨hcode, hcurrent, hprevious⟩
      have hok : (preflightRotation input read.required).status = .ok := by
        by_contra hblocked
        rw [if_neg hblocked] at hcode
        exact absurd hcode (by decide)
      -- the versions that are named, and no others
      have hkeyed : (withVersions input.candidateCurrentVersion
          (preflightRotation input read.required).requiredPreviousVersions).Keyed := by
        refine withVersions_keyed hvalid.current nodup_sortedVersions (status_ok_iff.mp hok) ?_
        intro version hversion
        obtain ⟨hpos, hcandidate | ⟨-, hne⟩⟩ := mem_requiredPreviousVersions.mp hversion
        · refine ⟨hpos, hprevious version hversion, ?_⟩
          rintro rfl
          exact hvalid.apart hcandidate
        · exact ⟨hpos, hprevious version hversion, hne⟩
      have hrotates : Rotates input (withVersions input.candidateCurrentVersion
          (preflightRotation input read.required).requiredPreviousVersions) := by
        refine ⟨hkeyed, hcurrent, rfl, fun version hversion => ?_⟩
        rw [versions_withVersions]
        exact mem_requiredPreviousVersions.mpr ⟨hvalid.previous version hversion, .inl hversion⟩
      refine ⟨_, hrotates, hrotates.ready_iff.mpr fun version hversion => ?_⟩
      rwa [versions_withVersions]
  ready _ hrotates := hrotates.ready_iff
  blocked h := by
    split at h
    · exact absurd rfl h
    · next hblocked =>
      refine ⟨if_neg hblocked, ?_⟩
      cases hstatus : (preflightRotation input read.required).status with
      | ok => exact absurd hstatus hblocked
      | blocked => rfl
  listed := ⟨pairwise_requiredPreviousVersions, rfl⟩

/-- The preflight lets a rotation through exactly where there are keys for it that leave nothing
unready, and names the previous versions that these keys have. -/
theorem preflight_exact (rawInput : String) (context : Option AuditKeyRotationPreflightContext) :
    (runAuditKeyRotationPreflight host integerOf rawInput context).Tells
      (parseAuditKeyRotationPreflightInput host integerOf rawInput) context := by
  rw [runAuditKeyRotationPreflight]
  cases hparsed : parseAuditKeyRotationPreflightInput host integerOf rawInput with
  | error reason => exact ⟨rfl, rfl, rfl, rfl⟩
  | ok input =>
    have hfailed : ∀ context, (∀ read, context ≠ some ⟨some read, true⟩) →
        (errorResult .preflightFailed).Tells
          (.ok input : Except PreflightFailure AuditKeyRotationPreflightInput) context :=
      fun context hnone => ⟨rfl, rfl, rfl, rfl, hnone⟩
    rcases context with _ | ⟨_ | read, closes⟩
    · exact hfailed _ fun read heq => by cases heq
    · cases closes with
      | false => exact hfailed _ fun read heq => by cases heq
      | true => exact hfailed _ fun read heq => by cases heq
    · cases closes with
      | false => exact hfailed _ fun read heq => by cases heq
      | true => exact ⟨input, read, rfl, rfl, foretells (parse_ok hparsed)⟩

end Rotations

end KeyPolicy
