import BookLibrary.AuthThrottle.ReferencedKeys
import BookLibrary.Configuration.KeyPolicy
import BookLibrary.Operations.Execution

/-!
# Rotating the keys of a deployment

A deployment that serves repairs and attempts and is restarted with other keys between them.
Where every rotation follows the answer of the preflight, no key is missed in any run: not by
the readiness, not by a worker of a repair, not by an attempt.
-/

namespace KeyPolicy

open AuthIdentifiers AuthThrottle Configuration Documents Interleaving

/-- The services read their settings from the configuration. -/
def configured (env : Operations.Environment) (config : AuthConfiguration) :
    Operations.Environment :=
  { env with
    keyMaterial := getKeyMaterial config
    correlationKeyVersion := some config.auditCorrelationKeyRing.currentVersion
    repairKeyVersion := some config.auditCorrelationKeyVersion
    leaseSeconds := config.identifierLeaseSeconds
    batchSize := config.identifierReconciliationBatchSize
    retentionDays := config.identifierOperationRetentionDays
    identifierMaxOperationAssignments := config.identifierMaxOperationAssignments }

/-- What is deployed: a configuration that was loaded, and the collections that refer to its keys.
The keys were last checked at `moment`. -/
structure Fleet where
  config : AuthConfiguration
  keyed : config.Keyed
  identifiers : Operations.Database
  throttle : AuthThrottle.Database
  moment : Date

/-- What the policy reads at a date. -/
def Fleet.read (f : Fleet) (now : Date) : PolicyRead :=
  ⟨f.identifiers.operations, f.throttle.buckets, now⟩

/-- The keys of the configuration are those that their versions have always had. -/
def Holds (secretOf : ℕ → String) (config : AuthConfiguration) : Prop :=
  ∀ version material, getKeyMaterial config version = some material → material = secretOf version

section Steps

variable {ν A ι : Type} [DecidableEq ι] (host : Host ν) (integerOf : ν → Option ℤ)
  (hmac : String → String → String) (env : Operations.Environment)
  (aggregates : A → Operations.Aggregate) (secretOf : ℕ → String)

/-- Any number of requests and passes, or of attempts, may meet, throw and crash in one step. A
rotation keeps the previous versions that the preflight has named, right before it. -/
inductive Fleet.Step (ι : Type) [DecidableEq ι] : Fleet → Fleet → Prop
  | serve {f gate} {c : Config ι (Operations.Call A) Operations.Op Operations.Store
        Operations.Response Operations.Event}
      (runs : (Operations.operations (configured env f.config) aggregates).Runs gate
        (Config.init (.init f.identifiers)) c) :
      Fleet.Step ι f { f with identifiers := c.store.committed }
  | attempt {f gate} {c : Config ι Attempt Op Database
        (Except ThrottleFailure AuthThrottleDecision) Event}
      (runs : (AuthThrottle.system hmac f.keyed.settings).Runs gate (Config.init f.throttle) c) :
      Fleet.Step ι f { f with throttle := c.store }
  | rotate {f now rawInput input result config'} (keyed' : config'.Keyed)
      (later : f.moment ≤ now) (holds : Holds secretOf config')
      (parsed : parseAuditKeyRotationPreflightInput host integerOf rawInput = .ok input)
      (passes : runAuditKeyRotationPreflight host integerOf rawInput
        (some ⟨some (f.read now), true⟩) = ⟨0, .result result⟩)
      (current : config'.auditCorrelationKeyVersion = input.candidateCurrentVersion)
      (previous : ∀ version ∈ result.requiredPreviousVersions,
        version ∈ config'.auditCorrelationPreviousKeys.map (·.1)) :
      Fleet.Step ι f ⟨config', keyed', f.identifiers, f.throttle, now⟩

def Fleet.Runs (ι : Type) [DecidableEq ι] : Fleet → Fleet → Prop :=
  Relation.ReflTransGen (Fleet.Step host integerOf hmac env aggregates secretOf ι)

/-- No key is missed. -/
structure Fleet.Served (ι : Type) [DecidableEq ι] (f : Fleet) : Prop where
  ready : ∀ now, f.moment ≤ now →
    (evaluateReadiness f.config (f.read now).required).ready = true ∧
      (evaluateReadiness f.config (f.read now).required).reason = .ready
  repairs : ∀ d ∈ f.identifiers.operations, Operations.requiresRepairKey d = true →
    ∀ version, d.manifestKeyVersion = some version →
      repairWorkerDecision f.config (some version) = ⟨true, .ready, some version⟩ ∧
        getKeyMaterial f.config version = some (secretOf version)
  buckets : ∀ b ∈ f.throttle.buckets, f.moment < b.expiresAt →
    throttleRequestDecision f.config (some b.keyVersion) = ⟨true, .ready, some b.keyVersion⟩ ∧
      getKeyMaterial f.config b.keyVersion = some (secretOf b.keyVersion)
  attempts : ∀ (gate : Gate ι Attempt Op Database Event)
    (c : Config ι Attempt Op Database (Except ThrottleFailure AuthThrottleDecision) Event),
    (AuthThrottle.system hmac f.keyed.settings).Runs gate (Config.init f.throttle) c →
      ∀ i th decision, c.Returns i th (.ok decision) → f.moment ≤ th.call.now →
        decision.reason ≠ some .throttleKeyRequired

end Steps

section Keys

variable {config : AuthConfiguration} {env : Operations.Environment} {secretOf : ℕ → String}
  {version : ℕ}

theorem mem_of_material (h : config.Keyed) {material : String}
    (hmaterial : getKeyMaterial config version = some material) :
    version ∈ getConfiguredKeyVersions config := by
  rw [h.mem_getConfiguredKeyVersions]
  rw [h.getKeyMaterial_eq] at hmaterial
  exact List.mem_map.mpr ⟨⟨version, buffer (Base64url.decode material.toList)⟩,
    h.mem_loadKeyring.mpr ⟨material, hmaterial, rfl⟩, rfl⟩

theorem material_of_mem (h : config.Keyed) (hmem : version ∈ getConfiguredKeyVersions config) :
    ∃ material, getKeyMaterial config version = some material ∧ material ≠ "" := by
  obtain ⟨key, hkey, rfl⟩ := List.mem_map.mp (h.mem_getConfiguredKeyVersions.mp hmem)
  obtain ⟨material, hentry, -⟩ := h.mem_loadKeyring.mp hkey
  exact ⟨material, h.getKeyMaterial_eq.trans hentry, (h.canonical_of_getEntry hentry).ne_empty⟩

theorem pos_of_mem (hmem : version ∈ getConfiguredKeyVersions config) : 0 < version :=
  (mem_sortedVersions.mp hmem).1

/-- The repairs find the key of a version where the policy names the version. -/
theorem hasKey_configured (h : config.Keyed) :
    (configured env config).hasKey version = true ↔ version ∈ getConfiguredKeyVersions config := by
  constructor
  · intro hkey
    obtain ⟨material, hmaterial, -⟩ := (Option.any_eq_true _ _).mp hkey
    exact mem_of_material h hmaterial
  · intro hmem
    obtain ⟨material, hmaterial, hne⟩ := material_of_mem h hmem
    exact (Option.any_eq_true _ _).mpr ⟨material, hmaterial, decide_eq_true hne⟩

/-- A key that is there is allowed to those who need it. -/
theorem decision_of_mem (h : config.Keyed) (holds : Holds secretOf config)
    {reason : AuthKeyPolicyReason} (hmem : version ∈ getConfiguredKeyVersions config) :
    decisionForVersion config (some version) reason = ⟨true, .ready, some version⟩ ∧
      getKeyMaterial config version = some (secretOf version) := by
  obtain ⟨material, hmaterial, -⟩ := material_of_mem h hmem
  have hsecret := holds version material hmaterial
  subst hsecret
  refine ⟨?_, hmaterial⟩
  rw [decisionForVersion, if_pos (by rw [hmaterial]; rfl)]

end Keys

section Runs

variable {ν A ι : Type} [DecidableEq ι] {host : Host ν} {integerOf : ν → Option ℤ}
  {hmac : String → String → String} {env : Operations.Environment}
  {aggregates : A → Operations.Aggregate} {secretOf : ℕ → String} {f f' f₀ : Fleet}

/-- What every step of the fleet keeps: all that is referred to is configured. -/
structure Fleet.Stocked (env : Operations.Environment) (secretOf : ℕ → String) (f : Fleet) :
    Prop where
  holds : Holds secretOf f.config
  indexed : f.identifiers.Indexed
  repairs : ∀ d ∈ f.identifiers.operations, Operations.Retained (configured env f.config) d
  buckets : KeysPresent f.keyed.settings f.moment f.throttle.buckets

namespace Fleet.Stocked

theorem mem_of_refers (h : f.Stocked env secretOf) {now : Date} (later : f.moment ≤ now)
    {version : ℕ} (hrefers : Refers f.identifiers.operations f.throttle.buckets now version) :
    version ∈ getConfiguredKeyVersions f.config := by
  rcases hrefers with ⟨d, hd, hrequires, hversion⟩ | ⟨b, hb, hlive, rfl⟩
  · exact (hasKey_configured f.keyed).mp (h.repairs d hd hrequires version hversion)
  · exact f.keyed.mem_getConfiguredKeyVersions.mpr (h.buckets b hb (lt_of_le_of_lt later hlive))

theorem rotate (h : f.Stocked env secretOf) {now : Date} {rawInput : String}
    {input : AuditKeyRotationPreflightInput} {result : AuditKeyRotationPreflightResult}
    {config' : AuthConfiguration} (keyed' : config'.Keyed) (later : f.moment ≤ now)
    (holds : Holds secretOf config')
    (parsed : parseAuditKeyRotationPreflightInput host integerOf rawInput = .ok input)
    (passes : runAuditKeyRotationPreflight host integerOf rawInput
      (some ⟨some (f.read now), true⟩) = ⟨0, .result result⟩)
    (current : config'.auditCorrelationKeyVersion = input.candidateCurrentVersion)
    (previous : ∀ version ∈ result.requiredPreviousVersions,
      version ∈ config'.auditCorrelationPreviousKeys.map (·.1)) :
    Fleet.Stocked env secretOf ⟨config', keyed', f.identifiers, f.throttle, now⟩ := by
  have hresult : result = preflightRotation input (f.read now).required := by
    rw [runAuditKeyRotationPreflight, parsed] at passes
    injection passes with _ houtput
    injection houtput with houtput
    exact houtput.symm
  -- what is referred to was configured before, and is the current version or one that is named
  have hkept : ∀ version, Refers f.identifiers.operations f.throttle.buckets now version →
      version ∈ getConfiguredKeyVersions config' := by
    intro version hrefers
    have hpos := pos_of_mem (h.mem_of_refers later hrefers)
    rw [configured_iff keyed', current]
    by_cases heq : version = input.candidateCurrentVersion
    · exact .inl heq
    · refine .inr (previous version ?_)
      rw [hresult]
      exact mem_requiredPreviousVersions.mpr ⟨hpos, .inr ⟨hrefers, heq⟩⟩
  refine ⟨holds, h.indexed, fun d hd hrequires version hversion => ?_, fun b hb hlive => ?_⟩
  · exact (hasKey_configured keyed').mpr (hkept version (.inl ⟨d, hd, hrequires, hversion⟩))
  · exact keyed'.mem_getConfiguredKeyVersions.mp (hkept _ (.inr ⟨b, hb, hlive, rfl⟩))

theorem step (h : f.Stocked env secretOf)
    (hstep : Fleet.Step host integerOf hmac env aggregates secretOf ι f f') :
    f'.Stocked env secretOf := by
  cases hstep with
  | serve runs =>
    obtain ⟨hindexed, hretained⟩ := Operations.retained_of_runs h.indexed h.repairs runs
    exact ⟨h.holds, hindexed, hretained, h.buckets⟩
  | attempt runs => exact ⟨h.holds, h.indexed, h.repairs, h.buckets.runs runs⟩
  | rotate keyed' later holds parsed passes current previous =>
    exact h.rotate keyed' later holds parsed passes current previous

theorem runs (h : f.Stocked env secretOf)
    (hruns : Fleet.Runs host integerOf hmac env aggregates secretOf ι f f') :
    f'.Stocked env secretOf := by
  induction hruns with
  | refl => exact h
  | tail _ hstep ih => exact ih.step hstep

theorem served (h : f.Stocked env secretOf) : f.Served hmac secretOf ι where
  ready now later := by
    have hready : (evaluateReadiness f.config (f.read now).required).ready = true :=
      ready_iff.mpr fun version _ hrefers => h.mem_of_refers later hrefers
    exact ⟨hready, reason_of_ready hready⟩
  repairs d hd hrequires version hversion :=
    decision_of_mem f.keyed h.holds
      (h.mem_of_refers le_rfl (.inl ⟨d, hd, hrequires, hversion⟩))
  buckets b hb hlive :=
    decision_of_mem f.keyed h.holds (h.mem_of_refers le_rfl (.inr ⟨b, hb, hlive, rfl⟩))
  attempts gate c hruns i th decision hreturns hmoment := by
    have hkeyring : f.keyed.settings.keyring ≠ [] := by
      show loadKeyring f.config ≠ []
      rw [f.keyed.loadKeyring_eq]
      exact List.cons_ne_nil _ _
    exact served_of_runs h.buckets hkeyring hruns hreturns hmoment decision rfl

/-- A fleet that is ready has all keys that are referred to. -/
theorem of_ready (holds : Holds secretOf f.config) (hindexed : f.identifiers.Indexed)
    (hrepairs : ∀ d ∈ f.identifiers.operations, d.manifestKeyVersion ≠ some 0)
    (hbuckets : ∀ b ∈ f.throttle.buckets, b.keyVersion ≠ 0)
    (hready : (evaluateReadiness f.config (f.read f.moment).required).ready = true) :
    f.Stocked env secretOf := by
  have hmem := ready_iff.mp hready
  refine ⟨holds, hindexed, fun d hd hrequires version hversion => ?_, fun b hb hlive => ?_⟩
  · refine (hasKey_configured f.keyed).mpr (hmem version ?_ (.inl ⟨d, hd, hrequires, hversion⟩))
    refine Nat.pos_of_ne_zero ?_
    rintro rfl
    exact hrepairs d hd hversion
  · exact f.keyed.mem_getConfiguredKeyVersions.mp
      (hmem _ (Nat.pos_of_ne_zero (hbuckets b hb)) (.inr ⟨b, hb, hlive, rfl⟩))

end Fleet.Stocked

/-- Rotations that follow the preflight, in any number and between any runs of the services, leave
no key missing that anything refers to. -/
theorem rotations_ready (holds : Holds secretOf f₀.config) (hindexed : f₀.identifiers.Indexed)
    (hrepairs : ∀ d ∈ f₀.identifiers.operations, d.manifestKeyVersion ≠ some 0)
    (hbuckets : ∀ b ∈ f₀.throttle.buckets, b.keyVersion ≠ 0)
    (hready : (evaluateReadiness f₀.config (f₀.read f₀.moment).required).ready = true)
    (hruns : Fleet.Runs host integerOf hmac env aggregates secretOf ι f₀ f) :
    f.Served hmac secretOf ι :=
  ((Fleet.Stocked.of_ready holds hindexed hrepairs hbuckets hready).runs hruns).served

end Runs

section Once

/-- A repair that is not through, under the first key. -/
def openRepair : AuthIdentifierOperation :=
  Operations.AuthIdentifierRepairService.newParent "repair" Operations.repairRequest.manifest "hash" 1
    Accounts.staffUserId.1 "f00000000000000000000000" 0

theorem withVersions_holds {current : ℕ} {previous : List ℕ}
    (h : (withVersions current previous).Keyed) :
    Holds (fun _ => developmentAuditSecret) (withVersions current previous) := by
  intro version material hmaterial
  rw [h.getKeyMaterial_eq, h.ringEntry] at hmaterial
  split at hmaterial
  · exact (Option.some.inj hmaterial).symm
  · have hentry := (getEntry_eq_some_iff h.previous.nodup).mp hmaterial
    obtain ⟨_, -, heq⟩ := List.mem_map.mp hentry
    exact (congrArg Prod.snd heq).symm

/-- The repair and a bucket refer to the first key, which is the only one. -/
def beforeRotation : Fleet where
  config := withVersions 1 []
  keyed := withVersions_keyed (by decide) List.nodup_nil (by decide) fun _ h => absurd h List.not_mem_nil
  identifiers := { Operations.contested with operations := [openRepair] }
  throttle := ⟨[knocked 1 0], 0⟩
  moment := 0

def rotationInput : String :=
  "\x7b\"candidateCurrentVersion\":2,\"candidatePreviousVersions\":[]\x7d"

/-- Reads the input of the rotation. -/
def rotationHost : Host ℕ where
  number _ := none
  isIP _ := 0
  parseUrl _ := none
  parseJson rawInput :=
    if rawInput = rotationInput then
      some (.object [("candidateCurrentVersion", .number 2),
        ("candidatePreviousVersions", .array [])])
    else none

/-- The preflight names the first key, and it is kept. -/
theorem rotations_ready_once : ∃ f : Fleet,
    Fleet.Runs rotationHost (fun n => some (n : ℤ)) SignIn.plain.hmac Operations.deployment
      Operations.noAggregates (fun _ => developmentAuditSecret) ℕ beforeRotation f ∧
    getConfiguredKeyVersions f.config = [1, 2] ∧
    f.Served SignIn.plain.hmac (fun _ => developmentAuditSecret) ℕ := by
  have hkeyed : (withVersions 2 [1]).Keyed :=
    withVersions_keyed (by decide) (List.nodup_singleton 1) (by decide) (by decide)
  have hruns : Fleet.Runs rotationHost (fun n => some (n : ℤ)) SignIn.plain.hmac
      Operations.deployment Operations.noAggregates (fun _ => developmentAuditSecret) ℕ
      beforeRotation ⟨withVersions 2 [1], hkeyed, beforeRotation.identifiers,
        beforeRotation.throttle, 5⟩ := by
    have hparsed : parseAuditKeyRotationPreflightInput rotationHost (fun n => some (n : ℤ))
        rotationInput = .ok ⟨2, []⟩ := rfl
    have hpasses : runAuditKeyRotationPreflight rotationHost (fun n => some (n : ℤ)) rotationInput
        (some ⟨some (beforeRotation.read 5), true⟩) = ⟨0, .result ⟨[1], 1, 2, .ok⟩⟩ := rfl
    exact .single (.rotate hkeyed (by decide) (withVersions_holds hkeyed) hparsed hpasses rfl
      (by decide))
  have hversions : getConfiguredKeyVersions (withVersions 2 [1]) = [1, 2] := by decide +kernel
  have hready : (evaluateReadiness beforeRotation.config
      (beforeRotation.read beforeRotation.moment).required).ready = true := by decide +kernel
  have hindexed : beforeRotation.identifiers.Indexed := by decide +kernel
  exact ⟨_, hruns, hversions, rotations_ready (withVersions_holds beforeRotation.keyed) hindexed (by decide)
    (by decide) hready hruns⟩

end Once

end KeyPolicy
