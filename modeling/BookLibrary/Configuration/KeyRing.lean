import BookLibrary.AuthThrottle.Service
import BookLibrary.Configuration.AuthConfig
import BookLibrary.Documents.Maps
import BookLibrary.Documents.Sets
import Mathlib.Data.List.Sort

/-!
# Who reads the keys

The throttle, the policy of the keys, the correlation of sign-ins, the reconciler and the
manifests of repairs each read the keys of the configuration in a way of their own. Of a
configuration that was loaded they all read the same.
-/

namespace Configuration

open AuthThrottle Documents

/-- A buffer as the text of its bytes. -/
def buffer (bytes : List UInt8) : String :=
  String.ofList (bytes.map fun byte => Char.ofNat byte.toNat)

/-- `sortedVersions` of the policy. -/
def sortedVersions (values : List ℕ) : List ℕ :=
  ((values.filter (0 < ·)).eraseDups).insertionSort (· ≤ ·)

section Readers

/-- `AuthThrottleService.decodeSecret` -/
def decodeSecret (value : String) : Option (List UInt8) :=
  if value.toList = [] ∨ ¬ value.toList.all Base64url.isLetter then none
  else
    let decoded := Base64url.decode value.toList
    if 32 ≤ decoded.length then some decoded else none

/-- `AuthIdentifierReconciliationService.decodeConfiguredSecret` -/
def decodeConfiguredSecret (value : String) : List UInt8 :=
  let decoded := Base64url.decode value.toList
  if Base64url.encode decoded = value.toList then decoded else Text.utf8 value.toList

/-- `decodeKeyMaterial` of the manifests. -/
def decodeKeyMaterial (value : String) : List UInt8 :=
  let decoded := Base64url.decode value.toList
  if 0 < decoded.length ∧ Base64url.encode decoded = value.toList then decoded
  else Text.utf8 value.toList

/-- `AuthThrottleService.loadKeyring`: the current key, then the previous ones from the latest
version down. -/
def loadKeyring (config : AuthConfiguration) : List VersionedSecret :=
  match decodeSecret config.auditCorrelationSecret with
  | none => []
  | some secret =>
    if config.auditCorrelationKeyVersion = 0 then []
    else
      let previous := config.auditCorrelationPreviousKeys.filterMap fun entry =>
        (decodeSecret entry.2).bind fun secret =>
          if entry.1 ≠ 0 ∧ entry.1 ≠ config.auditCorrelationKeyVersion then
            some ⟨entry.1, buffer secret⟩
          else none
      ⟨config.auditCorrelationKeyVersion, buffer secret⟩ ::
        previous.insertionSort fun left right => right.version ≤ left.version

def addConfiguredEntries (target source : List (ℕ × String)) : List (ℕ × String) :=
  source.foldl (fun keys entry =>
    if 0 < entry.1 ∧ entry.2 ≠ "" then setEntry entry.1 entry.2 keys else keys) target

/-- `AuthIdentifierRepairKeyPolicyService.configuredKeys`; no other lookup is configured. -/
def configuredKeys (config : AuthConfiguration) : List (ℕ × String) :=
  let keys := addConfiguredEntries [] config.auditCorrelationKeyRing.keysByVersion
  let keys :=
    if 0 < config.auditCorrelationKeyVersion ∧ config.auditCorrelationSecret ≠ "" then
      setEntry config.auditCorrelationKeyVersion config.auditCorrelationSecret keys
    else keys
  addConfiguredEntries keys config.auditCorrelationPreviousKeys

def getKeyMaterial (config : AuthConfiguration) (version : ℕ) : Option String :=
  getEntry version (configuredKeys config)

def getConfiguredKeyVersions (config : AuthConfiguration) : List ℕ :=
  sortedVersions ((configuredKeys config).map (·.1))

/-- The key that `SecurityActivityService` takes of a version. -/
def ringKey (config : AuthConfiguration) (version : ℕ) : Option (List UInt8) :=
  (getEntry version config.auditCorrelationKeyRing.keysByVersion).map fun material =>
    Base64url.decode material.toList

end Readers

section Loaded

variable {ν : Type} {host : Host ν} {env : ProcessEnv} {config : AuthConfiguration}
  {name value : String} {version currentVersion : ℕ} {keys : List (ℕ × String)}

theorem bind_eq_ok {ε α β : Type} {x : Except ε α} {f : α → Except ε β} {b : β} :
    (x >>= f) = .ok b ↔ ∃ a, x = .ok a ∧ f a = .ok b := by
  cases x with
  | error e => simp [bind, Except.bind]
  | ok a => simp [bind, Except.bind]

/-- A loop that may fail: what each round keeps, the rounds counted, holds at its end. -/
theorem foldlM_counted {ε α σ : Type} {f : σ → α → Except ε σ} {P : ℕ → σ → Prop}
    (hstep : ∀ n s a s', P n s → f s a = .ok s' → P (n + 1) s') {items : List α} {n : ℕ} {s s' : σ}
    (h : P n s) (hfold : items.foldlM f s = .ok s') : P (n + items.length) s' := by
  induction items generalizing n s with
  | nil =>
    obtain rfl := Except.ok.inj hfold
    exact h
  | cons a items ih =>
    rw [List.foldlM_cons, bind_eq_ok] at hfold
    obtain ⟨next, hnext, hrest⟩ := hfold
    rw [List.length_cons, ← Nat.add_assoc, Nat.add_right_comm]
    exact ih (hstep n s a next h hnext) hrest

/-- At least 32 bytes, written as base64url. -/
def Canonical (value : String) : Prop :=
  ∃ bytes : List UInt8, 32 ≤ bytes.length ∧ value.toList = Base64url.encode bytes

/-- The secrets that are accepted are what 32 bytes or more are written as. -/
theorem base64urlSecret_eq_ok_iff {secret : String} :
    base64urlSecret name value = .ok secret ↔ secret = value ∧ Canonical value := by
  rw [base64urlSecret]
  constructor
  · intro h
    split at h
    · cases h
    · dsimp only at h
      split at h
      · cases h
      · next hdecoded =>
        push Not at hdecoded
        exact ⟨(Except.ok.inj h).symm, _, hdecoded.1, hdecoded.2.symm⟩
  · rintro ⟨rfl, bytes, hlength, hencode⟩
    have hall : secret.toList.all Base64url.isLetter = true := by
      rw [hencode, List.all_eq_true]
      exact fun c hc => Base64url.isLetter_of_mem_encode hc
    have hne : secret.toList ≠ [] := by
      rw [hencode, ne_eq, Base64url.encode_eq_nil_iff]
      rintro rfl
      exact absurd hlength (by decide)
    rw [if_neg (by simp [hne, hall]), if_neg]
    rw [hencode, Base64url.decode_encode]
    simp [hlength]

/-- However it is decoded, a canonical secret is the bytes that it was written from. -/
theorem Canonical.decoded (h : Canonical value) :
    32 ≤ (Base64url.decode value.toList).length ∧
      decodeSecret value = some (Base64url.decode value.toList) ∧
      decodeConfiguredSecret value = Base64url.decode value.toList ∧
      decodeKeyMaterial value = Base64url.decode value.toList := by
  obtain ⟨bytes, hlength, hencode⟩ := h
  have hall : value.toList.all Base64url.isLetter = true := by
    rw [hencode, List.all_eq_true]
    exact fun c hc => Base64url.isLetter_of_mem_encode hc
  have hne : value.toList ≠ [] := by
    rw [hencode, ne_eq, Base64url.encode_eq_nil_iff]
    rintro rfl
    exact absurd hlength (by decide)
  have hdecode : Base64url.decode value.toList = bytes := by rw [hencode, Base64url.decode_encode]
  refine ⟨hdecode ▸ hlength, ?_, ?_, ?_⟩
  · rw [decodeSecret, if_neg (by simp [hne, hall]), hdecode, if_pos hlength]
  · rw [decodeConfiguredSecret, hdecode, if_pos hencode.symm]
  · rw [decodeKeyMaterial, hdecode, if_pos ⟨by omega, hencode.symm⟩]

theorem Canonical.ne_empty (h : Canonical value) : value ≠ "" := by
  rintro rfl
  obtain ⟨hlength, -⟩ := h.decoded
  exact absurd hlength (by decide)

/-- What the previous keys are when they are accepted. -/
structure Previous (currentVersion : ℕ) (keys : List (ℕ × String)) : Prop where
  nodup : (keys.map (·.1)).Nodup
  versions : ∀ key ∈ keys, 0 < key.1 ∧ key.1 ≤ maxSafeInteger ∧ key.1 ≠ currentVersion
  canonical : ∀ key ∈ keys, Canonical key.2

theorem length_setEntry_le (k : ℕ) (v : String) (entries : List (ℕ × String)) :
    (setEntry k v entries).length ≤ entries.length + 1 := by
  induction entries with
  | nil => exact le_rfl
  | cons e entries ih =>
    rw [setEntry]
    split
    · exact Nat.le_succ _
    · simpa using ih

theorem mem_setEntry {k : ℕ} {v : String} {entries : List (ℕ × String)} {e : ℕ × String}
    (h : e ∈ setEntry k v entries) : e = (k, v) ∨ e ∈ entries := by
  induction entries with
  | nil => exact .inl (List.mem_singleton.mp h)
  | cons e' entries ih =>
    rw [setEntry] at h
    split at h
    · exact (List.mem_cons.mp h).imp_right (List.mem_cons_of_mem _)
    · rcases List.mem_cons.mp h with rfl | h
      · exact .inr List.mem_cons_self
      · exact (ih h).imp_right (List.mem_cons_of_mem _)

/-- A text of a version is the number of one. -/
theorem pos_of_isVersion {text : Text} (h : isVersion text = true) :
    0 < Nat.ofDigitChars 10 text 0 := by
  cases text with
  | nil => cases h
  | cons c rest =>
    simp only [isVersion, Bool.and_eq_true, decide_eq_true_eq] at h
    obtain ⟨⟨hdigit, hzero⟩, -⟩ := h
    have hle : 48 ≤ c.toNat := (Char.isDigit_iff_toNat.mp hdigit).1
    have hne : c.toNat ≠ 48 := fun heq => hzero (Char.toNat_inj.mp heq)
    have hdigit : 0 < 10 * 0 + (c.toNat - '0'.toNat) := by
      rw [show '0'.toNat = 48 from rfl]
      omega
    rw [Nat.ofDigitChars_cons, Nat.ofDigitChars_eq_ofDigitChars_zero]
    exact Nat.add_pos_left (Nat.mul_pos (Nat.pow_pos (by decide)) hdigit) _

theorem Previous.addPreviousKey {entry : String × PlainData ν} {keys' : List (ℕ × String)}
    (h : Previous currentVersion keys)
    (hadd : addPreviousKey name currentVersion keys entry = .ok keys') :
    Previous currentVersion keys' ∧ keys'.length ≤ keys.length + 1 := by
  rw [Configuration.addPreviousKey] at hadd
  split at hadd
  · cases hadd
  · next hversion =>
    split at hadd
    · cases hadd
    · next hcurrent =>
      cases hentry : entry.2 with
      | string secret =>
        rw [hentry] at hadd
        cases hsecret : base64urlSecret name secret with
        | error message =>
          simp only [hsecret] at hadd
          cases hadd
        | ok secret' =>
          obtain ⟨rfl, hcanonical⟩ := base64urlSecret_eq_ok_iff.mp hsecret
          simp only [hsecret] at hadd
          obtain rfl := Except.ok.inj hadd
          push Not at hversion
          refine ⟨⟨nodup_keys_setEntry h.nodup, fun key hkey => ?_, fun key hkey => ?_⟩,
            length_setEntry_le _ _ _⟩
          · rcases mem_setEntry hkey with rfl | hkey
            · exact ⟨pos_of_isVersion hversion.1, hversion.2, hcurrent⟩
            · exact h.versions key hkey
          · rcases mem_setEntry hkey with rfl | hkey
            · exact hcanonical
            · exact h.canonical key hkey
      | _ =>
        rw [hentry] at hadd
        cases hadd

/-- At most two previous keys are accepted. -/
theorem parsePreviousKeys_ok (h : parsePreviousKeys host env currentVersion = .ok keys) :
    Previous currentVersion keys ∧ keys.length ≤ 2 := by
  rw [parsePreviousKeys] at h
  dsimp only at h
  rw [bind_eq_ok] at h
  obtain ⟨parsed, -, h⟩ := h
  cases parsed with
  | object entries =>
    dsimp only at h
    split at h
    · cases h
    · split at h
      · cases h
      · next hlength =>
        have hempty : Previous currentVersion [] :=
          ⟨List.nodup_nil, fun _ hkey => absurd hkey List.not_mem_nil,
            fun _ hkey => absurd hkey List.not_mem_nil⟩
        obtain ⟨hprevious, hle⟩ := foldlM_counted
          (P := fun n keys => Previous currentVersion keys ∧ keys.length ≤ n)
          (fun n keys entry keys' hkeys hadd => by
            obtain ⟨hadded, hone⟩ := hkeys.1.addPreviousKey hadd
            exact ⟨hadded, by omega⟩) ⟨hempty, le_rfl⟩ h
        rw [List.length_nil, Nat.zero_add] at hle
        exact ⟨hprevious, by omega⟩
  | _ => cases h

theorem integerFromEnv_bounds {fallback minimum maximum n : ℕ}
    (h : integerFromEnv host env name fallback minimum maximum = .ok n)
    (hfallback : minimum ≤ fallback ∧ fallback ≤ maximum) : minimum ≤ n ∧ n ≤ maximum := by
  rw [integerFromEnv] at h
  split at h
  · obtain rfl := Except.ok.inj h
    exact hfallback
  · split at h
    · obtain rfl := Except.ok.inj h
      exact hfallback
    · dsimp only at h
      split at h
      · cases h
      · split at h
        · cases h
        · next hrange =>
          push Not at hrange
          obtain rfl := Except.ok.inj h
          omega

theorem productionSecret_ok {fallback secret : String}
    (h : productionSecret env name fallback = .ok secret) (hproduction : isProduction env = true) :
    secret ≠ developmentSecret ∧ 32 ≤ secret.utf8ByteSize := by
  rw [productionSecret] at h
  split at h
  · cases h
  · dsimp only at h
    split at h
    · cases h
    · next hweak =>
      obtain rfl := Except.ok.inj h
      rw [hproduction] at hweak
      push Not at hweak
      exact hweak rfl

/-- The origins of URLs that are nothing but an origin, each once. -/
structure Exact (host : Host ν) (production : Bool) (origins : List String) : Prop where
  nodup : origins.Nodup
  parsed : ∀ origin ∈ origins, ∃ candidate url, host.parseUrl candidate = some url ∧
    url.origin = origin ∧ url.username = "" ∧ url.password = "" ∧ url.pathname = "/" ∧
    (url.protocol = "https:" ∨ url.protocol = "http:" ∧ production = false)

theorem Exact.checkOrigin {origins origins' : List String} {candidate : String}
    (h : Exact host (isProduction env) origins)
    (hcheck : checkOrigin host env name origins candidate = .ok origins') :
    Exact host (isProduction env) origins' ∧ origins'.length = origins.length + 1 := by
  rw [Configuration.checkOrigin] at hcheck
  split at hcheck
  · cases hcheck
  · split at hcheck
    · cases hcheck
    · next url hurl =>
      split at hcheck
      · cases hcheck
      next hshape =>
      split at hcheck
      · cases hcheck
      next hsecure =>
      split at hcheck
      · cases hcheck
      next hnew =>
      obtain rfl := Except.ok.inj hcheck
      push Not at hshape hsecure
      have hnodup : (origins ++ [url.origin]).Nodup := by
        rw [← List.concat_eq_append]
        exact h.nodup.concat hnew
      refine ⟨⟨hnodup, fun origin horigin => ?_⟩, List.length_append⟩
      rcases List.mem_append.mp horigin with hold | hadded
      · exact h.parsed origin hold
      · obtain rfl := List.mem_singleton.mp hadded
        refine ⟨candidate, url, hurl, rfl, hshape.2.1, hshape.2.2.1, hshape.2.2.2, ?_⟩
        by_cases hprotocol : url.protocol = "https:"
        · exact .inl hprotocol
        · refine .inr ⟨?_, ?_⟩
          · by_contra hother
            exact hprotocol (hshape.1 hother)
          · exact Bool.eq_false_of_not_eq_true fun htrue => hprotocol (hsecure htrue)

theorem parseTrustedBrowserOrigins_ok {origins : List String}
    (h : parseTrustedBrowserOrigins host env = .ok origins) :
    Exact host (isProduction env) origins ∧ (isProduction env = true → origins ≠ []) := by
  rw [parseTrustedBrowserOrigins] at h
  split at h
  · cases h
  · rw [bind_eq_ok] at h
    obtain ⟨candidates, -, h⟩ := h
    split at h
    · cases h
    · next hsome =>
      have hempty : Exact host (isProduction env) [] :=
        ⟨List.nodup_nil, fun _ horigin => absurd horigin List.not_mem_nil⟩
      obtain ⟨hexact, hlength⟩ := foldlM_counted
        (P := fun n origins => Exact host (isProduction env) origins ∧ origins.length = n)
        (fun n origins candidate origins' horigins hcheck => by
          obtain ⟨hchecked, hone⟩ := horigins.1.checkOrigin hcheck
          exact ⟨hchecked, hone.trans (congrArg (· + 1) horigins.2)⟩) ⟨hempty, rfl⟩ h
      refine ⟨hexact, fun hproduction hnil => hsome ⟨hproduction, ?_⟩⟩
      rw [hnil, List.length_nil] at hlength
      omega

/-- The keys of the configuration, the current one apart from the previous ones. -/
structure AuthConfiguration.Keyed (config : AuthConfiguration) : Prop where
  positive : 0 < config.auditCorrelationKeyVersion
  current : Canonical config.auditCorrelationSecret
  previous : Previous config.auditCorrelationKeyVersion config.auditCorrelationPreviousKeys
  capacity : config.auditCorrelationPreviousKeys.length ≤ 2
  ring : config.auditCorrelationKeyRing = ⟨config.auditCorrelationKeyVersion,
    setEntry config.auditCorrelationKeyVersion config.auditCorrelationSecret
      config.auditCorrelationPreviousKeys⟩

/-- The numbers that others rely on. -/
structure AuthConfiguration.Bounded (config : AuthConfiguration) : Prop where
  accessToken : 1 ≤ config.accessTokenTtlSeconds ∧ config.accessTokenTtlSeconds ≤ 900
  refreshToken : config.accessTokenTtlSeconds < config.refreshTokenTtlSeconds ∧
    config.refreshTokenTtlSeconds ≤ 2592000
  lease : 30 ≤ config.identifierLeaseSeconds ∧ config.identifierLeaseSeconds ≤ 3600
  batch : 1 ≤ config.identifierReconciliationBatchSize
  retention : 7 ≤ config.identifierOperationRetentionDays ∧
    config.identifierOperationRetentionDays ≤ 365
  assignments : 2 ≤ config.identifierMaxOperationAssignments ∧
    config.identifierMaxOperationAssignments ≤ 100
  limits : 1 ≤ config.signInIdentifierFailureLimit ∧ 1 ≤ config.signInSourceLimit ∧
    1 ≤ config.refreshThrottleLimit
  windows : 1 ≤ config.signInWindowSeconds ∧ 1 ≤ config.refreshThrottleWindowSeconds

/-- What others are let in by. -/
structure AuthConfiguration.Guarded (config : AuthConfiguration) (host : Host ν)
    (production : Bool) : Prop where
  origins : Exact host production config.trustedBrowserOrigins
  secrets : production = true → config.trustedBrowserOrigins ≠ [] ∧
    (config.jwtSecret ≠ developmentSecret ∧ 32 ≤ config.jwtSecret.utf8ByteSize) ∧
    (config.cookieSecret ≠ developmentSecret ∧ 32 ≤ config.cookieSecret.utf8ByteSize)

/-- The checks of the loading, on what is loaded. -/
theorem loadAuthConfig_checked (h : loadAuthConfig host env = .ok config) :
    config.Keyed ∧ config.Bounded ∧ config.Guarded host (isProduction env) := by
  rw [loadAuthConfig] at h
  simp only [bind_eq_ok] at h
  obtain ⟨access, haccess, refresh, hrefresh, h⟩ := h
  split at h
  · cases h
  next hlonger =>
  simp only [bind_eq_ok] at h
  obtain ⟨version, hversion, secret, hsecret, h⟩ := h
  split at h
  · cases h
  simp only [bind_eq_ok] at h
  obtain ⟨previous, hprevious, issuer, -, audience, -, jwtSecret, hjwt, cookieSecret, hcookie, lease,
    hlease, interval, -, batch, hbatch, retention, hretention, assignments, hassignments, failures, hfailures,
    sources, hsources, window, hwindow, refreshes, hrefreshes, refreshWindow, hrefreshWindow,
    cidrs, -, origins, horigins, h⟩ := h
  obtain rfl := Except.ok.inj h
  have haccess := integerFromEnv_bounds haccess (by decide)
  have hrefresh := integerFromEnv_bounds hrefresh (by decide)
  have hversion := integerFromEnv_bounds hversion (by decide)
  obtain ⟨rfl, hcanonical⟩ := base64urlSecret_eq_ok_iff.mp hsecret
  obtain ⟨hprevious, hcapacity⟩ := parsePreviousKeys_ok hprevious
  obtain ⟨hexact, hsome⟩ := parseTrustedBrowserOrigins_ok horigins
  refine ⟨⟨hversion.1, hcanonical, hprevious, hcapacity, rfl⟩, ?_, hexact, fun hproduction =>
    ⟨hsome hproduction, productionSecret_ok hjwt hproduction, productionSecret_ok hcookie hproduction⟩⟩
  exact
    { accessToken := haccess
      refreshToken := ⟨Nat.lt_of_not_le hlonger, hrefresh.2⟩
      lease := integerFromEnv_bounds hlease (by decide)
      batch := (integerFromEnv_bounds hbatch (by decide)).1
      retention := integerFromEnv_bounds hretention (by decide)
      assignments := integerFromEnv_bounds hassignments (by decide)
      limits := ⟨(integerFromEnv_bounds hfailures (by decide)).1,
        (integerFromEnv_bounds hsources (by decide)).1,
        (integerFromEnv_bounds hrefreshes (by decide)).1⟩
      windows := ⟨(integerFromEnv_bounds hwindow (by decide)).1,
        (integerFromEnv_bounds hrefreshWindow (by decide)).1⟩ }

end Loaded

section Sorted

variable {values : List ℕ} {version : ℕ}

@[simp]
theorem mem_sortedVersions : version ∈ sortedVersions values ↔ 0 < version ∧ version ∈ values := by
  rw [sortedVersions, (List.perm_insertionSort _ _).mem_iff, List.mem_eraseDups, List.mem_filter]
  simp [and_comm]

theorem nodup_sortedVersions : (sortedVersions values).Nodup :=
  (List.perm_insertionSort _ _).nodup_iff.mpr (nodup_eraseDups _)

theorem pairwise_sortedVersions : (sortedVersions values).Pairwise (· ≤ ·) :=
  List.pairwise_insertionSort _ _

/-- Versions are the same however often and in whatever order they are named. -/
theorem sortedVersions_congr {values' : List ℕ}
    (h : ∀ version, 0 < version → (version ∈ values ↔ version ∈ values')) :
    sortedVersions values = sortedVersions values' := by
  refine List.Perm.eq_of_pairwise (fun _ _ _ _ => Nat.le_antisymm) pairwise_sortedVersions
    pairwise_sortedVersions ?_
  rw [List.perm_ext_iff_of_nodup nodup_sortedVersions nodup_sortedVersions]
  intro version
  simp only [mem_sortedVersions]
  exact and_congr_right (h version)

end Sorted

section Reading

variable {config : AuthConfiguration} {version : ℕ} {material : String}

theorem getEntry_eq_some_iff {entries : List (ℕ × String)} (hnodup : (entries.map (·.1)).Nodup) :
    getEntry version entries = some material ↔ (version, material) ∈ entries := by
  induction entries with
  | nil => simp [getEntry]
  | cons e entries ih =>
    obtain ⟨known, material'⟩ := e
    rw [List.map_cons, List.nodup_cons] at hnodup
    rw [getEntry, List.mem_cons, Prod.mk.injEq]
    by_cases heq : known = version
    · subst heq
      have hnot : (known, material) ∉ entries := fun hmem =>
        hnodup.1 (List.mem_map.mpr ⟨_, hmem, rfl⟩)
      simp [hnot, eq_comm]
    · rw [if_neg heq, ih hnodup.2]
      simp [Ne.symm heq]

/-- Entries of a record that is fit for it replace what is there. -/
theorem getEntry_addConfiguredEntries {target source : List (ℕ × String)}
    (hnodup : (source.map (·.1)).Nodup) (hfit : ∀ key ∈ source, 0 < key.1 ∧ key.2 ≠ "") :
    getEntry version (addConfiguredEntries target source) =
      (getEntry version source).or (getEntry version target) := by
  induction source generalizing target with
  | nil => rfl
  | cons key source ih =>
    rw [List.map_cons, List.nodup_cons] at hnodup
    have hstep : addConfiguredEntries target (key :: source) =
        addConfiguredEntries (setEntry key.1 key.2 target) source := by
      rw [addConfiguredEntries, List.foldl_cons, if_pos (hfit key List.mem_cons_self)]
      rfl
    rw [hstep, ih hnodup.2 fun key' hkey => hfit key' (List.mem_cons_of_mem _ hkey),
      getEntry_setEntry, getEntry]
    by_cases heq : key.1 = version
    · have hnone : getEntry version source = none := by
        rw [Option.eq_none_iff_forall_ne_some]
        intro material hsome
        exact hnodup.1 (heq ▸ mem_keys_iff.mpr ⟨material, hsome⟩)
      rw [hnone, if_pos heq, if_pos heq, Option.none_or, Option.some_or]
    · rw [if_neg heq, if_neg heq]

namespace AuthConfiguration.Keyed

variable (h : config.Keyed)

include h

theorem ringEntry : getEntry version config.auditCorrelationKeyRing.keysByVersion =
    if config.auditCorrelationKeyVersion = version then some config.auditCorrelationSecret
    else getEntry version config.auditCorrelationPreviousKeys := by
  rw [h.ring, getEntry_setEntry]

theorem previous_current :
    getEntry config.auditCorrelationKeyVersion config.auditCorrelationPreviousKeys = none := by
  rw [Option.eq_none_iff_forall_ne_some]
  intro material hsome
  exact (h.previous.versions _ ((getEntry_eq_some_iff h.previous.nodup).mp hsome)).2.2 rfl

theorem fit_previous : ∀ key ∈ config.auditCorrelationPreviousKeys, 0 < key.1 ∧ key.2 ≠ "" :=
  fun key hkey => ⟨(h.previous.versions key hkey).1, (h.previous.canonical key hkey).ne_empty⟩

/-- The policy has the keys of the ring. -/
theorem getKeyMaterial_eq : getKeyMaterial config version =
    getEntry version config.auditCorrelationKeyRing.keysByVersion := by
  have hring : (config.auditCorrelationKeyRing.keysByVersion.map (·.1)).Nodup := by
    rw [h.ring]
    exact nodup_keys_setEntry h.previous.nodup
  have hfit : ∀ key ∈ config.auditCorrelationKeyRing.keysByVersion, 0 < key.1 ∧ key.2 ≠ "" := by
    intro key hkey
    rw [h.ring] at hkey
    rcases mem_setEntry hkey with rfl | hkey
    · exact ⟨h.positive, h.current.ne_empty⟩
    · exact h.fit_previous key hkey
  rw [getKeyMaterial, configuredKeys, getEntry_addConfiguredEntries h.previous.nodup h.fit_previous,
    if_pos ⟨h.positive, h.current.ne_empty⟩, getEntry_setEntry,
    getEntry_addConfiguredEntries hring hfit, h.ringEntry]
  by_cases heq : config.auditCorrelationKeyVersion = version
  · subst heq
    simp [h.previous_current]
  · simp only [if_neg heq]
    cases getEntry version config.auditCorrelationPreviousKeys with
    | none => rfl
    | some material => rfl

theorem canonical_of_getEntry
    (hentry : getEntry version config.auditCorrelationKeyRing.keysByVersion = some material) :
    Canonical material := by
  rw [h.ringEntry] at hentry
  split at hentry
  · obtain rfl := Option.some.inj hentry
    exact h.current
  · exact h.previous.canonical _ ((getEntry_eq_some_iff h.previous.nodup).mp hentry)

/-- The throttle has them, decoded. -/
theorem loadKeyring_eq : loadKeyring config =
    ⟨config.auditCorrelationKeyVersion,
      buffer (Base64url.decode config.auditCorrelationSecret.toList)⟩ ::
      (config.auditCorrelationPreviousKeys.map fun key =>
        (⟨key.1, buffer (Base64url.decode key.2.toList)⟩ : VersionedSecret)).insertionSort
        fun left right => right.version ≤ left.version := by
  rw [loadKeyring, h.current.decoded.2.1]
  dsimp only
  rw [if_neg (Nat.pos_iff_ne_zero.mp h.positive)]
  congr 2
  rw [← List.filterMap_eq_map]
  refine List.filterMap_congr fun key hkey => ?_
  obtain ⟨hpositive, -, hcurrent⟩ := h.previous.versions key hkey
  rw [(h.previous.canonical key hkey).decoded.2.1, Option.bind_some,
    if_pos ⟨Nat.pos_iff_ne_zero.mp hpositive, hcurrent⟩]
  rfl

theorem mem_loadKeyring {key : VersionedSecret} : key ∈ loadKeyring config ↔
    ∃ material, getEntry key.version config.auditCorrelationKeyRing.keysByVersion = some material ∧
      key.secret = buffer (Base64url.decode material.toList) := by
  rw [h.loadKeyring_eq, List.mem_cons, (List.perm_insertionSort _ _).mem_iff, List.mem_map]
  simp only [h.ringEntry]
  constructor
  · rintro (rfl | ⟨previous, hprevious, rfl⟩)
    · exact ⟨_, if_pos rfl, rfl⟩
    · refine ⟨previous.2, ?_, rfl⟩
      rw [if_neg (h.previous.versions previous hprevious).2.2.symm]
      exact (getEntry_eq_some_iff h.previous.nodup).mpr hprevious
  · rintro ⟨material, hentry, hsecret⟩
    split at hentry
    · next hcurrent =>
      obtain rfl := Option.some.inj hentry
      refine .inl ?_
      rw [← hsecret, hcurrent]
    · refine .inr ⟨_, (getEntry_eq_some_iff h.previous.nodup).mp hentry, ?_⟩
      rw [← hsecret]

theorem versions_loadKeyring : ((loadKeyring config).map (·.version)).Perm
    (config.auditCorrelationKeyVersion :: config.auditCorrelationPreviousKeys.map (·.1)) := by
  rw [h.loadKeyring_eq, List.map_cons]
  refine List.Perm.cons _ (((List.perm_insertionSort _ _).map _).trans (List.Perm.of_eq ?_))
  rw [List.map_map]
  rfl

theorem nodup_loadKeyring : ((loadKeyring config).map (·.version)).Nodup := by
  rw [h.versions_loadKeyring.nodup_iff, List.nodup_cons]
  refine ⟨fun hmem => ?_, h.previous.nodup⟩
  obtain ⟨key, hkey, heq⟩ := List.mem_map.mp hmem
  exact (h.previous.versions key hkey).2.2 heq

theorem length_loadKeyring : (loadKeyring config).length ≤ 3 := by
  have hlength := h.versions_loadKeyring.length_eq
  rw [List.length_map, List.length_cons, List.length_map] at hlength
  have hcapacity := h.capacity
  omega

/-- The versions that the policy names are those of the throttle. -/
theorem mem_getConfiguredKeyVersions : version ∈ getConfiguredKeyVersions config ↔
    version ∈ (loadKeyring config).map (·.version) := by
  rw [getConfiguredKeyVersions, mem_sortedVersions, mem_keys_iff]
  constructor
  · rintro ⟨-, material, hentry⟩
    have hring := h.getKeyMaterial_eq.symm.trans hentry
    exact List.mem_map.mpr ⟨⟨version, buffer (Base64url.decode material.toList)⟩,
      h.mem_loadKeyring.mpr ⟨material, hring, rfl⟩, rfl⟩
  · intro hmem
    obtain ⟨key, hkey, rfl⟩ := List.mem_map.mp hmem
    obtain ⟨material, hentry, -⟩ := h.mem_loadKeyring.mp hkey
    refine ⟨?_, material, h.getKeyMaterial_eq.trans hentry⟩
    rcases List.mem_cons.mp (h.versions_loadKeyring.subset hmem) with heq | hprevious
    · rw [heq]
      exact h.positive
    · obtain ⟨previous, hprevious, heq⟩ := List.mem_map.mp hprevious
      rw [← heq]
      exact (h.previous.versions previous hprevious).1

end AuthConfiguration.Keyed

/-- The keyring of the throttle, as its settings carry it. -/
def AuthConfiguration.Keyed.settings (h : config.Keyed) : Settings where
  keyring := loadKeyring config
  apart := h.nodup_loadKeyring
  signInIdentifierFailure := ⟨config.signInIdentifierFailureLimit, config.signInWindowSeconds⟩
  signInSource := ⟨config.signInSourceLimit, config.signInWindowSeconds⟩
  refresh := ⟨config.refreshThrottleLimit, config.refreshThrottleWindowSeconds⟩

/-- The five readers have the same keys: under each version the same bytes, or nothing. -/
structure AuthConfiguration.Coherent (config : AuthConfiguration) : Prop where
  current : (loadKeyring config).head?.map (·.version) = some config.auditCorrelationKeyVersion
  apart : ((loadKeyring config).map (·.version)).Nodup
  capacity : (loadKeyring config).length ≤ 3
  versions : ∀ version, version ∈ getConfiguredKeyVersions config ↔
    version ∈ (loadKeyring config).map (·.version)
  read : ∀ version,
    (version ∉ getConfiguredKeyVersions config ∧ getKeyMaterial config version = none ∧
      ringKey config version = none) ∨
    ∃ material bytes, getKeyMaterial config version = some material ∧ 32 ≤ bytes.length ∧
      ⟨version, buffer bytes⟩ ∈ loadKeyring config ∧ ringKey config version = some bytes ∧
      Base64url.decode material.toList = bytes ∧ decodeConfiguredSecret material = bytes ∧
      decodeKeyMaterial material = bytes

theorem AuthConfiguration.Keyed.coherent (h : config.Keyed) : config.Coherent where
  current := by rw [h.loadKeyring_eq, List.head?_cons, Option.map_some]
  apart := h.nodup_loadKeyring
  capacity := h.length_loadKeyring
  versions _ := h.mem_getConfiguredKeyVersions
  read version := by
    cases hentry : getEntry version config.auditCorrelationKeyRing.keysByVersion with
    | none =>
      refine .inl ⟨fun hmem => ?_, h.getKeyMaterial_eq.trans hentry, by rw [ringKey, hentry]; rfl⟩
      obtain ⟨key, hkey, rfl⟩ := List.mem_map.mp (h.mem_getConfiguredKeyVersions.mp hmem)
      obtain ⟨material, hsome, -⟩ := h.mem_loadKeyring.mp hkey
      exact Option.some_ne_none material (hsome.symm.trans hentry)
    | some material =>
      obtain ⟨hlength, -, hconfigured, hmaterial⟩ := (h.canonical_of_getEntry hentry).decoded
      exact .inr ⟨material, _, h.getKeyMaterial_eq.trans hentry, hlength,
        h.mem_loadKeyring.mpr ⟨material, hentry, rfl⟩, by rw [ringKey, hentry]; rfl, rfl, hconfigured,
        hmaterial⟩

/-- A configuration that is loaded is within its bounds, lets in none but exact origins, and has
keys that all who read them read alike. -/
theorem readers_agree {ν : Type} {host : Host ν} {env : ProcessEnv}
    (h : loadAuthConfig host env = .ok config) :
    config.Coherent ∧ config.Bounded ∧ config.Guarded host (isProduction env) := by
  obtain ⟨hkeyed, hbounded, hguarded⟩ := loadAuthConfig_checked h
  exact ⟨hkeyed.coherent, hbounded, hguarded⟩

end Reading

section Local

/-- One previous key, as JSON. -/
def onePreviousKey : String := "\x7b\"1\":\"" ++ developmentAuditSecret ++ "\"\x7d"

/-- Reads what the local environment has. -/
def localHost : Host ℕ where
  number text := if text = "2" then some 2 else none
  isIP _ := 0
  parseUrl candidate := some ⟨"http:", "", "", "/", "", "", candidate⟩
  parseJson rawValue :=
    if rawValue = "[]" then some (.array [])
    else if rawValue = localBrowserOrigins then
      some (.array [.string "http://localhost:5173", .string "http://127.0.0.1:5173"])
    else if rawValue = onePreviousKey then some (.object [("1", .string developmentAuditSecret)])
    else none

/-- The key has been rotated once. -/
def rotatedEnv : ProcessEnv := fun name =>
  if name = "AUTH_AUDIT_CORRELATION_KEY_VERSION" then some "2"
  else if name = "AUTH_AUDIT_CORRELATION_PREVIOUS_KEYS" then some onePreviousKey
  else none

theorem readers_agree_local : ∃ config, loadAuthConfig localHost rotatedEnv = .ok config ∧
    (loadKeyring config).map (·.version) = [2, 1] ∧ config.Coherent := by
  have hrun : ((loadAuthConfig localHost rotatedEnv).map fun config =>
      (loadKeyring config).map (·.version)) = .ok [2, 1] := by decide +kernel
  cases hload : loadAuthConfig localHost rotatedEnv with
  | error message =>
    rw [hload] at hrun
    cases hrun
  | ok config =>
    rw [hload] at hrun
    exact ⟨config, rfl, Except.ok.inj hrun, (readers_agree hload).1⟩

end Local

end Configuration
