import BookLibrary.BrowserOrigin.Guard
import BookLibrary.PlainData.Value
import BookLibrary.Text.Base64url
import BookLibrary.Text.Trimming

/-!
# The configuration of authentication

`loadAuthConfig`: what the variables of the environment are read as, and what is refused. A
record whose names are versions is a list of entries under the numbers that they are.
-/

namespace Configuration

open BrowserOrigin Documents

/-- What the loading takes from the host: `Number(text)` where that is an integer, `isIP`,
`new URL` and `JSON.parse`, of which the latter two may throw. -/
structure Host (ν : Type) where
  number : String → Option ℤ
  isIP : String → ℕ
  parseUrl : String → Option Url
  parseJson : String → Option (PlainData ν)

/-- The variables of `process.env`. -/
abbrev ProcessEnv := String → Option String

structure AuditCorrelationKeyRing where
  currentVersion : ℕ
  keysByVersion : List (ℕ × String)

structure AuthConfiguration where
  issuer : String
  audience : String
  jwtSecret : String
  jwtExpiresIn : String
  accessTokenTtlSeconds : ℕ
  refreshTokenTtlSeconds : ℕ
  cookieSecret : String
  auditCorrelationSecret : String
  auditCorrelationKeyVersion : ℕ
  auditCorrelationPreviousKeys : List (ℕ × String)
  auditCorrelationKeyRing : AuditCorrelationKeyRing
  identifierLeaseSeconds : ℕ
  identifierReconciliationIntervalSeconds : ℕ
  identifierReconciliationBatchSize : ℕ
  identifierOperationRetentionDays : ℕ
  identifierMaxOperationAssignments : ℕ
  refreshRotationLeaseSeconds : ℕ
  refreshRotationReconciliationIntervalSeconds : ℕ
  refreshRotationReconciliationBatchSize : ℕ
  signInIdentifierFailureLimit : ℕ
  signInSourceLimit : ℕ
  signInWindowSeconds : ℕ
  refreshThrottleLimit : ℕ
  refreshThrottleWindowSeconds : ℕ
  trustedProxyCidrs : List String
  trustedBrowserOrigins : List String

def developmentSecret : String := "development-only-secret"

/-- `Buffer.from('development-only-audit-correlation-key').toString('base64url')` -/
def developmentAuditSecret : String :=
  String.ofList (Base64url.encode (Text.utf8 "development-only-audit-correlation-key".toList))

/-- `JSON.stringify(localBrowserOrigins)` -/
def localBrowserOrigins : String := "[\"http://localhost:5173\",\"http://127.0.0.1:5173\"]"

def REFRESH_ROTATION_LEASE_SECONDS : ℕ := 30
def REFRESH_ROTATION_RECONCILIATION_INTERVAL_SECONDS : ℕ := 60
def REFRESH_ROTATION_RECONCILIATION_BATCH_SIZE : ℕ := 100

/-- `Number.MAX_SAFE_INTEGER` -/
def maxSafeInteger : ℕ := 9007199254740991

def configurationError (name reason : String) : String :=
  "Invalid authentication configuration: " ++ name ++ " " ++ reason

section Loading

variable {ν : Type} (host : Host ν) (env : ProcessEnv)

def isProduction : Bool := env "NODE_ENV" = some "production"

def integerFromEnv (name : String) (fallback minimum maximum : ℕ) : Except String ℕ :=
  match env name with
  | none => .ok fallback
  | some rawValue =>
    if rawValue = "" then .ok fallback
    else
      let refused := Except.error (configurationError name
        ("must be an integer from " ++ toString minimum ++ " to " ++ toString maximum))
      match host.number rawValue with
      | none => refused
      | some parsed =>
        if parsed < minimum ∨ maximum < parsed then refused else .ok parsed.toNat

def requiredText (name developmentFallback : String) : Except String String :=
  let value := String.ofList (Text.trim ((env name).getD "").toList)
  if value = "" ∧ isProduction env then
    .error (configurationError name "is required in production")
  else .ok (if value = "" then developmentFallback else value)

def productionSecret (name developmentFallback : String) : Except String String :=
  if (env name).getD "" = "" ∧ isProduction env then
    .error (configurationError name "is required in production")
  else
    let resolved := (env name).getD developmentFallback
    if isProduction env ∧ (resolved = developmentSecret ∨ resolved.utf8ByteSize < 32) then
      .error (configurationError name "must contain at least 32 bytes")
    else .ok resolved

def base64urlSecret (name value : String) : Except String String :=
  if value.toList = [] ∨ ¬ value.toList.all Base64url.isLetter then
    .error (configurationError name "must be an unpadded base64url secret")
  else
    let decoded := Base64url.decode value.toList
    if decoded.length < 32 ∨ Base64url.encode decoded ≠ value.toList then
      .error (configurationError name "must decode to at least 32 bytes")
    else .ok value

def parseJson (name rawValue : String) : Except String (PlainData ν) :=
  match host.parseJson rawValue with
  | some parsed => .ok parsed
  | none => .error (configurationError name "must be valid JSON")

/-- `/^([^"\\]+)"\s*:/`, after a quote: the text of the group, and the rest. -/
def serializedKey (text : Text) : Option (Text × Text) :=
  let inside (c : Char) : Bool := c ≠ '"' && c ≠ '\\'
  match text.takeWhile inside, text.dropWhile inside with
  | key@(_ :: _), '"' :: rest =>
    match rest.dropWhile Text.isWhite with
    | ':' :: rest => some (key, rest)
    | _ => none
  | _, _ => none

/-- `rawValue.matchAll(/"([^"\\]+)"\s*:/g)`, in as many steps as there are characters. -/
def serializedKeys : ℕ → Text → List Text
  | 0, _ => []
  | _, [] => []
  | steps + 1, c :: rest =>
    if c ≠ '"' then serializedKeys steps rest
    else match serializedKey rest with
      | some (key, rest) => key :: serializedKeys steps rest
      | none => serializedKeys steps rest

/-- `/^[1-9]\d*$/` -/
def isVersion (text : Text) : Bool :=
  match text with
  | [] => false
  | c :: rest => c.isDigit && c ≠ '0' && rest.all Char.isDigit

/-- One round of the loop of `parsePreviousKeys`. -/
def addPreviousKey (name : String) (currentVersion : ℕ) (previousKeys : List (ℕ × String))
    (entry : String × PlainData ν) : Except String (List (ℕ × String)) :=
  let version := Nat.ofDigitChars 10 entry.1.toList 0
  if ¬ isVersion entry.1.toList ∨ maxSafeInteger < version then
    .error (configurationError name "must use positive integer versions")
  else if version = currentVersion then
    .error (configurationError name "must not contain the current version")
  else match entry.2 with
    | .string secret =>
      (base64urlSecret name secret).map fun secret => setEntry version secret previousKeys
    | _ => .error (configurationError name "must map versions to secrets")

def parsePreviousKeys (currentVersion : ℕ) : Except String (List (ℕ × String)) := do
  let name := "AUTH_AUDIT_CORRELATION_PREVIOUS_KEYS"
  let rawValue := (env name).getD "\x7b\x7d"
  match ← parseJson host name rawValue with
  | .object entries =>
    let keys := serializedKeys rawValue.length rawValue.toList
    if keys.eraseDups.length ≠ keys.length then
      throw (configurationError name "must not contain duplicate versions")
    else if 2 < entries.length then
      throw (configurationError name "must contain at most two versions")
    else entries.foldlM (addPreviousKey name currentVersion) []
  | _ => throw (configurationError name "must be a JSON object")

def stringOf : PlainData ν → Option String
  | .string text => some text
  | _ => none

def parseJsonStringArray (name rawValue : String) : Except String (List String) := do
  match ← parseJson host name rawValue with
  | .array items =>
    match items.mapM stringOf with
    | some texts => return texts
    | none => throw (configurationError name "must be a JSON array of strings")
  | _ => throw (configurationError name "must be a JSON array of strings")

/-- One round of the loop of `parseTrustedProxyCidrs`, on the texts before. -/
def checkCidr (name : String) (seen : List String) (cidr : String) : Except String (List String) :=
  let address := (cidr.toList.rdropWhile (· ≠ '/')).dropLast
  let prefixText := if address = [] then [] else cidr.toList.rtakeWhile (· ≠ '/')
  let family := host.isIP (String.ofList address)
  let bits := Nat.ofDigitChars 10 prefixText 0
  if family = 0 ∨ prefixText = [] ∨ ¬ prefixText.all Char.isDigit ∨
      (if family = 4 then 32 else 128) < bits then
    .error (configurationError name "contains an invalid IPv4 or IPv6 CIDR")
  else if isProduction env ∧ bits = 0 then
    .error (configurationError name "must not trust an all-address CIDR")
  else if cidr ∈ seen then .error (configurationError name "must not contain duplicate CIDRs")
  else .ok (seen ++ [cidr])

def parseTrustedProxyCidrs : Except String (List String) := do
  let name := "AUTH_TRUSTED_PROXY_CIDRS"
  let cidrs ← parseJsonStringArray host name ((env name).getD "[]")
  cidrs.foldlM (checkCidr host env name) []

/-- One round of the loop of `parseTrustedBrowserOrigins`, on the origins before. -/
def checkOrigin (name : String) (canonicalOrigins : List String) (candidate : String) :
    Except String (List String) :=
  if candidate = "null" ∨ '*' ∈ candidate.toList ∨ '?' ∈ candidate.toList ∨
      '#' ∈ candidate.toList then
    .error (configurationError name "contains an unsafe origin")
  else match host.parseUrl candidate with
    | none => .error (configurationError name "contains a malformed origin")
    | some url =>
      if (url.protocol ≠ "http:" ∧ url.protocol ≠ "https:") ∨ url.username ≠ "" ∨
          url.password ≠ "" ∨ url.pathname ≠ "/" then
        .error (configurationError name "must contain exact HTTP(S) origins")
      else if isProduction env ∧ url.protocol ≠ "https:" then
        .error (configurationError name "must contain only HTTPS origins")
      else if url.origin ∈ canonicalOrigins then
        .error (configurationError name "must not contain duplicate origins")
      else .ok (canonicalOrigins ++ [url.origin])

def parseTrustedBrowserOrigins : Except String (List String) := do
  let name := "AUTH_TRUSTED_BROWSER_ORIGINS"
  if (env name).getD "" = "" ∧ isProduction env then
    throw (configurationError name "is required in production")
  else do
    let origins ← parseJsonStringArray host name ((env name).getD localBrowserOrigins)
    if isProduction env ∧ origins.length = 0 then
      throw (configurationError name "must contain at least one origin")
    else origins.foldlM (checkOrigin host env name) []

def loadAuthConfig : Except String AuthConfiguration := do
  let accessTokenTtlSeconds ← integerFromEnv host env "ACCESS_TOKEN_TTL_SECONDS" 900 1 900
  let refreshTokenTtlSeconds ←
    integerFromEnv host env "REFRESH_TOKEN_TTL_SECONDS" (60 * 60 * 24 * 30) 1 2592000
  if refreshTokenTtlSeconds ≤ accessTokenTtlSeconds then
    throw (configurationError "REFRESH_TOKEN_TTL_SECONDS" "must exceed ACCESS_TOKEN_TTL_SECONDS")
  else do
    let auditCorrelationKeyVersion ←
      integerFromEnv host env "AUTH_AUDIT_CORRELATION_KEY_VERSION" 1 1 maxSafeInteger
    let auditCorrelationSecret ← base64urlSecret "AUTH_AUDIT_CORRELATION_SECRET"
      ((env "AUTH_AUDIT_CORRELATION_SECRET").getD developmentAuditSecret)
    if isProduction env ∧ (env "AUTH_AUDIT_CORRELATION_SECRET").getD "" = "" then
      throw (configurationError "AUTH_AUDIT_CORRELATION_SECRET" "is required in production")
    else do
      let auditCorrelationPreviousKeys ← parsePreviousKeys host env auditCorrelationKeyVersion
      let keysByVersion :=
        setEntry auditCorrelationKeyVersion auditCorrelationSecret auditCorrelationPreviousKeys
      let issuer ← requiredText env "JWT_ISSUER" "book-library-local"
      let audience ← requiredText env "JWT_AUDIENCE" "book-library-api"
      let jwtSecret ← productionSecret env "JWT_SECRET" developmentSecret
      let cookieSecret ← productionSecret env "AUTH_COOKIE_SECRET" developmentSecret
      let identifierLeaseSeconds ←
        integerFromEnv host env "AUTH_IDENTIFIER_LEASE_SECONDS" 300 30 3600
      let identifierReconciliationIntervalSeconds ←
        integerFromEnv host env "AUTH_IDENTIFIER_RECONCILIATION_INTERVAL_SECONDS" 60 1
          maxSafeInteger
      let identifierReconciliationBatchSize ←
        integerFromEnv host env "AUTH_IDENTIFIER_RECONCILIATION_BATCH_SIZE" 100 1 maxSafeInteger
      let identifierOperationRetentionDays ←
        integerFromEnv host env "AUTH_IDENTIFIER_OPERATION_RETENTION_DAYS" 90 7 365
      let identifierMaxOperationAssignments ←
        integerFromEnv host env "AUTH_IDENTIFIER_MAX_OPERATION_ASSIGNMENTS" 20 2 100
      let signInIdentifierFailureLimit ←
        integerFromEnv host env "AUTH_SIGNIN_IDENTIFIER_FAILURE_LIMIT" 5 1 maxSafeInteger
      let signInSourceLimit ←
        integerFromEnv host env "AUTH_SIGNIN_SOURCE_LIMIT" 20 1 maxSafeInteger
      let signInWindowSeconds ←
        integerFromEnv host env "AUTH_SIGNIN_WINDOW_SECONDS" 900 1 maxSafeInteger
      let refreshThrottleLimit ←
        integerFromEnv host env "AUTH_REFRESH_THROTTLE_LIMIT" 30 1 maxSafeInteger
      let refreshThrottleWindowSeconds ←
        integerFromEnv host env "AUTH_REFRESH_THROTTLE_WINDOW_SECONDS" 300 1 maxSafeInteger
      let trustedProxyCidrs ← parseTrustedProxyCidrs host env
      let trustedBrowserOrigins ← parseTrustedBrowserOrigins host env
      return {
        issuer := issuer
        audience := audience
        jwtSecret := jwtSecret
        jwtExpiresIn := toString accessTokenTtlSeconds ++ "s"
        accessTokenTtlSeconds := accessTokenTtlSeconds
        refreshTokenTtlSeconds := refreshTokenTtlSeconds
        cookieSecret := cookieSecret
        auditCorrelationSecret := auditCorrelationSecret
        auditCorrelationKeyVersion := auditCorrelationKeyVersion
        auditCorrelationPreviousKeys := auditCorrelationPreviousKeys
        auditCorrelationKeyRing := ⟨auditCorrelationKeyVersion, keysByVersion⟩
        identifierLeaseSeconds := identifierLeaseSeconds
        identifierReconciliationIntervalSeconds := identifierReconciliationIntervalSeconds
        identifierReconciliationBatchSize := identifierReconciliationBatchSize
        identifierOperationRetentionDays := identifierOperationRetentionDays
        identifierMaxOperationAssignments := identifierMaxOperationAssignments
        refreshRotationLeaseSeconds := REFRESH_ROTATION_LEASE_SECONDS
        refreshRotationReconciliationIntervalSeconds :=
          REFRESH_ROTATION_RECONCILIATION_INTERVAL_SECONDS
        refreshRotationReconciliationBatchSize := REFRESH_ROTATION_RECONCILIATION_BATCH_SIZE
        signInIdentifierFailureLimit := signInIdentifierFailureLimit
        signInSourceLimit := signInSourceLimit
        signInWindowSeconds := signInWindowSeconds
        refreshThrottleLimit := refreshThrottleLimit
        refreshThrottleWindowSeconds := refreshThrottleWindowSeconds
        trustedProxyCidrs := trustedProxyCidrs
        trustedBrowserOrigins := trustedBrowserOrigins }

end Loading

end Configuration
