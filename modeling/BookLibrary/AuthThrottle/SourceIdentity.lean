import Mathlib.Data.List.Basic

/-!
# The identity of a source

`AuthSourceIdentityService`: the address that a request is throttled by. Behind trusted proxies it
is the first hop, from the right of the `X-Forwarded-For` header, that is not trusted.
-/

namespace SourceIdentity

/-- Whether an address is trusted at its place in the chain. -/
abbrev Trust := String → ℕ → Bool

/-- What the service takes from outside: `isIP` and `toLowerCase` of the host, `JSON.parse` of a
list, and `compile` and `all` of `proxy-addr`; the latter three may throw. -/
structure Host (Headers : Type) where
  isIP : String → Bool
  toLowerCase : String → String
  parseJsonArray : String → Option (Option (List (Option String)))
  compile : List String → Option Trust
  all : Headers → String → Trust → Option (List String)
  noHeaders : Headers

/-- The request, with the addresses of `socket` and `connection`. -/
structure AuthSourceRequest (Headers : Type) where
  headers : Option Headers
  socketAddress : Option String
  connectionAddress : Option String

/-- The setting: a text, or a list whose entries need not be strings, or something else. -/
inductive Configured where
  | text (raw : String)
  | list (entries : List (Option String))
  | other

def UNKNOWN_SOURCE_IDENTITY : String := "unknown-peer"

structure AuthSourceIdentityService where
  trustedProxyCidrs : List String
  trustProxy : Option Trust
  untrusting : trustedProxyCidrs = [] → trustProxy = none

variable {Headers : Type} (host : Host Headers)

section Addresses

/-- `^::ffff:(\d{1,3}(?:\.\d{1,3}){3})$`, in either case: the text of the group. -/
def ipv4Mapped (address : List Char) : Option (List Char) :=
  let octet (digits : List Char) : Bool :=
    decide (1 ≤ digits.length) && decide (digits.length ≤ 3) && digits.all Char.isDigit
  let mapped := address.drop 7
  let octets := mapped.splitOn '.'
  if (address.take 7).map Char.toLower = "::ffff:".toList ∧ octets.length = 4 ∧ octets.all octet then
    some mapped
  else none

def normalizeAddress (address : Option String) : Option String :=
  match address with
  | none => none
  | some address =>
    if address = "" then none
    else
      let chars := address.toList
      let unwrapped :=
        if chars.head? = some '[' ∧ chars.getLast? = some ']' then (chars.drop 1).dropLast else chars
      let normalized :=
        match ipv4Mapped unwrapped with
        | some mapped => String.ofList mapped
        | none => host.toLowerCase (String.ofList unwrapped)
      if host.isIP normalized then some normalized else none

end Addresses

section Configuration

def loadTrustedProxyCidrs (configured : Option Configured) (environment : Option String) :
    Except String (List String) :=
  let raw := (configured <|> environment.map Configured.text).getD (.list [])
  let parsed : Except String (Option (List (Option String))) :=
    match raw with
    | .text raw =>
      match host.parseJsonArray raw with
      | some parsed => .ok parsed
      | none => .error "AUTH_TRUSTED_PROXY_CIDRS must be valid JSON"
    | .list entries => .ok (some entries)
    | .other => .ok none
  match parsed with
  | .error message => .error message
  | .ok parsed =>
    match parsed.bind fun entries => entries.mapM id with
    | none => .error "AUTH_TRUSTED_PROXY_CIDRS must be a JSON string array"
    | some parsed =>
      if parsed ≠ [] ∧ (host.compile parsed).isNone then
        .error "AUTH_TRUSTED_PROXY_CIDRS contains an invalid CIDR"
      else .ok parsed

/-- The constructor of the service. -/
def AuthSourceIdentityService.new (configured : Option Configured) (environment : Option String) :
    Except String AuthSourceIdentityService :=
  match loadTrustedProxyCidrs host configured environment with
  | .error message => .error message
  | .ok cidrs => .ok
    { trustedProxyCidrs := cidrs
      trustProxy := if cidrs = [] then none else host.compile cidrs
      untrusting := fun hnone => if_pos hnone }

end Configuration

def AuthSourceRequest.peerAddress (request : AuthSourceRequest Headers) : Option String :=
  request.socketAddress <|> request.connectionAddress

/-- The end of the chain, unless one of its addresses is none. -/
def identityOf (directPeer : String) (chain : List String) : String :=
  let normalizedChain := chain.map fun address => normalizeAddress host (some address)
  if normalizedChain.any Option.isNone then directPeer
  else (normalizedChain.getLast?.bind id).getD directPeer

namespace AuthSourceIdentityService

def resolve (service : AuthSourceIdentityService) (request : AuthSourceRequest Headers) : String :=
  match normalizeAddress host request.peerAddress with
  | none => UNKNOWN_SOURCE_IDENTITY
  | some directPeer =>
    match service.trustProxy with
    | none => directPeer
    | some trustProxy =>
      if trustProxy directPeer 0 then
        match host.all (request.headers.getD host.noHeaders) directPeer trustProxy with
        | some chain => identityOf host directPeer chain
        | none => directPeer
      else directPeer

end AuthSourceIdentityService

/-- The addresses up to and including the first that is not trusted, the first at place `i`. -/
def upToUntrusted (trust : Trust) : ℕ → List String → List String
  | _, [] => []
  | i, address :: addresses =>
    address :: if trust address i then upToUntrusted trust (i + 1) addresses else []

/-- The lists are the same up to and including the first address that is not trusted, or to
their ends. -/
def Agree (trust : Trust) : ℕ → List String → List String → Prop
  | _, [], [] => True
  | i, address :: addresses, address' :: addresses' =>
    address = address' ∧ (trust address i = true → Agree trust (i + 1) addresses addresses')
  | _, _, _ => False

/-- `proxy-addr` lists the peer and the hops of the header, from its right, up to and including the
first that is not trusted. -/
def Host.ListsHops (hops : Headers → Option (List String)) : Prop :=
  ∀ headers peer trust, host.all headers peer trust =
    (hops headers).map fun addresses => upToUntrusted trust 0 (peer :: addresses)

/-- The headers list the same hops as far as these count, or neither can be read. -/
def SameHops (trust : Trust) : Option (List String) → Option (List String) → Prop
  | some addresses, some addresses' => Agree trust 1 addresses addresses'
  | none, none => True
  | _, _ => False

theorem Agree.upToUntrusted_eq {trust : Trust} {i : ℕ} {addresses addresses' : List String}
    (h : Agree trust i addresses addresses') :
    upToUntrusted trust i addresses = upToUntrusted trust i addresses' := by
  induction addresses generalizing i addresses' with
  | nil =>
    cases addresses' with
    | nil => rfl
    | cons _ _ => exact h.elim
  | cons address addresses ih =>
    cases addresses' with
    | nil => exact h.elim
    | cons address' addresses' =>
      obtain ⟨rfl, hrest⟩ := h
      rw [upToUntrusted, upToUntrusted]
      by_cases htrust : trust address i = true
      · rw [if_pos htrust, if_pos htrust, ih (hrest htrust)]
      · rw [if_neg htrust, if_neg htrust]

/-- The chains of two headers with the same hops. -/
theorem SameHops.chain_eq {trust : Trust} {listed listed' : Option (List String)} {peer : String}
    (h : SameHops trust listed listed') :
    listed.map (fun addresses => upToUntrusted trust 0 (peer :: addresses)) =
      listed'.map fun addresses => upToUntrusted trust 0 (peer :: addresses) := by
  cases listed with
  | none =>
    cases listed' with
    | none => rfl
    | some _ => exact h.elim
  | some addresses =>
    cases listed' with
    | none => exact h.elim
    | some addresses' =>
      have heq : upToUntrusted trust 1 addresses = upToUntrusted trust 1 addresses' :=
        h.upToUntrusted_eq
      simp only [Option.map_some, upToUntrusted, Nat.zero_add, heq]

variable {host}

/-- What a header cannot choose: the hops beyond the first that is not trusted, and any hop where
the peer itself is not trusted. -/
structure Unspoofed (host : Host Headers) (hops : Headers → Option (List String))
    (service : AuthSourceIdentityService) : Prop where
  behind : ∀ request request' : AuthSourceRequest Headers,
    request.peerAddress = request'.peerAddress →
    (∀ trust, service.trustProxy = some trust →
      SameHops trust (hops (request.headers.getD host.noHeaders))
        (hops (request'.headers.getD host.noHeaders))) →
    service.resolve host request = service.resolve host request'
  direct : ∀ request : AuthSourceRequest Headers,
    service.trustedProxyCidrs = [] ∨ (∀ trust peer, service.trustProxy = some trust →
      normalizeAddress host request.peerAddress = some peer → trust peer 0 = false) →
    service.resolve host request =
      (normalizeAddress host request.peerAddress).getD UNKNOWN_SOURCE_IDENTITY

theorem identity_unspoofed {hops : Headers → Option (List String)} (hlists : host.ListsHops hops)
    (service : AuthSourceIdentityService) : Unspoofed host hops service := by
  refine ⟨fun request request' hpeer hsame => ?_, fun request hdirect => ?_⟩
  · rw [AuthSourceIdentityService.resolve, AuthSourceIdentityService.resolve, hpeer]
    cases normalizeAddress host request'.peerAddress with
    | none => rfl
    | some peer =>
      cases htrust : service.trustProxy with
      | none => rfl
      | some trust =>
        simp only [hlists _ peer trust, (hsame trust htrust).chain_eq]
  · rw [AuthSourceIdentityService.resolve]
    cases hpeer : normalizeAddress host request.peerAddress with
    | none => rfl
    | some peer =>
      cases htrust : service.trustProxy with
      | none => rfl
      | some trust =>
        rcases hdirect with hnone | huntrusted
        · have := service.untrusting hnone
          rw [htrust] at this
          cases this
        · simp only [huntrusted trust peer htrust hpeer, Bool.false_eq_true, if_false,
            Option.getD_some]

section Example

/-- The entries of a header, from its right. -/
def entriesOf (header : String) : List String :=
  (header.toList.splitOn ',').reverse.map fun entry => String.ofList (entry.filter fun c => c ≠ ' ')

/-- A host for addresses of dotted digits, and a proxy list that names addresses one by one. -/
def dotted : Host String where
  isIP address := address ≠ "" ∧ address.toList.all fun c => c.isDigit || c = '.'
  toLowerCase := String.toLower
  parseJsonArray _ := none
  compile cidrs := some fun address _ => address ∈ cidrs
  all header peer trust := some (upToUntrusted trust 0 (peer :: entriesOf header))
  noHeaders := ""

def behindProxy : AuthSourceIdentityService where
  trustedProxyCidrs := ["10.0.0.1", "10.0.0.2"]
  trustProxy := some fun address _ => address ∈ ["10.0.0.1", "10.0.0.2"]
  untrusting := nofun

def forwardedFor (header : String) : AuthSourceRequest String := ⟨some header, some "::ffff:10.0.0.1", none⟩

/-- A client that adds an address in front of its own. -/
theorem identity_unspoofed_prefixed :
    behindProxy.resolve dotted (forwardedFor "6.6.6.6, 203.0.113.9, 10.0.0.2") =
      behindProxy.resolve dotted (forwardedFor "203.0.113.9, 10.0.0.2") ∧
    behindProxy.resolve dotted (forwardedFor "203.0.113.9, 10.0.0.2") = "203.0.113.9" := by
  have hlists : dotted.ListsHops fun header => some (entriesOf header) := fun _ _ _ => rfl
  refine ⟨(identity_unspoofed hlists behindProxy).behind _ _ rfl ?_, by decide +kernel⟩
  rintro trust ⟨⟩
  have hleft : entriesOf "6.6.6.6, 203.0.113.9, 10.0.0.2" =
      ["10.0.0.2", "203.0.113.9", "6.6.6.6"] := by decide +kernel
  have hright : entriesOf "203.0.113.9, 10.0.0.2" = ["10.0.0.2", "203.0.113.9"] := by
    decide +kernel
  simp only [forwardedFor, Option.getD_some, hleft, hright]
  exact ⟨rfl, fun _ => ⟨rfl, fun h => absurd h (by decide +kernel)⟩⟩

end Example

end SourceIdentity
