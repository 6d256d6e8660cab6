import BookLibrary.Documents.Collection
import BookLibrary.Documents.Maps

/-!
# The origin guard of browser sessions

`AuthBrowserOriginGuard`: a request whose `Origin` header is not one trusted origin is denied, and
the denials are warned of by samples. The parser of the host for URLs is a parameter.
-/

namespace BrowserOrigin

open Documents

inductive OriginDenialReason where
  | missing | multiple | opaqueOrigin | malformed | untrusted
  deriving DecidableEq

def OriginDenialReason.text : OriginDenialReason → String
  | .missing => "missing"
  | .multiple => "multiple"
  | .opaqueOrigin => "opaque"
  | .malformed => "malformed"
  | .untrusted => "untrusted"

inductive BrowserSessionRoute where
  | login | memberLogin | refresh | logout | logoutAll | browserSession
  deriving DecidableEq

def BrowserSessionRoute.text : BrowserSessionRoute → String
  | .login => "login"
  | .memberLogin => "member-login"
  | .refresh => "refresh"
  | .logout => "logout"
  | .logoutAll => "logout-all"
  | .browserSession => "browser-session"

structure WarningSample where
  lastEmittedAt : Date
  suppressedCount : ℕ
  deriving DecidableEq

def warningIntervalMs : ℤ := 60000

def genericDenialMessage : String := "Browser session request denied"

/-- What `new URL` makes of a text. -/
structure Url where
  protocol : String
  username : String
  password : String
  pathname : String
  search : String
  hash : String
  origin : String

inductive OriginHeader where
  | text (value : String)
  | texts (values : List String)

structure Request where
  origin : Option OriginHeader
  path : Option String
  routePath : Option String

structure Warning where
  event : String
  route : BrowserSessionRoute
  reason : OriginDenialReason
  suppressedCount : ℕ
  deriving DecidableEq

/-- The guard: the origins that are trusted, and the samples by their keys. -/
structure AuthBrowserOriginGuard where
  trustedOrigins : List String
  warningSamples : List (String × WarningSample)

namespace AuthBrowserOriginGuard

def new (trustedBrowserOrigins : List String) : AuthBrowserOriginGuard := ⟨trustedBrowserOrigins, []⟩

/-- `parse` is `new URL`, which throws at what is no URL. -/
def denialReason (parse : String → Option Url) (guard : AuthBrowserOriginGuard)
    (originHeader : Option OriginHeader) : Option OriginDenialReason :=
  match originHeader with
  | none => some .missing
  | some (.texts []) => some .missing
  | some (.texts (_ :: _)) => some .multiple
  | some (.text value) =>
    if value = "" then some .missing
    else if value.contains ',' then some .multiple
    else if value = "null" then some .opaqueOrigin
    else match parse value with
      | none => some .malformed
      | some parsed =>
        if (parsed.protocol ≠ "http:" ∧ parsed.protocol ≠ "https:") ∨ parsed.username ≠ "" ∨
            parsed.password ≠ "" ∨ parsed.pathname ≠ "/" ∨ parsed.search ≠ "" ∨ parsed.hash ≠ "" then
          some .malformed
        else if parsed.origin ∈ guard.trustedOrigins then none
        else some .untrusted

def routeCategory (request : Request) : BrowserSessionRoute :=
  let path := (request.routePath <|> request.path).getD ""
  let segments := ((path.toList.splitOn '/').map String.ofList).filter (· ≠ "")
  match segments.getLast? with
  | some "login" => .login
  | some "member-login" => .memberLogin
  | some "refresh" => .refresh
  | some "logout" => .logout
  | some "logout-all" => .logoutAll
  | _ => .browserSession

def sampleKey (route : BrowserSessionRoute) (reason : OriginDenialReason) : String :=
  route.text ++ ":" ++ reason.text

def emitWarning (guard : AuthBrowserOriginGuard) (route : BrowserSessionRoute)
    (reason : OriginDenialReason) (now : Date) (suppressedCount : ℕ) :
    AuthBrowserOriginGuard × Option Warning :=
  let samples := setEntry (sampleKey route reason) ⟨now, 0⟩ guard.warningSamples
  ({ guard with warningSamples := samples },
    some ⟨"browser-session-origin-denied", route, reason, suppressedCount⟩)

/-- The guard afterwards, and the warning unless it is suppressed. -/
def sampleWarning (guard : AuthBrowserOriginGuard) (route : BrowserSessionRoute)
    (reason : OriginDenialReason) (now : Date) : AuthBrowserOriginGuard × Option Warning :=
  match getEntry (sampleKey route reason) guard.warningSamples with
  | some sample =>
    if now - sample.lastEmittedAt < warningIntervalMs then
      let suppressed := { sample with suppressedCount := sample.suppressedCount + 1 }
      let samples := setEntry (sampleKey route reason) suppressed guard.warningSamples
      ({ guard with warningSamples := samples }, none)
    else guard.emitWarning route reason now sample.suppressedCount
  | none => guard.emitWarning route reason now 0

/-- Whether the request may pass, or the message of the exception. -/
def canActivate (parse : String → Option Url) (guard : AuthBrowserOriginGuard) (request : Request)
    (now : Date) : Except String Bool × AuthBrowserOriginGuard × Option Warning :=
  match guard.denialReason parse request.origin with
  | none => (.ok true, guard, none)
  | some reason =>
    (.error genericDenialMessage, guard.sampleWarning (routeCategory request) reason now)

end AuthBrowserOriginGuard

end BrowserOrigin
