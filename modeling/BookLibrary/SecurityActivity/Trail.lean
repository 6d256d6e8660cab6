import BookLibrary.Operations.Verdicts
import BookLibrary.SecurityActivity.Redaction
import BookLibrary.Text.Trimming

/-!
# The trail of security events

`SecurityActivityService` only ever adds to the trail. Whatever its callers pass, an event has
its context redacted, and an identifier is in it at most as a hash under a key of the service.
-/

namespace SecurityActivity

open Documents Operations Operations.SecurityActivityService
open Accounts (SecurityActivityActorType SecurityActivityOutcome)

variable {ν : Type}

inductive SecurityActivityEventType where
  | signInSuccess | signInFailure | authorizationDenied | roleChanged | accountStatusChanged
  | identifierConflictDetected | identifierConflictResolved | identifierReservationRecovered
  | identifierRepairResumed | tokenRefreshed | refreshReplayDetected | tokenRevoked | signOut
  deriving DecidableEq

inductive PersistenceBoundary where
  | securityEvent | browserOriginDenial
  deriving DecidableEq

structure SecurityActivityEvent (ν : Type) where
  eventId : Option String
  eventType : SecurityActivityEventType
  actorType : SecurityActivityActorType
  actorId : Option String
  targetType : Option String
  targetId : Option String
  clientId : Option String
  subjectType : Option String
  subjectId : Option String
  outcome : SecurityActivityOutcome
  reasonCategory : Option String
  identifierCorrelationHash : Option String
  correlationKeyVersion : Option ℤ
  operationId : Option String
  requestId : Option String
  ipHash : Option String
  userAgentHash : Option String
  context : Option (PlainData ν)
  createdAt : Date

structure SecurityActivityEventDocument (ν : Type) extends SecurityActivityEvent ν where
  id : ObjectId

structure RecordSecurityActivityInput (ν : Type) where
  eventId : Option String := none
  eventType : SecurityActivityEventType
  actorType : Option SecurityActivityActorType := none
  actorId : Option String := none
  targetType : Option String := none
  targetId : Option String := none
  clientId : Option String := none
  subjectType : Option String := none
  subjectId : Option String := none
  outcome : SecurityActivityOutcome
  reasonCategory : Option String := none
  identifierCorrelationHash : Option String := none
  correlationKeyVersion : Option ℤ := none
  operationId : Option String := none
  requestId : Option String := none
  ipHash : Option String := none
  userAgentHash : Option String := none
  context : Option (List (String × PlainData ν)) := none
  persistenceBoundary : Option PersistenceBoundary := none

structure RecordFailedSignInInput where
  normalizedIdentifier : Option String
  subject : Option (String × String)
  reasonCategory : String

structure SecurityActivityActorReference where
  actorType : SecurityActivityActorType
  actorId : Option String

structure RecordIdentifierOperationTerminalInput where
  operationId : String
  operationType : String
  terminalStatus : TerminalStatus
  actor : Option SecurityActivityActorReference
  outcome : SecurityActivityOutcome
  reasonCategory : String

structure RecordIdentifierRepairResumedInput where
  operationId : String
  resumeId : String
  originalActor : Option SecurityActivityActorReference
  resumingActor : SecurityActivityActorReference

/-- `auth.auditCorrelationKeyRing`. -/
structure AuditCorrelationKeyRing where
  currentVersion : ℤ
  keysByVersion : ℤ → Option String

inductive Failure where
  | error (message : String)
  | validation
  | duplicateKey
  | database

/-- A text that is there and is not empty. -/
def present (value : Option String) : Bool := value.getD "" != ""

/-- `trim: true` of the schema. -/
def trimmed (value : Option String) : Option String :=
  value.map fun text => String.ofList (Text.trim text.toList)

section Events

/-- What is stored of the input. -/
def eventOf (input : RecordSecurityActivityInput ν) (now : Date) : SecurityActivityEvent ν where
  eventId := trimmed input.eventId
  eventType := input.eventType
  actorType := input.actorType.getD .unknown
  actorId := input.actorId
  targetType := input.targetType
  targetId := input.targetId
  clientId := input.clientId
  subjectType := input.subjectType
  subjectId := input.subjectId
  outcome := input.outcome
  reasonCategory := input.reasonCategory
  identifierCorrelationHash := input.identifierCorrelationHash
  correlationKeyVersion := input.correlationKeyVersion
  operationId := trimmed input.operationId
  requestId := input.requestId
  ipHash := input.ipHash
  userAgentHash := input.userAgentHash
  context := some (redactContext (.object (input.context.getD [])))
  createdAt := now

/-- The event that `persist` creates, or the error that it throws before. -/
def persist (input : RecordSecurityActivityInput ν) (allowIdentifierCorrelation : Bool) (now : Date) :
    Except Failure (SecurityActivityEvent ν) :=
  if input.persistenceBoundary = some .browserOriginDenial then
    .error (.error "Browser-origin denials are operational telemetry only")
  else if !allowIdentifierCorrelation &&
      (present input.identifierCorrelationHash || input.correlationKeyVersion.getD 0 != 0) then
    .error (.error "Identifier correlation must be derived by SecurityActivityService")
  else .ok (eventOf input now)

/-- `hmac key text` is the HMAC-SHA256, in base64url, under the bytes that the key denotes in
base64url. -/
def identifierCorrelation (hmac : String → String → String) (ring : Option AuditCorrelationKeyRing)
    (normalizedIdentifier : Option String) : Option (String × ℤ) :=
  if present normalizedIdentifier then
    match ring with
    | none => none
    | some ring =>
      if ring.currentVersion = 0 then none
      else
        let material := ring.keysByVersion ring.currentVersion
        if present material then
          some (hmac (material.getD "")
            ("book-library/auth-sign-in/v1\x00" ++ normalizedIdentifier.getD ""), ring.currentVersion)
        else none
  else none

def failedSignInInput (correlation : Option (String × ℤ)) (input : RecordFailedSignInInput) :
    RecordSecurityActivityInput ν where
  eventType := .signInFailure
  actorType := some .unknown
  subjectType := input.subject.map Prod.fst
  subjectId := input.subject.map Prod.snd
  outcome := .failure
  reasonCategory := some (safeReasonCategory (some input.reasonCategory) "sign-in-failed")
  identifierCorrelationHash := correlation.map Prod.fst
  correlationKeyVersion := correlation.map Prod.snd

def failedSignIn (hmac : String → String → String) (ring : Option AuditCorrelationKeyRing)
    (input : RecordFailedSignInInput) : RecordSecurityActivityInput ν :=
  failedSignInInput
    (if input.subject.isSome then none
    else identifierCorrelation hmac ring input.normalizedIdentifier) input

def operationTerminal (input : RecordIdentifierOperationTerminalInput) :
    RecordSecurityActivityInput ν where
  eventId := some (terminalEventId input.operationId input.terminalStatus)
  eventType :=
    if input.terminalStatus = .completed ∧
        (input.operationType = "resolve-conflict" ∨ input.operationType = "offline-repair") then
      .identifierConflictResolved
    else .identifierReservationRecovered
  actorType := some ((input.actor.map (·.actorType)).getD .system)
  actorId := input.actor.bind (·.actorId)
  targetType := some "auth-identifier-operation"
  targetId := some input.operationId
  operationId := some input.operationId
  outcome := input.outcome
  reasonCategory := some (safeReasonCategory (some input.reasonCategory)
    "identifier-operation-terminal")
  context := some [("operationType", .string input.operationType),
    ("terminalStatus", .string input.terminalStatus.text)]

def actorTypeText : SecurityActivityActorType → String
  | .staff => "staff"
  | .member => "member"
  | .system => "system"
  | .unknown => "unknown"

def safeActorReference (actor : Option SecurityActivityActorReference) : PlainData ν :=
  match actor with
  | none => .undefined
  | some actor =>
    .object (("actorType", .string (actorTypeText actor.actorType)) ::
      if present actor.actorId then [("actorId", .string (actor.actorId.getD ""))] else [])

def repairResumed (input : RecordIdentifierRepairResumedInput) : RecordSecurityActivityInput ν where
  eventId := some (resumedEventId input.operationId input.resumeId)
  eventType := .identifierRepairResumed
  actorType := some input.resumingActor.actorType
  actorId := input.resumingActor.actorId
  targetType := some "auth-identifier-operation"
  targetId := some input.operationId
  operationId := some input.operationId
  outcome := .success
  reasonCategory := some "identifier-repair-resumed"
  context := some [("originalActor", safeActorReference input.originalActor),
    ("resumingActor", safeActorReference (some input.resumingActor))]

end Events

section Writes

/-- The events, in any order. -/
abbrev Trail (ν : Type) := List (SecurityActivityEventDocument ν)

/-- The validators of the schema: the hash and the version of its key come together. -/
def SecurityActivityEvent.Valid (event : SecurityActivityEvent ν) : Prop :=
  (present event.identifierCorrelationHash = true ↔ event.correlationKeyVersion.isSome = true) ∧
    ∀ version ∈ event.correlationKeyVersion, 1 ≤ version

/-- `uq_security_activity_event_id` has a document for the event. -/
def Taken (eventId : Option String) (trail : Trail ν) : Prop :=
  ∃ d ∈ trail, d.eventId = eventId ∧ eventId ≠ none

def Inserted (event : SecurityActivityEvent ν) (trail trail' : Trail ν) : Prop :=
  ∃ id, (∀ d ∈ trail, d.id ≠ id) ∧ ¬ Taken event.eventId trail ∧
    trail' = { event with id } :: trail

/-- `create`. The database may fail before or after the write. -/
def Create (event : SecurityActivityEvent ν) (trail : Trail ν) : Except Failure Unit → Trail ν → Prop
  | .ok _, trail' => event.Valid ∧ Inserted event trail trail'
  | .error .validation, trail' => ¬ event.Valid ∧ trail' = trail
  | .error .duplicateKey, trail' => event.Valid ∧ Taken event.eventId trail ∧ trail' = trail
  | .error .database, trail' => trail' = trail ∨ event.Valid ∧ Inserted event trail trail'
  | .error (.error _), _ => False

/-- `updateOne` by the event id that only sets on insert; error 11000 is passed over. -/
def RecordIdempotent (input : RecordSecurityActivityInput ν) (now : Date) (trail : Trail ν) :
    Except Failure Unit → Trail ν → Prop
  | .ok _, trail' => Taken (eventOf input now).eventId trail ∧ trail' = trail ∨
      Inserted (eventOf input now) trail trail'
  | .error .database, trail' => trail' = trail ∨ Inserted (eventOf input now) trail trail'
  | .error _, _ => False

def Persist (input : RecordSecurityActivityInput ν) (allowIdentifierCorrelation : Bool) (now : Date)
    (trail : Trail ν) (r : Except Failure Unit) (trail' : Trail ν) : Prop :=
  match persist input allowIdentifierCorrelation now with
  | .error failure => r = .error failure ∧ trail' = trail
  | .ok event => Create event trail r trail'

/-- A call of the service, at a time, with the key ring of that time. -/
inductive Recorded (hmac : String → String → String) (trail trail' : Trail ν) : Prop where
  | record (input : RecordSecurityActivityInput ν) (now : Date) (r : Except Failure Unit)
      (ends : Persist input false now trail r trail')
  | recordFailedSignIn (ring : Option AuditCorrelationKeyRing) (input : RecordFailedSignInInput)
      (now : Date) (r : Except Failure Unit)
      (ends : Persist (failedSignIn hmac ring input) true now trail r trail')
  | recordIdentifierOperationTerminal (input : RecordIdentifierOperationTerminalInput) (now : Date)
      (r : Except Failure Unit) (ends : RecordIdempotent (operationTerminal input) now trail r trail')
  | recordIdentifierRepairResumed (input : RecordIdentifierRepairResumedInput) (now : Date)
      (r : Except Failure Unit) (ends : RecordIdempotent (repairResumed input) now trail r trail')

/-- Any number of calls. -/
abbrev Grows (hmac : String → String → String) : Trail ν → Trail ν → Prop :=
  Relation.ReflTransGen (Recorded hmac)

end Writes

section Safety

variable {hmac : String → String → String} {trail trail' : Trail ν}
  {event : SecurityActivityEvent ν} {now : Date}

/-- The context shows nothing at a sensitive key, and what is kept of an identifier is a hash that
the service made of one that no account was found for. -/
structure SecurityActivityEvent.Safe (hmac : String → String → String)
    (event : SecurityActivityEvent ν) : Prop where
  redacted : event.context.map redactContext = event.context
  valid : event.Valid
  correlated : present event.identifierCorrelationHash = true →
    event.eventType = .signInFailure ∧ event.subjectId = none ∧ ∃ ring identifier hash version,
      event.identifierCorrelationHash = some hash ∧ event.correlationKeyVersion = some version ∧
      identifierCorrelation hmac ring identifier = some (hash, version)

theorem redacted_eventOf (input : RecordSecurityActivityInput ν) :
    (eventOf input now).context.map redactContext = (eventOf input now).context := by
  simp only [eventOf, Option.map_some, redactContext_eq_mask, PlainData.mask_mask]

/-- An event without a hash. -/
theorem safe_of_no_hash (input : RecordSecurityActivityInput ν)
    (hhash : present input.identifierCorrelationHash = false)
    (hvalid : (eventOf input now).Valid) : (eventOf input now).Safe hmac where
  redacted := redacted_eventOf input
  valid := hvalid
  correlated := fun h => by
    rw [show (eventOf input now).identifierCorrelationHash = input.identifierCorrelationHash from rfl,
      hhash] at h
    cases h

theorem valid_of_no_correlation {input : RecordSecurityActivityInput ν}
    (hhash : input.identifierCorrelationHash = none) (hversion : input.correlationKeyVersion = none) :
    (eventOf input now).Valid := by
  simp [SecurityActivityEvent.Valid, eventOf, present, hhash, hversion]

theorem persist_ok {input : RecordSecurityActivityInput ν} {allow : Bool}
    (h : persist input allow now = .ok event) :
    event = eventOf input now ∧
      (allow = false → present input.identifierCorrelationHash = false) := by
  rw [persist] at h
  split at h
  · cases h
  · split at h
    · cases h
    · next hhash =>
      refine ⟨(Except.ok.inj h).symm, ?_⟩
      rintro rfl
      rw [Bool.not_false, Bool.true_and, Bool.or_eq_true, not_or] at hhash
      exact Bool.eq_false_of_not_eq_true hhash.1

theorem failedSignIn_safe {ring : Option AuditCorrelationKeyRing} {input : RecordFailedSignInInput}
    (hvalid : (eventOf (failedSignIn hmac ring input : RecordSecurityActivityInput ν) now).Valid) :
    (eventOf (failedSignIn hmac ring input : RecordSecurityActivityInput ν) now).Safe hmac := by
  refine ⟨redacted_eventOf _, hvalid, fun h => ?_⟩
  cases hsubject : input.subject with
  | some subject => simp [eventOf, failedSignIn, failedSignInInput, hsubject, present] at h
  | none =>
    cases hcorrelation : identifierCorrelation hmac ring input.normalizedIdentifier with
    | none => simp [eventOf, failedSignIn, failedSignInInput, hsubject, hcorrelation, present] at h
    | some correlation =>
      obtain ⟨hash, version⟩ := correlation
      refine ⟨rfl, ?_, ring, input.normalizedIdentifier, hash, version, ?_, ?_, hcorrelation⟩ <;>
        simp [eventOf, failedSignIn, failedSignInInput, hsubject, hcorrelation]

theorem Create.cases {r : Except Failure Unit} (h : Create event trail r trail') :
    trail' = trail ∨ event.Valid ∧ Inserted event trail trail' := by
  match r, h with
  | .ok _, h => exact .inr h
  | .error .validation, h => exact .inl h.2
  | .error .duplicateKey, h => exact .inl h.2.2
  | .error .database, h => exact h

theorem RecordIdempotent.cases {input : RecordSecurityActivityInput ν} {r : Except Failure Unit}
    (h : RecordIdempotent input now trail r trail') :
    trail' = trail ∨ Inserted (eventOf input now) trail trail' := by
  match r, h with
  | .ok _, .inl h => exact .inl h.2
  | .ok _, .inr h => exact .inr h
  | .error .database, h => exact h

/-- All that a call can do: nothing, or insert one safe event. -/
theorem Recorded.cases (h : Recorded hmac trail trail') :
    trail' = trail ∨ ∃ event, event.Safe hmac ∧ Inserted event trail trail' := by
  cases h with
  | record input now r ends =>
    rw [Persist] at ends
    cases hp : persist input false now with
    | error failure =>
      rw [hp] at ends
      exact .inl ends.2
    | ok event =>
      rw [hp] at ends
      obtain ⟨rfl, hhash⟩ := persist_ok hp
      exact ends.cases.imp_right fun h => ⟨_, safe_of_no_hash input (hhash rfl) h.1, h.2⟩
  | recordFailedSignIn ring input now r ends =>
    rw [Persist] at ends
    cases hp : persist (failedSignIn hmac ring input) true now with
    | error failure =>
      rw [hp] at ends
      exact .inl ends.2
    | ok event =>
      rw [hp] at ends
      obtain ⟨rfl, -⟩ := persist_ok hp
      exact ends.cases.imp_right fun h => ⟨_, failedSignIn_safe h.1, h.2⟩
  | recordIdentifierOperationTerminal input now r ends =>
    exact ends.cases.imp_right fun h =>
      ⟨_, safe_of_no_hash _ rfl (valid_of_no_correlation rfl rfl), h⟩
  | recordIdentifierRepairResumed input now r ends =>
    exact ends.cases.imp_right fun h =>
      ⟨_, safe_of_no_hash _ rfl (valid_of_no_correlation rfl rfl), h⟩

/-- What holds of every trail of the service. -/
structure Kept (hmac : String → String → String) (trail : Trail ν) : Prop where
  ids : (trail.map (·.id)).Nodup
  eventIds : Unique (·.eventId) trail
  safe : ∀ d ∈ trail, d.Safe hmac

theorem Kept.inserted (hkept : Kept hmac trail) (hsafe : event.Safe hmac)
    (h : Inserted event trail trail') : Kept hmac trail' := by
  obtain ⟨id, hid, htaken, rfl⟩ := h
  refine ⟨?_, ?_, List.forall_mem_cons.mpr ⟨hsafe, hkept.safe⟩⟩
  · rw [List.map_cons, List.nodup_cons]
    refine ⟨fun hmem => ?_, hkept.ids⟩
    obtain ⟨d, hd, heq⟩ := List.mem_map.mp hmem
    exact hid d hd heq
  · rw [Documents.Unique, List.filterMap_cons]
    cases heventId : event.eventId with
    | none => exact hkept.eventIds
    | some eventId =>
      refine List.nodup_cons.mpr ⟨fun hmem => ?_, hkept.eventIds⟩
      obtain ⟨d, hd, heq⟩ := List.mem_filterMap.mp hmem
      exact htaken ⟨d, hd, heq.trans heventId.symm, by rw [heventId]; exact Option.some_ne_none _⟩

theorem Recorded.sublist (h : Recorded hmac trail trail') : trail.Sublist trail' := by
  obtain rfl | ⟨event, -, id, -, -, rfl⟩ := h.cases
  · exact .refl _
  · exact List.sublist_cons_self _ _

theorem Recorded.kept (h : Recorded hmac trail trail') (hkept : Kept hmac trail) :
    Kept hmac trail' := by
  obtain rfl | ⟨event, hsafe, hinserted⟩ := h.cases
  · exact hkept
  · exact hkept.inserted hsafe hinserted

theorem Grows.sublist (h : Grows hmac trail trail') : trail.Sublist trail' := by
  induction h with
  | refl => exact .refl _
  | tail _ hstep ih => exact ih.trans hstep.sublist

theorem Grows.kept (h : Grows hmac trail trail') (hkept : Kept hmac trail) : Kept hmac trail' := by
  induction h with
  | refl => exact hkept
  | tail _ hstep ih => exact hstep.kept ih

theorem kept_nil : Kept (ν := ν) hmac [] :=
  ⟨List.nodup_nil, List.nodup_nil, fun _ hd => absurd hd List.not_mem_nil⟩

end Safety

section Verdicts

variable {hmac : String → String → String} {trail trail' : Trail ν} {now : Date}

/-- A text that white space neither starts nor ends. -/
theorem trim_eq_self {text : Text} {a b : Char} (ha : text.head? = some a)
    (hb : text.getLast? = some b) (hawhite : Text.isWhite a = false)
    (hbwhite : Text.isWhite b = false) : Text.trim text = text := by
  cases text with
  | nil => cases ha
  | cons c rest =>
    obtain rfl : c = a := Option.some.inj ha
    rw [Text.trim, List.dropWhile_cons_of_neg (by simp [hawhite]), List.rdropWhile_eq_self_iff]
    intro hne
    rw [List.getLast?_eq_some_getLast hne] at hb
    rw [Option.some.inj hb, hbwhite]
    exact Bool.false_ne_true

theorem head?_terminalEventId (operationId : String) (status : TerminalStatus) :
    (terminalEventId operationId status).toList.head? = some 'a' := by
  have first : ∀ start a b c : String, start.toList ≠ [] →
      (start ++ a ++ b ++ c).toList.head? = start.toList.head? := by
    intro start a b c hstart
    simp only [String.toList_append, List.append_assoc]
    exact List.head?_append_of_ne_nil _ hstart
  exact (first _ _ _ _ (by decide)).trans (by decide)

theorem getLast?_terminalEventId (operationId : String) (status : TerminalStatus) :
    (terminalEventId operationId status).toList.getLast? = status.text.toList.getLast? := by
  have last : ∀ start text : String, text.toList ≠ [] →
      (start ++ text).toList.getLast? = text.toList.getLast? := by
    intro start text htext
    rw [String.toList_append]
    exact List.getLast?_append_of_ne_nil _ htext
  exact last _ _ (by cases status <;> decide)

theorem trimmed_terminalEventId (operationId : String) (status : TerminalStatus) :
    trimmed (some (terminalEventId operationId status)) = some (terminalEventId operationId status) := by
  have hfirst := head?_terminalEventId operationId status
  have hlast := getLast?_terminalEventId operationId status
  have htrim : Text.trim (terminalEventId operationId status).toList =
      (terminalEventId operationId status).toList := by
    cases status with
    | completed =>
      exact trim_eq_self hfirst (hlast.trans (by decide : _ = some 'd')) (by decide) (by decide)
    | failedTerminal =>
      exact trim_eq_self hfirst (hlast.trans (by decide : _ = some 'l')) (by decide) (by decide)
  rw [trimmed, Option.map_some, htrim, String.ofList_toList]

/-- Once it is recorded, the terminal event of an operation is there, once, for good. -/
theorem RecordIdempotent.one {input : RecordIdentifierOperationTerminalInput}
    (hkept : Kept hmac trail)
    (h : RecordIdempotent (operationTerminal input) now trail (.ok ()) trail')
    {later : Trail ν} (hlater : Grows hmac trail' later) :
    ∃! d, d ∈ later ∧
      d.eventId = some (terminalEventId input.operationId input.terminalStatus) := by
  have heventId : (eventOf (operationTerminal input : RecordSecurityActivityInput ν) now).eventId =
      some (terminalEventId input.operationId input.terminalStatus) :=
    trimmed_terminalEventId _ _
  have hgrown : Grows hmac trail later :=
    .head (.recordIdentifierOperationTerminal input now (.ok ()) h) hlater
  have hthere : ∃ d ∈ trail', d.eventId =
      some (terminalEventId input.operationId input.terminalStatus) := by
    obtain ⟨⟨d, hd, heq, -⟩, rfl⟩ | ⟨id, -, -, rfl⟩ := h
    · exact ⟨d, hd, heq.trans heventId⟩
    · exact ⟨_, List.mem_cons_self, heventId⟩
  obtain ⟨d, hd, heq⟩ := hthere
  refine ⟨d, ⟨hlater.sublist.subset hd, heq⟩, ?_⟩
  rintro d' ⟨hd', heq'⟩
  exact (hgrown.kept hkept).eventIds.eq hd' (hlater.sublist.subset hd) heq' heq

end Verdicts

/-- Every trail that calls of the service leave: ids and event ids are unique, no event shows more
than it may, nothing is changed or lost later, and a terminal event stays the only one. -/
theorem trail_safe {hmac : String → String → String} {trail : Trail ν}
    (h : Grows hmac [] trail) :
    Kept hmac trail ∧ ∀ trail', Grows hmac trail trail' → trail.Sublist trail' ∧
      ∀ input now, RecordIdempotent (operationTerminal input) now trail (.ok ()) trail' →
        ∀ later, Grows hmac trail' later → ∃! d, d ∈ later ∧
          d.eventId = some (terminalEventId input.operationId input.terminalStatus) := by
  have hkept := h.kept kept_nil
  exact ⟨hkept, fun trail' hgrows => ⟨hgrows.sublist, fun input now hends later hlater =>
    hends.one hkept hlater⟩⟩

/-- A key ring whose one key is of thirty-two bytes 7, and the HMAC under it of one identifier. -/
def ringSeven : AuditCorrelationKeyRing where
  currentVersion := 7
  keysByVersion := fun version =>
    if version = 7 then some "BwcHBwcHBwcHBwcHBwcHBwcHBwcHBwcHBwcHBwcHBwc" else none

def hmacSeven (_key _text : String) : String := "VhNZW_5GEgn7M9F1VAnAobMKncggobPaEjIoACh9lqY"

def sharedFailure : RecordFailedSignInInput where
  normalizedIdentifier := some "shared@example.test"
  subject := none
  reasonCategory := "identifier-ambiguous"

/-- A failed sign-in leaves one event, with the hash of the identifier. -/
theorem trail_safe_shared : ∃ d : SecurityActivityEventDocument ℤ,
    d.identifierCorrelationHash = some "VhNZW_5GEgn7M9F1VAnAobMKncggobPaEjIoACh9lqY" ∧
      d.correlationKeyVersion = some 7 ∧ Kept hmacSeven [d] := by
  refine ⟨{ eventOf (failedSignIn hmacSeven (some ringSeven) sharedFailure) 0 with
    id := ⟨"b10000000000000000000000", by decide⟩ }, rfl, rfl, ?_⟩
  exact (trail_safe (.single (.recordFailedSignIn (some ringSeven) sharedFailure 0 (.ok ())
    ⟨⟨by decide, by simp [eventOf, failedSignIn, failedSignInInput, sharedFailure,
      identifierCorrelation, ringSeven, present]⟩, _, by simp, by simp [Taken], rfl⟩))).1

end SecurityActivity
