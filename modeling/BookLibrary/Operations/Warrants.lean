import BookLibrary.Operations.Effects
import BookLibrary.Operations.Reconciliation
import BookLibrary.Operations.Repair

/-!
# What writes are made on

A request writes on the strength of what it has seen: its operation as it was created, claimed
or read, the reservations it has counted, the event it has recorded. Each write is listed
with what its request has seen by then.
-/

namespace Operations

open AuthIdentifiers Documents Interleaving

/-- The documents that a sighting shows. -/
def Sighting.docs : Sighting → List Document
  | .operation _ r => r.toList.map .operation
  | .reservation _ r => r.toList.map .identifier
  | .pending _ _ _ _ r => r.toList.map .identifier
  | .listed _ r => r.map .identifier
  | .batch _ _ r => r.toList.map .batch
  | .batches _ r => r.map .batch
  | .identifier _ r => r.toList.map .identifier
  | _ => []

/-- How a saga reads an operation that is finalizing. -/
def verdict (d : AuthIdentifierOperation) : TerminalStatus :=
  if d.result.map (·.outcome) = some .failure then .failedTerminal else .completed

/-- The write of an aggregate: of accounts and sessions, or of the original reservation of a
conflict. -/
def Write.isAggregate : Write → Bool
  | .account (.insertIdentifier _) => false
  | .account (.claimReleased ..) => false
  | .account (.releaseIdentifier ..) => false
  | .account (.recordActivity _) => false
  | .account _ => true
  | .updateIdentifier (.releaseConflict ..) => true
  | .updateIdentifier (.restoreConflict _) => true
  | _ => false

/-- The update leaves status, result, cleanup and expiry as they are. -/
def OperationUpdate.isQuiet : OperationUpdate → Bool
  | .attachReference .. => true
  | .markApplied .. => true
  | .markCompensated .. => true
  | .resume .. => true
  | .claim .. => true
  | .renewLease .. => true
  | .releaseLease .. => true
  | .attachMissing .. => true
  | .recoverApplied .. => true
  | .recoverCompensated .. => true
  | _ => false

/-- The event of the terminal status that the update writes. -/
def OperationUpdate.finishes : OperationUpdate → Option String
  | .finishTerminal _ _ _ eventId _ _ => some eventId
  | .finalize _ _ _ eventId _ _ => some eventId
  | .finishRepair _ _ _ eventId _ => some eventId
  | _ => none

section Evidence

variable (l : List Event)

def Shown (session : Option ℕ) (d : Document) : Prop :=
  ∃ ev ∈ l, ev.Shows Sighting.docs session d

/-- A pass has taken the lease of the operation, which it was handed as `d`. -/
def Claimed (d : AuthIdentifierOperation) : Prop :=
  ∃ id owner now leaseExpiresAt cutoff,
    .wrote none (.updateOperation (.claim id owner now leaseExpiresAt cutoff))
      (.written [.operation d]) ∈ l

/-- The transaction has created the operation itself. -/
def Inserted (n : ℕ) (operationId : String) : Prop :=
  ∃ d, d.operationId = operationId ∧ d.manifestHash = none ∧
    .wrote (some n) (.insertOperation d) (.written [.operation d]) ∈ l

/-- The operation has been seen to be the parent of an offline repair. -/
def Parent (operationId : String) : Prop :=
  ∃ d, d.operationId = operationId ∧ d.manifestHash.isSome = true ∧ Shown l none (.operation d)

def Recorded (session : Option ℕ) (eventId : String) : Prop :=
  ∃ e r, e.eventId = some eventId ∧ .wrote session (.recordEvent e) r ∈ l

/-- The operation has been seen to turn to its end, by a saga, with that verdict. -/
def Finalizing (session : Option ℕ) (operationId : String) (status : TerminalStatus) : Prop :=
  ∃ d, d.operationId = operationId ∧ d.status = .finalizing ∧ verdict d = status ∧
    Shown l session (.operation d)

/-- No reservation was gated by the operation when it was looked for, the operation being
claimed. -/
def Ungated (d : AuthIdentifierOperation) : Prop :=
  ∃ l₀, .saw none (.gated d false) :: l₀ <:+ l ∧ Claimed l₀ d

/-- The calls of a saga within a transaction are about the operation that it has created. -/
def Within (session : Option ℕ) (operationId : String) : Prop :=
  ∀ n ∈ session, .began n ∈ l ∧ Inserted l n operationId

variable {l} {l' : List Event}

theorem Shown.mono (h : l ⊆ l') {session : Option ℕ} {d : Document} (hd : Shown l session d) :
    Shown l' session d := by
  obtain ⟨ev, hev, hshows⟩ := hd
  exact ⟨ev, h hev, hshows⟩

theorem Claimed.mono (h : l ⊆ l') {d : AuthIdentifierOperation} (hd : Claimed l d) :
    Claimed l' d := by
  obtain ⟨id, owner, now, leaseExpiresAt, cutoff, hev⟩ := hd
  exact ⟨id, owner, now, leaseExpiresAt, cutoff, h hev⟩

theorem Claimed.shown {d : AuthIdentifierOperation} (h : Claimed l d) : Shown l none (.operation d) := by
  obtain ⟨id, owner, now, leaseExpiresAt, cutoff, hev⟩ := h
  exact ⟨_, hev, rfl, List.mem_singleton_self _⟩

theorem Inserted.mono (h : l ⊆ l') {n : ℕ} {operationId : String} (hn : Inserted l n operationId) :
    Inserted l' n operationId := by
  obtain ⟨d, hid, hhash, hev⟩ := hn
  exact ⟨d, hid, hhash, h hev⟩

theorem Parent.mono (h : l ⊆ l') {operationId : String} (hp : Parent l operationId) :
    Parent l' operationId := by
  obtain ⟨d, hid, hhash, hshown⟩ := hp
  exact ⟨d, hid, hhash, hshown.mono h⟩

theorem Recorded.mono (h : l ⊆ l') {session : Option ℕ} {eventId : String}
    (hr : Recorded l session eventId) : Recorded l' session eventId := by
  obtain ⟨e, r, he, hev⟩ := hr
  exact ⟨e, r, he, h hev⟩

theorem Finalizing.mono (h : l ⊆ l') {session : Option ℕ} {operationId : String}
    {status : TerminalStatus} (hf : Finalizing l session operationId status) :
    Finalizing l' session operationId status := by
  obtain ⟨d, hid, hstatus, hverdict, hshown⟩ := hf
  exact ⟨d, hid, hstatus, hverdict, hshown.mono h⟩

theorem Ungated.mono (h : l <:+ l') {d : AuthIdentifierOperation} (hd : Ungated l d) :
    Ungated l' d := by
  obtain ⟨l₀, hsuffix, hclaimed⟩ := hd
  exact ⟨l₀, hsuffix.trans h, hclaimed⟩

theorem Within.mono (h : l ⊆ l') {session : Option ℕ} {operationId : String}
    (hw : Within l session operationId) : Within l' session operationId := fun n hn =>
  ⟨h (hw n hn).1, (hw n hn).2.mono h⟩

theorem Within.none {operationId : String} : Within l none operationId := nofun

end Evidence

/-- The operation inputs that pass the checks of a request. -/
structure Valid (env : Environment) (input : OperationInput) : Prop where
  operationId : env.trim input.operationId ≠ ""
  length_ne_zero : input.assignments.length ≠ 0
  length_le : input.assignments.length ≤ env.maxAssignments
  nodup : (input.assignments.map (·.assignmentId)).Nodup

/-- A write, with what its request has seen by then. -/
inductive Warranted (env : Environment) (inputs : OperationInput → Prop) (l : List Event) :
    Option ℕ → Write → Prop where
  | aggregate {session : Option ℕ} {w : Write} (hw : w.isAggregate = true) :
      Warranted env inputs l session w
  | create {session : Option ℕ} {input : OperationInput} {id : String}
      {assignments : List AuthIdentifierOperationAssignment} {now : Date} (hinput : inputs input)
      (hvalid : Valid env input)
      (hassignments : input.assignments.mapM AuthIdentifierService.persistedAssignment =
        some assignments) :
      Warranted env inputs l session
        (.insertOperation (AuthIdentifierService.newOperation input id assignments now))
  | createParent {operationId : String} {manifest : RepairManifest} {manifestHash : String}
      {version : ℕ} {actorId id : String} {now : Date} :
      Warranted env inputs l none (.insertOperation
        (AuthIdentifierRepairService.newParent operationId manifest manifestHash version actorId id
          now))
  | quiet {session : Option ℕ} {u : OperationUpdate} (hu : u.isQuiet = true) :
      Warranted env inputs l session (.updateOperation u)
  | transition {session : Option ℕ} {operationId : String}
      {source target : AuthIdentifierOperationStatus} {now : Date}
      (htarget : target ∈ allowedTransitions source)
      (hopen : target = .applying ∨ target = .compensating ∨ target = .failedRetryable)
      (hwithin : Within l session operationId) :
      Warranted env inputs l session (.updateOperation (.transition operationId source target now))
  | beginFinalizing {session : Option ℕ} {operationId : String}
      {source : AuthIdentifierOperationStatus} {result : AuthIdentifierOperationResult} {now : Date}
      (hsource : .finalizing ∈ allowedTransitions source)
      (hwithin : Within l session operationId) :
      Warranted env inputs l session
        (.updateOperation (.beginFinalizing operationId source result now))
  | finishTerminal {session : Option ℕ} {operationId : String} {status : TerminalStatus}
      {result : AuthIdentifierOperationResult} {now : Date} {expiresAt : Option Date}
      (hfinalizing : Finalizing l session operationId status)
      (hrecorded : Recorded l session (SecurityActivityService.terminalEventId operationId status))
      (hwithin : Within l session operationId) :
      Warranted env inputs l session (.updateOperation (.finishTerminal operationId status.status
        result (SecurityActivityService.terminalEventId operationId status) now expiresAt))
  | recoverTransition {d : AuthIdentifierOperation} {owner : String}
      {target : AuthIdentifierOperationStatus} (hclaimed : Claimed l d)
      (hstatus : d.status.isTerminal = false)
      (htarget : target ∈ allowedTransitions d.status ∧ target.isTerminal = false ∨
        target = .failedRetryable ∧ ∃ reservations, .saw none (.listed d reservations) ∈ l ∧
          env.identifierMaxOperationAssignments < reservations.length) :
      Warranted env inputs l none
        (.updateOperation (.recoverTransition d.operationId owner d.status target))
  | finalize {d : AuthIdentifierOperation} {owner : String} {now : Date} {expiresAt : Option Date}
      (hclaimed : Claimed l d) (hstatus : d.status = .finalizing)
      (hrecorded : Recorded l none (SecurityActivityService.terminalEventId d.operationId
        (AuthIdentifierReconciliationService.terminalStatus d)))
      (hexpires : d.cleanupStatus = .pending → expiresAt = none) :
      Warranted env inputs l none (.updateOperation (.finalize d.operationId owner
        (AuthIdentifierReconciliationService.terminalStatus d).status
        (SecurityActivityService.terminalEventId d.operationId
          (AuthIdentifierReconciliationService.terminalStatus d)) now expiresAt))
  | finishCleanup {d : AuthIdentifierOperation} {owner : String} {now expiresAt : Date}
      (hstatus : d.status.isTerminal = true) (hungated : Ungated l d) :
      Warranted env inputs l none
        (.updateOperation (.finishCleanup d.operationId owner now expiresAt))
  | startApplying {operationId : String} {source : AuthIdentifierOperationStatus}
      {actorId : String} {now : Date} (hsource : source = .pending ∨ source = .failedRetryable) :
      Warranted env inputs l none (.updateOperation (.startApplying operationId source actorId now))
  | moveStatus {operationId : String} {sources : List AuthIdentifierOperationStatus}
      {target : AuthIdentifierOperationStatus}
      (hmove : ∀ source ∈ sources, target ∈ allowedTransitions source)
      (htarget : target.isTerminal = false) :
      Warranted env inputs l none (.updateOperation (.moveStatus operationId sources target))
  | finishRepair {n : ℕ} {operationId : String} {status : TerminalStatus}
      {result : AuthIdentifierOperationResult} {now : Date} (hparent : Parent l operationId)
      (hrecorded : Recorded l (some n)
        (SecurityActivityService.terminalEventId operationId status)) :
      Warranted env inputs l (some n) (.updateOperation (.finishRepair operationId status.status
        result (SecurityActivityService.terminalEventId operationId status) now))
  | upsertIdentifier {session : Option ℕ} {u : IdentifierUpsert} :
      Warranted env inputs l session (.upsertIdentifier u)
  | updateIdentifier {session : Option ℕ} {u : IdentifierUpdate} :
      Warranted env inputs l session (.updateIdentifier u)
  | ungate {ids : List String} {releases : Bool} :
      Warranted env inputs l none (.updateIdentifiers (.ungate ids releases))
  | activate {n : ℕ} {operationId : String} {ids : List String} (hparent : Parent l operationId) :
      Warranted env inputs l (some n) (.updateIdentifiers (.activate operationId ids))
  | insertBatch {session : Option ℕ} {d : AuthIdentifierRepairBatch} :
      Warranted env inputs l session (.insertBatch d)
  | updateBatch {session : Option ℕ} {u : BatchUpdate} :
      Warranted env inputs l session (.updateBatch u)
  | expireBatches {ids : List String} {now : Date} :
      Warranted env inputs l none (.expireBatches ids now)
  | recordResumed {operationId resumeId : String}
      {originalActor resumingActor : SecurityActivityService.ActorReference} :
      Warranted env inputs l none (.recordEvent
        (SecurityActivityService.resumedEvent operationId resumeId originalActor resumingActor))
  | recordFinalizing {session : Option ℕ} {input : SecurityActivityService.TerminalInput}
      (hfinalizing : Finalizing l session input.operationId input.terminalStatus)
      (hwithin : Within l session input.operationId) :
      Warranted env inputs l session
        (.recordEvent (SecurityActivityService.terminalEvent input))
  | recordClaimed {input : SecurityActivityService.TerminalInput} {d : AuthIdentifierOperation}
      (hclaimed : Claimed l d) (hstatus : d.status = .finalizing)
      (hid : d.operationId = input.operationId)
      (hverdict : AuthIdentifierReconciliationService.terminalStatus d = input.terminalStatus) :
      Warranted env inputs l none (.recordEvent (SecurityActivityService.terminalEvent input))
  | recordRepair {n : ℕ} {input : SecurityActivityService.TerminalInput}
      (hparent : Parent l input.operationId) :
      Warranted env inputs l (some n)
        (.recordEvent (SecurityActivityService.terminalEvent input))

/-- Every terminal event of a transaction has its terminal status written as well. -/
def Settled (n : ℕ) (m : List Event) : Prop :=
  ∀ e r, .wrote (some n) (.recordEvent e) r ∈ m → ∃ u r', u.finishes = e.eventId ∧
    r' ≠ .duplicateKey ∧ .wrote (some n) (.updateOperation u) r' ∈ m

/-- What a request may do after what it has seen. -/
structure Legal (env : Environment) (inputs : OperationInput → Prop) (l : List Event) {β : Type}
    (op : Op β) : Prop where
  disciplined : Sessions.Disciplined l β op
  warranted : ∀ session w, op.writes = some (session, w) → Warranted env inputs l session w
  settled : ∀ n, op.commits = some n → Settled n (Sessions.since n l)

section Mono

variable {env : Environment} {inputs : OperationInput → Prop} {l l' : List Event}

theorem Warranted.mono (hl : l <:+ l') {session : Option ℕ} {w : Write}
    (hw : Warranted env inputs l session w) : Warranted env inputs l' session w := by
  have h := hl.subset
  cases hw with
  | aggregate hw => exact .aggregate hw
  | create hinput hvalid hassignments => exact .create hinput hvalid hassignments
  | createParent => exact .createParent
  | quiet hu => exact .quiet hu
  | transition htarget hopen hwithin => exact .transition htarget hopen (hwithin.mono h)
  | beginFinalizing hsource hwithin => exact .beginFinalizing hsource (hwithin.mono h)
  | finishTerminal hfinalizing hrecorded hwithin =>
    exact .finishTerminal (hfinalizing.mono h) (hrecorded.mono h) (hwithin.mono h)
  | recoverTransition hclaimed hstatus htarget =>
    refine .recoverTransition (hclaimed.mono h) hstatus (htarget.imp_right fun ht => ?_)
    obtain ⟨htarget, reservations, hlisted, hmax⟩ := ht
    exact ⟨htarget, reservations, h hlisted, hmax⟩
  | finalize hclaimed hstatus hrecorded hexpires =>
    exact .finalize (hclaimed.mono h) hstatus (hrecorded.mono h) hexpires
  | finishCleanup hstatus hungated => exact .finishCleanup hstatus (hungated.mono hl)
  | startApplying hsource => exact .startApplying hsource
  | moveStatus hmove htarget => exact .moveStatus hmove htarget
  | finishRepair hparent hrecorded => exact .finishRepair (hparent.mono h) (hrecorded.mono h)
  | upsertIdentifier => exact .upsertIdentifier
  | updateIdentifier => exact .updateIdentifier
  | ungate => exact .ungate
  | activate hparent => exact .activate (hparent.mono h)
  | insertBatch => exact .insertBatch
  | updateBatch => exact .updateBatch
  | expireBatches => exact .expireBatches
  | recordResumed => exact .recordResumed
  | recordFinalizing hfinalizing hwithin =>
    exact .recordFinalizing (hfinalizing.mono h) (hwithin.mono h)
  | recordClaimed hclaimed hstatus hid hverdict =>
    exact .recordClaimed (hclaimed.mono h) hstatus hid hverdict
  | recordRepair hparent => exact .recordRepair (hparent.mono h)

end Mono

end Operations
