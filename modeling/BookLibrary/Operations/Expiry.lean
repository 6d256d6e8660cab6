import BookLibrary.Operations.Lifecycle

/-!
# When an operation may be deleted

An operation that has a date of expiry is deleted then, and nothing is left to take the gates
of its reservations away. It has ended for good and gates nothing any more, if whoever gives
it the date looks at what is stored of it, and if no repair activates a batch after its end.
-/

namespace Operations

open AuthIdentifiers Documents Interleaving

/-- The date of expiry that the update sets. -/
def OperationUpdate.dates : OperationUpdate → Option Date
  | .finishTerminal _ _ _ _ _ expiresAt => expiresAt
  | .finalize _ _ _ _ _ expiresAt => expiresAt
  | .finishCleanup _ _ _ expiresAt => some expiresAt
  | _ => none

theorem OperationUpdate.apply_expiresAt (u : OperationUpdate) (d : AuthIdentifierOperation) :
    (u.apply d).expiresAt = u.dates.or d.expiresAt := by cases u <;> rfl

theorem OperationUpdate.apply_terminalEventId (u : OperationUpdate) (d : AuthIdentifierOperation) :
    (u.apply d).terminalEventId = u.finishes.or d.terminalEventId := by cases u <;> rfl

theorem OperationUpdate.dates_of_isQuiet {u : OperationUpdate} (h : u.isQuiet = true) :
    u.dates = none := by
  cases u <;> first | rfl | cases h

theorem OperationUpdate.apply_cleanupStatus_of_isQuiet {u : OperationUpdate} (h : u.isQuiet = true)
    (d : AuthIdentifierOperation) : (u.apply d).cleanupStatus = d.cleanupStatus := by
  cases u <;> first | rfl | cases h

/-- If the operation has a date of expiry, it has ended and been told of, and its cleanup is
not pending. -/
def Expirable (d : AuthIdentifierOperation) : Prop :=
  d.expiresAt.isSome = true → d.status.isTerminal = true ∧ d.terminalEventId.isSome = true ∧
    d.terminalEventRecordedAt.isSome = true ∧ d.cleanupStatus ≠ .pending

/-- Operations do not come back from their end, and until then keep what they need of
cleanup. -/
def Lasts (d d' : AuthIdentifierOperation) : Prop :=
  d'.status.isTerminal = false → d.status.isTerminal = false ∧ d'.cleanupStatus = d.cleanupStatus

theorem Lasts.refl (d : AuthIdentifierOperation) : Lasts d d := fun h => ⟨h, rfl⟩

theorem Lasts.trans {d d' d'' : AuthIdentifierOperation} (h : Lasts d d') (h' : Lasts d' d'') :
    Lasts d d'' := by
  intro hopen
  obtain ⟨hopen', hcleanup'⟩ := h' hopen
  obtain ⟨hopen, hcleanup⟩ := h hopen'
  exact ⟨hopen, hcleanup'.trans hcleanup⟩

theorem Lasts.terminal {d d' : AuthIdentifierOperation} (h : Lasts d d')
    (hd : d.status.isTerminal = true) : d'.status.isTerminal = true := by
  by_contra hopen
  rw [(h (Bool.eq_false_of_not_eq_true hopen)).1] at hd
  exact Bool.false_ne_true hd

theorem isTerminal_of_mem {status : AuthIdentifierOperationStatus}
    (h : status ∈ TERMINAL_STATUSES) : status.isTerminal = true := by
  cases status <;> first | rfl | exact absurd h (by decide)

/-- The update dates only what may be dated: a saga, what needs no cleanup as it is stored and
is no repair's parent, and a pass what is no repair's parent. -/
def Datable (d : AuthIdentifierOperation) : OperationUpdate → Prop
  | .finishTerminal _ _ _ _ _ (some _) => d.cleanupStatus ≠ .pending ∧ d.manifestHash = none
  | .finalize _ _ _ _ _ (some _) => d.manifestHash = none
  | _ => True

section Updates

variable {env : Environment} {inputs : OperationInput → Prop} {l : List Event}
  {session : Option ℕ} {u : OperationUpdate} {d : AuthIdentifierOperation} {w : Write}
  {v : Database}

theorem lasts_of_warranted (hw : Warranted env inputs l session (.updateOperation u))
    (hu : u.selects d = true) : Lasts d (u.apply d) := by
  intro hopen
  rcases open_of_warranted hw hu with hquiet | ⟨operationId, owner, now, expiresAt, rfl⟩ | hd
  · rw [OperationUpdate.apply_status_of_isQuiet hquiet] at hopen
    exact ⟨hopen, OperationUpdate.apply_cleanupStatus_of_isQuiet hquiet d⟩
  · simp only [OperationUpdate.selects, Bool.and_eq_true, decide_eq_true_eq] at hu
    have hterminal : d.status.isTerminal = true := isTerminal_of_mem hu.1.1.1.1.2
    exact absurd (hterminal.symm.trans hopen) (by decide)
  · refine ⟨hd, ?_⟩
    cases hw with
    | aggregate hw => cases hw
    | quiet hquiet => exact OperationUpdate.apply_cleanupStatus_of_isQuiet hquiet d
    | finishCleanup =>
      simp only [OperationUpdate.selects, Bool.and_eq_true, decide_eq_true_eq] at hu
      exact absurd ((isTerminal_of_mem hu.1.1.1.1.2).symm.trans hd) (by decide)
    | @finishRepair _ _ status =>
      exact absurd (status.isTerminal_status.symm.trans hopen) (by decide)
    | _ => rfl

theorem expirable_of_warranted (hw : Warranted env inputs l session (.updateOperation u))
    (hu : u.selects d = true) (hd : Expirable d) (hdatable : Datable d u)
    (hlasts : session = none → ∀ x, Claimed l x → d.operationId = x.operationId → Lasts x d) :
    Expirable (u.apply d) := by
  intro hexpires
  rcases open_of_warranted hw hu with hquiet | ⟨operationId, owner, now, expiresAt, rfl⟩ | hopen
  · cases u <;> first | exact hd hexpires | cases hquiet
  · simp only [OperationUpdate.selects, Bool.and_eq_true, decide_eq_true_eq] at hu
    exact ⟨isTerminal_of_mem hu.1.1.1.1.2, hu.1.1.2, hu.1.2, (by rintro ⟨⟩)⟩
  · -- what has not ended has no date
    have hnone : d.expiresAt.isSome = true → False := by
      intro hsome
      rw [(hd hsome).1] at hopen
      cases hopen
    rw [OperationUpdate.apply_expiresAt] at hexpires
    cases hdates : u.dates with
    | none =>
      rw [hdates, Option.none_or] at hexpires
      exact absurd hexpires hnone
    | some date =>
      cases hw with
      | aggregate hw => cases hw
      | quiet hquiet => cases (OperationUpdate.dates_of_isQuiet hquiet).symm.trans hdates
      | @finishTerminal _ _ status =>
        cases hdates
        exact ⟨status.isTerminal_status, rfl, rfl, hdatable.1⟩
      | @finalize x _ _ _ hclaimed hstatus hrecorded hpending =>
        cases hdates
        refine ⟨TerminalStatus.isTerminal_status _, rfl, rfl, ?_⟩
        simp only [OperationUpdate.selects, Bool.and_eq_true, decide_eq_true_eq] at hu
        show d.cleanupStatus ≠ .pending
        rw [(hlasts rfl x hclaimed hu.1.1 hopen).2]
        intro hcleanup
        cases hpending hcleanup
      | finishCleanup =>
        simp only [OperationUpdate.selects, Bool.and_eq_true, decide_eq_true_eq] at hu
        exact absurd ((isTerminal_of_mem hu.1.1.1.1.2).symm.trans hopen) (by decide)
      | _ => cases hdates

/-- What is created has neither an end nor a date. -/
theorem undated_of_warranted (hw : Warranted env inputs l session (.insertOperation d)) :
    d.terminalEventId = none ∧ d.expiresAt = none := by
  cases hw with
  | aggregate hw => cases hw
  | create => exact ⟨rfl, rfl⟩
  | createParent => exact ⟨rfl, rfl⟩

/-- A gate was there, or a repair activates its batch. -/
theorem gate_of_warranted (hw : Warranted env inputs l session w) (hv : schema.indexed v = true)
    {r : AuthIdentifier} {operationId : String}
    (hr : r ∈ (schema.putAll (schema.write w v).docs v).identifiers)
    (hgate : r.activationGateOperationId = some operationId) :
    (∃ r₀ ∈ v.identifiers, r₀.id = r.id ∧ r₀.activationGateOperationId = some operationId) ∨
      session.isSome = true ∧ ∃ ids, w = .updateIdentifiers (.activate operationId ids) := by
  have hindexed : (schema.putAll (schema.write w v).docs v).Indexed :=
    of_decide_eq_true (schema_lawful.indexed_write w v hv)
  rcases written_or_found hv (find_identifier hindexed hr) with hwritten | hold
  · generalize Accounts.Database.find (Accounts.Document.identifier r).key v = x at hwritten
    cases hwritten with
    | account hdocs =>
      cases hw with
      | aggregate hw => cases account_docs hw hdocs
    | createIdentifier => cases hgate
    | upsertIdentifier hd hu => exact .inl ⟨_, hd, rfl, hgate⟩
    | @updateIdentifier u d hd hu =>
      refine .inl ⟨d, hd, (u.apply_id d).symm, ?_⟩
      cases u with
      | resolveOriginal _ _ retained => cases retained <;> exact hgate
      | releaseReplacement => cases hgate
      | _ => exact hgate
    | @updateIdentifiers u d hd hu =>
      cases hw with
      | aggregate hw => cases hw
      | ungate => cases hgate
      | activate hparent =>
        cases hgate
        exact .inr ⟨rfl, _, rfl⟩
  · exact .inl ⟨r, (identifier_of_find (k := .identifier r.id) hold).1, rfl, hgate⟩

end Updates

/-- An operation whose event is told of. -/
def HasEvent : Document → Prop
  | .operation d => d.terminalEventId.isSome = true
  | _ => False

def Tells : Document → Document → Prop
  | .operation d, .event e => e.eventId = d.terminalEventId
  | _, _ => False

theorem Tells.advances {le : AuthIdentifierOperation → AuthIdentifierOperation → Prop}
    {d x x' : Document} (hx : Advances le x x') (h : Tells d x) : Tells d x' := by
  cases d with
  | operation d =>
    cases x with
    | event e =>
      rw [hx.event]
      exact h
    | _ => cases h
  | _ => cases h

def HasRecorded (v : Database) (eventId : Option String) : Prop :=
  ∃ e, Accounts.Database.find (.event e.id) v = some (.event e) ∧ e.eventId = eventId

theorem HasRecorded.grows {le : AuthIdentifierOperation → AuthIdentifierOperation → Prop}
    {v v' : Database} {eventId : Option String}
    (hgrows : Sessions.Grows schema (Advances le) v v') (h : HasRecorded v eventId) :
    HasRecorded v' eventId := by
  obtain ⟨e, he, hid⟩ := h
  obtain ⟨y, hy, hle⟩ := hgrows (.event e.id) _ he
  rw [hle.event] at hy
  exact ⟨e, hy, hid⟩

/-- The gate of every reservation is a repair's parent. -/
def Parented (v : Database) : Prop :=
  ∀ r ∈ v.identifiers, ∀ operationId, r.activationGateOperationId = some operationId →
    ∃ d ∈ v.operations, d.operationId = operationId ∧ d.manifestHash.isSome = true

/-- What is dated gates nothing. -/
def Gateless (v : Database) : Prop :=
  ∀ d ∈ v.operations, d.expiresAt.isSome = true → ∀ r ∈ v.identifiers,
    r.activationGateOperationId ≠ some d.operationId

/-- A store in which what has a date of expiry may be deleted. -/
structure Orderly (v : Database) : Prop where
  expirable : ∀ d ∈ v.operations, Expirable d
  told : Sessions.Supported schema HasEvent Tells v
  parented : Parented v
  gateless : Gateless v

theorem suffix_append_cases {α : Type} {a : α} {l l' : List α} :
    ∀ {evs : List α}, a :: l' <:+ evs ++ l → a :: l' <:+ l ∨ a ∈ evs
  | [], h => .inl h
  | ev :: evs, h => by
    rcases List.suffix_cons_iff.mp h with heq | hrest
    · cases heq
      exact .inr List.mem_cons_self
    · exact (suffix_append_cases hrest).imp_right (List.mem_cons_of_mem ev)

section Gate

variable {A ι : Type} [DecidableEq ι] {env : Environment} {aggregates : A → Aggregate}

/-- Only what is `Datable` is dated, and a repair's transaction that activates a batch is
committed only while the parent has not ended. -/
def dated : Gate ι (Call A) Op Store Event := fun _ β op applied s J =>
  match β, op, applied with
  | _, .change (.write session (.updateOperation u)), true =>
    ∀ v, schema.view s session = some v → ∀ d ∈ v.operations, u.selects d = true → Datable d u
  | _, .change (.commitTransaction n), true =>
    ∀ e ∈ J, ∀ operationId ids r,
      e.event = .wrote (some n) (.updateIdentifiers (.activate operationId ids)) r →
      ∀ d ∈ s.committed.operations, d.operationId = operationId → d.status.isTerminal = false
  | _, _, _ => True

/-- In a transaction, what is dated is no repair's parent, or was dated before. -/
def DatedSince (v v' : Database) : Prop :=
  ∀ d ∈ v'.operations, d.expiresAt.isSome = true → d.manifestHash = none ∨
    ∃ d₀, Accounts.Database.find (.operation d.id) v = some (.operation d₀) ∧
      d₀.expiresAt.isSome = true

/-- In a transaction, a gate was there before, or is one that it has activated. -/
def GatedSince (J : List (Entry ι (Call A) Event)) (n : ℕ) (v v' : Database) : Prop :=
  ∀ r ∈ v'.identifiers, ∀ operationId, r.activationGateOperationId = some operationId →
    (∃ r₀, Accounts.Database.find (.identifier r.id) v = some (.identifier r₀) ∧
      r₀.activationGateOperationId = some operationId) ∨
    ∃ e ∈ J, ∃ ids result,
      e.event = .wrote (some n) (.updateIdentifiers (.activate operationId ids)) result

/-- What holds under this gate. -/
structure Dated (s : Store) (J : List (Entry ι (Call A) Event)) : Prop where
  kept : Kept Lasts s J
  expirable : Sessions.Everywhere schema (fun v => ∀ d ∈ v.operations, Expirable d) s
  told : Sessions.Everywhere schema (Sessions.Supported schema HasEvent Tells) s
  recorded : Sessions.Lasting schema (fun ev v => ∀ session e r,
    ev = .wrote session (.recordEvent e) r → HasRecorded v e.eventId) s J
  datedSince : Sessions.Viewed schema (fun _ => DatedSince) s
  gatedSince : Sessions.Viewed schema (GatedSince J) s
  parented : Parented s.committed
  gateless : Gateless s.committed
  ungated : ∀ i d, Ungated (own i J) d → d.status.isTerminal = true →
    ∀ r ∈ s.committed.identifiers, r.activationGateOperationId ≠ some d.operationId

variable {s s' : Store} {J : List (Entry ι (Call A) Event)} {i : ι} {call : Call A} {β : Type}
  {op : Op β} {x : Option β}

omit [DecidableEq ι] in
theorem datable_of_writes (hgate : dated i β op x.isSome s J) (hx : x.isSome = true)
    {session : Option ℕ} {u : OperationUpdate} {v : Database} {d : AuthIdentifierOperation}
    (hw : op.writes = some (session, .updateOperation u)) (hv : schema.view s session = some v)
    (hd : d ∈ v.operations) (hu : u.selects d = true) : Datable d u := by
  cases op with
  | change c =>
    cases c with
    | write session' w' =>
      cases hw
      rw [hx] at hgate
      exact hgate v hv d hd hu
    | _ => cases hw
  | _ => cases hw

theorem Dated.grows (hJ : Journaled env s J) (hlegal : Legal env call.inputs (own i J) op)
    {session : Option ℕ} {w : Write} {v : Database} (hw : op.writes = some (session, w))
    (hv : schema.view s session = some v) :
    Sessions.Grows schema (Advances Lasts) v (schema.putAll (schema.write w v).docs v) := by
  refine grows_of_warranted Lasts.refl (hlegal.warranted _ _ hw) (hJ.ledger.view_indexed hv) ?_
  rintro u d rfl - hu
  exact lasts_of_warranted (hlegal.warranted _ _ hw) hu

theorem Dated.expirable_step (h : Dated s J) (hJ : Journaled env s J)
    (hlegal : Legal env call.inputs (own i J) op) (hgate : dated i β op x.isSome s J)
    (heff : Sessions.Effect schema seen s op x (op.note seen β x) s') :
    Sessions.Everywhere schema (fun v => ∀ d ∈ v.operations, Expirable d) s' := by
  refine h.expirable.step heff (fun session w v hx hw hv hall d hd => ?_)
    fun n t _ _ ht hfree hindexed d hd => ?_
  · rcases operation_of_warranted (hlegal.warranted _ _ hw) (hJ.ledger.view_indexed hv) hd with
      hold | rfl | ⟨u, y, rfl, hy, hu, rfl⟩
    · exact hall d hold
    · intro hsome
      rw [(undated_of_warranted (hlegal.warranted _ _ hw)).2] at hsome
      cases hsome
    · refine expirable_of_warranted (hlegal.warranted _ _ hw) hu (hall y hy)
        (datable_of_writes hgate hx hw hv hy hu) fun hsession z hz hid => ?_
      subst hsession
      exact (h.kept.shown_unique hJ hv hz.shown hy hid).2
  · rcases operation_of_commit hfree hindexed hd with hold | ⟨hview, -⟩
    · exact h.expirable.committed d hold
    · exact h.expirable.views n t ht d hview

theorem Dated.recorded_step (h : Dated s J) (hJ : Journaled env s J)
    (hlegal : Legal env call.inputs (own i J) op)
    (heff : Sessions.Effect schema seen s op x (op.note seen β x) s') :
    Sessions.Lasting schema (fun ev v => ∀ session e r, ev = .wrote session (.recordEvent e) r →
      HasRecorded v e.eventId) s' (record i call (op.note seen β x) ++ J) := by
  refine h.recorded.step schema_lawful (advances_refl Lasts.refl) hJ.ledger h.kept.grown.view heff
    (fun session w v _ hw hv => Dated.grows hJ hlegal hw hv) ?_ ?_ ?_ ?_
  · intro ev v v' hgrows hold session e r heq
    exact (hold session e r heq).grows hgrows
  · intro session _ q b v _ _ e _ session' e' r heq
    cases heq
  · rintro session w v - - hv session' e r heq
    cases heq
    have hindexed := hJ.ledger.view_indexed hv
    obtain ⟨e', he', hid⟩ := recorded_of_write (of_decide_eq_true hindexed) e
    exact ⟨e', find_event (of_decide_eq_true (schema_lawful.indexed_write _ v hindexed)) he', hid⟩
  · intro session e r heq
    cases heq

/-- What a request has recorded is there. -/
theorem Dated.event (h : Dated s J) {session : Option ℕ} {v : Database} {eventId : String}
    (hv : schema.view s session = some v) (hrecorded : Recorded (own i J) session eventId) :
    HasRecorded v (some eventId) := by
  obtain ⟨e, r, hid, hev⟩ := hrecorded
  obtain ⟨call, he⟩ := mem_own.mp hev
  rw [← hid]
  exact h.recorded _ he v hv session e r rfl

/-- The event of an end has been recorded before. -/
theorem recorded_of_finishes {inputs : OperationInput → Prop} {l : List Event}
    {session : Option ℕ} {u : OperationUpdate} {eventId : String}
    (hw : Warranted env inputs l session (.updateOperation u)) (hu : u.finishes = some eventId) :
    Recorded l session eventId := by
  cases hw with
  | aggregate hw => cases hw
  | quiet hquiet =>
    rw [OperationUpdate.finishes_of_isQuiet hquiet] at hu
    cases hu
  | finishTerminal _ hrecorded | finalize _ _ hrecorded | finishRepair _ hrecorded =>
    cases hu
    exact hrecorded
  | _ => cases hu

theorem Dated.told_step (h : Dated s J) (hJ : Journaled env s J)
    (hlegal : Legal env call.inputs (own i J) op)
    (heff : Sessions.Effect schema seen s op x (op.note seen β x) s') :
    Sessions.Everywhere schema (Sessions.Supported schema HasEvent Tells) s' := by
  refine h.told.step heff (fun session w v _ hw hv htold => ?_) fun n t _ _ ht hfree _ => ?_
  · have hindexed : v.Indexed := of_decide_eq_true (hJ.ledger.view_indexed hv)
    refine htold.write schema_lawful (@Tells.advances Lasts) (Dated.grows hJ hlegal hw hv)
      fun d hd hevent => ?_
    have hwritten := written_of_mem hindexed hd
    generalize Accounts.Database.find d.key v = y at hwritten
    cases hwritten with
    | account hdocs =>
      cases hlegal.warranted _ _ hw with
      | aggregate hw =>
        have haccount := account_docs hw hdocs
        cases d <;> first | cases hevent | cases haccount
    | @insertOperation d =>
      have hevent : d.terminalEventId.isSome = true := hevent
      rw [(undated_of_warranted (hlegal.warranted _ _ hw)).1] at hevent
      cases hevent
    | @updateOperation u d hmem hu =>
      have hid := u.apply_terminalEventId d
      cases hfinishes : u.finishes with
      | none =>
        -- the event is the one of before
        rw [hfinishes, Option.none_or] at hid
        have hevent' : HasEvent (.operation d) := by
          rw [HasEvent, ← hid]
          exact hevent
        obtain ⟨k, e, he, htells⟩ := htold (.operation d.id) _ (find_operation hindexed hmem) hevent'
        refine ⟨k, e, he, ?_⟩
        cases e with
        | event e => exact htells.trans hid.symm
        | _ => cases htells
      | some eventId =>
        obtain ⟨e, he, heq⟩ := h.event hv (recorded_of_finishes (hlegal.warranted _ _ hw) hfinishes)
        refine ⟨.event e.id, .event e, he, heq.trans ?_⟩
        rw [hid, hfinishes, Option.some_or]
    | _ => cases hevent
  · exact Sessions.Supported.commit schema_lawful (ordered Lasts.refl fun _ _ _ => Lasts.trans)
      (@Tells.advances Lasts) (h.kept.grown.view n t ht) (h.kept.grown.committed n t ht) hfree
      h.told.committed (h.told.views n t ht)

theorem Dated.datedSince_step (h : Dated s J) (hJ : Journaled env s J)
    (hlegal : Legal env call.inputs (own i J) op) (hgate : dated i β op x.isSome s J)
    (heff : Sessions.Effect schema seen s op x (op.note seen β x) s') :
    Sessions.Viewed schema (fun _ => DatedSince) s' := by
  have hindexed : s.committed.Indexed := of_decide_eq_true hJ.ledger.indexed
  refine h.datedSince.step heff
    (fun _ d hd hsome => .inr ⟨d, find_operation hindexed hd, hsome⟩) (fun _ _ _ hR => hR) ?_
  intro n w t hx hw ht hR d hd hsome
  have hv : schema.view s (some n) = some (schema.putAll t.buffer t.snapshot) := by
    rw [Sessions.Schema.view, ht]
    rfl
  rcases operation_of_warranted (hlegal.warranted _ _ hw) (hJ.ledger.view_indexed hv) hd with
    hold | rfl | ⟨u, y, rfl, hy, hu, rfl⟩
  · exact hR d hold hsome
  · rw [(undated_of_warranted (hlegal.warranted _ _ hw)).2] at hsome
    cases hsome
  · rw [OperationUpdate.apply_expiresAt] at hsome
    rw [OperationUpdate.apply_manifestHash, OperationUpdate.apply_id]
    cases hdates : u.dates with
    | none =>
      rw [hdates, Option.none_or] at hsome
      exact hR y hy hsome
    | some date =>
      have hdatable := datable_of_writes hgate hx hw hv hy hu
      cases hlegal.warranted _ _ hw with
      | aggregate hw => cases hw
      | quiet hquiet => cases (OperationUpdate.dates_of_isQuiet hquiet).symm.trans hdates
      | finishTerminal =>
        cases hdates
        exact .inl hdatable.2
      | _ => cases hdates

theorem Dated.gatedSince_step (h : Dated s J) (hJ : Journaled env s J)
    (hlegal : Legal env call.inputs (own i J) op)
    (heff : Sessions.Effect schema seen s op x (op.note seen β x) s') :
    Sessions.Viewed schema (GatedSince (record i call (op.note seen β x) ++ J)) s' := by
  have hindexed : s.committed.Indexed := of_decide_eq_true hJ.ledger.indexed
  refine h.gatedSince.step heff
    (fun _ r hr _ hgate => .inl ⟨r, find_identifier hindexed hr, hgate⟩) ?_ ?_
  · intro n t _ hR r hr operationId hgate
    refine (hR r hr operationId hgate).imp_right ?_
    rintro ⟨e, he, hev⟩
    exact ⟨e, List.mem_append_right _ he, hev⟩
  · intro n w t hx hw ht hR r hr operationId hgate
    have hv : schema.view s (some n) = some (schema.putAll t.buffer t.snapshot) := by
      rw [Sessions.Schema.view, ht]
      rfl
    rcases gate_of_warranted (hlegal.warranted _ _ hw) (hJ.ledger.view_indexed hv) hr hgate with
      ⟨r₁, hr₁, hid, hgate₁⟩ | ⟨-, ids, rfl⟩
    · rcases hR r₁ hr₁ operationId hgate₁ with ⟨r₀, hr₀, hgate₀⟩ | ⟨e, he, hev⟩
      · exact .inl ⟨r₀, hid ▸ hr₀, hgate₀⟩
      · exact .inr ⟨e, List.mem_append_right _ he, hev⟩
    · obtain ⟨result, hmem⟩ := noted_of_writes hw hx
      exact .inr ⟨⟨i, call, _⟩, List.mem_append_left _ (mem_record.mpr ⟨rfl, rfl, hmem⟩), ids,
        result, rfl⟩

/-- A gate in the store was there before the step, or is now put there by a repair whose parent
has not ended. -/
theorem Dated.gate_step (h : Dated s J) (hJ : Journaled env s J)
    (hlegal : Legal env call.inputs (own i J) op) (hgate : dated i β op x.isSome s J)
    (heff : Sessions.Effect schema seen s op x (op.note seen β x) s') {r : AuthIdentifier}
    {operationId : String} (hr : r ∈ s'.committed.identifiers)
    (hgated : r.activationGateOperationId = some operationId) :
    (∃ r₀ ∈ s.committed.identifiers, r₀.activationGateOperationId = some operationId) ∨
      (∃ d ∈ s.committed.operations, d.operationId = operationId ∧ d.manifestHash.isSome = true) ∧
        ∀ d ∈ s.committed.operations, d.operationId = operationId → d.status.isTerminal = false := by
  generalize op.note seen β x = evs at heff
  cases heff with
  | wrote w =>
    rcases gate_of_warranted (hlegal.warranted _ _ rfl) hJ.ledger.indexed hr hgated with
      ⟨r₀, hr₀, -, hgate₀⟩ | ⟨hnone, -⟩
    · exact .inl ⟨r₀, hr₀, hgate₀⟩
    · cases hnone
  | @committed n t present unconflicted indexed =>
    rcases identifier_of_commit unconflicted indexed hr with hold | ⟨hview, hsame⟩
    · exact .inl ⟨r, hold, hgated⟩
    · rcases h.gatedSince n t present r hview operationId hgated with
        ⟨r₀, hr₀, hgate₀⟩ | ⟨e, he, ids, result, hev⟩
      · -- nobody else has changed the reservation since
        have hmem := (identifier_of_find (k := .identifier r.id) (hsame.trans hr₀)).1
        exact .inl ⟨r₀, hmem, hgate₀⟩
      · refine .inr ⟨?_, hgate e he operationId ids result hev⟩
        have hwarranted := hJ.warranted e he _ _ _ hev
        cases hwarranted with
        | aggregate hw => cases hw
        | activate hparent =>
          obtain ⟨d, hid, hhash, hshown⟩ := hparent
          obtain ⟨d', hd', -, hoperation, hsame', -⟩ :=
            h.kept.shown_operation (v := s.committed) rfl hshown
          exact ⟨d', hd', hoperation.trans hid, by rw [hsame']; exact hhash⟩
  | _ => exact .inl ⟨r, hr, hgated⟩

/-- What is dated, of the parents of repairs, was dated before the step, or is now, by a pass
that has seen it gate nothing. -/
theorem Dated.date_step (h : Dated s J) (hJ : Journaled env s J)
    (hlegal : Legal env call.inputs (own i J) op) (hgate : dated i β op x.isSome s J)
    (heff : Sessions.Effect schema seen s op x (op.note seen β x) s') {d : AuthIdentifierOperation}
    (hd : d ∈ s'.committed.operations) (hsome : d.expiresAt.isSome = true) :
    d.manifestHash = none ∨
      (∃ d₀ ∈ s.committed.operations, d₀.operationId = d.operationId ∧ d₀.expiresAt.isSome = true) ∨
      ∃ y, Ungated (own i J) y ∧ y.status.isTerminal = true ∧ y.operationId = d.operationId := by
  generalize op.note seen β x = evs at heff
  cases heff with
  | wrote w =>
    rcases operation_of_warranted (hlegal.warranted _ _ rfl) hJ.ledger.indexed hd with
      hold | rfl | ⟨u, y, rfl, hy, hu, rfl⟩
    · exact .inr (.inl ⟨d, hold, rfl, hsome⟩)
    · rw [(undated_of_warranted (hlegal.warranted _ _ rfl)).2] at hsome
      cases hsome
    · rw [OperationUpdate.apply_manifestHash, OperationUpdate.apply_operationId]
      rw [OperationUpdate.apply_expiresAt] at hsome
      cases hdates : u.dates with
      | none =>
        rw [hdates, Option.none_or] at hsome
        exact .inr (.inl ⟨y, hy, rfl, hsome⟩)
      | some date =>
        have hdatable : Datable y u := hgate _ rfl y hy hu
        have hwarranted := hlegal.warranted _ _ rfl
        cases hwarranted with
        | aggregate hw => cases hw
        | quiet hquiet => cases (OperationUpdate.dates_of_isQuiet hquiet).symm.trans hdates
        | finishTerminal =>
          cases hdates
          exact .inl hdatable.2
        | finalize =>
          cases hdates
          exact .inl hdatable
        | finishCleanup hstatus hungated =>
          simp only [OperationUpdate.selects, Bool.and_eq_true, decide_eq_true_eq] at hu
          exact .inr (.inr ⟨_, hungated, hstatus, hu.1.1.1.1.1.symm⟩)
        | _ => cases hdates
  | @committed n t present unconflicted indexed =>
    rcases operation_of_commit unconflicted indexed hd with hold | ⟨hview, hsame⟩
    · exact .inr (.inl ⟨d, hold, rfl, hsome⟩)
    · refine (h.datedSince n t present d hview hsome).imp_right ?_
      rintro ⟨d₀, hd₀, hsome₀⟩
      refine .inl ⟨d₀, (operation_of_find (k := .operation d.id) (hsame.trans hd₀)).1, ?_, hsome₀⟩
      -- the view has it under the same operation id
      obtain ⟨y, hy, hle⟩ := h.kept.grown.view n t present (.operation d.id) _ hd₀
      obtain ⟨d₁, rfl, -, hoperation, -⟩ := hle.operation
      have hindexed : (schema.putAll t.buffer t.snapshot).Indexed :=
        of_decide_eq_true (hJ.ledger.views n t present)
      have hfind : schema.find (.operation d.id) (schema.putAll t.buffer t.snapshot) =
          some (.operation d) := find_operation hindexed hview
      cases hfind.symm.trans hy
      exact hoperation.symm
  | _ => exact .inr (.inl ⟨d, hd, rfl, hsome⟩)

theorem Dated.parented_step (h : Dated s J) (hJ : Journaled env s J)
    (hlegal : Legal env call.inputs (own i J) op) (hgate : dated i β op x.isSome s J)
    (heff : Sessions.Effect schema seen s op x (op.note seen β x) s') : Parented s'.committed := by
  intro r hr operationId hgated
  have hparent : ∃ d ∈ s.committed.operations,
      d.operationId = operationId ∧ d.manifestHash.isSome = true := by
    rcases h.gate_step hJ hlegal hgate heff hr hgated with ⟨r₀, hr₀, hgate₀⟩ | ⟨hparent, -⟩
    · exact h.parented r₀ hr₀ operationId hgate₀
    · exact hparent
  obtain ⟨d, hd, hid, hhash⟩ := hparent
  have hgrows : Sessions.Grows schema (Advances Lasts) s.committed s'.committed :=
    Sessions.Viewed.committed_step schema_lawful (advances_refl Lasts.refl) h.kept.grown.view heff
      fun w _ hw => Dated.grows hJ hlegal hw rfl
  have hindexed : s.committed.Indexed := of_decide_eq_true hJ.ledger.indexed
  obtain ⟨y, hy, hle⟩ := hgrows (.operation d.id) _ (find_operation hindexed hd)
  obtain ⟨d', rfl, -, hoperation, -, hsame, -⟩ := hle.operation
  exact ⟨d', (operation_of_find (k := .operation d.id) hy).1, hoperation.trans hid,
    by rw [hsame]; exact hhash⟩

/-- A terminal operation that gates nothing, or has been seen to, is given no gate. -/
theorem Dated.no_gate_step (h : Dated s J) (hJ : Journaled env s J)
    (hlegal : Legal env call.inputs (own i J) op) (hgate : dated i β op x.isSome s J)
    (heff : Sessions.Effect schema seen s op x (op.note seen β x) s') {operationId : String}
    (hterminal : ∃ d ∈ s.committed.operations, d.operationId = operationId ∧
      d.status.isTerminal = true)
    (hnone : ∀ r ∈ s.committed.identifiers, r.activationGateOperationId ≠ some operationId) :
    ∀ r ∈ s'.committed.identifiers, r.activationGateOperationId ≠ some operationId := by
  intro r hr hgated
  rcases h.gate_step hJ hlegal hgate heff hr hgated with ⟨r₀, hr₀, hgate₀⟩ | ⟨-, hopen⟩
  · exact hnone r₀ hr₀ hgate₀
  · obtain ⟨d, hd, hid, hd'⟩ := hterminal
    rw [hopen d hd hid] at hd'
    cases hd'

/-- What has been claimed when it had ended is in the store, and has ended. -/
theorem Dated.terminal_of_ungated (h : Dated s J) {d : AuthIdentifierOperation}
    (hd : Ungated (own i J) d) (hterminal : d.status.isTerminal = true) :
    ∃ d' ∈ s.committed.operations, d'.operationId = d.operationId ∧
      d'.status.isTerminal = true := by
  obtain ⟨l₀, hsuffix, hclaimed⟩ := hd
  have hshown : Shown (own i J) none (.operation d) :=
    hclaimed.shown.mono fun ev hev => hsuffix.subset (List.mem_cons_of_mem _ hev)
  obtain ⟨d', hd', -, hoperation, -, hlasts⟩ := h.kept.shown_operation (v := s.committed) rfl hshown
  exact ⟨d', hd', hoperation, hlasts.terminal hterminal⟩

theorem Dated.gateless_step (h : Dated s J) (hJ : Journaled env s J)
    (hlegal : Legal env call.inputs (own i J) op) (hgate : dated i β op x.isSome s J)
    (heff : Sessions.Effect schema seen s op x (op.note seen β x) s')
    (hindexed : s'.committed.Indexed) : Gateless s'.committed := by
  intro d hd hsome r hr hgated
  rcases h.date_step hJ hlegal hgate heff hd hsome with
    hnone | ⟨d₀, hd₀, hid₀, hsome₀⟩ | ⟨y, hungated, hterminal, hid⟩
  · obtain ⟨p, hp, hid, hhash⟩ := h.parented_step hJ hlegal hgate heff r hr d.operationId hgated
    obtain rfl : p = d := eq_of_key hindexed.operationId hp hd hid
    rw [hnone] at hhash
    cases hhash
  · rw [← hid₀] at hgated
    exact h.no_gate_step hJ hlegal hgate heff
      ⟨d₀, hd₀, rfl, (h.expirable.committed d₀ hd₀ hsome₀).1⟩ (h.gateless d₀ hd₀ hsome₀) r hr hgated
  · rw [← hid] at hgated
    exact h.no_gate_step hJ hlegal hgate heff (h.terminal_of_ungated hungated hterminal)
      (h.ungated i y hungated hterminal) r hr hgated

omit [DecidableEq ι] in
/-- A pass that sees no gate is right. -/
theorem gateless_of_seen {evs : List Event} (heff : Sessions.Effect schema seen s op x evs s')
    {d : AuthIdentifierOperation} (hmem : .saw none (.gated d false) ∈ evs) :
    ∀ r ∈ s'.committed.identifiers, r.activationGateOperationId ≠ some d.operationId := by
  cases heff with
  | @found _ session q b v hview hanswers =>
    obtain ⟨e, he, heq⟩ := List.mem_map.mp hmem
    cases heq
    cases q with
    | inl q => cases q <;> first | cases List.mem_singleton.mp he | cases he
    | inr q =>
      cases q with
      | anyGated operation =>
        cases List.mem_singleton.mp he
        cases hview
        have hany : false = s.committed.identifiers.any (Database.isGatedBy d.operationId) := hanswers
        intro r hr hgated
        have hnot := List.any_eq_false.mp hany.symm r hr
        exact hnot (decide_eq_true hgated)
      | _ => first | cases List.mem_singleton.mp he | cases he
  | wrote w => cases List.mem_singleton.mp hmem
  | wroteIn w => cases List.mem_singleton.mp hmem
  | began => cases List.mem_singleton.mp hmem
  | committed => cases List.mem_singleton.mp hmem
  | _ => cases hmem

theorem Dated.ungated_step (h : Dated s J) (hJ : Journaled env s J)
    (hlegal : Legal env call.inputs (own i J) op) (hgate : dated i β op x.isSome s J)
    (heff : Sessions.Effect schema seen s op x (op.note seen β x) s') (j : ι)
    {d : AuthIdentifierOperation}
    (hd : Ungated (own j (record i call (op.note seen β x) ++ J)) d)
    (hterminal : d.status.isTerminal = true) :
    ∀ r ∈ s'.committed.identifiers, r.activationGateOperationId ≠ some d.operationId := by
  have old : Ungated (own j J) d →
      ∀ r ∈ s'.committed.identifiers, r.activationGateOperationId ≠ some d.operationId := by
    intro hungated
    exact h.no_gate_step hJ hlegal hgate heff (h.terminal_of_ungated hungated hterminal)
      (h.ungated j d hungated hterminal)
  by_cases hj : i = j
  · subst hj
    rw [own_record_self] at hd
    obtain ⟨l₀, hsuffix, hclaimed⟩ := hd
    rcases suffix_append_cases hsuffix with hold | hnew
    · exact old ⟨l₀, hold, hclaimed⟩
    · exact gateless_of_seen heff hnew
  · rw [own_record_of_ne hj] at hd
    exact old hd

theorem Dated.step (h : Dated s J) (hJ : Journaled env s J) (hJ' : schema.indexed s'.committed = true)
    (hlegal : Legal env call.inputs (own i J) op) (hgate : dated i β op x.isSome s J)
    (heff : Sessions.Effect schema seen s op x (op.note seen β x) s') :
    Dated s' (record i call (op.note seen β x) ++ J) where
  kept := h.kept.step hJ Lasts.refl (fun _ _ _ => Lasts.trans) hlegal heff
    fun _ _ _ _ _ hw _ _ hu => lasts_of_warranted (hlegal.warranted _ _ hw) hu
  expirable := h.expirable_step hJ hlegal hgate heff
  told := h.told_step hJ hlegal heff
  recorded := h.recorded_step hJ hlegal heff
  datedSince := h.datedSince_step hJ hlegal hgate heff
  gatedSince := h.gatedSince_step hJ hlegal heff
  parented := h.parented_step hJ hlegal hgate heff
  gateless := h.gateless_step hJ hlegal hgate heff (of_decide_eq_true hJ')
  ungated j _ hd hterminal := h.ungated_step hJ hlegal hgate heff j hd hterminal

end Gate

section Runs

variable {A ι : Type} [DecidableEq ι] {env : Environment} {aggregates : A → Aggregate}
  {s₀ : Database} {c : Config ι (Call A) Op Store Response Event}

theorem Dated.init (h : Orderly s₀) :
    Dated (.init s₀) ([] : List (Entry ι (Call A) Event)) where
  kept := .init s₀
  expirable := ⟨h.expirable, nofun⟩
  told := ⟨h.told, nofun⟩
  recorded e he := by cases he
  datedSince n t ht := by cases ht
  gatedSince n t ht := by cases ht
  parented := h.parented
  gateless := h.gateless
  ungated i d hd := by
    obtain ⟨l₀, hsuffix, -⟩ := hd
    cases List.suffix_nil.mp hsuffix

/-- Under this gate an operation that is to be deleted has ended, its event is recorded, its
cleanup is not pending, and it gates no reservation. -/
theorem expiry_safe (hs : s₀.Indexed) (h₀ : Orderly s₀)
    (hrun : (operations env aggregates).Runs dated (Config.init (.init s₀)) c) :
    ∀ d ∈ c.store.committed.operations, d.expiresAt.isSome = true →
      d.status.isTerminal = true ∧ d.terminalEventRecordedAt.isSome = true ∧
      (∃ eventId, d.terminalEventId = some eventId ∧
        ∃ e ∈ c.store.committed.activity, e.eventId = some eventId) ∧
      d.cleanupStatus ≠ .pending ∧
      ∀ r ∈ c.store.committed.identifiers, r.activationGateOperationId ≠ some d.operationId := by
  have w : WellFormed (contract ι env aggregates) c := (wellFormed_init hs).runs hrun
  have h : Dated c.store c.journal :=
    (wellFormed_init hs).runs_induct (P := Dated)
      (fun {_ _ _ _ _ _ _ _ _} hJ h _ hlegal hgate heff =>
        h.step hJ (hJ.step hlegal heff).ledger.indexed hlegal hgate
          (Sessions.effect_of_applies heff))
      (fun _ h henv => henv ▸ h) hrun (.init h₀)
  intro d hd hsome
  obtain ⟨hterminal, hevent, hrecordedAt, hcleanup⟩ := h.expirable.committed d hd hsome
  refine ⟨hterminal, hrecordedAt, ?_, hcleanup, h.gateless d hd hsome⟩
  obtain ⟨eventId, hid⟩ := Option.isSome_iff_exists.mp hevent
  have hindexed : c.store.committed.Indexed := of_decide_eq_true w.inv.ledger.indexed
  obtain ⟨k, x, hx, htells⟩ :=
    h.told.committed (.operation d.id) _ (find_operation hindexed hd) hevent
  cases x with
  | event e => exact ⟨eventId, hid, e, (event_of_find (k := k) hx).1, htells.trans hid⟩
  | _ => cases htells

end Runs

section Schedules

def checksDatable (d : AuthIdentifierOperation) : OperationUpdate → Bool
  | .finishTerminal _ _ _ _ _ (some _) =>
    !decide (d.cleanupStatus = .pending) && d.manifestHash.isNone
  | .finalize _ _ _ _ _ (some _) => d.manifestHash.isNone
  | _ => true

theorem datable_of_checks {d : AuthIdentifierOperation} {u : OperationUpdate}
    (h : checksDatable d u = true) : Datable d u := by
  cases u with
  | finishTerminal _ _ _ _ _ expiresAt =>
    cases expiresAt with
    | none => trivial
    | some date =>
      simp only [checksDatable, Bool.and_eq_true, Bool.not_eq_true', decide_eq_false_iff_not,
        Option.isNone_iff_eq_none] at h
      exact h
  | finalize _ _ _ _ _ expiresAt =>
    cases expiresAt with
    | none => trivial
    | some date => exact Option.isNone_iff_eq_none.mp h
  | _ => trivial

/-- The repair whose batch the event activates in that transaction. -/
def activatedIn (n : ℕ) : Event → Option String
  | .wrote (some m) (.updateIdentifiers (.activate operationId _)) _ =>
    if m = n then some operationId else none
  | _ => none

/-- `dated`, checked. -/
def checksDated (_ : ℕ) (β : Type) (op : Op β) (applied : Bool) (s : Store)
    (J : List (Entry ℕ (Call Empty) Event)) : Bool :=
  match β, op with
  | _, .change (.write session (.updateOperation u)) =>
    !applied || (schema.view s session).all fun v =>
      v.operations.all fun d => !u.selects d || checksDatable d u
  | _, .change (.commitTransaction n) =>
    !applied || J.all fun e => (activatedIn n e.event).all fun operationId =>
      s.committed.operations.all fun d =>
        !decide (d.operationId = operationId) || !d.status.isTerminal
  | _, _ => true

theorem dated_of_checks {i : ℕ} {β : Type} {op : Op β} {applied : Bool} {s : Store}
    {J : List (Entry ℕ (Call Empty) Event)} (h : checksDated i β op applied s J = true) :
    dated i β op applied s J := by
  cases op with
  | change c =>
    cases applied with
    | false => cases c with
      | write session w => cases w <;> trivial
      | _ => trivial
    | true =>
      cases c with
      | write session w =>
        cases w with
        | updateOperation u =>
          intro v hv d hd hu
          have hall : ((schema.view s session).all fun v =>
            v.operations.all fun d => !u.selects d || checksDatable d u) = true := h
          rw [hv] at hall
          have hcheck := List.all_eq_true.mp hall d hd
          rw [hu] at hcheck
          exact datable_of_checks hcheck
        | _ => trivial
      | commitTransaction n =>
        intro e he operationId ids r hev d hd hid
        have hall := List.all_eq_true.mp (show _ = true from h) e he
        have hactivated : activatedIn n e.event = some operationId := by
          rw [hev, activatedIn, if_pos rfl]
        rw [hactivated] at hall
        have hcheck := List.all_eq_true.mp hall d hd
        simpa [hid] using hcheck
      | _ => trivial
  | _ => trivial

def datedDriver : Driver (operations deployment noAggregates) (dated : Gate ℕ _ _ _ _) Choice :=
  player.driver _ checksDated dated_of_checks

/-- The dates of expiry of the operations that are stored. -/
def expiries (c : Run) : List (Option Date) := c.store.committed.operations.map (·.expiresAt)

theorem orderly_contested : Orderly contested where
  expirable d hd := by cases hd
  told k d hd hevent := by
    cases d with
    | operation d => cases (operation_of_find (k := k) hd).1
    | _ => cases hevent
  parented r hr operationId hgate := by
    cases List.mem_singleton.mp hr
    cases hgate
  gateless d hd := by cases hd

/-- A conflict is resolved, and the operation may be deleted. -/
theorem expiry_safe_run : ∃ c : Run,
    (operations deployment noAggregates).Runs dated (Config.init (.init contested)) c ∧
    expiries c = [some (1000 + days 30)] ∧
    ∀ d ∈ c.store.committed.operations, d.expiresAt.isSome = true →
      ∀ r ∈ c.store.committed.identifiers, r.activationGateOperationId ≠ some d.operationId := by
  have hrun : ((datedDriver.play (Config.init (.init contested))
      (.start 1 (.resolveConflict conflictId.1 resolution administrator) ::
        turns 36 1 1000 firstId)).map expiries) = some [some (1000 + days 30)] := by
    decide +kernel
  obtain ⟨c, hplay, hexpiries⟩ := Option.map_eq_some_iff.mp hrun
  have hruns := Driver.play_runs hplay
  refine ⟨c, hruns, hexpiries, fun d hd hsome => ?_⟩
  exact (expiry_safe contested_indexed orderly_contested hruns d hd hsome).2.2.2.2

/-- A repair is about to end when a pass ends it, with a date of expiry: its reservation is
gated by an operation that will be deleted. -/
theorem expiry_unsafe : ∃ c : Run,
    (operations deployment noAggregates).Runs anyCall (Config.init (.init contested)) c ∧
    ∃ d ∈ c.store.committed.operations, d.expiresAt.isSome = true ∧
      ∃ r ∈ c.store.committed.identifiers, r.activationGateOperationId = some d.operationId := by
  have hrun : ((freeDriver.play (Config.init (.init contested))
      (.start 1 (.dryRun smallRepair) :: turns 8 1 1000 firstId ++
        .start 2 (.apply smallRepair) :: turns 38 2 1000 firstId ++
        .start 3 (.runBoundedPass "pass") :: turns 9 3 2000 firstId)).map fun c =>
      c.store.committed.operations.any fun d => d.expiresAt.isSome &&
        c.store.committed.identifiers.any fun r =>
          decide (r.activationGateOperationId = some d.operationId)) = some true := by
    decide +kernel
  obtain ⟨c, hplay, hany⟩ := Option.map_eq_some_iff.mp hrun
  obtain ⟨d, hd, hcheck⟩ := List.any_eq_true.mp hany
  obtain ⟨hsome, hgated⟩ := Bool.and_eq_true_iff.mp hcheck
  obtain ⟨r, hr, hgate⟩ := List.any_eq_true.mp hgated
  exact ⟨c, Driver.play_runs hplay, d, hd, hsome, r, hr, of_decide_eq_true hgate⟩

end Schedules

end Operations
