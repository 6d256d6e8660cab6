import BookLibrary.Operations.Lifecycle

/-!
# The verdict on an operation

The terminal event is recorded before the status that it tells of, and whoever finds an
operation finalizing may record it. There is one verdict if all of them read it off the
stored result, and if the ends of repairs are left to the repairs.
-/

namespace Operations

open AuthIdentifiers Documents Interleaving

open SecurityActivityService (terminalEventId)

/-- Texts of one beginning, without it. -/
theorem toList_of_append {start middle : String} {a b x y : String}
    (h : start ++ a ++ middle ++ x = start ++ b ++ middle ++ y) :
    a.toList ++ (middle.toList ++ x.toList) = b.toList ++ (middle.toList ++ y.toList) := by
  have hlist := congrArg String.toList h
  simp only [String.toList_append, List.append_assoc] at hlist
  exact List.append_cancel_left hlist

theorem terminalEventId_inj {operationId operationId' : String} {status status' : TerminalStatus}
    (h : terminalEventId operationId status = terminalEventId operationId' status') :
    operationId = operationId' ∧ status = status' := by
  have hlist := toList_of_append h
  have last : ∀ (id : String) (text : List Char), text ≠ [] →
      (id.toList ++ (":".toList ++ text)).getLast? = text.getLast? := by
    intro id text htext
    rw [← List.append_assoc, List.getLast?_append_of_ne_nil _ htext]
  have hstatus : status = status' := by
    have hlast := congrArg List.getLast? hlist
    rw [last _ _ (by cases status <;> decide), last _ _ (by cases status' <;> decide)] at hlast
    cases status <;> cases status' <;> first | rfl | exact absurd hlast (by decide)
  subst hstatus
  exact ⟨String.toList_inj.mp (List.append_cancel_right hlist), rfl⟩

theorem resumedEventId_ne (operationId resumeId operationId' : String) (status : TerminalStatus) :
    SecurityActivityService.resumedEventId operationId resumeId ≠
      terminalEventId operationId' status := by
  have first : ∀ start a b c : String, start.toList ≠ [] →
      (start ++ a ++ b ++ c).toList.head? = start.toList.head? := by
    intro start a b c hstart
    simp only [String.toList_append, List.append_assoc]
    exact List.head?_append_of_ne_nil _ hstart
  have hresumed : (SecurityActivityService.resumedEventId operationId resumeId).toList.head? =
      "identifier-repair-resumed:".toList.head? := first _ _ _ _ (by decide)
  have hterminal : (terminalEventId operationId' status).toList.head? =
      "auth-identifier-operation:".toList.head? := first _ _ _ _ (by decide)
  intro h
  rw [h, hterminal] at hresumed
  exact absurd hresumed (by decide)

/-- Nothing but this can become of the operation. -/
def Decided (d : AuthIdentifierOperation) (status : TerminalStatus) : Prop :=
  d.status = status.status ∨ d.manifestHash = none ∧ d.status = .finalizing ∧ verdict d = status

/-- What has been decided of the one is decided of the other. -/
def Follows (d d' : AuthIdentifierOperation) : Prop :=
  ∀ status, Decided d status → Decided d' status

theorem Follows.refl (d : AuthIdentifierOperation) : Follows d d := fun _ h => h

theorem Follows.trans {d d' d'' : AuthIdentifierOperation} (h : Follows d d') (h' : Follows d' d'') :
    Follows d d'' := fun status hd => h' status (h status hd)

theorem TerminalStatus.status_inj {status status' : TerminalStatus}
    (h : status.status = status'.status) : status = status' := by
  cases status <;> cases status' <;> first | rfl | cases h

theorem TerminalStatus.status_ne_finalizing (status : TerminalStatus) :
    status.status ≠ .finalizing := by cases status <;> decide

theorem Decided.unique {d : AuthIdentifierOperation} {status status' : TerminalStatus}
    (h : Decided d status) (h' : Decided d status') : status = status' := by
  rcases h with hd | ⟨-, hd, hverdict⟩ <;> rcases h' with hd' | ⟨-, hd', hverdict'⟩
  · exact TerminalStatus.status_inj (hd.symm.trans hd')
  · exact absurd (hd.symm.trans hd') status.status_ne_finalizing
  · exact absurd (hd'.symm.trans hd) status'.status_ne_finalizing
  · exact hverdict.symm.trans hverdict'

/-- The verdict on an operation that is finalizing is the one that is decided. -/
theorem Decided.verdict_eq {d : AuthIdentifierOperation} {status : TerminalStatus}
    (h : Decided d status) (hd : d.status = .finalizing) : verdict d = status := by
  rcases h with hterminal | ⟨-, -, hverdict⟩
  · exact absurd (hterminal.symm.trans hd) status.status_ne_finalizing
  · exact hverdict

/-- As long as an operation is not finalizing, all that may be decided of it is its end. -/
theorem follows_of_moves {d d' : AuthIdentifierOperation} (h : Moves d d')
    (hd : d.status ≠ .finalizing) : Follows d d' := by
  rintro status (hterminal | ⟨-, hfinalizing, -⟩)
  · refine .inl ?_
    rw [h.terminal (by rw [hterminal]; exact status.isTerminal_status), hterminal]
  · exact absurd hfinalizing hd

/-- That is decided of the operation of that id. -/
def Backs (v : Database) (operationId : String) (status : TerminalStatus) : Prop :=
  ∃ d ∈ v.operations, d.operationId = operationId ∧ Decided d status

/-- Every terminal event is of an operation of which that is decided. -/
def Agreed (v : Database) : Prop :=
  ∀ e ∈ v.activity, ∀ operationId status, e.eventId = some (terminalEventId operationId status) →
    Backs v operationId status

theorem Backs.grows {v v' : Database} {operationId : String} {status : TerminalStatus}
    (hv : v.Indexed) (hgrows : Sessions.Grows schema (Advances Follows) v v')
    (h : Backs v operationId status) : Backs v' operationId status := by
  obtain ⟨d, hd, hid, hdecided⟩ := h
  obtain ⟨y, hy, hle⟩ := hgrows (.operation d.id) _ (find_operation hv hd)
  obtain ⟨d', rfl, -, hoperation, -, -, hfollows⟩ := hle.operation
  have hmem : d' ∈ v'.operations := (operation_of_find (k := .operation d.id) hy).1
  exact ⟨d', hmem, hoperation.trans hid, hfollows status hdecided⟩

section Updates

variable {env : Environment} {inputs : OperationInput → Prop} {l : List Event}
  {session : Option ℕ} {u : OperationUpdate} {d : AuthIdentifierOperation}

/-- What an update of an operation that is finalizing makes of it has been decided. -/
theorem follows_of_warranted (hw : Warranted env inputs l session (.updateOperation u))
    (hbounded : ∀ x reservations, .saw none (.listed x reservations) ∈ l → x.status = .finalizing →
      reservations.length ≤ env.identifierMaxOperationAssignments)
    (hu : u.selects d = true)
    (hshown : ∀ x, Shown l session (.operation x) → d.operationId = x.operationId →
      d.manifestHash = x.manifestHash ∧ Follows x d)
    (hclaimed : ∀ x, Claimed l x → x.status = .finalizing →
      AuthIdentifierReconciliationService.terminalStatus x = verdict x)
    (hrepair : ∀ operationId status result eventId now,
      u = .finishRepair operationId status result eventId now → d.manifestHash.isSome = true) :
    Follows d (u.apply d) := by
  have hmoves := moves_of_warranted hw hbounded hu
  by_cases hd : d.status = .finalizing
  · -- a status that is written is the one that is decided
    have ends : ∀ {x status}, Shown l session (.operation x) → d.operationId = x.operationId →
        x.status = .finalizing → verdict x = status → (u.apply d).status = status.status →
        Follows d (u.apply d) := by
      intro x status hx hid hfinalizing hverdict happly
      rintro status' (hterminal | ⟨hnone, -, hverdict'⟩)
      · exact absurd (hterminal.symm.trans hd) status'.status_ne_finalizing
      · obtain ⟨hhash, hfollows⟩ := hshown x hx hid
        have hdecided := hfollows status (.inr ⟨hhash.symm.trans hnone, hfinalizing, hverdict⟩)
        rw [← hverdict', hdecided.verdict_eq hd]
        exact .inl happly
    cases hw with
    | aggregate hw => cases hw
    | quiet hquiet =>
      rintro status (hterminal | ⟨hnone, -, hverdict⟩)
      · exact absurd (hterminal.symm.trans hd) status.status_ne_finalizing
      · refine .inr ⟨by rw [OperationUpdate.apply_manifestHash]; exact hnone, ?_, ?_⟩
        · rw [OperationUpdate.apply_status_of_isQuiet hquiet]
          exact hd
        · rw [verdict, OperationUpdate.apply_result_of_isQuiet hquiet]
          exact hverdict
    | transition htarget hopen =>
      simp only [OperationUpdate.selects, Bool.and_eq_true, decide_eq_true_eq] at hu
      rw [← hu.2, hd] at htarget
      have hterminal := mem_allowedTransitions_finalizing.mp htarget
      rcases hopen with rfl | rfl | rfl <;> cases hterminal
    | beginFinalizing hsource =>
      simp only [OperationUpdate.selects, Bool.and_eq_true, decide_eq_true_eq] at hu
      rw [← hu.2, hd] at hsource
      cases mem_allowedTransitions_finalizing.mp hsource
    | finishTerminal hfinalizing =>
      simp only [OperationUpdate.selects, Bool.and_eq_true, decide_eq_true_eq] at hu
      obtain ⟨x, hid, hstatus, hverdict, hx⟩ := hfinalizing
      exact ends hx (hu.1.trans hid.symm) hstatus hverdict rfl
    | recoverTransition _ hopen htarget =>
      rcases hmoves with hsame | hmoved
      · have hother : (OperationUpdate.apply _ d).status = .finalizing := hsame.trans hd
        rintro status (hterminal | ⟨hnone, -, hverdict⟩)
        · exact absurd (hterminal.symm.trans hd) status.status_ne_finalizing
        · exact .inr ⟨hnone, hother, hverdict⟩
      · rw [hd] at hmoved
        have hterminal := mem_allowedTransitions_finalizing.mp hmoved
        rcases htarget with ⟨-, hnot⟩ | ⟨rfl, -⟩
        · exact absurd hterminal (by rw [OperationUpdate.apply, hnot]; exact Bool.false_ne_true)
        · cases hterminal
    | finalize hc hstatus =>
      simp only [OperationUpdate.selects, Bool.and_eq_true, decide_eq_true_eq] at hu
      exact ends hc.shown hu.1.1 hstatus (hclaimed _ hc hstatus).symm rfl
    | finishCleanup =>
      simp only [OperationUpdate.selects, Bool.and_eq_true, decide_eq_true_eq, hd] at hu
      exact absurd hu.1.1.1.1.2 (by decide)
    | startApplying hsource =>
      simp only [OperationUpdate.selects, Bool.and_eq_true, decide_eq_true_eq, hd] at hu
      rcases hsource with rfl | rfl <;> cases hu.2
    | moveStatus hmove htarget =>
      simp only [OperationUpdate.selects, Bool.and_eq_true, decide_eq_true_eq, hd] at hu
      have hterminal := mem_allowedTransitions_finalizing.mp (hmove _ hu.2)
      rw [htarget] at hterminal
      cases hterminal
    | finishRepair =>
      rintro status (hterminal | ⟨hnone, -⟩)
      · exact absurd (hterminal.symm.trans hd) status.status_ne_finalizing
      · have hsome := hrepair _ _ _ _ _ rfl
        rw [hnone] at hsome
        cases hsome
  · exact follows_of_moves hmoves hd

end Updates

section Gate

variable {A ι : Type} [DecidableEq ι] {env : Environment} {aggregates : A → Aggregate}

/-- A pass claims an operation that is finalizing where it would conclude what is stored; no
end of a repair's parent is recorded outside of transactions; and a repair ends its parent
only while that is finalizing. -/
def Judged (session : Option ℕ) (v : Database) : Write → Prop
  | .updateOperation (.claim id _ _ _ _) => ∀ d ∈ v.operations, d.id = id →
    d.status = .finalizing → AuthIdentifierReconciliationService.terminalStatus d = verdict d
  | .updateOperation (.finishRepair operationId _ _ _ _) => ∃ d ∈ v.operations,
    d.operationId = operationId ∧ d.manifestHash.isSome = true ∧ d.status = .finalizing
  | .recordEvent e => session = none → ∀ d ∈ v.operations, ∀ status,
    e.eventId = some (terminalEventId d.operationId status) → d.manifestHash = none
  | _ => True

variable (env) in
def judged : Gate ι (Call A) Op Store Event := fun i β op applied s J =>
  pendingBounded env i β op applied s J ∧ match β, op, applied with
    | _, .change (.write session w), true => ∀ v, schema.view s session = some v → Judged session v w
    | _, _, _ => True

variable (env) in
/-- What holds under this gate. In a transaction, an event may await the status. -/
structure Ruled (s : Store) (J : List (Entry ι (Call A) Event)) : Prop where
  tabled : Tabled env s J
  kept : Kept Follows s J
  claimed : ∀ e ∈ J, ∀ id owner now leaseExpiresAt cutoff d,
    e.event = .wrote none (.updateOperation (.claim id owner now leaseExpiresAt cutoff))
      (.written [.operation d]) → d.status = .finalizing →
    AuthIdentifierReconciliationService.terminalStatus d = verdict d
  finished : ∀ e ∈ J, ∀ n operationId status result eventId now r,
    e.event = .wrote (some n)
      (.updateOperation (.finishRepair operationId status result eventId now)) r →
    r = .duplicateKey ∨ ∃ d, r = .written [.operation d] ∧ d.operationId = operationId ∧
      d.status = status
  committed : Agreed s.committed
  views : ∀ n t, s.transactions n = some t →
    ∀ e ∈ (schema.putAll t.buffer t.snapshot).activity, ∀ operationId status,
      e.eventId = some (terminalEventId operationId status) →
      Backs (schema.putAll t.buffer t.snapshot) operationId status ∨
      ∃ x ∈ J, ∃ e' r, x.event = .wrote (some n) (.recordEvent e') r ∧ e'.eventId = e.eventId

variable {s s' : Store} {J : List (Entry ι (Call A) Event)} {i : ι} {call : Call A} {β : Type}
  {op : Op β} {x : Option β}

theorem Ruled.own_claimed (h : Ruled env s J) (i : ι) : ∀ d, Claimed (own i J) d →
    d.status = .finalizing →
    AuthIdentifierReconciliationService.terminalStatus d = verdict d := by
  rintro d ⟨id, owner, now, leaseExpiresAt, cutoff, hmem⟩ hd
  obtain ⟨call, he⟩ := mem_own.mp hmem
  exact h.claimed _ he id owner now leaseExpiresAt cutoff d rfl hd

/-- An operation that has been seen finalizing is decided. -/
theorem Ruled.decided_of_shown (h : Ruled env s J) {session : Option ℕ} {v : Database}
    (hv : schema.view s session = some v) {d : AuthIdentifierOperation} {status : TerminalStatus}
    (hd : Shown (own i J) session (.operation d)) (hfinalizing : d.status = .finalizing)
    (hverdict : verdict d = status)
    (hhash : ∀ d' ∈ v.operations, d'.operationId = d.operationId → d'.manifestHash = none) :
    Backs v d.operationId status := by
  obtain ⟨d', hd', -, hoperation, hsame, hfollows⟩ := h.kept.shown_operation hv hd
  refine ⟨d', hd', hoperation, hfollows status (.inr ⟨?_, hfinalizing, hverdict⟩)⟩
  rw [← hsame]
  exact hhash d' hd' hoperation

/-- What is created within a transaction is no repair's parent. -/
theorem Kept.hash_of_within {le : AuthIdentifierOperation → AuthIdentifierOperation → Prop}
    (h : Kept le s J) (hJ : Journaled env s J) {n : ℕ} {v : Database}
    (hv : schema.view s (some n) = some v) {operationId : String}
    (hinserted : Inserted (own i J) n operationId) :
    ∀ d ∈ v.operations, d.operationId = operationId → d.manifestHash = none := by
  intro d hd hid
  obtain ⟨d₀, hid₀, hhash, hshown⟩ := hinserted.shown
  rw [(h.shown_unique hJ hv hshown hd (hid.trans hid₀.symm)).1]
  exact hhash

omit [DecidableEq ι] in
theorem judged_of_writes {session : Option ℕ} {w : Write} {v : Database}
    (hgate : judged env i β op x.isSome s J) (hx : x.isSome = true)
    (hw : op.writes = some (session, w)) (hv : schema.view s session = some v) :
    Judged session v w := by
  cases op with
  | change c =>
    cases c with
    | write session' w' =>
      cases hw
      rw [hx] at hgate
      exact hgate.2 v hv
    | _ => cases hw
  | _ => cases hw

theorem Ruled.follows (h : Ruled env s J) (hJ : Journaled env s J)
    (hlegal : Legal env call.inputs (own i J) op) (hgate : judged env i β op x.isSome s J)
    (hx : x.isSome = true) {session : Option ℕ} {u : OperationUpdate} {v : Database}
    {d : AuthIdentifierOperation} (hw : op.writes = some (session, .updateOperation u))
    (hv : schema.view s session = some v) (hd : d ∈ v.operations) (hu : u.selects d = true) :
    Follows d (u.apply d) := by
  refine follows_of_warranted (hlegal.warranted _ _ hw) (h.tabled.own_bounded i) hu
    (fun x hshown hid => h.kept.shown_unique hJ hv hshown hd hid) (h.own_claimed i) ?_
  rintro operationId status result eventId now rfl
  obtain ⟨d', hd', hid, hhash, -⟩ := judged_of_writes hgate hx hw hv
  simp only [OperationUpdate.selects, Bool.and_eq_true, decide_eq_true_eq] at hu
  have hindexed : v.Indexed := of_decide_eq_true (hJ.ledger.view_indexed hv)
  rw [eq_of_key hindexed.operationId hd hd' (hu.1.trans hid.symm)]
  exact hhash

/-- What an event tells is decided when the event is recorded, unless a repair records it. -/
theorem Ruled.backs (h : Ruled env s J) (hJ : Journaled env s J)
    (hlegal : Legal env call.inputs (own i J) op) (hgate : judged env i β op x.isSome s J)
    (hx : x.isSome = true) {session : Option ℕ} {e : SecurityActivityEvent} {v : Database}
    (hw : op.writes = some (session, .recordEvent e)) (hv : schema.view s session = some v)
    {operationId : String} {status : TerminalStatus}
    (he : e.eventId = some (terminalEventId operationId status)) :
    Backs v operationId status ∨ session.isSome = true := by
  have hjudged := judged_of_writes hgate hx hw hv
  cases hlegal.warranted _ _ hw with
  | aggregate hw => cases hw
  | recordResumed => exact absurd (Option.some.inj he) (resumedEventId_ne _ _ _ _)
  | @recordFinalizing _ input hfinalizing hwithin =>
    obtain ⟨rfl, rfl⟩ := terminalEventId_inj (Option.some.inj he)
    obtain ⟨d, hid, hstatus, hverdict, hshown⟩ := hfinalizing
    refine .inl ?_
    rw [← hid]
    refine h.decided_of_shown hv hshown hstatus hverdict fun d' hd' hid' => ?_
    cases session with
    | none => exact hjudged rfl d' hd' _ (by rw [hid'.trans hid]; rfl)
    | some n => exact h.kept.hash_of_within hJ hv (hwithin n rfl).2 d' hd' (hid'.trans hid)
  | @recordClaimed input d hclaimed hstatus hid hverdict =>
    obtain ⟨rfl, rfl⟩ := terminalEventId_inj (Option.some.inj he)
    refine .inl ?_
    rw [← hid]
    have hsame := (h.own_claimed i d hclaimed hstatus).symm.trans hverdict
    refine h.decided_of_shown hv hclaimed.shown hstatus hsame fun d' hd' hid' => ?_
    exact hjudged rfl d' hd' _ (by rw [hid'.trans hid]; rfl)
  | recordRepair => exact .inr rfl

theorem Ruled.grows (h : Ruled env s J) (hJ : Journaled env s J)
    (hlegal : Legal env call.inputs (own i J) op) (hgate : judged env i β op x.isSome s J)
    (hx : x.isSome = true) {session : Option ℕ} {w : Write} {v : Database}
    (hw : op.writes = some (session, w)) (hv : schema.view s session = some v) :
    Sessions.Grows schema (Advances Follows) v (schema.putAll (schema.write w v).docs v) := by
  refine grows_of_warranted Follows.refl (hlegal.warranted _ _ hw) (hJ.ledger.view_indexed hv) ?_
  rintro u d rfl hd hu
  exact h.follows hJ hlegal hgate hx hw hv hd hu

/-- When a transaction commits, all that it has recorded is decided in its view. -/
theorem Ruled.view_agreed (h : Ruled env s J) (hJ : Journaled env s J) {n : ℕ}
    {t : Sessions.Transaction Database Document} (ht : s.transactions n = some t)
    (hbegan : .began n ∈ own i J) (hsettled : Settled n (Sessions.since n (own i J))) :
    Agreed (schema.putAll t.buffer t.snapshot) := by
  have hv : schema.view s (some n) = some (schema.putAll t.buffer t.snapshot) := by
    rw [Sessions.Schema.view, ht]
    rfl
  intro e he operationId status hid
  rcases h.views n t ht e he operationId status hid with hbacked | ⟨y, hy, e', r, hevent, heq⟩
  · exact hbacked
  · -- the transaction is of the caller who began it
    obtain ⟨call₀, hmem₀⟩ := mem_own.mp hbegan
    have hcaller : y.caller = i :=
      hJ.ledger.one y hy _ hmem₀ n (by rw [hevent]; rfl) rfl
    obtain ⟨j, call₁, ev⟩ := y
    obtain rfl : j = i := hcaller
    obtain rfl : ev = _ := hevent
    have hrecent := hJ.ledger.recent j n _ (mem_own.mpr ⟨call₁, hy⟩) rfl (by rintro ⟨⟩)
    obtain ⟨u, r', hu, hr', hwrote⟩ := hsettled e' r hrecent
    have hown := Sessions.since_subset n _ hwrote
    obtain ⟨call₂, hmem⟩ := mem_own.mp hown
    have hwarranted := hJ.warranted _ hmem (some n) _ r' rfl
    rw [heq, hid] at hu
    cases hwarranted with
    | aggregate hw => cases hw
    | @finishTerminal _ _ status' _ _ _ hfinalizing _ hwithin =>
      obtain ⟨rfl, rfl⟩ := terminalEventId_inj (Option.some.inj hu)
      obtain ⟨d, hoperation, hstatus, hverdict, hshown⟩ := hfinalizing
      rw [← hoperation]
      refine h.decided_of_shown hv hshown hstatus hverdict fun d' hd' hid' => ?_
      exact h.kept.hash_of_within hJ hv (hwithin n rfl).2 d' hd' (hid'.trans hoperation)
    | @finishRepair _ _ status' =>
      obtain ⟨rfl, rfl⟩ := terminalEventId_inj (Option.some.inj hu)
      rcases h.finished _ hmem n _ _ _ _ _ r' rfl with hdup | ⟨d, rfl, hoperation, hstatus⟩
      · exact absurd hdup hr'
      · have hshown : Shown (own j J) (some n) (.operation d) :=
          ⟨_, hown, rfl, List.mem_singleton_self _⟩
        obtain ⟨d', hd', -, hoperation', -, hfollows⟩ := h.kept.shown_operation hv hshown
        exact ⟨d', hd', hoperation'.trans hoperation, hfollows _ (.inl hstatus)⟩
    | quiet hquiet =>
      rw [OperationUpdate.finishes_of_isQuiet hquiet] at hu
      cases hu
    | _ => cases hu

omit [DecidableEq ι] in
/-- A claim leaves an operation that was judged before. -/
theorem terminalStatus_of_claim (hgate : judged env i β op x.isSome s J) {evs : List Event}
    (heff : Sessions.Effect schema seen s op x evs s')
    {id owner : String} {now leaseExpiresAt cutoff : Date} {d : AuthIdentifierOperation}
    (hmem : .wrote none (.updateOperation (.claim id owner now leaseExpiresAt cutoff))
      (.written [.operation d]) ∈ evs) (hd : d.status = .finalizing) :
    AuthIdentifierReconciliationService.terminalStatus d = verdict d := by
  cases heff with
  | found =>
    obtain ⟨_, -, heq⟩ := List.mem_map.mp hmem
    cases heq
  | wrote w =>
    obtain ⟨-, rfl, hr⟩ := Sessions.Event.wrote.inj (List.mem_singleton.mp hmem)
    obtain ⟨d₀, hd₀, hu, hwrite⟩ := updated_of_docs (by rw [← hr]; exact List.cons_ne_nil _ _)
    have hjudged := hgate.2 s.committed rfl
    rw [hwrite] at hr
    cases hr
    simp only [OperationUpdate.selects, Bool.and_eq_true, decide_eq_true_eq] at hu
    exact hjudged d₀ hd₀ hu.1 hd
  | wroteIn w => cases List.mem_singleton.mp hmem
  | began => cases List.mem_singleton.mp hmem
  | committed => cases List.mem_singleton.mp hmem
  | _ => cases hmem

omit [DecidableEq ι] in
/-- A repair that ends its parent has found it. -/
theorem finished_of_effect (hgate : judged env i β op x.isSome s J) {evs : List Event}
    (heff : Sessions.Effect schema seen s op x evs s') {n : ℕ} {operationId : String}
    {status : AuthIdentifierOperationStatus} {result : AuthIdentifierOperationResult}
    {eventId : String} {now : Date} {r : Sessions.WriteResult Document}
    (hmem : .wrote (some n)
      (.updateOperation (.finishRepair operationId status result eventId now)) r ∈ evs) :
    r = .duplicateKey ∨ ∃ d, r = .written [.operation d] ∧ d.operationId = operationId ∧
      d.status = status := by
  cases heff with
  | found =>
    obtain ⟨_, -, heq⟩ := List.mem_map.mp hmem
    cases heq
  | @wroteIn m t w present =>
    obtain ⟨hm, rfl, rfl⟩ := Sessions.Event.wrote.inj (List.mem_singleton.mp hmem)
    obtain ⟨d, hd, hid, -, hstatus⟩ := hgate.2 _ (by rw [Sessions.Schema.view, present]; rfl)
    by_cases hindexed : ((Database.unchecked (schema.putAll t.buffer t.snapshot) (.updateOperation
        (.finishRepair operationId status result eventId now))).docs.foldr Accounts.Database.put
        (schema.putAll t.buffer t.snapshot)).Indexed
    · right
      have hselects : (OperationUpdate.finishRepair operationId status result eventId now).selects d =
          true := by
        simp [OperationUpdate.selects, hid, hstatus]
      have hdocs : (schema.write (.updateOperation
          (.finishRepair operationId status result eventId now))
          (schema.putAll t.buffer t.snapshot)).docs ≠ [] := by
        have hwrite : schema.write (.updateOperation
            (.finishRepair operationId status result eventId now))
            (schema.putAll t.buffer t.snapshot) = Database.unchecked _ _ := if_pos hindexed
        rw [hwrite, Database.unchecked, Accounts.Database.update]
        cases hfind : (schema.putAll t.buffer t.snapshot).operations.find?
            (OperationUpdate.finishRepair operationId status result eventId now).selects with
        | none => exact absurd hselects (List.find?_eq_none.mp hfind d hd)
        | some d' => exact List.cons_ne_nil _ _
      obtain ⟨d', -, hu, hwrite⟩ := updated_of_docs hdocs
      simp only [OperationUpdate.selects, Bool.and_eq_true, decide_eq_true_eq] at hu
      exact ⟨_, hwrite, hu.1, rfl⟩
    · exact .inl (if_neg hindexed)
  | wrote w => cases List.mem_singleton.mp hmem
  | began => cases List.mem_singleton.mp hmem
  | committed => cases List.mem_singleton.mp hmem
  | _ => cases hmem

theorem Ruled.committed_step (h : Ruled env s J) (hJ : Journaled env s J)
    (hlegal : Legal env call.inputs (own i J) op) (hgate : judged env i β op x.isSome s J)
    (heff : Sessions.Effect schema seen s op x (op.note seen β x) s') : Agreed s'.committed := by
  have hindexed : s.committed.Indexed := of_decide_eq_true hJ.ledger.indexed
  generalize op.note seen β x = evs at heff
  cases heff with
  | wrote w =>
    have hgrows := h.grows hJ hlegal hgate rfl rfl (v := s.committed) rfl
    intro e he operationId status hid
    rcases event_of_warranted (hlegal.warranted _ _ rfl) hJ.ledger.indexed he with
      hold | ⟨e', rfl, heq⟩
    · exact (h.committed e hold operationId status hid).grows hindexed hgrows
    · rcases h.backs hJ hlegal hgate rfl rfl (v := s.committed) rfl (heq ▸ hid) with hbacked | hsome
      · exact hbacked.grows hindexed hgrows
      · cases hsome
  | @committed n t present unconflicted indexed =>
    have hview := h.view_agreed hJ present hlegal.disciplined (hlegal.settled n rfl)
    have hgrows := Sessions.Grows.commit schema_lawful (advances_refl Follows.refl)
      (h.kept.grown.view n t present) unconflicted
    have hmerge := Sessions.Grows.merge schema_lawful
      (ordered Follows.refl fun _ _ _ => Follows.trans) (h.kept.grown.committed n t present)
      unconflicted
    intro e he operationId status hid
    have hfind := find_event (of_decide_eq_true indexed) he
    rcases schema_lawful.commit_find unconflicted (.event e.id) with ⟨hnew, -⟩ | ⟨hnew, -⟩
    · have hmem := (event_of_find (k := .event e.id) (hnew.symm.trans hfind)).1
      exact (hview e hmem operationId status hid).grows
        (of_decide_eq_true (hJ.ledger.views n t present)) hmerge
    · have hmem := (event_of_find (k := .event e.id) (hnew.symm.trans hfind)).1
      exact (h.committed e hmem operationId status hid).grows hindexed hgrows
  | _ => exact h.committed

theorem Ruled.views_step (h : Ruled env s J) (hJ : Journaled env s J)
    (hlegal : Legal env call.inputs (own i J) op) (hgate : judged env i β op x.isSome s J)
    (heff : Sessions.Effect schema seen s op x (op.note seen β x) s') {n : ℕ}
    {t : Sessions.Transaction Database Document} (ht : s'.transactions n = some t) :
    ∀ e ∈ (schema.putAll t.buffer t.snapshot).activity, ∀ operationId status,
      e.eventId = some (terminalEventId operationId status) →
      Backs (schema.putAll t.buffer t.snapshot) operationId status ∨
      ∃ y ∈ record i call (op.note seen β x) ++ J, ∃ e' r,
        y.event = .wrote (some n) (.recordEvent e') r ∧ e'.eventId = e.eventId := by
  have old : s.transactions n = some t → ∀ e ∈ (schema.putAll t.buffer t.snapshot).activity,
      ∀ operationId status, e.eventId = some (terminalEventId operationId status) →
      Backs (schema.putAll t.buffer t.snapshot) operationId status ∨
      ∃ y ∈ record i call (op.note seen β x) ++ J, ∃ e' r,
        y.event = .wrote (some n) (.recordEvent e') r ∧ e'.eventId = e.eventId := by
    intro hold e he operationId status hid
    refine (h.views n t hold e he operationId status hid).imp_right ?_
    rintro ⟨y, hy, hevent⟩
    exact ⟨y, List.mem_append_right _ hy, hevent⟩
  have closing : ∀ m, Function.update s.transactions m none n = some t →
      s.transactions n = some t := by
    intro m hm
    rcases Sessions.update_cases hm with ⟨-, hnone⟩ | ⟨-, hold⟩
    · cases hnone
    · exact hold
  generalize hevs : op.note seen β x = evs at heff old ⊢
  cases heff with
  | lost | drew | found | wrote => exact old ht
  | @wroteIn m t₀ w present =>
    rcases Sessions.update_cases ht with ⟨rfl, heq⟩ | ⟨-, hold⟩
    · cases heq
      have hv : schema.view s (some n) = some (schema.putAll t₀.buffer t₀.snapshot) := by
        rw [Sessions.Schema.view, present]
        rfl
      have hgrows := h.grows hJ hlegal hgate rfl rfl hv
      have hindexed := hJ.ledger.views n t₀ present
      rw [schema.putAll_append]
      intro e he operationId status hid
      rcases event_of_warranted (hlegal.warranted _ _ rfl) hindexed he with hold | ⟨e', rfl, heq⟩
      · rcases h.views n t₀ present e hold operationId status hid with hbacked | ⟨y, hy, hevent⟩
        · exact .inl (hbacked.grows (of_decide_eq_true hindexed) hgrows)
        · exact .inr ⟨y, List.mem_append_right _ hy, hevent⟩
      · rcases h.backs hJ hlegal hgate rfl rfl hv (heq ▸ hid) with hbacked | -
        · exact .inl (hbacked.grows (of_decide_eq_true hindexed) hgrows)
        · -- the repair has yet to end its parent
          refine .inr ⟨⟨i, call, .wrote (some n) (.recordEvent e') (schema.write (.recordEvent e')
            (schema.putAll t₀.buffer t₀.snapshot))⟩, List.mem_append_left _ ?_, e', _, rfl, heq.symm⟩
          exact mem_record.mpr ⟨rfl, rfl, List.mem_singleton_self _⟩
    · exact old hold
  | began =>
    rcases Sessions.update_cases ht with ⟨rfl, heq⟩ | ⟨-, hold⟩
    · cases heq
      exact fun e he operationId status hid => .inl (h.committed e he operationId status hid)
    · exact old hold
  | @committed m => exact old (closing m ht)
  | aborted m => exact old (closing m ht)

theorem Ruled.step (h : Ruled env s J) (hJ : Journaled env s J)
    (hlegal : Legal env call.inputs (own i J) op) (hgate : judged env i β op x.isSome s J)
    (heff : Sessions.Effect schema seen s op x (op.note seen β x) s') :
    Ruled env s' (record i call (op.note seen β x) ++ J) where
  tabled := h.tabled.step hJ hlegal hgate.1 heff
  kept := h.kept.step hJ Follows.refl (fun _ _ _ => Follows.trans) hlegal heff
    fun _ _ _ _ hx hw hv hd hu => h.follows hJ hlegal hgate hx hw hv hd hu
  claimed := by
    intro e he id owner now leaseExpiresAt cutoff d hev hd
    rcases List.mem_append.mp he with hnew | hold
    · have hmem := (mem_record.mp hnew).2.2
      rw [hev] at hmem
      exact terminalStatus_of_claim hgate heff hmem hd
    · exact h.claimed e hold id owner now leaseExpiresAt cutoff d hev hd
  finished := by
    intro e he n operationId status result eventId now r hev
    rcases List.mem_append.mp he with hnew | hold
    · have hmem := (mem_record.mp hnew).2.2
      rw [hev] at hmem
      exact finished_of_effect hgate heff hmem
    · exact h.finished e hold n operationId status result eventId now r hev
  committed := h.committed_step hJ hlegal hgate heff
  views _ _ ht := h.views_step hJ hlegal hgate heff ht

end Gate

section Runs

variable {A ι : Type} [DecidableEq ι] {env : Environment} {aggregates : A → Aggregate}
  {s₀ : Database} {c : Config ι (Call A) Op Store Response Event}

/-- Under this gate no two terminal events are of one operation, and if it has ended it has
ended as its event says. -/
theorem verdicts_agree (hs : s₀.Indexed) (h₀ : Agreed s₀)
    (hrun : (operations env aggregates).Runs (judged env) (Config.init (.init s₀)) c) :
    (∀ e ∈ c.store.committed.activity, ∀ e' ∈ c.store.committed.activity,
      ∀ operationId status status',
        e.eventId = some (terminalEventId operationId status) →
        e'.eventId = some (terminalEventId operationId status') → status = status' ∧ e = e') ∧
    ∀ e ∈ c.store.committed.activity, ∀ d ∈ c.store.committed.operations, ∀ status,
      e.eventId = some (terminalEventId d.operationId status) → d.status.isTerminal = true →
      d.status = status.status := by
  have w : WellFormed (contract ι env aggregates) c := (wellFormed_init hs).runs hrun
  have h : Ruled env c.store c.journal := by
    refine (wellFormed_init hs).runs_induct (P := Ruled env)
      (fun {_ _ _ _ _ _ _ _ _} hJ h _ hlegal hgate heff =>
        h.step hJ hlegal hgate (Sessions.effect_of_applies heff))
      (fun _ h henv => henv ▸ h) hrun ⟨⟨.init s₀, ?_, ?_⟩, .init s₀, ?_, ?_, h₀, ?_⟩
    · intro e he
      cases he
    · intro n t ht
      cases ht
    · intro e he
      cases he
    · intro e he
      cases he
    · intro n t ht
      cases ht
  have hindexed : c.store.committed.Indexed := of_decide_eq_true w.inv.ledger.indexed
  refine ⟨fun e he e' he' operationId status status' hid hid' => ?_, fun e he d hd status hid hd' => ?_⟩
  · obtain ⟨d, hd, hoperation, hdecided⟩ := h.committed e he operationId status hid
    obtain ⟨d', hd', hoperation', hdecided'⟩ := h.committed e' he' operationId status' hid'
    obtain rfl : d = d' :=
      eq_of_key hindexed.operationId hd hd' (hoperation.trans hoperation'.symm)
    obtain rfl := hdecided.unique hdecided'
    exact ⟨rfl, hindexed.eventId.eq he he' hid hid'⟩
  · obtain ⟨d', hmem, hoperation, hdecided⟩ := h.committed e he d.operationId status hid
    obtain rfl : d' = d := eq_of_key hindexed.operationId hmem hd hoperation
    rcases hdecided with hended | ⟨-, hfinalizing, -⟩
    · exact hended
    · rw [hfinalizing] at hd'
      cases hd'

end Runs

section Schedules

/-- `Judged`, checked. -/
def checksJudged (session : Option ℕ) (v : Database) : Write → Bool
  | .updateOperation (.claim id _ _ _ _) => v.operations.all fun d => !decide (d.id = id) ||
    !decide (d.status = .finalizing) ||
    decide (AuthIdentifierReconciliationService.terminalStatus d = verdict d)
  | .updateOperation (.finishRepair operationId _ _ _ _) => v.operations.any fun d =>
    decide (d.operationId = operationId) && d.manifestHash.isSome && decide (d.status = .finalizing)
  | .recordEvent e => session.isSome || v.operations.all fun d => d.manifestHash.isNone ||
    ([.completed, .failedTerminal] : List TerminalStatus).all fun status =>
      !decide (e.eventId = some (terminalEventId d.operationId status))
  | _ => true

theorem judged_of_checksJudged {session : Option ℕ} {v : Database} {w : Write}
    (h : checksJudged session v w = true) : Judged session v w := by
  cases w with
  | updateOperation u =>
    cases u with
    | claim id =>
      intro d hd hid hstatus
      have hall := List.all_eq_true.mp h d hd
      simpa [hid, hstatus] using hall
    | finishRepair operationId =>
      obtain ⟨d, hd, hcheck⟩ := List.any_eq_true.mp h
      simp only [Bool.and_eq_true, decide_eq_true_eq] at hcheck
      exact ⟨d, hd, hcheck.1.1, hcheck.1.2, hcheck.2⟩
    | _ => trivial
  | recordEvent e =>
    rintro rfl d hd status hid
    have hall := List.all_eq_true.mp (show _ = true from h) d hd
    cases status <;> simpa [hid] using hall
  | _ => trivial

def checksVerdicts (i : ℕ) (β : Type) (op : Op β) (applied : Bool) (s : Store)
    (J : List (Entry ℕ (Call Empty) Event)) : Bool :=
  checksPending i β op applied s J && match β, op with
    | _, .change (.write session w) =>
      !applied || (schema.view s session).all fun v => checksJudged session v w
    | _, _ => true

theorem judged_of_checks {i : ℕ} {β : Type} {op : Op β} {applied : Bool} {s : Store}
    {J : List (Entry ℕ (Call Empty) Event)} (h : checksVerdicts i β op applied s J = true) :
    judged deployment i β op applied s J := by
  obtain ⟨hpending, hcheck⟩ := Bool.and_eq_true_iff.mp h
  refine ⟨pendingBounded_of_checks hpending, ?_⟩
  cases op with
  | change c =>
    cases c with
    | write session w =>
      cases applied with
      | true =>
        intro v hv
        have hall : ((schema.view s session).all fun v => checksJudged session v w) = true := hcheck
        rw [hv] at hall
        exact judged_of_checksJudged hall
      | false => trivial
    | _ => trivial
  | _ => trivial

def verdictDriver : Driver (operations deployment noAggregates) (judged deployment : Gate ℕ _ _ _ _)
    Choice := player.driver _ checksVerdicts judged_of_checks

/-- A conflict is resolved, and its event agrees with the operation. -/
theorem verdicts_agree_run : ∃ c : Run,
    (operations deployment noAggregates).Runs (judged deployment) (Config.init (.init contested)) c ∧
    eventIds c = [some (terminalEventId "resolution" .completed)] ∧ statuses c = [.completed] ∧
    ∀ e ∈ c.store.committed.activity, ∀ d ∈ c.store.committed.operations, ∀ status,
      e.eventId = some (terminalEventId d.operationId status) → d.status.isTerminal = true →
      d.status = status.status := by
  have hrun : ((verdictDriver.play (Config.init (.init contested))
      (.start 1 (.resolveConflict conflictId.1 resolution administrator) ::
        turns 36 1 1000 firstId)).map fun c => (eventIds c, statuses c)) =
      some ([some (terminalEventId "resolution" .completed)], [.completed]) := by decide +kernel
  obtain ⟨c, hplay, hview⟩ := Option.map_eq_some_iff.mp hrun
  obtain ⟨hevents, hstatuses⟩ := Prod.mk.inj hview
  have hruns := Driver.play_runs hplay
  have hagreed : Agreed contested := by
    intro e he
    cases he
  exact ⟨c, hruns, hevents, hstatuses, (verdicts_agree contested_indexed hagreed hruns).2⟩

/-- A repair is about to end when a pass takes it for one whose assignments, of which it has
none, have all been undone: it is failed for the pass, and completed for the repair. -/
theorem verdicts_disagree : ∃ c : Run,
    (operations deployment noAggregates).Runs anyCall (Config.init (.init contested)) c ∧
    some (terminalEventId "repair" .completed) ∈ eventIds c ∧
    some (terminalEventId "repair" .failedTerminal) ∈ eventIds c ∧
    statuses c = [.failedTerminal] := by
  have hrun : ((freeDriver.play (Config.init (.init contested))
      (.start 1 (.dryRun smallRepair) :: turns 8 1 1000 firstId ++
        .start 2 (.apply smallRepair) :: turns 38 2 1000 firstId ++
        .start 3 (.runBoundedPass "pass") :: turns 10 3 2000 firstId ++
        turns 9 2 3000 firstId)).map fun c => (eventIds c, statuses c)) =
      some ([some (terminalEventId "repair" .completed),
        some (terminalEventId "repair" .failedTerminal),
        some (SecurityActivityService.resumedEventId "repair" "resume")], [.failedTerminal]) := by
    decide +kernel
  obtain ⟨c, hplay, hview⟩ := Option.map_eq_some_iff.mp hrun
  obtain ⟨hevents, hstatuses⟩ := Prod.mk.inj hview
  refine ⟨c, Driver.play_runs hplay, ?_, ?_, hstatuses⟩
  · rw [hevents]
    exact List.mem_cons_self
  · rw [hevents]
    exact List.mem_cons_of_mem _ List.mem_cons_self

end Schedules

end Operations
