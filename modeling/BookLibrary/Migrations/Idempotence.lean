import BookLibrary.Migrations.Grouping

/-!
# The backfill done, and done again

Whatever of the backfill has been done before, a run that ends has done the rest of it and
left alone what was there; another run finds nothing to do.
-/

namespace Migrations

open AuthIdentifiers Documents Interleaving

variable {env : Environment}

/-- Several subjects use the identifier. -/
def Contested (env : Environment) (s : Database) (n : String) : Prop :=
  ∃ subject subject', Uses env s n subject ∧ Uses env s n subject' ∧ subject ≠ subject'

/-- What is inserted for an identifier: an active reservation for the only subject that uses it,
or a conflict of all that do. -/
inductive Reserves (env : Environment) (s : Database) (d : AuthIdentifier) : Prop where
  | active (subject : AuthIdentifierSubjectReference)
      (only : ∀ subject', Uses env s d.normalizedIdentifier subject' ↔ subject' = subject)
      (status : d.status = .active)
      (owner : d.subjectType = some subject.subjectType ∧ d.subjectId = some subject.subjectId)
      (claimants : d.conflictingSubjects = none)
  | conflict (claimants : List AuthIdentifierSubjectReference)
      (several : 1 < claimants.length) (once : claimants.Nodup)
      (exact : ∀ subject, subject ∈ claimants ↔ Uses env s d.normalizedIdentifier subject)
      (status : d.status = .conflict)
      (owner : d.subjectType = none ∧ d.subjectId = none)
      (lists : d.conflictingSubjects = some claimants)
      (resolution : d.conflictResolutionStatus =
        some (if configuredMaxAssignments env < claimants.length then .manualRepairRequired
          else .reviewable))

/-- The identifier has no reservation in the store. -/
def Unreserved (s : Database) (n : String) : Prop :=
  ∀ d ∈ s.authIdentifiers, d.normalizedIdentifier ≠ n

/-- Some of the backfill of `s` is done in `v`. -/
structure Partly (env : Environment) (s v : Database) : Prop where
  accounts : v.staffusers = s.staffusers ∧ v.members = s.members
  indexed : v.Indexed
  kept : ∀ d ∈ s.authIdentifiers, d ∈ v.authIdentifiers
  inserted : ∀ d ∈ v.authIdentifiers, d ∈ s.authIdentifiers ∨
    Unreserved s d.normalizedIdentifier ∧ Reserves env s d ∧
      ∀ e ∈ s.securityActivityEvents, e.eventId ≠ some (conflictEventId d.id)
  events : ∀ e ∈ s.securityActivityEvents, e ∈ v.securityActivityEvents
  recorded : ∀ e ∈ v.securityActivityEvents, e ∈ s.securityActivityEvents ∨
    ∃ d ∈ v.authIdentifiers, Contested env s d.normalizedIdentifier ∧
      ∃ status date, e = conflictEvent d.id status date

/-- All of the backfill of `s` is done in `v`. -/
structure Backfilled (env : Environment) (s v : Database) : Prop extends Partly env s v where
  reserved : ∀ n subject, Uses env s n subject → ∃ d ∈ v.authIdentifiers, d.normalizedIdentifier = n
  reported : ∀ d ∈ v.authIdentifiers, Contested env s d.normalizedIdentifier →
    ∃ e ∈ v.securityActivityEvents, e.eventId = some (conflictEventId d.id)

theorem Partly.refl {s : Database} (h : s.Indexed) : Partly env s s where
  accounts := ⟨rfl, rfl⟩
  indexed := h
  kept _ hd := hd
  inserted _ hd := .inl hd
  events _ he := he
  recorded _ he := .inl he

section Rules

variable {I : Database → Prop} {v : Database} {α : Type} {Q : α → Database → Prop}

/-- The backfill yields, as it is run on one store. -/
abbrev Yields (I : Database → Prop) (x : Handler α) (v : Database) (Q : α → Database → Prop) : Prop :=
  Interleaving.Yields exec fallible I (fun v s => s = v) x v Q

/-- A call whose effects all keep the invariant, and what follows its answer. -/
theorem call_then {β : Type} {op : Op β} {f : β → Handler α} (hv : I v)
    (h : ∀ b v', exec β op v b v' → I v' ∧ Yields I (f b) v' Q) :
    Yields I (call op >>= f) v Q := by
  refine Works.call fun s hs o s₁ hgoes => ?_
  subst hs
  cases o with
  | answered b =>
    obtain ⟨hI, hrest⟩ := h b s₁ hgoes
    exact ⟨hI, s₁, rfl, hrest⟩
  | threw r =>
    have hthrown : Yields I (throw .thrown : Handler α) s₁ Q := .throw
    cases r with
    | none =>
      obtain ⟨-, rfl⟩ := hgoes
      exact ⟨hv, s₁, rfl, hthrown⟩
    | some b => exact ⟨(h b s₁ hgoes.2).1, s₁, rfl, hthrown⟩

end Rules

section Documents

variable {s : Database} {groups : Groups} {n : String}

theorem mem_sortCandidates {cs : List IdentifierCandidate} {c : IdentifierCandidate} :
    c ∈ sortCandidates env cs ↔ c ∈ cs := List.mem_insertionSort _

/-- The subjects among the candidates of an identifier that is used. -/
theorem sorted_subjects (h : groups.Of (Uses env s)) :
    ((sortCandidates env (candidatesOf groups n)).map (·.subject)).Nodup ∧
      ∀ subject, subject ∈ (sortCandidates env (candidatesOf groups n)).map (·.subject) ↔
        Uses env s n subject := by
  constructor
  · have hperm := List.perm_insertionSort (fun left right : IdentifierCandidate =>
      env.localeCompare (subjectKey left.subject) (subjectKey right.subject) ≠ .gt)
      (candidatesOf groups n)
    exact (hperm.map (·.subject)).nodup_iff.mpr (h.once n)
  · intro subject
    rw [← h.subjects, List.mem_map]
    exact exists_congr fun c => and_congr_left fun _ => mem_sortCandidates

/-- What is made of the candidates reserves the identifier. -/
theorem migrationDocument_reserves (h : groups.Of (Uses env s)) {id : String} {date : Date}
    {primary : IdentifierCandidate} {rest : List IdentifierCandidate}
    (hsorted : sortCandidates env (candidatesOf groups n) = primary :: rest) :
    Reserves env s (migrationDocument env id n date primary (primary :: rest)) := by
  obtain ⟨honce, hsubjects⟩ := sorted_subjects (n := n) h
  rw [hsorted] at honce hsubjects
  cases rest with
  | nil =>
    refine .active primary.subject (fun subject => ?_) rfl ⟨rfl, rfl⟩ rfl
    exact (hsubjects subject).symm.trans List.mem_singleton
  | cons second rest =>
    refine .conflict ((primary :: second :: rest).map (·.subject)) (by simp) honce hsubjects ?_ ?_ ?_ ?_
    · simp [migrationDocument]
    · simp [migrationDocument]
    · simp [migrationDocument]
    · simp [migrationDocument, conflictResolutionStatus]

theorem contested_of_candidates (h : groups.Of (Uses env s)) {primary second : IdentifierCandidate}
    {rest : List IdentifierCandidate}
    (hsorted : sortCandidates env (candidatesOf groups n) = primary :: second :: rest) :
    Contested env s n := by
  obtain ⟨honce, hsubjects⟩ := sorted_subjects (n := n) h
  rw [hsorted] at honce hsubjects
  refine ⟨primary.subject, second.subject, (hsubjects _).mp (by simp), (hsubjects _).mp (by simp), ?_⟩
  rw [List.map_cons, List.nodup_cons] at honce
  exact fun heq => honce.1 (by simp [heq])

theorem not_contested_of_candidate (h : groups.Of (Uses env s)) {primary : IdentifierCandidate}
    (hsorted : sortCandidates env (candidatesOf groups n) = [primary]) : ¬ Contested env s n := by
  obtain ⟨-, hsubjects⟩ := sorted_subjects (n := n) h
  rw [hsorted] at hsubjects
  rintro ⟨subject, subject', hU, hU', hne⟩
  have heq := List.mem_singleton.mp ((hsubjects subject).mpr hU)
  have heq' := List.mem_singleton.mp ((hsubjects subject').mpr hU')
  exact hne (heq.trans heq'.symm)

end Documents

section Steps

variable {s v : Database} {n : String} {d : AuthIdentifier}

theorem upsertIdentifier_of_reserved (hd : d ∈ v.authIdentifiers) {d' : AuthIdentifier}
    (hname : d.normalizedIdentifier = d'.normalizedIdentifier) : v.upsertIdentifier d' = v :=
  if_pos (List.any_eq_true.mpr ⟨d, hd, decide_eq_true hname⟩)

theorem upsertIdentifier_of_unreserved (h : Unreserved v d.normalizedIdentifier) :
    v.upsertIdentifier d = { v with authIdentifiers := d :: v.authIdentifiers } := by
  refine if_neg fun hany => ?_
  obtain ⟨d', hd', hname⟩ := List.any_eq_true.mp hany
  exact h d' hd' (of_decide_eq_true hname)

theorem upsertEvent_cases (e : SecurityActivityEvent) (v : Database) :
    (v.upsertEvent e = v ∧ ∃ e' ∈ v.securityActivityEvents, e'.eventId = e.eventId) ∨
      v.upsertEvent e = { v with securityActivityEvents := e :: v.securityActivityEvents } ∧
        ∀ e' ∈ v.securityActivityEvents, e'.eventId ≠ e.eventId := by
  by_cases h : v.securityActivityEvents.any fun e' => decide (e'.eventId = e.eventId)
  · obtain ⟨e', he', heq⟩ := List.any_eq_true.mp h
    exact .inl ⟨if_pos h, e', he', of_decide_eq_true heq⟩
  · refine .inr ⟨if_neg h, fun e' he' heq => h ?_⟩
    exact List.any_eq_true.mpr ⟨e', he', decide_eq_true heq⟩

/-- A reservation has been inserted. -/
theorem Partly.insert (h : Partly env s v) (hnone : Unreserved v d.normalizedIdentifier)
    (hreserves : Reserves env s d) (hfresh : v.Fresh d.id)
    (hindexed : (v.upsertIdentifier d).Indexed) : Partly env s (v.upsertIdentifier d) := by
  rw [upsertIdentifier_of_unreserved hnone] at hindexed ⊢
  refine ⟨h.accounts, hindexed, fun d' hd' => List.mem_cons_of_mem _ (h.kept d' hd'), ?_, h.events, ?_⟩
  · intro d' hd'
    rcases List.mem_cons.mp hd' with rfl | hd'
    · exact .inr ⟨fun d₀ hd₀ => hnone d₀ (h.kept d₀ hd₀), hreserves, fun e he =>
        hfresh.2 e (h.events e he)⟩
    · exact h.inserted d' hd'
  · intro e he
    rcases h.recorded e he with hold | ⟨d', hd', hrest⟩
    · exact .inl hold
    · exact .inr ⟨d', List.mem_cons_of_mem _ hd', hrest⟩

/-- The event of a conflict has been recorded, now or before. -/
theorem Partly.record (h : Partly env s v) (hd : d ∈ v.authIdentifiers)
    (hcontested : Contested env s d.normalizedIdentifier)
    (status : AuthIdentifierConflictResolutionStatus) (date : Date) :
    Partly env s (v.upsertEvent (conflictEvent d.id status date)) ∧
      (v.upsertEvent (conflictEvent d.id status date)).authIdentifiers = v.authIdentifiers ∧
      ∃ e ∈ (v.upsertEvent (conflictEvent d.id status date)).securityActivityEvents,
        e.eventId = some (conflictEventId d.id) := by
  rcases upsertEvent_cases (conflictEvent d.id status date) v with ⟨heq, hfound⟩ | ⟨heq, hnone⟩
  · rw [heq]
    exact ⟨h, rfl, hfound⟩
  · rw [heq]
    refine ⟨⟨h.accounts, ⟨h.indexed.id, h.indexed.normalizedIdentifier, ?_⟩, h.kept, h.inserted,
      fun e he => List.mem_cons_of_mem _ (h.events e he), ?_⟩, rfl, _, List.mem_cons_self, rfl⟩
    · rw [Documents.Unique, List.filterMap_cons]
      refine List.nodup_cons.mpr ⟨fun hmem => ?_, h.indexed.eventId⟩
      obtain ⟨e', he', heq'⟩ := List.mem_filterMap.mp hmem
      exact hnone e' he' heq'
    · intro e he
      rcases List.mem_cons.mp he with rfl | he
      · exact .inr ⟨d, hd, hcontested, status, date, rfl⟩
      · exact h.recorded e he

end Steps

section Rounds

variable {s v₀ v : Database} {groups : Groups} {n : String} {rest : List String} {date : Date}

/-- The identifier has its reservation, and where it is contested the event of it. -/
def Settled (env : Environment) (s v : Database) (n : String) : Prop :=
  ∃ d ∈ v.authIdentifiers, d.normalizedIdentifier = n ∧ (Contested env s n →
    ∃ e ∈ v.securityActivityEvents, e.eventId = some (conflictEventId d.id))

/-- The identifiers `rest` are still to come, in a run that has set out from `v₀`. -/
structure Rounds (env : Environment) (s v₀ : Database) (groups : Groups) (rest : List String)
    (v : Database) : Prop where
  partly : Partly env s v
  pending : rest.Nodup
  keys : ∀ n ∈ rest, n ∈ groups.map (·.1)
  unchanged : ∀ d, d.normalizedIdentifier ∈ rest →
    (d ∈ v.authIdentifiers ↔ d ∈ v₀.authIdentifiers)
  settled : ∀ n ∈ groups.map (·.1), n ∈ rest ∨ Settled env s v n

theorem Settled.mono (h : Settled env s v n) {v' : Database}
    (hkept : ∀ d ∈ v.authIdentifiers, d ∈ v'.authIdentifiers)
    (hevents : ∀ e ∈ v.securityActivityEvents, e ∈ v'.securityActivityEvents) :
    Settled env s v' n := by
  obtain ⟨d, hd, hname, hreported⟩ := h
  refine ⟨d, hkept d hd, hname, fun hcontested => ?_⟩
  obtain ⟨e, he, heq⟩ := hreported hcontested
  exact ⟨e, hevents e he, heq⟩

theorem upsertEvent_events (e : SecurityActivityEvent) (v : Database) :
    ∀ e' ∈ v.securityActivityEvents, e' ∈ (v.upsertEvent e).securityActivityEvents := by
  intro e' he'
  rcases upsertEvent_cases e v with ⟨heq, -⟩ | ⟨heq, -⟩
  · rw [heq]
    exact he'
  · rw [heq]
    exact List.mem_cons_of_mem _ he'

/-- The end of a round, once the reservation is there. -/
theorem record_yields (hgroups : groups.Of (Uses env s)) (h : Partly env s v)
    (hpending : (n :: rest).Nodup) (hkeys : ∀ m ∈ n :: rest, m ∈ groups.map (·.1))
    (hunchanged : ∀ d, d.normalizedIdentifier ∈ rest →
      (d ∈ v.authIdentifiers ↔ d ∈ v₀.authIdentifiers))
    (hsettled : ∀ m ∈ groups.map (·.1), m ∈ n :: rest ∨ Settled env s v m) {d : AuthIdentifier}
    (hd : d ∈ v.authIdentifiers) (hname : d.normalizedIdentifier = n)
    {primary : IdentifierCandidate} {others : List IdentifierCandidate}
    (hsorted : sortCandidates env (candidatesOf groups n) = primary :: others) :
    Yields (Partly env s)
      (if 1 < (primary :: others).length then
        call (.upsertEvent (conflictEvent d.id (conflictResolutionStatus env (primary :: others)) date))
      else pure ()) v fun _ v' => Rounds env s v₀ groups rest v' := by
  rw [List.nodup_cons] at hpending
  have rounds : ∀ {v'}, Partly env s v' → v'.authIdentifiers = v.authIdentifiers →
      (∀ e ∈ v.securityActivityEvents, e ∈ v'.securityActivityEvents) →
      (Contested env s n → ∃ e ∈ v'.securityActivityEvents, e.eventId = some (conflictEventId d.id)) →
      Rounds env s v₀ groups rest v' := by
    intro v' hpartly hsame hevents hreported
    refine ⟨hpartly, hpending.2, fun m hm => hkeys m (List.mem_cons_of_mem _ hm), ?_, ?_⟩
    · rw [hsame]
      exact hunchanged
    · intro m hm
      rcases hsettled m hm with hrest | hdone
      · rcases List.mem_cons.mp hrest with rfl | hrest
        · exact .inr ⟨d, hsame ▸ hd, hname, hreported⟩
        · exact .inl hrest
      · exact .inr (hdone.mono (fun _ hd => hsame ▸ hd) hevents)
  refine .ite (fun hseveral => ?_) fun hone => .pure (rounds h rfl (fun _ he => he) fun hcontested => ?_)
  · have hcontested : Contested env s d.normalizedIdentifier := by
      cases others with
      | nil => simp at hseveral
      | cons second others =>
        rw [hname]
        exact contested_of_candidates hgroups hsorted
    obtain ⟨hrecorded, hsame, hreported⟩ := h.record hd hcontested
      (conflictResolutionStatus env (primary :: others)) date
    rw [← bind_pure (call _)]
    refine call_then h fun _ v' hexec => ?_
    obtain rfl : v' = _ := hexec
    exact ⟨hrecorded, .pure (rounds hrecorded hsame (upsertEvent_events _ v) fun _ => hreported)⟩
  · cases others with
    | nil => exact absurd hcontested (not_contested_of_candidate hgroups hsorted)
    | cons second others => simp at hone

/-- One round settles one identifier. -/
theorem backfillIdentifier_yields (hgroups : groups.Of (Uses env s)) {existing : List AuthIdentifier}
    (hexisting : ∀ d, d ∈ existing ↔ d ∈ v₀.authIdentifiers)
    (h : Rounds env s v₀ groups (n :: rest) v) :
    Yields (Partly env s) (backfillIdentifier env groups existing date n) v
      fun _ v' => Rounds env s v₀ groups rest v' := by
  obtain ⟨primary, others, hsorted⟩ : ∃ primary others,
      sortCandidates env (candidatesOf groups n) = primary :: others := by
    obtain ⟨subject, hU⟩ := (hgroups.used n).mp (h.keys n List.mem_cons_self)
    have hmem := ((sorted_subjects (n := n) hgroups).2 subject).mpr hU
    cases hc : sortCandidates env (candidatesOf groups n) with
    | nil => simp [hc] at hmem
    | cons primary others => exact ⟨primary, others, rfl⟩
  have hpending := List.nodup_cons.mp h.pending
  have hsame : ∀ d, d.normalizedIdentifier = n →
      (d ∈ v.authIdentifiers ↔ d ∈ v₀.authIdentifiers) := by
    rintro d rfl
    exact h.unchanged d List.mem_cons_self
  have hcandidates : sortCandidates env ((getEntry n groups).getD []) = primary :: others := hsorted
  rw [backfillIdentifier]
  simp only [hcandidates]
  cases hfound : existing.find? fun d => decide (d.normalizedIdentifier = n) with
  | some d =>
    have hname : d.normalizedIdentifier = n := by
      have hselected := List.find?_some hfound
      exact of_decide_eq_true hselected
    have hd : d ∈ v.authIdentifiers :=
      (hsame d hname).mpr ((hexisting d).mp (List.mem_of_find?_eq_some hfound))
    simp only [pure_bind]
    refine call_then h.partly fun _ v' hexec => ?_
    obtain ⟨-, rfl⟩ := hexec
    have hnochange : v.upsertIdentifier (migrationDocument env d.id n date primary
        (primary :: others)) = v := upsertIdentifier_of_reserved hd hname
    rw [hnochange]
    exact ⟨h.partly, record_yields hgroups h.partly h.pending h.keys
      (fun d hd => h.unchanged d (List.mem_cons_of_mem _ hd)) h.settled hd hname hsorted⟩
  | none =>
    have hnone : Unreserved v n := by
      intro d hd hname
      have hmem := (hexisting d).mpr ((hsame d hname).mp hd)
      have hfalse := List.find?_eq_none.mp hfound d hmem
      simp [hname] at hfalse
    refine call_then h.partly fun id v' hexec => ?_
    obtain ⟨hfresh, rfl⟩ := hexec
    refine ⟨h.partly, call_then h.partly fun _ v'' hexec => ?_⟩
    obtain ⟨hindexed, rfl⟩ := hexec
    have hreserves : Reserves env s (migrationDocument env id n date primary (primary :: others)) :=
      migrationDocument_reserves hgroups hsorted
    have hpartly := h.partly.insert hnone hreserves hfresh hindexed
    have hcons := upsertIdentifier_of_unreserved
      (d := migrationDocument env id n date primary (primary :: others)) hnone
    refine ⟨hpartly, record_yields (d := migrationDocument env id n date primary
      (primary :: others)) hgroups hpartly h.pending h.keys (fun d hd => ?_) (fun m hm => ?_) ?_ rfl
      hsorted⟩
    · rw [hcons, List.mem_cons, ← h.unchanged d (List.mem_cons_of_mem _ hd)]
      refine or_iff_right fun heq => hpending.1 ?_
      rw [heq] at hd
      exact hd
    · refine (h.settled m hm).imp_right fun hdone => hdone.mono (fun d hd => ?_) fun e he => ?_
      · rw [hcons]
        exact List.mem_cons_of_mem _ hd
      · rw [hcons]
        exact he
    · rw [hcons]
      exact List.mem_cons_self

/-- What the loop sets out with, and what it comes to. -/
theorem Rounds.init (h : Partly env s v) (hpending : rest.Nodup)
    (hkeys : ∀ n, n ∈ rest ↔ n ∈ groups.map (·.1)) : Rounds env s v groups rest v where
  partly := h
  pending := hpending
  keys n hn := (hkeys n).mp hn
  unchanged _ _ := Iff.rfl
  settled n hn := .inl ((hkeys n).mpr hn)

theorem Rounds.backfilled (hgroups : groups.Of (Uses env s)) (h : Rounds env s v₀ groups [] v) :
    Backfilled env s v := by
  have hsettled : ∀ n subject, Uses env s n subject → Settled env s v n := fun n subject hU =>
    (h.settled n ((hgroups.used n).mpr ⟨subject, hU⟩)).resolve_left List.not_mem_nil
  refine ⟨h.partly, fun n subject hU => ?_, fun d hd hcontested => ?_⟩
  · obtain ⟨d, hd, hname, -⟩ := hsettled n subject hU
    exact ⟨d, hd, hname⟩
  · obtain ⟨subject, -, hU, -⟩ := id hcontested
    obtain ⟨d', hd', hname, hreported⟩ := hsettled _ subject hU
    rw [List.inj_on_of_nodup_map h.partly.indexed.normalizedIdentifier hd hd' hname.symm]
    exact hreported (hname.symm ▸ hcontested)

end Rounds

section Runs

variable {s v w : Database} {date : Date}

theorem Uses.congr (h : v.staffusers = s.staffusers ∧ v.members = s.members) {n : String}
    {subject : AuthIdentifierSubjectReference} : Uses env v n subject ↔ Uses env s n subject := by
  have transfer : ∀ {s v : Database}, v.staffusers = s.staffusers → v.members = s.members →
      Uses env v n subject → Uses env s n subject := by
    intro s v hstaff hmembers hU
    cases hU with
    | email hd hcarries => exact .email (hstaff ▸ hd) hcarries
    | loginIdentifier hd hcarries => exact .loginIdentifier (hmembers ▸ hd) hcarries
    | memberNumber hd hcarries => exact .memberNumber (hmembers ▸ hd) hcarries
  exact ⟨transfer h.1 h.2, transfer h.1.symm h.2.symm⟩

/-- The three queries of the backfill, and the loop over what they find. -/
theorem backfill_then {I : Database → Prop} {Q : Unit → Database → Prop} (hv : I v)
    (h : ∀ (groups : Groups) (existing : List AuthIdentifier) (keys : List String),
      groups.Of (Uses env v) → (∀ d, d ∈ existing ↔ d ∈ v.authIdentifiers) → keys.Nodup →
      (∀ n, n ∈ keys ↔ n ∈ groups.map (·.1)) →
      Yields I (keys.forM (backfillIdentifier env groups existing date)) v Q) :
    Yields I (backfillAuthIdentifiers env date) v Q := by
  refine call_then hv fun staff v₁ hexec => ?_
  obtain ⟨rfl, rfl⟩ := hexec
  refine ⟨hv, call_then hv fun members v₁ hexec => ?_⟩
  obtain ⟨rfl, rfl⟩ := hexec
  refine ⟨hv, call_then hv fun existing v₁ hexec => ?_⟩
  obtain ⟨rfl, rfl⟩ := hexec
  have hgroups := candidateGroups_of env v₁
  refine ⟨hv, h _ _ _ hgroups (fun d => List.mem_insertionSort _) ?_ fun n =>
    List.mem_insertionSort _⟩
  exact (List.perm_insertionSort _ _).nodup_iff.mpr hgroups.keys

/-- A run that ends has done all of the backfill, whatever of it had been done before. -/
theorem backfill_yields (date : Date) (h : Partly env s v) :
    Yields (Partly env s) (backfillAuthIdentifiers env date) v fun _ w => Backfilled env s w := by
  refine backfill_then h fun groups existing keys hgroups hexisting hpending hkeys => ?_
  have hgroups' : groups.Of (Uses env s) := hgroups.congr fun n subject => Uses.congr h.accounts
  have hloop : Yields (Partly env s) (keys.forM (backfillIdentifier env groups existing date)) v
      fun _ v' => Rounds env s v groups [] v' :=
    .forM (P := Rounds env s v groups) (fun n rest v' hrounds =>
      backfillIdentifier_yields hgroups' hexisting hrounds) (.init h hpending hkeys)
  exact hloop.mono fun _ w hrounds => hrounds.backfilled hgroups'

/-- Where all of it is done, a round changes nothing. -/
theorem backfillIdentifier_idle (h : Backfilled env s v) {groups : Groups}
    (hgroups : groups.Of (Uses env s)) {existing : List AuthIdentifier}
    (hexisting : ∀ d, d ∈ existing ↔ d ∈ v.authIdentifiers) {n : String}
    (hn : n ∈ groups.map (·.1)) :
    Yields (· = v) (backfillIdentifier env groups existing date n) v fun _ w => w = v := by
  obtain ⟨subject, hU⟩ := (hgroups.used n).mp hn
  obtain ⟨d, hd, hname⟩ := h.reserved n subject hU
  obtain ⟨d', hfound⟩ : ∃ d', existing.find? (fun d => decide (d.normalizedIdentifier = n)) = some d' := by
    rw [← Option.isSome_iff_exists, List.find?_isSome]
    exact ⟨d, (hexisting d).mpr hd, decide_eq_true hname⟩
  have hname' : d'.normalizedIdentifier = n := by
    have hselected := List.find?_some hfound
    exact of_decide_eq_true hselected
  have hd' : d' ∈ v.authIdentifiers := (hexisting d').mp (List.mem_of_find?_eq_some hfound)
  rw [backfillIdentifier, hfound]
  simp only [pure_bind]
  cases hsorted : sortCandidates env ((getEntry n groups).getD []) with
  | nil => exact .throw
  | cons primary others =>
    refine call_then rfl fun _ v' hexec => ?_
    obtain ⟨-, rfl⟩ := hexec
    have hnochange : v.upsertIdentifier (migrationDocument env d'.id n date primary
        (primary :: others)) = v := upsertIdentifier_of_reserved hd' hname'
    rw [hnochange]
    refine ⟨rfl, .ite (fun hseveral => ?_) fun _ => .pure rfl⟩
    have hcontested : Contested env s d'.normalizedIdentifier := by
      cases others with
      | nil => simp at hseveral
      | cons second others =>
        rw [hname']
        exact contested_of_candidates hgroups hsorted
    obtain ⟨e, he, heq⟩ := h.reported d' hd' hcontested
    rw [← bind_pure (call _)]
    refine call_then rfl fun _ v' hexec => ?_
    obtain rfl : v' = _ := hexec
    have hthere : v.upsertEvent (conflictEvent d'.id (conflictResolutionStatus env
        (primary :: others)) date) = v :=
      if_pos (List.any_eq_true.mpr ⟨e, he, decide_eq_true heq⟩)
    rw [hthere]
    exact ⟨rfl, .pure rfl⟩

/-- Where all of it is done, a run changes nothing, however far it comes. -/
theorem backfill_idle (date : Date) (h : Backfilled env s v) :
    Yields (· = v) (backfillAuthIdentifiers env date) v fun _ w => w = v := by
  refine backfill_then rfl fun groups existing keys hgroups hexisting _ hkeys => ?_
  have hgroups' : groups.Of (Uses env s) := hgroups.congr fun n subject => Uses.congr h.accounts
  refine .mono (.forM (P := fun rest v' => v' = v ∧ ∀ n ∈ rest, n ∈ groups.map (·.1)) ?_
    ⟨rfl, fun n hn => (hkeys n).mp hn⟩) fun _ w hw => hw.1
  rintro n rest v' ⟨rfl, hrest⟩
  refine (backfillIdentifier_idle h hgroups' hexisting (hrest n List.mem_cons_self)).mono
    fun _ w hw => ⟨hw, fun m hm => hrest m (List.mem_cons_of_mem _ hm)⟩

/-- One run of the backfill, which ends or is cut off by an exception. -/
def Run (env : Environment) (v w : Database) (r : Except Failure Unit) : Prop :=
  ∃ date l, Traces exec fallible (backfillAuthIdentifiers env date).run v l r w

/-- Any number of runs one after another, each of which may have been cut off. -/
def Attempts (env : Environment) : Database → Database → Prop :=
  Relation.ReflTransGen fun v w => ∃ r, Run env v w r

theorem partly_of_attempts (hs : s.Indexed) (h : Attempts env s v) : Partly env s v := by
  induction h with
  | refl => exact .refl hs
  | tail _ hrun ih =>
    obtain ⟨r, date, l, htraces⟩ := hrun
    have hyields := backfill_yields date ih
    exact ((hyields _ rfl).traces ih htraces).1

/-- What the backfill makes of a store: the reservations that were there are untouched, every
other identifier that is used has one reservation, for its only user or as a conflict of all,
and every conflict that is new has one event. -/
structure Exactly (env : Environment) (s w : Database) : Prop where
  accounts : w.staffusers = s.staffusers ∧ w.members = s.members
  untouched : ∀ n, ¬ Unreserved s n → ∀ d, d.normalizedIdentifier = n →
    (d ∈ w.authIdentifiers ↔ d ∈ s.authIdentifiers)
  reserved : ∀ n, Unreserved s n → (∃ subject, Uses env s n subject) →
    ∃ d ∈ w.authIdentifiers, d.normalizedIdentifier = n ∧ Reserves env s d ∧
      ∀ d' ∈ w.authIdentifiers, d'.normalizedIdentifier = n → d' = d
  others : ∀ n, Unreserved s n → (¬ ∃ subject, Uses env s n subject) → Unreserved w n
  recorded : ∀ d ∈ w.authIdentifiers, d ∉ s.authIdentifiers → d.status = .conflict →
    ∃ e ∈ w.securityActivityEvents, e.eventId = some (conflictEventId d.id) ∧
      (∃ status date, e = conflictEvent d.id status date) ∧
      ∀ e' ∈ w.securityActivityEvents, e'.eventId = some (conflictEventId d.id) → e' = e
  events : ∀ e ∈ s.securityActivityEvents, e ∈ w.securityActivityEvents

theorem conflictEventId_inj {id id' : String} (h : conflictEventId id = conflictEventId id') :
    id = id' := (String.append_right_inj _).mp h

theorem eq_of_eventId {events : List SecurityActivityEvent} (h : Documents.Unique (·.eventId) events)
    {e e' : SecurityActivityEvent} (he : e ∈ events) (he' : e' ∈ events) {id : String}
    (hid : e.eventId = some id) (hid' : e'.eventId = some id) : e = e' := by
  induction events with
  | nil => cases he
  | cons x xs ih =>
    -- nobody else has the id of the first
    have hfirst : ∀ {y}, y ∈ xs → x.eventId = some id → y.eventId = some id → False := by
      intro y hy hx hy'
      rw [Documents.Unique, List.filterMap_cons, hx, List.nodup_cons] at h
      exact h.1 (List.mem_filterMap.mpr ⟨y, hy, hy'⟩)
    rcases List.mem_cons.mp he with rfl | hmem
    · rcases List.mem_cons.mp he' with rfl | hmem'
      · rfl
      · exact (hfirst hmem' hid hid').elim
    · rcases List.mem_cons.mp he' with rfl | hmem'
      · exact (hfirst hmem hid' hid).elim
      · refine ih ?_ hmem hmem'
        rw [Documents.Unique, List.filterMap_cons] at h
        split at h
        · exact h
        · exact (List.nodup_cons.mp h).2

theorem Reserves.uses {d : AuthIdentifier} (h : Reserves env s d) :
    ∃ subject, Uses env s d.normalizedIdentifier subject := by
  cases h with
  | active subject only => exact ⟨subject, (only subject).mpr rfl⟩
  | conflict claimants several once exact =>
    cases claimants with
    | nil => simp at several
    | cons claimant claimants => exact ⟨claimant, (exact claimant).mp List.mem_cons_self⟩

theorem Reserves.contested {d : AuthIdentifier} (h : Reserves env s d) (hstatus : d.status = .conflict) :
    Contested env s d.normalizedIdentifier := by
  cases h with
  | active subject only status =>
    rw [status] at hstatus
    cases hstatus
  | conflict claimants several once exact =>
    match claimants, several with
    | claimant :: claimant' :: claimants, _ =>
      refine ⟨claimant, claimant', (exact _).mp (by simp), (exact _).mp (by simp), ?_⟩
      rw [List.nodup_cons] at once
      exact fun heq => once.1 (by simp [heq])

theorem Backfilled.exactly (h : Backfilled env s w) : Exactly env s w := by
  have hunique : ∀ d ∈ w.authIdentifiers, ∀ d' ∈ w.authIdentifiers,
      d'.normalizedIdentifier = d.normalizedIdentifier → d' = d := fun d hd d' hd' hname =>
    List.inj_on_of_nodup_map h.indexed.normalizedIdentifier hd' hd hname
  refine ⟨h.accounts, fun n hn d hname => ⟨fun hd => ?_, h.kept d⟩, fun n hn hused => ?_,
    fun n hn hunused d hd hname => ?_, fun d hd hnew hstatus => ?_, h.events⟩
  · rcases h.inserted d hd with hold | ⟨hnone, -⟩
    · exact hold
    · exact absurd (hname ▸ hnone) hn
  · obtain ⟨subject, hU⟩ := hused
    obtain ⟨d, hd, rfl⟩ := h.reserved n subject hU
    rcases h.inserted d hd with hold | ⟨-, hreserves, -⟩
    · exact absurd rfl (hn d hold)
    · exact ⟨d, hd, rfl, hreserves, fun d' hd' hname => hunique d hd d' hd' hname⟩
  · rcases h.inserted d hd with hold | ⟨-, hreserves, -⟩
    · exact hn d hold hname
    · exact hunused (hname ▸ hreserves.uses)
  · rcases h.inserted d hd with hold | ⟨-, hreserves, hfresh⟩
    · exact absurd hold hnew
    · obtain ⟨e, he, hid⟩ := h.reported d hd (hreserves.contested hstatus)
      refine ⟨e, he, hid, ?_, fun e' he' hid' => eq_of_eventId h.indexed.eventId he' he hid' hid⟩
      rcases h.recorded e he with hold | ⟨d', hd', -, status, date, rfl⟩
      · exact absurd hid (hfresh e hold)
      · have hsame : d'.id = d.id := conflictEventId_inj (Option.some.inj hid)
        rw [hsame]
        exact ⟨status, date, rfl⟩

/-- After any runs that may have been cut off, one that ends has done all of the backfill. -/
theorem backfilled_of_run (hs : s.Indexed) (hattempts : Attempts env s v)
    (hrun : Run env v w (.ok ())) : Backfilled env s w := by
  obtain ⟨date, l, htraces⟩ := hrun
  have hpartly := partly_of_attempts hs hattempts
  have hyields := backfill_yields date hpartly
  obtain ⟨-, w₀, rfl, hbackfilled⟩ := (hyields _ rfl).traces hpartly htraces
  exact hbackfilled () rfl

/-- After any runs that may have been cut off, one that ends makes of the store exactly what one
run makes of it, and running the backfill again changes nothing. -/
theorem backfill_exact (hs : s.Indexed) (hattempts : Attempts env s v) (hrun : Run env v w (.ok ())) :
    Exactly env s w ∧ ∀ r w', Run env w w' r → w' = w := by
  have hdone := backfilled_of_run hs hattempts hrun
  refine ⟨hdone.exactly, fun r w' hagain => ?_⟩
  obtain ⟨date', l', htraces'⟩ := hagain
  have hidle := backfill_idle date' hdone
  exact ((hidle _ rfl).traces rfl htraces').1

end Runs

section Execution

instance {s : Database} : Decidable s.Indexed :=
  decidable_of_iff ((s.authIdentifiers.map (·.id)).Nodup ∧
    (s.authIdentifiers.map (·.normalizedIdentifier)).Nodup ∧
    Documents.Unique (·.eventId) s.securityActivityEvents)
    ⟨fun h => ⟨h.1, h.2.1, h.2.2⟩, fun h => ⟨h.id, h.normalizedIdentifier, h.eventId⟩⟩

instance {s : Database} {id : String} : Decidable (s.Fresh id) :=
  inferInstanceAs (Decidable (_ ∧ _))

/-- `exec` as a function; a new object id is as given. -/
def execute : (β : Type) → Op β → Database → String → Option (β × Database)
  | _, .findStaffUsers, s, _ => some (sortById s.staffusers, s)
  | _, .findMembers, s, _ => some (sortById s.members, s)
  | _, .findAuthIdentifiers, s, _ =>
    some (s.authIdentifiers.insertionSort (·.normalizedIdentifier ≤ ·.normalizedIdentifier), s)
  | _, .newObjectId, s, id => if s.Fresh id then some (id, s) else none
  | _, .upsertIdentifier d, s, _ =>
    if (s.upsertIdentifier d).Indexed then some ((), s.upsertIdentifier d) else none
  | _, .upsertEvent e, s, _ => some ((), s.upsertEvent e)

def fails : (β : Type) → Op β → Bool
  | _, .newObjectId => false
  | _, _ => true

theorem execute_exec {β : Type} {op : Op β} {s s' : Database} {id : String} {b : β}
    (h : execute β op s id = some (b, s')) : exec β op s b s' := by
  cases op with
  | findStaffUsers | findMembers | findAuthIdentifiers =>
    cases h
    exact ⟨rfl, rfl⟩
  | newObjectId =>
    rw [execute] at h
    split at h
    · next hfresh =>
      cases h
      exact ⟨hfresh, rfl⟩
    · cases h
  | upsertIdentifier d =>
    rw [execute] at h
    split at h
    · next hindexed =>
      cases h
      exact ⟨hindexed, rfl⟩
    · cases h
  | upsertEvent e =>
    cases h
    rfl

theorem fails_fallible {β : Type} {op : Op β} (h : fails β op = true) : fallible β op := by
  cases op with
  | newObjectId => cases h
  | _ => trivial

/-- The string methods change nothing, and texts are ordered as lists of characters. -/
def plain : Environment where
  trim := id
  toLowerCase := id
  localeCompare a b := if a = b then .eq else if a.toList < b.toList then .lt else .gt
  precedes a b := decide (a = b) || decide (a.toList < b.toList)
  configured := none

/-- A staff user and a member carry one identifier, another member carries one twice, and one
identifier has been reserved before. -/
def legacy : Database where
  staffusers := [⟨"s1", some "ada", none, none⟩]
  members := [⟨"m1", none, some "ada", some "M-1"⟩, ⟨"m2", none, some "eve", some "eve"⟩]
  authIdentifiers := [{
    id := "i0", normalizedIdentifier := "M-1", identifierType := .memberNumber
    subjectType := some .member, subjectId := some "m1", status := .released
    conflictingSubjects := none, conflictResolutionStatus := none, pendingOperationId := none
    activationGateOperationId := none, lastOperationId := none, pendingAction := none
    releasedAt := none, createdBy := "staff", updatedBy := "staff", updatedAt := 0 }]
  securityActivityEvents := []

/-- The run that ends as those fates have it. -/
def runOf (fates : List (Fate String)) (s : Database) : Option (Except Failure Unit × Database) :=
  (trace execute fails "i2" fates (backfillAuthIdentifiers plain 1000).run s).map (·.2)

theorem run_of_runOf {fates : List (Fate String)} {s s' : Database} {r : Except Failure Unit}
    (h : runOf fates s = some (r, s')) : Run plain s s' r := by
  obtain ⟨⟨l, r', s₁⟩, htrace, heq⟩ := Option.map_eq_some_iff.mp h
  cases heq
  exact ⟨1000, l, traces_of_trace execute_exec fails_fallible htrace⟩

/-- The identifiers that are reserved, with the events. -/
def shown (r : Except Failure Unit × Database) :
    Bool × List (String × AuthIdentifierStatus) × List (Option String) :=
  (r.1.isOk, r.2.authIdentifiers.map fun d => (d.normalizedIdentifier, d.status),
    r.2.securityActivityEvents.map (·.eventId))

/-- The first run is cut off before it records the event of the conflict. -/
theorem backfill_exact_legacy : ∃ v w, Attempts plain legacy v ∧ Run plain v w (.ok ()) ∧
    shown (.ok (), w) = (true, [("eve", .active), ("ada", .conflict), ("M-1", .released)],
      [some "migration-003-identifier-conflict:i1"]) ∧
    Exactly plain legacy w ∧ ∀ r w', Run plain w w' r → w' = w := by
  have hruns : ((runOf [.reply "", .reply "", .reply "", .reply "", .reply "i1", .reply "", .lose]
      legacy).bind fun x => (runOf [] x.2).map shown) =
      some (true, [("eve", .active), ("ada", .conflict), ("M-1", .released)],
        [some "migration-003-identifier-conflict:i1"]) := by decide +kernel
  obtain ⟨⟨r, v⟩, hfirst, hsecond⟩ := Option.bind_eq_some_iff.mp hruns
  obtain ⟨⟨r', w⟩, hsecond, hshown⟩ := Option.map_eq_some_iff.mp hsecond
  have hattempts : Attempts plain legacy v := .single ⟨r, run_of_runOf hfirst⟩
  cases r' with
  | error e => cases hshown
  | ok u =>
    have hrun := run_of_runOf hsecond
    exact ⟨v, w, hattempts, hrun, hshown, backfill_exact (by decide) hattempts hrun⟩

end Execution

end Migrations
