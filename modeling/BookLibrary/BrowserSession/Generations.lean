import BookLibrary.BrowserSession.Client

/-!
# Generations of the session

Each change of the session takes a new generation, so a response that comes in the generation
its request was issued in finds the session that it belongs to. `refreshSession` looks at the
generation; `apiRequest` clears the session on any response of the status 401.
-/

namespace BrowserSession

variable {s s' : State} {a : Action}

section Steps

/-- A step replaces the session by one of a later generation, or leaves it. -/
def Advances (session session' : AuthSession) : Prop :=
  session' = session ∨ session.generation < session'.generation

theorem advances_clear (session : AuthSession) (reason : Reason) :
    Advances session (session.clear reason) := .inr (Nat.lt_succ_self _)

theorem advances_receive (s : State) (r : Answer) : Advances s.session (s.receive r) := by
  unfold State.receive
  split
  · exact advances_clear _ _
  · exact .inl rfl

theorem advances_enter (s : State) (response : SharedLoginResponse) (user : SessionUser) :
    Advances s.session (s.enter response user) := .inr (Nat.lt_succ_self _)

theorem advances_proceed (s : State) (flight : Flight) (r : Answer) :
    Advances s.session (s.proceed flight r) := by
  unfold State.proceed
  split
  · split
    · exact advances_enter s _ _
    · exact .inl rfl
  · split
    · split
      · exact .inl rfl
      · exact advances_enter s _ _
    · exact .inl rfl
  · exact advances_clear _ _
  · exact advances_clear _ _
  · exact .inl rfl

theorem advances_requireRoleArea (s : State) (roleArea : RoleArea) :
    Advances s.session (s.requireRoleArea roleArea) := by
  unfold State.requireRoleArea
  split
  · exact .inl rfl
  · split
    · exact advances_clear _ _
    · exact .inl rfl

/-- What a step does: it issues a request, or it takes a flight on and leaves the session that
it makes of it. -/
inductive Steps (s : State) : Action → State → Prop
  | issue {call : Call} (hcall : call ≠ .refreshSession) : Steps s (.call call) (s.issue call)
  | refresh (hnone : s.pendingRefresh = none) : Steps s (.call .refreshSession)
      { s.issue .refreshSession with pendingRefresh := some s.flights.length }
  | shared {i : ℕ} (hsome : s.pendingRefresh = some i) : Steps s (.call .refreshSession) s
  | answer {i : ℕ} {flight : Flight} (r : Answer) (hi : s.flights[i]? = some flight)
      (hphase : flight.phase = .inFlight) :
      Steps s (.answer i r) { s.setPhase i (.answered r) with session := s.receive r }
  | resume {i : ℕ} {flight : Flight} {r : Answer} (hi : s.flights[i]? = some flight)
      (hphase : flight.phase = .answered r) :
      Steps s (.resume i) { s.setPhase i .resumed with session := s.proceed flight r }
  | forget {i : ℕ} {flight : Flight} (hi : s.flights[i]? = some flight)
      (hcall : flight.call = .refreshSession) (hphase : flight.phase = .resumed) :
      Steps s (.forget i) { s.setPhase i .settled with pendingRefresh := none }
  | requireRoleArea (roleArea : RoleArea) :
      Steps s (.requireRoleArea roleArea) { s with session := s.requireRoleArea roleArea }

theorem step_cases (h : step s a = some s') : Steps s a s' := by
  cases a with
  | call call =>
    cases call with
    | refreshSession =>
      cases h
      unfold State.refreshSession
      split
      · next hsome => exact .shared hsome
      · next hnone => exact .refresh hnone
    | request | login | signOut | signOutAll =>
      cases h
      exact .issue nofun
  | answer i r =>
    obtain ⟨flight, hi, h⟩ := Option.bind_eq_some_iff.mp h
    obtain ⟨_, hphase, h⟩ := Option.bind_eq_some_iff.mp h
    cases h
    exact .answer r hi (by simpa using hphase)
  | resume i =>
    obtain ⟨flight, hi, h⟩ := Option.bind_eq_some_iff.mp h
    split at h
    · next r hphase =>
      cases h
      exact .resume hi hphase
    · cases h
  | forget i =>
    obtain ⟨flight, hi, h⟩ := Option.bind_eq_some_iff.mp h
    obtain ⟨_, hguard, h⟩ := Option.bind_eq_some_iff.mp h
    cases h
    have hdone : flight.call = .refreshSession ∧ flight.phase = .resumed := by simpa using hguard
    exact .forget hi hdone.1 hdone.2
  | requireRoleArea roleArea =>
    cases h
    exact .requireRoleArea roleArea

end Steps

section Runs

/-- The steps of a run from the start, the latest first. -/
inductive Run : List (State × Action) → State → Prop
  | start : Run [] .init
  | next {l : List (State × Action)} {s s' : State} {a : Action} (before : Run l s)
      (h : step s a = some s') : Run ((s, a) :: l) s'

/-- No flight is of a generation to come, and in its own generation the session is the one that
it was issued in. -/
def Dated (s : State) : Prop :=
  ∀ flight ∈ s.flights, flight.issued.generation ≤ s.session.generation ∧
    (flight.issued.generation = s.session.generation → flight.issued = s.session)

theorem Dated.advances (h : Dated s) (hsession : Advances s.session s'.session)
    (hflights : ∀ flight ∈ s'.flights, ∃ flight' ∈ s.flights, flight.issued = flight'.issued) :
    Dated s' := by
  intro flight hflight
  obtain ⟨flight', hmem, hissued⟩ := hflights flight hflight
  obtain ⟨hle, hsame⟩ := h flight' hmem
  rw [hissued]
  rcases hsession with heq | hlt
  · rw [heq]
    exact ⟨hle, hsame⟩
  · exact ⟨by omega, fun heq => by omega⟩

theorem getElem?_setPhase {i j : ℕ} {phase : Phase} {flight : Flight}
    (h : (s.setPhase i phase).flights[j]? = some flight) : ∃ flight', s.flights[j]? = some flight' ∧
      flight = if i = j then { flight' with phase := phase } else flight' := by
  rw [State.setPhase, List.getElem?_modify] at h
  obtain ⟨flight', hflight', rfl⟩ := Option.map_eq_some_iff.mp h
  exact ⟨flight', hflight', rfl⟩

theorem mem_setPhase {i : ℕ} {phase : Phase} {flight : Flight}
    (h : flight ∈ (s.setPhase i phase).flights) :
    ∃ flight' ∈ s.flights, flight.issued = flight'.issued := by
  obtain ⟨j, hj⟩ := List.mem_iff_getElem?.mp h
  obtain ⟨flight', hflight', rfl⟩ := getElem?_setPhase hj
  refine ⟨flight', List.mem_of_getElem? hflight', ?_⟩
  split <;> rfl

theorem dated_issue (hs : Dated s) (call : Call) : Dated (s.issue call) := by
  intro flight hflight
  rcases List.mem_append.mp hflight with hold | hnew
  · exact hs flight hold
  · rw [List.mem_singleton.mp hnew]
    exact ⟨le_rfl, fun _ => rfl⟩

theorem Steps.dated (h : Steps s a s') (hs : Dated s) : Dated s' := by
  cases h with
  | issue => exact dated_issue hs _
  | refresh => exact dated_issue hs _
  | shared => exact hs
  | answer r => exact hs.advances (advances_receive s r) fun _ => mem_setPhase
  | resume => exact hs.advances (advances_proceed s _ _) fun _ => mem_setPhase
  | forget => exact hs.advances (.inl rfl) fun _ => mem_setPhase
  | requireRoleArea roleArea =>
    exact hs.advances (advances_requireRoleArea s roleArea) fun flight hmem => ⟨flight, hmem, rfl⟩

theorem Run.dated {l : List (State × Action)} (h : Run l s) : Dated s := by
  induction h with
  | start => exact fun flight hflight => by cases hflight
  | next before h ih => exact (step_cases h).dated ih

/-- A refresh that has not ended yet is the one that is shared. -/
def Shared (s : State) : Prop :=
  ∀ i flight, s.flights[i]? = some flight → flight.call = .refreshSession →
    flight.phase ≠ .settled → s.pendingRefresh = some i

/-- A flight that goes on does not stop being the one that is shared. -/
theorem Shared.setPhase (hs : Shared s) {i j : ℕ} {phase : Phase} {flight flight' : Flight}
    (hi : s.flights[i]? = some flight) (hphase : flight.phase ≠ .settled)
    (hj : (s.setPhase i phase).flights[j]? = some flight') (hcall : flight'.call = .refreshSession)
    (hphase' : flight'.phase ≠ .settled) : s.pendingRefresh = some j := by
  obtain ⟨old, hold, rfl⟩ := getElem?_setPhase hj
  by_cases hij : i = j
  · subst hij
    rw [if_pos rfl] at hcall
    cases hi.symm.trans hold
    exact hs i flight hi hcall hphase
  · rw [if_neg hij] at hcall hphase'
    exact hs j old hold hcall hphase'

theorem shared_issue (hs : Shared s) {call : Call} {i : ℕ} {flight : Flight}
    (hi : (s.issue call).flights[i]? = some flight) (hcall : flight.call = .refreshSession)
    (hphase : flight.phase ≠ .settled) :
    s.pendingRefresh = some i ∨ i = s.flights.length ∧ call = .refreshSession := by
  rw [State.issue, List.getElem?_append] at hi
  split at hi
  · exact .inl (hs i flight hi hcall hphase)
  · next hlt =>
    rw [List.getElem?_singleton] at hi
    split at hi
    · cases hi
      exact .inr ⟨by omega, hcall⟩
    · cases hi

theorem Steps.shared_of (h : Steps s a s') (hs : Shared s) : Shared s' := by
  cases h with
  | issue hcall =>
    intro i flight hi hrefresh hphase
    exact (shared_issue hs hi hrefresh hphase).resolve_right fun h => hcall h.2
  | refresh hnone =>
    intro i flight hi hrefresh hphase
    rcases shared_issue hs hi hrefresh hphase with hold | ⟨rfl, -⟩
    · rw [hnone] at hold
      cases hold
    · rfl
  | shared => exact hs
  | answer r hi hphase =>
    exact fun _ _ => hs.setPhase hi (by rw [hphase]; nofun)
  | resume hi hphase =>
    exact fun _ _ => hs.setPhase hi (by rw [hphase]; nofun)
  | forget hi hcall hphase =>
    intro j flight' hj hrefresh hphase'
    have hopen := hs _ _ hi hcall (by rw [hphase]; nofun)
    have hother := hs.setPhase hi (by rw [hphase]; nofun) hj hrefresh hphase'
    -- the flight that is left would be the one that ends
    rw [hopen, Option.some.injEq] at hother
    subst hother
    obtain ⟨old, hold, rfl⟩ := getElem?_setPhase hj
    rw [if_pos rfl] at hphase'
    exact (hphase' rfl).elim
  | requireRoleArea => exact hs

/-- There is one refresh under way at a time. -/
theorem Run.one_refresh {l : List (State × Action)} (h : Run l s) {i j : ℕ} {flight flight' : Flight}
    (hi : s.flights[i]? = some flight) (hj : s.flights[j]? = some flight')
    (hcall : flight.call = .refreshSession) (hcall' : flight'.call = .refreshSession)
    (hphase : flight.phase ≠ .settled) (hphase' : flight'.phase ≠ .settled) : i = j := by
  have hshared : Shared s := by
    clear hi hj
    induction h with
    | start => exact fun i flight hi => by cases hi
    | next before h ih => exact (step_cases h).shared_of ih
  exact Option.some.inj ((hshared i flight hi hcall hphase).symm.trans
    (hshared j flight' hj hcall' hphase'))

end Runs

section Responses

/-- The flight whose response a step delivers to the session: the end of an API request, or a
refresh that goes on with its result. -/
def State.response (s : State) : Action → Option Flight
  | .answer i _ => s.flights[i]?
  | .resume i => s.flights[i]?.filter fun flight => decide (flight.call = .refreshSession)
  | _ => none

/-- A response changes the session only in the generation its request was issued in, when the
session is still the one that it belongs to. -/
def Undisturbed (s : State) (a : Action) : Prop :=
  ∀ flight, s.response a = some flight → ∀ s', step s a = some s' → s'.session ≠ s.session →
    s.session.generation = flight.issued.generation ∧ s.session = flight.issued

/-- A request is answered by 401 only in the generation it was issued in. -/
def Timely (s : State) (a : Action) : Prop :=
  ∀ i flight, a = .answer i (.error 401) → s.flights[i]? = some flight →
    flight.issued.generation = s.session.generation

/-- A step of a run sets out from a state whose flights are dated. -/
theorem Run.mem {l : List (State × Action)} (h : Run l s) {t : State × Action} (ht : t ∈ l) :
    Dated t.1 ∧ ∃ s', step t.1 t.2 = some s' := by
  induction h with
  | start => cases ht
  | next before hstep ih =>
    rcases List.mem_cons.mp ht with rfl | ht
    · exact ⟨before.dated, _, hstep⟩
    · exact ih ht

theorem answer_eq {i : ℕ} {r : Answer} (h : step s (.answer i r) = some s') :
    s'.session = s.receive r := by
  cases step_cases h with
  | answer => rfl

theorem resume_eq {i : ℕ} {flight : Flight} (hi : s.flights[i]? = some flight)
    (h : step s (.resume i) = some s') : ∃ r, s'.session = s.proceed flight r := by
  cases step_cases h with
  | resume hi' =>
    cases hi.symm.trans hi'
    exact ⟨_, rfl⟩

/-- A refresh that changes the session finds the generation in which it was called. -/
theorem proceed_refresh {flight : Flight} {r : Answer} (hcall : flight.call = .refreshSession)
    (h : s.proceed flight r ≠ s.session) : s.session.generation = flight.issued.generation := by
  by_contra hgeneration
  refine h ?_
  unfold State.proceed
  rw [hcall]
  cases r with
  | ok payload =>
    cases payload with
    | none => rfl
    | some response =>
      simp only
      split
      · rw [if_pos hgeneration]
      · rfl
  | error | unreadable => rfl

theorem receive_ne {r : Answer} (h : s.receive r ≠ s.session) : r = .error 401 := by
  by_contra hr
  refine h ?_
  unfold State.receive
  split
  · exact (hr rfl).elim
  · rfl

theorem undisturbed_step (hs : Dated s) (hstep : step s a = some s') :
    Undisturbed s a ↔ Timely s a := by
  constructor
  · rintro hu i flight rfl hi
    refine (hu flight hi s' hstep ?_).1.symm
    rw [answer_eq hstep]
    exact fun heq => absurd (congrArg AuthSession.generation heq) (Nat.succ_ne_self _)
  · intro ht flight hflight s'' hstep' hchanged
    have hgeneration : flight.issued.generation = s.session.generation := by
      cases a with
      | answer i r =>
        rw [answer_eq hstep'] at hchanged
        rw [receive_ne hchanged] at ht
        exact ht i flight rfl hflight
      | resume i =>
        obtain ⟨hi, hcall⟩ := Option.filter_eq_some_iff.mp hflight
        obtain ⟨r, heq⟩ := resume_eq hi hstep'
        rw [heq] at hchanged
        exact (proceed_refresh (of_decide_eq_true hcall) hchanged).symm
      | call | forget | requireRoleArea => cases hflight
    have hmem : flight ∈ s.flights := by
      cases a with
      | answer i r => exact List.mem_of_getElem? hflight
      | resume i => exact List.mem_of_getElem? (Option.filter_eq_some_iff.mp hflight).1
      | call | forget | requireRoleArea => cases hflight
    exact ⟨hgeneration.symm, ((hs flight hmem).2 hgeneration).symm⟩

/-- The steps of a run, the first of them first. -/
def play : List Action → List (State × Action) × State → Option (List (State × Action) × State)
  | [], r => some r
  | a :: actions, (l, s) => (step s a).bind fun s' => play actions ((s, a) :: l, s')

theorem run_of_play {actions : List Action} {l l' : List (State × Action)}
    (hrun : Run l s) (h : play actions (l, s) = some (l', s')) : Run l' s' := by
  induction actions generalizing l s with
  | nil =>
    cases h
    exact hrun
  | cons a actions ih =>
    obtain ⟨s₁, hstep, hrest⟩ := Option.bind_eq_some_iff.mp h
    exact ih (.next hrun hstep) hrest

def signedIn (token : String) : SharedLoginResponse where
  tokenType := some .bearer
  expiresIn := some 900
  scope := none
  permissions := some [.catalogRead]
  issuer := none
  audience := none
  authVersion := some 0
  accessToken := token
  roleArea := .staff
  user := some ⟨⟨"s1", "ada@library.local", "Ada", [.staff]⟩, none⟩
  member := none
  principal := none

/-- A sign-in whose flight is `i`. -/
def signsIn (i : ℕ) (token : String) : List Action :=
  [.call .login, .answer i (.ok (some (signedIn token))), .resume i]

end Responses

end BrowserSession
