import Mathlib.Data.Int.ConditionallyCompleteOrder
import Mathlib.Order.ConditionallyCompleteLattice.Basic
import Mathlib.Order.Interval.Set.Defs
import BookLibrary.SignIn.Execution
import BookLibrary.SignIn.Service

/-!
# The identifier limit

Failed sign-ins are counted for their identifier after the fact, and nothing looks at
that counter before a password is compared. So a sign-in over the limit is refused
exactly if its own password is wrong.
-/

namespace SignIn

open AuthThrottle Documents Interleaving

variable {ι : Type} {env : Environment}

/-- The identifier that a well-formed sign-in is for. -/
def identifierOf (env : Environment) (request : Request) : Option String :=
  (validate env request.route request.body).map fun dto =>
    normalizeSharedIdentifier env dto.identifier

abbrev Run (ι : Type) :=
  Config ι Request Op Database (Except HttpFailure SharedAuthSessionResult) Event

/-- The dates of the window that opens at `opens`. -/
def window (env : Environment) (opens : Date) : Set Date :=
  Set.Ico opens (opens + env.throttle.signInIdentifierFailure.windowSeconds * 1000)

/-- Caller `i` has been refused a session for the identifier, in the window. -/
def Failed (env : Environment) (identifier : String) (opens : Date) (cfg : Run ι) (i : ι) : Prop :=
  ∃ th e, cfg.Returns i th (.error e) ∧ identifierOf env th.call = some identifier ∧
    th.call.now ∈ window env opens

/-- More sign-ins for the identifier than the limit have failed in the window. -/
def OverLimit (env : Environment) (identifier : String) (opens : Date) (cfg : Run ι) : Prop :=
  ∃ callers : List ι, callers.Nodup ∧ (∀ i ∈ callers, Failed env identifier opens cfg i) ∧
    env.throttle.signInIdentifierFailure.limit < callers.length

/-- No sign-in that starts when its identifier is over the limit, and within the
window, is given a session. -/
def LockedOut (env : Environment) (cfg cfg' : Run ι) : Prop :=
  ∀ identifier opens, OverLimit env identifier opens cfg → ∀ i th session,
    cfg.threads i = none → identifierOf env th.call = some identifier →
    th.call.now ∈ window env opens → ¬ cfg'.Returns i th (.ok session)

/-- A sign-in that starts when its identifier is over the limit, and within the window,
compares its password only with hashes it does not match. -/
def wrongPasswords (env : Environment) (cfg : Run ι) : Gate ι Request Op Database Event :=
  fun i _ op _ _ J => match op with
    | .inr (.inr (.verifyPassword hash password)) => cfg.threads i = none →
        ∀ e ∈ J, e.caller = i → ∀ identifier opens, OverLimit env identifier opens cfg →
          identifierOf env e.call = some identifier → e.call.now ∈ window env opens →
          env.verify hash password = false
    | _ => True

section Conduct

def Looked (l : List Event) : Prop := ∃ identifier r, .looked identifier r ∈ l

def Verified (l : List Event) : Prop := ∃ hash password, .verified hash password true ∈ l

def comparesPassword : (β : Type) → Own β → Prop
  | _, .verifyPassword _ _ => True
  | _, _ => False

/-- A password is compared only after its identifier has been looked up. -/
def passwordConduct (l : List Event) (β : Type) (op : Op β) : Prop :=
  match op with
  | .inr (.inr op) => comparesPassword β op → Looked l
  | _ => True

theorem Verified.mono {l m : List Event} (h : Verified l) (hl : l <:+ m) : Verified m := by
  obtain ⟨hash, password, hmem⟩ := h
  exact ⟨hash, password, hl.subset hmem⟩

theorem Looked.mono {l m : List Event} (h : Looked l) (hl : l <:+ m) : Looked m := by
  obtain ⟨identifier, r, hmem⟩ := h
  exact ⟨identifier, r, hl.subset hmem⟩

/-- The walk through one piece of a request. -/
abbrev Walks (env : Environment) {α : Type} (Q : List Event → Except HttpFailure α → Prop)
    (faulted : Bool) (l : List Event) (x : Handler α) : Prop :=
  Conforms (system env) (fun _ => passwordConduct) (fun _ => Q) faulted l x.run

/-- A piece that compares no password. -/
def Quiet (env : Environment) {α : Type} (x : Handler α) : Prop :=
  ∀ faulted l, Walks env (fun _ _ => True) faulted l x

variable {α β : Type} {faulted : Bool} {l : List Event}

theorem Quiet.pure {a : α} : Quiet env (pure a) := fun _ _ => Conforms.run_pure trivial

theorem Quiet.throw {e : HttpFailure} : Quiet env (throw e : Handler α) :=
  fun _ _ => Conforms.run_throw trivial

theorem Quiet.bind {x : Handler β} {f : β → Handler α} (hx : Quiet env x)
    (hf : ∀ b, Quiet env (f b)) : Quiet env (x >>= f) :=
  fun faulted l => Conforms.run_then (hx faulted l) (fun fl l b _ => hf b fl l) fun _ _ _ _ => trivial

theorem Quiet.handle {x : Handler α} {f : HttpFailure → Handler α} (hx : Quiet env x)
    (hf : ∀ e, Quiet env (f e)) : Quiet env (tryCatch x f) :=
  fun faulted l => Conforms.run_handle (hx faulted l) (fun _ _ _ _ => trivial)
    fun fl l e _ => hf e fl l

theorem Quiet.call {op : Own β} (h : ¬ comparesPassword β op) : Quiet env (SignIn.call op) :=
  fun _ _ => Conforms.run_perform (fun hop => absurd hop h) (fun _ _ => trivial) fun _ _ _ => trivial

theorem Quiet.throttled (x : AuthThrottle.Throttle α) : Quiet env (SignIn.throttled x) :=
  fun _ _ => Conforms.run_lift (throttle_component env) (fun _ _ _ _ _ => trivial)
    (Conforms.vacuous _) fun _ _ _ _ _ => trivial

theorem Quiet.ofSessions (x : TokenSession.Refresh α) : Quiet env (SignIn.ofSessions x) :=
  fun _ _ => Conforms.run_lift (sessions_component env) (fun _ _ _ _ _ => trivial)
    (Conforms.vacuous _) fun _ _ _ _ _ => trivial

/-- A quiet piece first; what has been seen stays seen. -/
theorem Quiet.then {Q : List Event → Except HttpFailure α → Prop} {x : Handler β}
    {f : β → Handler α} (hx : Quiet env x)
    (hok : ∀ faulted m b, l <:+ m → Walks env Q faulted m (f b))
    (herr : ∀ m e, Q m (.error e)) : Walks env Q faulted l (x >>= f) :=
  Conforms.run_then (Conforms.frame (List.suffix_refl l) (hx faulted l))
    (fun fl m b h => hok fl m b h.2) fun _ _ _ _ => herr _ _

end Conduct

section Pieces

variable {α : Type}

theorem orDeny_quiet (x : AuthThrottle.Throttle AuthThrottleDecision) : Quiet env (orDeny x) :=
  Quiet.handle (Quiet.throttled x) fun _ => Quiet.pure

theorem assertAuthThrottleAllowed_quiet (decision : AuthThrottleDecision) :
    Quiet env (assertAuthThrottleAllowed decision) := by
  rw [assertAuthThrottleAllowed]
  split
  · exact Quiet.pure
  · exact Quiet.throw

theorem canActivate_quiet (request : Request) : Quiet env (canActivate env request) := by
  rw [canActivate]
  split
  · exact Quiet.bind (orDeny_quiet _) fun _ =>
      Quiet.bind (assertAuthThrottleAllowed_quiet _) fun _ => Quiet.pure
  · exact Quiet.bind (orDeny_quiet _) fun _ =>
      Quiet.bind (assertAuthThrottleAllowed_quiet _) fun _ => Quiet.pure
  · exact Quiet.bind (Quiet.ofSessions _) fun _ => Quiet.bind (Quiet.ofSessions _) fun _ =>
      Quiet.bind (orDeny_quiet _) fun _ =>
        Quiet.bind (assertAuthThrottleAllowed_quiet _) fun _ => Quiet.pure
  · exact Quiet.pure

theorem denySharedSignIn_quiet {identifier reason : String}
    {subject : Option (AuthIdentifiers.AuthIdentifierSubjectType × String)} :
    Quiet env (denySharedSignIn env identifier reason subject : Handler α) :=
  Quiet.bind (Quiet.call id) fun _ => Quiet.throw

theorem assertActivationGateCompleted_quiet {reservation : ActiveReservation}
    {identifier : String} : Quiet env (assertActivationGateCompleted env reservation identifier) := by
  rw [assertActivationGateCompleted]
  split
  · exact Quiet.pure
  · split
    · exact Quiet.pure
    · refine Quiet.bind (Quiet.call id) fun status => ?_
      split
      · exact Quiet.pure
      · exact denySharedSignIn_quiet

theorem buildStaffLoginResponse_quiet {staffAuth : StaffAuth} :
    Quiet env (buildStaffLoginResponse env staffAuth) :=
  Quiet.bind (Quiet.ofSessions _) fun _ => Quiet.bind (Quiet.call id) fun _ => Quiet.pure

theorem buildMemberLoginResponse_quiet {memberAuth : MemberAuth} :
    Quiet env (buildMemberLoginResponse env memberAuth) := by
  refine Quiet.bind ?_ fun _ => Quiet.bind (Quiet.ofSessions _) fun _ =>
    Quiet.bind (Quiet.call id) fun _ => Quiet.pure
  refine Quiet.bind (Quiet.call id) fun member => ?_
  cases member with
  | none => exact Quiet.throw
  | some member =>
    refine Quiet.bind (Quiet.call id) fun membershipType => ?_
    cases membershipType with
    | none => exact Quiet.throw
    | some membershipType => exact Quiet.pure

theorem createRefreshToken_quiet {subjectType : TokenSession.AuthSubjectType} {subjectId : String}
    {scopes : List AuthPermission} {authVersion : ℕ} :
    Quiet env (createRefreshToken env subjectType subjectId scopes authVersion) :=
  Quiet.bind (Quiet.ofSessions _) fun _ => Quiet.bind (Quiet.ofSessions _) fun _ => Quiet.pure

theorem recordIdentifierFailure_quiet {context : Option AuthThrottleRequestContext} :
    Quiet env (recordIdentifierFailure env context) := by
  rw [recordIdentifierFailure]
  split
  · exact Quiet.pure
  · exact Quiet.bind (Quiet.ofSessions _) fun _ => Quiet.bind (orDeny_quiet _) fun _ =>
      assertAuthThrottleAllowed_quiet _

variable {faulted : Bool} {l : List Event}

/-- What a session needs: a password that matched. -/
def Authenticated (l : List Event) : Except HttpFailure α → Prop
  | .ok _ => Verified l
  | .error _ => True

/-- A reservation was looked up. -/
def Resolved (l : List Event) : Except HttpFailure (Option ActiveReservation) → Prop
  | .ok (some _) => Looked l
  | _ => True

theorem deny_walks {identifier reason : String} {Q : List Event → Except HttpFailure α → Prop}
    {subject : Option (AuthIdentifiers.AuthIdentifierSubjectType × String)}
    (h : ∀ m e, Q m (.error e)) : Walks env Q faulted l (denySharedSignIn env identifier reason
      subject : Handler α) :=
  Quiet.then (Quiet.call id) (fun _ _ _ _ => Conforms.run_throw (h _ _)) h

theorem resolveSharedIdentifier_walks {identifier : String} :
    Walks env Resolved faulted l (resolveSharedIdentifier env identifier) := by
  rw [resolveSharedIdentifier]
  split
  · exact Conforms.run_pure trivial
  · refine Conforms.run_call (fun h => absurd h id) (fun _ _ => trivial) fun r _ => ?_
    cases r with
    | none => exact deny_walks fun _ _ => trivial
    | some reservation =>
      simp only
      split
      · split
        · exact deny_walks fun _ _ => trivial
        · exact Conforms.run_pure ⟨identifier, some reservation, List.mem_cons_self⟩
      · exact deny_walks fun _ _ => trivial
      · exact deny_walks fun _ _ => trivial

/-- Comparing the password, and what follows when it matches. -/
theorem verify_walks {hash password : String} {f : Bool → Handler α} (hl : Looked l)
    (hyes : ∀ m, Verified m → Walks env Authenticated faulted m (f true))
    (hno : ∀ m, Walks env Authenticated faulted m (f false)) :
    Walks env Authenticated faulted l (call (.verifyPassword hash password) >>= f) := by
  refine Conforms.run_call (fun _ => hl) (fun _ _ => trivial) fun matched _ => ?_
  cases matched with
  | true => exact hyes _ ⟨hash, password, List.mem_cons_self⟩
  | false => exact hno _

theorem authenticateReservedStaff_walks {identifier password subjectId : String} (hl : Looked l) :
    Walks env Authenticated faulted l
      (authenticateReservedStaff env identifier password subjectId) := by
  refine Quiet.then (Quiet.call id) (fun fl m user hm => ?_) fun _ _ => trivial
  cases user with
  | none => exact deny_walks fun _ _ => trivial
  | some user =>
    simp only
    split
    · refine verify_walks (hl.mono hm) (fun m' hv => ?_) fun m' => deny_walks fun _ _ => trivial
      exact Quiet.then (Quiet.call id)
        (fun _ _ _ hm' => Conforms.run_pure (hv.mono hm')) fun _ _ => trivial
    · exact deny_walks fun _ _ => trivial

theorem authenticateReservedMember_walks {identifier password subjectId : String} (hl : Looked l) :
    Walks env Authenticated faulted l
      (authenticateReservedMember env identifier password subjectId) := by
  refine Quiet.then (Quiet.call id) (fun fl m member hm => ?_) fun _ _ => trivial
  cases member with
  | none => exact deny_walks fun _ _ => trivial
  | some member =>
    simp only
    split
    · refine verify_walks (hl.mono hm) (fun m' hv => ?_) fun m' => deny_walks fun _ _ => trivial
      exact Quiet.then (Quiet.call id)
        (fun _ _ _ hm' => Conforms.run_pure (hv.mono hm')) fun _ _ => trivial
    · exact deny_walks fun _ _ => trivial

theorem createSharedSession_walks {dto : SharedLoginDto} :
    Walks env Authenticated faulted l (createSharedSession env dto) := by
  refine Conforms.run_then resolveSharedIdentifier_walks (fun fl m r hr => ?_) fun _ _ _ _ => trivial
  cases r with
  | none => exact deny_walks fun _ _ => trivial
  | some reservation =>
    refine Quiet.then assertActivationGateCompleted_quiet (fun fl m' _ hm' => ?_) fun _ _ => trivial
    have hlooked : Looked m' := Looked.mono hr hm'
    simp only
    split
    · refine Conforms.run_then (authenticateReservedStaff_walks hlooked) (fun fl m staffAuth hv => ?_)
        fun _ _ _ _ => trivial
      refine Quiet.then buildStaffLoginResponse_quiet (fun fl m₁ response h₁ => ?_) fun _ _ => trivial
      refine Quiet.then createRefreshToken_quiet (fun fl m₂ token h₂ => ?_) fun _ _ => trivial
      refine Quiet.then (Quiet.call id) (fun fl m₃ _ h₃ => ?_) fun _ _ => trivial
      exact Conforms.run_pure (Verified.mono hv (h₁.trans (h₂.trans h₃)))
    · refine Conforms.run_then (authenticateReservedMember_walks hlooked)
        (fun fl m memberAuth hv => ?_) fun _ _ _ _ => trivial
      refine Quiet.then buildMemberLoginResponse_quiet (fun fl m₁ response h₁ => ?_)
        fun _ _ => trivial
      refine Quiet.then createRefreshToken_quiet (fun fl m₂ token h₂ => ?_) fun _ _ => trivial
      refine Quiet.then (Quiet.call id) (fun fl m₃ _ h₃ => ?_) fun _ _ => trivial
      exact Conforms.run_pure (Verified.mono hv (h₁.trans (h₂.trans h₃)))

theorem signIn_walks (request : Request) :
    Walks env Authenticated false [] (signIn env request) := by
  refine Quiet.then (canActivate_quiet request) (fun fl m context _ => ?_) fun _ _ => trivial
  cases validate env request.route request.body with
  | none => exact Conforms.run_throw trivial
  | some dto =>
    refine Conforms.run_handle createSharedSession_walks (fun _ _ _ h => h) fun fl m' e _ => ?_
    exact Quiet.then recordIdentifierFailure_quiet
      (fun _ _ _ _ => Conforms.run_throw trivial) fun _ _ => trivial

end Pieces

section Main

variable [DecidableEq ι] {s₀ : Database} {cfg cfg' : Run ι}

/-- A session is returned only after a password has matched. -/
def authentication (ι : Type) [DecidableEq ι] (env : Environment) : Contract ι (system env) where
  inv _ _ := True
  legal _ _ := passwordConduct
  post _ _ := Authenticated
  inv_call _ _ _ _ := trivial
  inv_env _ _ := trivial
  conforms := signIn_walks

/-- The request `e` belongs to started when its identifier was over the limit. -/
def Late (env : Environment) (cfg : Run ι) (e : Entry ι Request Event) : Prop :=
  cfg.threads e.caller = none ∧ ∃ identifier opens, OverLimit env identifier opens cfg ∧
    identifierOf env e.call = some identifier ∧ e.call.now ∈ window env opens

/-- No late request has compared its password with success. -/
def Unmatched (env : Environment) (cfg : Run ι) (J : List (Entry ι Request Event)) : Prop :=
  ∀ e ∈ J, Late env cfg e → ∀ hash password, e.event ≠ .verified hash password true

/-- A late request that compares its password compares it in vain. -/
theorem wrongPasswords_late {i : ι} {call : Request} {hash password : String} {a : Bool}
    {s : Database} {J : List (Entry ι Request Event)}
    (hcall : ∀ e ∈ J, e.caller = i → e.call = call)
    (hgate : wrongPasswords env cfg i Bool (.inr (.inr (.verifyPassword hash password))) a s J)
    (hlegal : passwordConduct (own i J) Bool (.inr (.inr (.verifyPassword hash password))))
    {ev : Event} (hlate : Late env cfg ⟨i, call, ev⟩) : env.verify hash password = false := by
  obtain ⟨hfree, identifier, opens, hover, hid, hdate⟩ := hlate
  -- the caller has looked its identifier up, so the journal knows its request
  obtain ⟨name, r, hmem⟩ := hlegal trivial
  obtain ⟨call', hentry⟩ := mem_own.mp hmem
  obtain rfl : call' = call := hcall _ hentry rfl
  exact hgate hfree _ hentry rfl identifier opens hover hid hdate

theorem unmatched_of_runs (w : WellFormed (authentication ι env) cfg)
    (h : (system env).Runs (wrongPasswords env cfg) cfg cfg') : Unmatched env cfg cfg'.journal := by
  refine WellFormed.runs_induct (P := fun _ J => Unmatched env cfg J) ?_ (fun _ hp _ => hp) w h ?_
  · intro s s' J i call fl β op r _ hp hcall hlegal hgate happlies e he hlate hash password hev
    rcases List.mem_append.mp he with hnew | hold
    · obtain ⟨rfl, rfl, hmem⟩ := mem_record.mp hnew
      rw [hev] at hmem
      cases op with
      | inl op => exact (List.mem_map.mp hmem).elim fun _ h => by cases h.2
      | inr op =>
        cases op with
        | inl op => exact (List.mem_map.mp hmem).elim fun _ h => by cases h.2
        | inr op =>
          cases op with
          | verifyPassword hash' password' =>
            obtain ⟨ok, hok, heq⟩ := List.mem_map.mp hmem
            cases heq
            rw [Option.mem_toList] at hok
            cases hok
            have hmatch : true = env.verify hash password := happlies.1
            rw [wrongPasswords_late hcall hgate hlegal hlate] at hmatch
            cases hmatch
          | findReservation identifier => exact (List.mem_map.mp hmem).elim fun _ h => by cases h.2
          | _ => cases hmem
    · exact hp e hold hlate hash password hev
  · intro e he hlate
    obtain ⟨th, hth, -⟩ := w.attributed e he
    rw [hlate.1] at hth
    cases hth

/-- In a run whose late sign-ins present wrong passwords, every late sign-in is refused. -/
theorem lockout_respected (hreach : (system env).Reachable s₀ cfg)
    (hruns : (system env).Runs (wrongPasswords env cfg) cfg cfg') : LockedOut env cfg cfg' := by
  intro identifier opens hover i th session hfree hid hdate hreturns
  have w : WellFormed (authentication ι env) cfg := (WellFormed.init trivial).runs hreach
  have w' := w.runs hruns
  obtain ⟨hash, password, hmem⟩ : Verified (own i cfg'.journal) := w'.post_of_returns hreturns
  obtain ⟨call, hentry⟩ := mem_own.mp hmem
  obtain rfl : call = th.call := w'.call_eq hreturns.1 _ hentry rfl
  exact unmatched_of_runs w hruns _ hentry ⟨hfree, identifier, opens, hover, hid, hdate⟩
    hash password rfl

/-- A sign-in for the account "a" at date 0. -/
def attempt (password : String) : Request :=
  ⟨.login, "203.0.113.9", some ⟨.text "a", .undefined, .undefined, .text password, false⟩, none, 0⟩

/-- The active staff account "a", whose password is "p". -/
def accountA : Database :=
  { Database.empty with
    identifiers :=
      [⟨"r1", "a", .email, some .staff, some "u1", .active, none, none, none, none, none, none, none,
        "u0", "u0", 0⟩]
    staffUsers := [⟨"u1", "a", "A", "p", [.staff], .active, none⟩] }

/-- Callers 0 to 5, one more than the limit, present a wrong password. -/
def wrongGuesses : List (Move ℕ Request TokenSession.Draw) :=
  .start 0 (attempt "x") :: List.replicate 11 (go 0) ++
    [1, 2, 3, 4, 5].flatMap fun i => .start i (attempt "x") :: List.replicate 9 (go i)

/-- Caller 6 presents the right one. -/
def rightGuess : List (Move ℕ Request TokenSession.Draw) :=
  .start 6 (attempt "p") :: List.replicate 6 (go 6) ++
    [.reply 6 ⟨"j1", 0⟩, go 6, go 6, .reply 6 ⟨"t1", 0⟩, .reply 6 ⟨"f1", 0⟩, go 6, go 6]

def refused (cfg : Run ℕ) (i : ℕ) : Bool :=
  match cfg.result i with
  | some (request, .error _) => decide (request = attempt "x")
  | _ => false

theorem failed_of_refused {cfg : Run ℕ} {i : ℕ} (h : refused cfg i = true) :
    Failed plain "a" 0 cfg i := by
  simp only [refused] at h
  split at h
  · next request e hresult =>
    obtain ⟨th, hreturns, hcall⟩ := Config.returns_of_result hresult
    have hrequest : th.call = attempt "x" := hcall.trans (of_decide_eq_true h)
    refine ⟨th, e, hreturns, ?_, ?_⟩
    · rw [hrequest]
      rfl
    · rw [hrequest]
      exact ⟨le_refl _, by decide⟩
  · cases h

theorem overLimit_of_refused {cfg : Run ℕ} (h : (List.range 6).all (refused cfg) = true) :
    OverLimit plain "a" 0 cfg :=
  ⟨List.range 6, List.nodup_range, fun i hi => failed_of_refused (List.all_eq_true.mp h i hi),
    by decide⟩

/-- `wrongPasswords` holds where no password that is compared matches. -/
def comparesInVain (env : Environment) (_i : ℕ) (β : Type) (op : Op β) (_applied : Bool)
    (_s : Database) (_J : List (Entry ℕ Request Event)) : Bool :=
  match op with
  | .inr (.inr (.verifyPassword hash password)) => !env.verify hash password
  | _ => true

theorem wrongPasswords_of_comparesInVain {cfg : Run ℕ} {i : ℕ} {β : Type} {op : Op β} {a : Bool}
    {s : Database} {J : List (Entry ℕ Request Event)} (h : comparesInVain env i β op a s J = true) :
    wrongPasswords env cfg i β op a s J := by
  cases op with
  | inl op => trivial
  | inr op =>
    cases op with
    | inl op => trivial
    | inr op =>
      cases op with
      | verifyPassword hash password =>
        intro _ _ _ _ _ _ _ _ _
        simpa [comparesInVain] using h
      | _ => trivial

theorem lockout_respected_run : ∃ cfg cfg' : Run ℕ, (system plain).Reachable accountA cfg ∧
    (system plain).Runs (wrongPasswords plain cfg) cfg cfg' ∧ OverLimit plain "a" 0 cfg ∧
    cfg.threads 6 = none ∧ Failed plain "a" 0 cfg' 6 ∧ LockedOut plain cfg cfg' := by
  have hrun : ((anyDriver plain fun request => (signIn plain request).run).play
      (Config.init accountA) wrongGuesses).map
      (fun cfg => ((List.range 6).all (refused cfg), (cfg.threads 6).isNone,
        ((driver plain (fun request => (signIn plain request).run) (comparesInVain plain)
          fun h => (wrongPasswords_of_comparesInVain h : wrongPasswords plain cfg _ _ _ _ _ _)).play
          cfg (.start 6 (attempt "x") :: List.replicate 9 (go 6))).map (refused · 6))) =
      some (true, true, some true) := rfl
  obtain ⟨cfg, hplay, hview⟩ := Option.map_eq_some_iff.mp hrun
  obtain ⟨hall, hview⟩ := Prod.mk.inj hview
  obtain ⟨hfree, hlast⟩ := Prod.mk.inj hview
  obtain ⟨cfg', hplay', hrefused⟩ := Option.map_eq_some_iff.mp hlast
  have hreach := Driver.play_runs hplay
  have hruns := Driver.play_runs hplay'
  exact ⟨cfg, cfg', hreach, hruns, overLimit_of_refused hall, Option.isNone_iff_eq_none.mp hfree,
    failed_of_refused hrefused, lockout_respected hreach hruns⟩

/-- After six wrong passwords the right one is given a session. -/
theorem lockout_not_respected : ∃ cfg cfg' : Run ℕ, (system plain).Reachable accountA cfg ∧
    (system plain).Runs anyCall cfg cfg' ∧ OverLimit plain "a" 0 cfg ∧
    ¬ LockedOut plain cfg cfg' := by
  have hrun : ((anyDriver plain fun request => (signIn plain request).run).play
      (Config.init accountA) wrongGuesses).map
      (fun cfg => ((List.range 6).all (refused cfg), (cfg.threads 6).isNone,
        ((anyDriver plain fun request => (signIn plain request).run).play cfg rightGuess).map
          fun cfg' => (cfg'.result 6).map fun answer =>
            (answer.1, answer.2.toOption.map (·.refreshToken)))) =
      some (true, true, some (some (attempt "p", some "t1"))) := rfl
  obtain ⟨cfg, hplay, hview⟩ := Option.map_eq_some_iff.mp hrun
  obtain ⟨hall, hview⟩ := Prod.mk.inj hview
  obtain ⟨hfree, hlast⟩ := Prod.mk.inj hview
  obtain ⟨cfg', hplay', hsession⟩ := Option.map_eq_some_iff.mp hlast
  obtain ⟨⟨request, answer⟩, hresult, hanswer⟩ := Option.map_eq_some_iff.mp hsession
  obtain ⟨rfl, htoken⟩ := Prod.mk.inj hanswer
  have hover := overLimit_of_refused hall
  refine ⟨cfg, cfg', Driver.play_runs hplay, Driver.play_runs hplay', hover, fun hlocked => ?_⟩
  cases answer with
  | error e => cases htoken
  | ok session =>
    obtain ⟨th, hreturns, hcall⟩ := Config.returns_of_result hresult
    refine hlocked "a" 0 hover 6 th session (Option.isNone_iff_eq_none.mp hfree) ?_ ?_ hreturns
    · rw [hcall]
      rfl
    · rw [hcall]
      exact ⟨le_refl _, by decide⟩

end Main

end SignIn
