import Mathlib.Data.Int.ConditionallyCompleteOrder
import Mathlib.Order.ConditionallyCompleteLattice.Basic
import Mathlib.Order.Interval.Set.Defs
import BookLibrary.AuthThrottle.Consumption
import BookLibrary.SignIn.Execution

/-!
# The source limit of the sign-in routes

Within one window of a source's counter the guard lets at most the configured number
of its requests through, on the routes whose category it knows.
-/

namespace SignIn

open AuthThrottle Documents Interleaving

variable {ι : Type} [DecidableEq ι] {env : Environment} {src : String} {W : Set Date}
  {cfg : Config ι Request Op Database (Except HttpFailure (Option AuthThrottleRequestContext))
    Event}

/-- A sign-in request of the source. -/
def SignsIn (src : String) (request : Request) : Prop :=
  request.sourceIdentity = src ∧ request.route ≠ .refresh

/-- Caller `i` has got past the guard. -/
def PastGuard (cfg : Config ι Request Op Database
    (Except HttpFailure (Option AuthThrottleRequestContext)) Event) (i : ι) (request : Request) :
    Prop :=
  ∃ th context, cfg.Returns i th (.ok context) ∧ th.call = request

/-- The requests of the source fall into one window: their dates `W` and the clock of
the TTL monitor are less than a window apart, and of the source's buckets in the
store `s₀` none expires between them and at most one has not expired before. -/
structure OneWindow (env : Environment) (src : String) (W : Set Date) (s₀ : Database)
    (cfg : Config ι Request Op Database (Except HttpFailure (Option AuthThrottleRequestContext))
      Event) : Prop where
  dates : ∀ i th, cfg.threads i = some th → SignsIn src th.call → th.call.now ∈ W
  clock : ∃ t ∈ W, cfg.store.throttle.clock ≤ t
  short : ∀ t ∈ W, ∀ t' ∈ W, t' < t + env.throttle.signInSource.windowSeconds * 1000
  steady : ∀ b ∈ s₀.throttle.buckets, OpenFor env.hmac env.throttle ⟨.signInSource, src⟩ W b →
    ∀ t ∈ W, t < b.expiresAt
  single : ∀ b ∈ s₀.throttle.buckets, ∀ b' ∈ s₀.throttle.buckets,
    OpenFor env.hmac env.throttle ⟨.signInSource, src⟩ W b →
      OpenFor env.hmac env.throttle ⟨.signInSource, src⟩ W b' → b = b'

/-- No more sign-in requests of the source than the limit get past the guard, and
those that do have all been counted in one bucket of the source. -/
structure Throttled (env : Environment) (src : String)
    (cfg : Config ι Request Op Database (Except HttpFailure (Option AuthThrottleRequestContext))
      Event) : Prop where
  limited : ∀ callers : List ι, callers.Nodup →
    (∀ i ∈ callers, ∃ request, PastGuard cfg i request ∧ SignsIn src request) →
    callers.length ≤ env.throttle.signInSource.limit
  shared : ∃ key, ∀ i request, PastGuard cfg i request → SignsIn src request →
    ∃ b, .throttle (.counted b) ∈ own i cfg.journal ∧
      Concerns env.hmac env.throttle ⟨.signInSource, src⟩ b ∧ b.candidate = key

section Contract

/-- The dimensions a request may consume: no source but its own, and that only on the
routes whose category the guard knows. -/
def MayConsume (request : Request) (input : ConsumeDimensionInput) : Prop :=
  input.dimension = .signInSource → input.value = request.sourceIdentity ∧
    request.route ≠ .refresh

/-- The calls the guard may issue; for a staff sign-in it issues none. -/
def guardConduct (env : Environment) (request : Request) (l : List Event) (β : Type)
    (op : Op β) : Prop :=
  request.route ≠ .staffLogin ∧
    match op with
    | .inl op => ∃ now, (request.route ≠ .refresh → now = request.now) ∧
        conduct env.hmac env.throttle (MayConsume request) now (l.filterMap Event.throttle?) β op
    | .inr _ => True

/-- How the guard may end. -/
def guardVerdict (env : Environment) (request : Request) (l : List Event) :
    Except HttpFailure (Option AuthThrottleRequestContext) → Prop
  | .ok _ => (request.route = .staffLogin → l = []) ∧
      (request.route = .login ∨ request.route = .memberLogin →
        Granted env.hmac env.throttle ⟨.signInSource, request.sourceIdentity⟩
          (l.filterMap Event.throttle?))
  | .error _ => True

theorem consumption_conforms {request : Request} {now : Date} {inputs : List ConsumeDimensionInput}
    {l : List Event} {fl : Bool} (hroute : request.route ≠ .staffLogin)
    (hnow : request.route ≠ .refresh → now = request.now)
    (hmay : ∀ input ∈ inputs, MayConsume request input) :
    Conforms (guarded env) (fun _ => guardConduct env request)
      (fun _ l r => ∀ decision : AuthThrottleDecision, r = .ok decision →
        decision.allowed = true → ∀ input ∈ inputs,
          Granted env.hmac env.throttle input (l.filterMap Event.throttle?)) fl l
      (orDeny (consumeMany env.hmac env.throttle inputs now)).run := by
  refine Conforms.run_handle (R := fun _ l r => ∀ decision : AuthThrottleDecision,
    r = .ok decision → decision.allowed = true → ∀ input ∈ inputs,
      Granted env.hmac env.throttle input (l.filterMap Event.throttle?)) ?_ (fun _ _ _ h => h) ?_
  · refine Conforms.run_lift (throttle_component env)
      (fun _ _ _ _ h => ⟨hroute, now, hnow, h⟩)
      (consumeMany_walks hmay) ?_
    rintro fl m (e | decision) hdecided - decision' heq
    · cases heq
    · cases heq
      exact hdecided
  · intro fl l e _
    refine Conforms.run_pure fun decision heq hallowed => ?_
    cases heq
    cases hallowed

theorem assert_conforms {request : Request} {decision : AuthThrottleDecision}
    {context : AuthThrottleRequestContext} {l : List Event} {fl : Bool}
    (h : decision.allowed = true → guardVerdict env request l (.ok (some context))) :
    Conforms (guarded env) (fun _ => guardConduct env request)
      (fun _ => guardVerdict env request) fl l
      (do assertAuthThrottleAllowed decision; return some context :
        Handler (Option AuthThrottleRequestContext)).run := by
  refine Conforms.run_then (R := fun _ m r => m = l ∧ (r = .ok () → decision.allowed = true))
    ?_ ?_ fun _ _ _ _ => trivial
  · cases hallowed : decision.allowed with
    | true =>
      simp only [assertAuthThrottleAllowed, hallowed, if_true]
      exact Conforms.run_pure ⟨rfl, fun _ => trivial⟩
    | false =>
      simp only [assertAuthThrottleAllowed, hallowed, Bool.false_eq_true, if_false]
      exact Conforms.run_throw ⟨rfl, fun heq => by cases heq⟩
  · rintro fl m ⟨⟩ ⟨rfl, hallowed⟩
    exact Conforms.run_pure (h (hallowed rfl))

theorem signIn_conforms {request : Request} {fl : Bool} {l : List Event}
    (hroute : request.route = .login ∨ request.route = .memberLogin) :
    Conforms (guarded env) (fun _ => guardConduct env request)
      (fun _ => guardVerdict env request) fl l (canActivate env request).run := by
  have hstaff : request.route ≠ .staffLogin := by rcases hroute with h | h <;> rw [h] <;> decide
  have hrefresh : request.route ≠ .refresh := by rcases hroute with h | h <;> rw [h] <;> decide
  have hmay : ∀ input, ∀ identifier category,
      input ∈ signInDimensions ⟨request.sourceIdentity, identifier, category⟩ →
        MayConsume request input := by
    intro input identifier category hinput hdim
    rw [signInDimensions, List.mem_cons] at hinput
    rcases hinput with rfl | hinput
    · exact ⟨rfl, hrefresh⟩
    · split at hinput
      · split at hinput
        · cases hinput
        · rw [List.mem_singleton] at hinput
          rw [hinput] at hdim
          cases hdim
      · cases hinput
  have hcategory : routeCategory request.route.path = .login ∨
      routeCategory request.route.path = .memberLogin := by
    rcases hroute with h | h
    · exact .inl (by rw [h]; rfl)
    · exact .inr (by rw [h]; rfl)
  rw [canActivate]
  rcases hcategory with hcat | hcat <;> rw [hcat] <;>
  · refine Conforms.run_then
      (consumption_conforms hstaff (fun _ => rfl) fun input => hmay input _ _) ?_
      fun _ _ _ _ => trivial
    intro fl l decision hdecision
    refine assert_conforms fun hallowed => ⟨fun h => absurd h hstaff, fun _ => ?_⟩
    exact hdecision decision rfl hallowed _ List.mem_cons_self

theorem sessions_conforms {request : Request} {α : Type} (x : TokenSession.Refresh α) {fl : Bool}
    {l : List Event} (hroute : request.route ≠ .staffLogin) :
    Conforms (guarded env) (fun _ => guardConduct env request) (fun _ _ _ => True) fl l
      (ofSessions x).run :=
  Conforms.run_lift (sessions_component env) (fun _ _ _ _ _ => ⟨hroute, trivial⟩)
    (Conforms.vacuous _) fun _ _ _ _ _ => trivial

theorem guard_conforms (request : Request) :
    Conforms (guarded env) (fun _ => guardConduct env request)
      (fun _ => guardVerdict env request) false [] ((guarded env).body request) := by
  show Conforms (guarded env) _ _ _ _ (canActivate env request).run
  cases hroute : request.route with
  | login => exact signIn_conforms (.inl hroute)
  | memberLogin => exact signIn_conforms (.inr hroute)
  | staffLogin =>
    have hcategory : routeCategory request.route.path = .other := by rw [hroute]; rfl
    rw [canActivate, hcategory]
    refine Conforms.run_pure ⟨fun _ => rfl, fun h => ?_⟩
    rw [hroute] at h
    rcases h with h | h <;> cases h
  | refresh =>
    have hcategory : routeCategory request.route.path = .refresh := by rw [hroute]; rfl
    have hstaff : request.route ≠ .staffLogin := by rw [hroute]; decide
    rw [canActivate, hcategory]
    refine Conforms.run_then (sessions_conforms _ hstaff) ?_ fun _ _ _ _ => trivial
    intro fl l familyId _
    refine Conforms.run_then (sessions_conforms _ hstaff) ?_ fun _ _ _ _ => trivial
    intro fl l now _
    refine Conforms.run_then (consumption_conforms hstaff (fun h => absurd hroute h) ?_) ?_
      fun _ _ _ _ => trivial
    · intro input hinput hdim
      rcases List.mem_cons.mp hinput with rfl | hinput
      · cases hdim
      · split at hinput
        · split at hinput
          · cases hinput
          · rw [List.mem_singleton] at hinput
            rw [hinput] at hdim
            cases hdim
        · cases hinput
    · intro fl l decision _
      refine assert_conforms fun _ => ⟨fun h => absurd h hstaff, fun h => ?_⟩
      rw [hroute] at h
      rcases h with h | h <;> cases h

end Contract

section Invariant

/-- The journal of the throttle. -/
def throttleJournal (J : List (Entry ι Request Event)) :
    List (Entry ι Request AuthThrottle.Event) :=
  J.filterMap fun e => e.event.throttle?.map fun ev => ⟨e.caller, e.call, ev⟩

omit [DecidableEq ι] in
theorem throttleJournal_record {i : ι} {request : Request} {evs : List Event}
    {J : List (Entry ι Request Event)} : throttleJournal (record i request evs ++ J) =
      record i request (evs.filterMap Event.throttle?) ++ throttleJournal J := by
  rw [throttleJournal, throttleJournal, List.filterMap_append, record, List.filterMap_map,
    record, List.map_filterMap]
  rfl

theorem mem_throttleJournal {J : List (Entry ι Request Event)} {i : ι} {ev : AuthThrottle.Event}
    (h : ev ∈ (own i J).filterMap Event.throttle?) :
    ∃ request, (⟨i, request, ev⟩ : Entry ι Request AuthThrottle.Event) ∈ throttleJournal J := by
  obtain ⟨ev', hmem, hev⟩ := List.mem_filterMap.mp h
  obtain ⟨request, hentry⟩ := mem_own.mp hmem
  refine ⟨request, List.mem_filterMap.mpr ⟨_, hentry, ?_⟩⟩
  rw [hev]
  rfl

/-- All that the source has asked for lies in the window. -/
def Within (src : String) (W : Set Date) (s : Database) (J : List (Entry ι Request Event)) : Prop :=
  (∀ e ∈ J, SignsIn src e.call → e.call.now ∈ W) ∧ ∃ t ∈ W, s.throttle.clock ≤ t

structure Counted (env : Environment) (src : String) (W : Set Date) (s : Database)
    (J : List (Entry ι Request Event)) : Prop where
  indexed : s.throttle.Indexed
  ledger : Within src W s J →
    Ledger env.hmac env.throttle ⟨.signInSource, src⟩ W s.throttle.buckets (throttleJournal J)

omit [DecidableEq ι] in
theorem throttle_clock {β : Type} {op : AuthThrottle.Op β} {s s' : AuthThrottle.Database} {b : β}
    (h : AuthThrottle.exec β op s b s') : s'.clock = s.clock := by
  obtain ⟨heffect, -⟩ := h
  cases op with
  | findReferencedVersions => rw [heffect.2]
  | incrementLive | incrementRaced =>
    obtain ⟨buckets, -, rfl⟩ := heffect
    rfl
  | rollBucket =>
    cases b with
    | bucket b =>
      obtain ⟨buckets, -, rfl⟩ := heffect
      rfl
    | duplicateKey => rw [heffect.2]

omit [DecidableEq ι] in
theorem throttle_note_none {β : Type} (op : AuthThrottle.Op β) : AuthThrottle.note β op none = [] := by
  cases op <;> rfl

/-- The other components leave the buckets alone. -/
theorem throttle_frame {s s' : Database} {β : Type} {op : TokenSession.Op β ⊕ Own β} {r : Option β}
    (h : (guarded env).Applies (Sum.inr op : Op β) s r s') : s'.throttle = s.throttle := by
  cases r with
  | none => rw [h.2]
  | some x =>
    cases op with
    | inl op =>
      obtain ⟨t, -, rfl⟩ := h
      rfl
    | inr op =>
      cases op with
      | findGateStatus id =>
        obtain ⟨operation, -, -, rfl⟩ := h
        rfl
      | touchLastLogin | signAccessToken => rw [show s' = s from h]
      | recordActivity event => rw [show s' = { s with activity := event :: s.activity } from h]
      | _ => rw [h.2]

theorem note_inr {β : Type} (op : TokenSession.Op β ⊕ Own β) (r : Option β) :
    (note β (.inr op) r).filterMap Event.throttle? = [] := by
  rw [List.filterMap_eq_nil_iff]
  intro ev hev
  cases op with
  | inl op =>
    obtain ⟨x, -, rfl⟩ := List.mem_map.mp hev
    rfl
  | inr op =>
    cases op with
    | findReservation | verifyPassword =>
      obtain ⟨x, -, rfl⟩ := List.mem_map.mp hev
      rfl
    | _ => cases hev

variable (hinj : ∀ secret, Function.Injective (env.hmac secret))
  (hshort : ∀ t ∈ W, ∀ t' ∈ W, t' < t + env.throttle.signInSource.windowSeconds * 1000)

include hinj hshort in
theorem counted_call {s s' : Database} {J : List (Entry ι Request Event)} {i : ι}
    {request : Request} {β : Type} {op : Op β} {r : Option β} (h : Counted env src W s J)
    (hlegal : guardConduct env request (own i J) β op)
    (happlies : (guarded env).Applies op s r s') :
    Counted env src W s' (record i request (note β op r) ++ J) := by
  cases op with
  | inl op =>
    cases r with
    | none =>
      obtain ⟨-, rfl⟩ := happlies
      refine ⟨h.indexed, fun hwithin => ?_⟩
      rw [note, throttle_note_none] at hwithin ⊢
      exact h.ledger hwithin
    | some x =>
      obtain ⟨hstaff, now, hnow, hconduct⟩ := hlegal
      obtain ⟨t, hexec, rfl⟩ := happlies
      refine ⟨hexec.2, fun hwithin => ?_⟩
      have hledger := h.ledger
        ⟨fun e he => hwithin.1 e (List.mem_append_right _ he), throttle_clock hexec ▸ hwithin.2⟩
      rw [throttleJournal_record, note, filterMap_throttle]
      refine hledger.applied hinj h.indexed hexec hconduct (fun ev hev => ?_) ?_ hshort
      · obtain ⟨request', hentry⟩ := mem_throttleJournal hev
        exact ⟨_, hentry, rfl⟩
      · intro hmay hnote
        obtain ⟨hsrc, hroute⟩ := hmay rfl
        obtain ⟨ev, hev⟩ := List.exists_mem_of_ne_nil _ hnote
        rw [hnow hroute]
        refine hwithin.1 ⟨i, request, .throttle ev⟩ (List.mem_append_left _ ?_) ⟨hsrc.symm, hroute⟩
        exact mem_record.mpr ⟨rfl, rfl, List.mem_map_of_mem hev⟩
  | inr op =>
    have hthrottle := throttle_frame happlies
    refine ⟨hthrottle ▸ h.indexed, fun hwithin => ?_⟩
    rw [throttleJournal_record, note_inr, hthrottle]
    rw [Within, hthrottle] at hwithin
    exact h.ledger ⟨fun e he => hwithin.1 e (List.mem_append_right _ he), hwithin.2⟩

omit [DecidableEq ι] in
theorem counted_env {s s' : Database} {J : List (Entry ι Request Event)}
    (h : Counted env src W s J) (helapse : Elapse s s') : Counted env src W s' J := by
  refine ⟨h.indexed.sublist helapse.buckets.1, fun hwithin => ?_⟩
  obtain ⟨t, ht, hclock⟩ := hwithin.2
  have hledger := h.ledger ⟨hwithin.1, t, ht, le_trans helapse.clock hclock⟩
  -- an open bucket outlives the window, and so the clock
  refine hledger.kept (fun b hb _ => helapse.buckets.1.subset hb) fun b hb ho => ?_
  exact helapse.buckets.2 b hb (lt_of_le_of_lt hclock (hledger.steady b hb ho t ht))

/-- The contract of the guard. -/
def counting : Contract ι (guarded env) where
  inv := Counted env src W
  legal request _ l β op := guardConduct env request l β op
  post request _ l r := guardVerdict env request l r
  inv_call h _ hlegal happlies := counted_call hinj hshort h hlegal happlies
  inv_env := counted_env
  conforms := guard_conforms

end Invariant

section Main

variable {s₀ : Database}

theorem PastGuard.granted {i : ι} {request : Request} {hinj} {hshort}
    (w : WellFormed (@counting ι _ env src W hinj hshort) cfg)
    (h : PastGuard cfg i request) (hroute : request.route = .login ∨ request.route = .memberLogin) :
    Granted env.hmac env.throttle ⟨.signInSource, request.sourceIdentity⟩
      ((own i cfg.journal).filterMap Event.throttle?) := by
  obtain ⟨th, context, hreturns, rfl⟩ := h
  exact (w.post_of_returns hreturns).2 hroute

theorem canActivate_staffLogin {request : Request} (h : request.route = .staffLogin) :
    (guarded env).body request = .done (.ok none) := by
  show (canActivate env request).run = _
  have hcategory : routeCategory request.route.path = .other := by rw [h]; rfl
  rw [canActivate, hcategory]
  rfl

/-- The guard throttles the source's sign-ins if and only if none of them takes the
staff route. -/
theorem signIns_throttled_iff (hinj : ∀ secret, Function.Injective (env.hmac secret))
    (hindexed : s₀.throttle.Indexed) (hrun : (guarded env).Reachable s₀ cfg)
    (hwindow : OneWindow env src W s₀ cfg) : Throttled env src cfg ↔
      ∀ i th, cfg.threads i = some th → SignsIn src th.call → th.call.route ≠ .staffLogin := by
  have w : WellFormed (counting hinj hwindow.short) cfg :=
    (WellFormed.init (k := counting hinj hwindow.short)
      ⟨hindexed, fun _ => Ledger.init hwindow.steady hwindow.single⟩).runs hrun
  have hledger := w.inv.ledger ⟨fun e he hsigns => by
    obtain ⟨th, hth, hcall⟩ := w.attributed e he
    exact hcall ▸ hwindow.dates _ _ hth (hcall ▸ hsigns), hwindow.clock⟩
  constructor
  · intro h i th hth hsigns hstaff
    have hreturns := hrun.answered (canActivate_staffLogin hstaff) hth rfl
    -- it got past the guard without a single call
    have hown : own i cfg.journal = [] := (w.post_of_returns hreturns).1 hstaff
    obtain ⟨key, hkey⟩ := h.shared
    obtain ⟨b, hb, -⟩ := hkey i th.call ⟨th, none, hreturns, rfl⟩ hsigns
    rw [hown] at hb
    exact List.not_mem_nil hb
  · intro hnone
    have hgranted : ∀ i request, PastGuard cfg i request → SignsIn src request → ∃ b,
        .throttle (.counted b) ∈ own i cfg.journal ∧
          Concerns env.hmac env.throttle ⟨.signInSource, src⟩ b ∧ 0 < b.count ∧
          b.count ≤ env.throttle.signInSource.limit ∧
          ∃ request, (⟨i, request, .counted b⟩ : Entry ι Request AuthThrottle.Event) ∈
            throttleJournal cfg.journal := by
      intro i request hpast hsigns
      have hroute : request.route = .login ∨ request.route = .memberLogin := by
        obtain ⟨th, context, hreturns, rfl⟩ := hpast
        have hstaff := hnone i th hreturns.1 hsigns
        have hrefresh := hsigns.2
        cases hr : th.call.route with
        | login => exact .inl rfl
        | memberLogin => exact .inr rfl
        | staffLogin => exact absurd hr hstaff
        | refresh => exact absurd hr hrefresh
      obtain ⟨b, hb, hconcerns, hpos, hle⟩ := hpast.granted w hroute
      rw [hsigns.1] at hconcerns
      obtain ⟨request', hentry⟩ := mem_throttleJournal hb
      obtain ⟨ev, hev, hsome⟩ := List.mem_filterMap.mp hb
      cases ev with
      | throttle ev =>
        cases hsome
        exact ⟨b, hev, hconcerns, hpos, hle, request', hentry⟩
      | _ => cases hsome
    constructor
    · intro callers hnodup hpast
      refine hledger.length_le hnodup fun i hi => ?_
      obtain ⟨request, hpast, hsigns⟩ := hpast i hi
      obtain ⟨b, -, hconcerns, hpos, hle, request', hentry⟩ := hgranted i request hpast hsigns
      exact ⟨request', b, hentry, hconcerns, hpos, hle⟩
    · obtain ⟨key, hkey⟩ := hledger.one_bucket
      refine ⟨key, fun i request hpast hsigns => ?_⟩
      obtain ⟨b, hb, hconcerns, -, -, request', hentry⟩ := hgranted i request hpast hsigns
      exact ⟨b, hb, hconcerns, hkey _ hentry b rfl hconcerns⟩

/-- A request for the account "a". -/
def knock (route : AuthRoute) (now : Date) : Request :=
  ⟨route, "203.0.113.9", some ⟨.text "a", .undefined, .undefined, .text "p", false⟩, none, now⟩

theorem oneWindow_of_play {ms : List (Move ℕ Request TokenSession.Draw)}
    {cfg : Config ℕ Request Op Database (Except HttpFailure (Option AuthThrottleRequestContext))
      Event}
    (hplay : (anyDriver plain fun request => (canActivate plain request).run).play
      (Config.init Database.empty) ms = some cfg)
    (hclock : cfg.store.throttle.clock = 0)
    (hdates : ∀ i request, .start i request ∈ ms → request.now ∈ Set.Ico (0 : Date) 900000) :
    OneWindow plain "203.0.113.9" (Set.Ico 0 900000) Database.empty cfg where
  dates i th hth _ := hdates i th.call (Driver.play_started hplay hth)
  clock := ⟨0, by simp, hclock.le⟩
  short t ht t' ht' := by
    have hlow : (0 : ℤ) ≤ t := ht.1
    refine lt_of_lt_of_le ht'.2 ?_
    show (900000 : ℤ) ≤ t + ((900 : ℕ) : ℤ) * 1000
    omega
  steady b hb := absurd hb List.not_mem_nil
  single b hb := absurd hb List.not_mem_nil

/-- Two sign-ins of one source on two routes, with the default limits. -/
def twoRoutes : List (Move ℕ Request TokenSession.Draw) :=
  [.start 0 (knock .login 0), go 0, go 0, go 0, .start 1 (knock .memberLogin 5), go 1, go 1]

theorem start_mem_twoRoutes {i : ℕ} {request : Request} (h : .start i request ∈ twoRoutes) :
    request = knock .login 0 ∨ request = knock .memberLogin 5 := by
  simp only [twoRoutes, go, List.mem_cons, Move.start.injEq, reduceCtorEq, false_or,
    List.not_mem_nil, or_false] at h
  exact h.imp And.right And.right

theorem signIns_throttled_run : ∃ cfg, (guarded plain).Reachable Database.empty cfg ∧
    PastGuard cfg 0 (knock .login 0) ∧ PastGuard cfg 1 (knock .memberLogin 5) ∧
    Throttled plain "203.0.113.9" cfg := by
  have hrun : ((anyDriver plain fun request => (canActivate plain request).run).play
      (Config.init Database.empty) twoRoutes).map
      (fun cfg => (cfg.result 0, cfg.result 1, cfg.store.throttle.clock)) =
    some (some (knock .login 0, .ok (some ⟨"203.0.113.9", some "a"⟩)),
      some (knock .memberLogin 5, .ok (some ⟨"203.0.113.9", some "a"⟩)), 0) := rfl
  obtain ⟨cfg, hplay, hview⟩ := Option.map_eq_some_iff.mp hrun
  obtain ⟨hfirst, hview⟩ := Prod.mk.inj hview
  obtain ⟨hsecond, hclock⟩ := Prod.mk.inj hview
  have hreach := Driver.play_runs hplay
  have hwindow := oneWindow_of_play hplay hclock fun i request hstart => by
    rcases start_mem_twoRoutes hstart with rfl | rfl <;> exact ⟨by decide, by decide⟩
  obtain ⟨th, hreturns, hcall⟩ := Config.returns_of_result hfirst
  obtain ⟨th', hreturns', hcall'⟩ := Config.returns_of_result hsecond
  refine ⟨cfg, hreach, ⟨th, _, hreturns, hcall⟩, ⟨th', _, hreturns', hcall'⟩,
    (signIns_throttled_iff plain_hmac_injective (show Database.empty.throttle.Indexed from
      List.nodup_nil) hreach hwindow).mpr ?_⟩
  intro i th hth _
  rcases start_mem_twoRoutes (Driver.play_started hplay hth) with h | h <;> rw [h] <;> decide

/-- Twenty-one staff sign-ins of one source, one more than the limit, all get past. -/
theorem staffSignIns_not_throttled : ∃ cfg, (guarded plain).Reachable Database.empty cfg ∧
    OneWindow plain "203.0.113.9" (Set.Ico 0 900000) Database.empty cfg ∧
    (∀ i < 21, PastGuard cfg i (knock .staffLogin 0)) ∧
    ¬ Throttled plain "203.0.113.9" cfg := by
  have hrun : ((anyDriver plain fun request => (canActivate plain request).run).play
      (Config.init Database.empty)
      ((List.range 21).map fun i => .start i (knock .staffLogin 0))).map
      (fun cfg => ((List.range 21).map cfg.result, cfg.store.throttle.clock)) =
    some (List.replicate 21 (some (knock .staffLogin 0, .ok none)), 0) := rfl
  obtain ⟨cfg, hplay, hview⟩ := Option.map_eq_some_iff.mp hrun
  obtain ⟨hresults, hclock⟩ := Prod.mk.inj hview
  have hpast : ∀ i < 21, PastGuard cfg i (knock .staffLogin 0) := by
    intro i hi
    have hresult := List.eq_of_mem_replicate
      (hresults ▸ List.mem_map_of_mem (f := cfg.result) (List.mem_range.mpr hi))
    obtain ⟨th, hreturns, hcall⟩ := Config.returns_of_result hresult
    exact ⟨th, none, hreturns, hcall⟩
  refine ⟨cfg, Driver.play_runs hplay, oneWindow_of_play hplay hclock ?_, hpast, fun h => ?_⟩
  · intro i request hstart
    obtain ⟨j, -, heq⟩ := List.mem_map.mp hstart
    cases heq
    exact ⟨le_refl _, by decide⟩
  · have hlength := h.limited (List.range 21) List.nodup_range fun i hi =>
      ⟨_, hpast i (List.mem_range.mp hi), rfl, by decide⟩
    exact absurd hlength (by decide)

end Main

end SignIn
