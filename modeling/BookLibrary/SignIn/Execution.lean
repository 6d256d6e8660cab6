import BookLibrary.SignIn.Guard
import BookLibrary.TokenSession.Execution

/-!
# Executing the sign-in routes

Each atomic call of a request as a function, given what it is to draw.
-/

namespace SignIn

open AuthThrottle Documents Interleaving TokenSession

/-- The first of the documents with the greatest key that the filter selects. -/
def updateGreatest {D : Type} (p : D → Bool) (key : D → ℕ) (f : D → D) (docs : List D) :
    Option (Option D × List D) :=
  let top := ((docs.filter p).map key).foldr max 0
  match updateFirst (fun d => p d && decide (key d = top)) f docs with
  | some (d', docs') =>
    if docs.all fun x => !p x || decide (key x ≤ top) then some (some d', docs') else none
  | none => if docs.all fun x => !p x then some (none, docs) else none

theorem updateGreatest_spec {D : Type} {p : D → Bool} {key : D → ℕ} {f : D → D}
    {docs docs' : List D} {r : Option D} (h : updateGreatest p key f docs = some (r, docs')) :
    UpdateGreatest p key f docs r docs' := by
  simp only [updateGreatest] at h
  split at h
  · next hfirst =>
    split at h
    · next htop =>
      cases h
      obtain ⟨pre, d, post, hdocs, hd, hd', hdocs'⟩ := updateFirst_some hfirst
      rw [Bool.and_eq_true, decide_eq_true_eq] at hd
      refine ⟨pre, d, post, hdocs, hd.1, fun x hx hp => ?_, hd', hdocs'⟩
      have hle := List.all_eq_true.mp htop x hx
      rw [hp, Bool.not_true, Bool.false_or, decide_eq_true_eq] at hle
      rw [hd.2]
      exact hle
    · cases h
  · split at h
    · next hnone =>
      cases h
      refine ⟨fun d hd => ?_, rfl⟩
      simpa using List.all_eq_true.mp hnone d hd
    · cases h

/-- `AuthThrottle.effect` as a function. -/
def performThrottle : (β : Type) → AuthThrottle.Op β → AuthThrottle.Database →
    Option (β × AuthThrottle.Database)
  | _, .findReferencedVersions now, s =>
    some ((s.buckets.filter fun b => decide (now < b.expiresAt)).map (·.keyVersion), s)
  | _, .incrementLive dimension candidates now, s =>
    (updateGreatest (AuthThrottleBucket.isLive dimension candidates now) (·.keyVersion)
      (AuthThrottleBucket.increment now) s.buckets).map fun (b, buckets) =>
        (b, { s with buckets := buckets })
  | _, .rollBucket dimension current now expiresAt, s =>
    match updateFirst
        (fun b => decide (b.dimension = dimension) && decide (b.candidate = current))
        (AuthThrottleBucket.roll now expiresAt) s.buckets with
    | some (b, buckets) => some (.bucket b, { s with buckets := buckets })
    | none =>
      let b := AuthThrottleBucket.start dimension current now expiresAt
      some (.bucket b, { s with buckets := b :: s.buckets })
  | _, .incrementRaced dimension current now, s =>
    match updateFirst (AuthThrottleBucket.isLive dimension [current] now)
        (AuthThrottleBucket.increment now) s.buckets with
    | some (b, buckets) => some (some b, { s with buckets := buckets })
    | none => some (none, s)

theorem performThrottle_effect {β : Type} {op : AuthThrottle.Op β} {s s' : AuthThrottle.Database}
    {b : β} (h : performThrottle β op s = some (b, s')) : AuthThrottle.effect β op s b s' := by
  cases op with
  | findReferencedVersions now =>
    cases h
    exact ⟨rfl, rfl⟩
  | incrementLive dimension candidates now =>
    obtain ⟨⟨r, buckets⟩, hupdate, heq⟩ := Option.map_eq_some_iff.mp h
    cases heq
    exact ⟨buckets, updateGreatest_spec hupdate, rfl⟩
  | rollBucket dimension current now expiresAt =>
    simp only [performThrottle] at h
    split at h
    · next hu =>
      cases h
      exact ⟨_, .inl (updateFirst_some hu), rfl⟩
    · next hu =>
      cases h
      exact ⟨_, .inr ⟨(updateFirst_none hu).1, rfl, rfl⟩, rfl⟩
  | incrementRaced dimension current now =>
    simp only [performThrottle] at h
    split at h
    · next hu =>
      cases h
      exact ⟨_, updateFirst_some hu, rfl⟩
    · next hu =>
      cases h
      exact ⟨_, updateFirst_none hu, rfl⟩

/-- `ownEffect` as a function. -/
def performOwn (env : Environment) : (β : Type) → Own β → Database → Draw → β × Database
  | _, .findReservation identifier, s, _ =>
    (s.identifiers.find? fun d => decide (d.normalizedIdentifier = identifier), s)
  | _, .findGateStatus id, s, _ =>
    ((s.operations.find? fun d => decide (d.operationId = id)).map (·.status), s)
  | _, .findStaffByEmail email, s, _ => (s.staffUsers.find? fun d => decide (d.email = email), s)
  | _, .findMemberByLogin login number, s, _ =>
    (s.members.find? fun d => decide (d.loginIdentifier = some login) ||
      decide (d.memberNumber = number) || decide (d.email = some login), s)
  | _, .verifyPassword hash password, s, _ => (env.verify hash password, s)
  | _, .touchLastLogin .., s, _ => ((), s)
  | _, .findMember id, s, _ => (s.members.find? fun d => decide (d.id = id), s)
  | _, .findMembershipType id, s, _ => (s.membershipTypes.find? fun d => decide (d.id = id), s)
  | _, .signAccessToken _, s, x => (x.text, s)
  | _, .recordActivity event, s, _ => ((), { s with activity := event :: s.activity })

theorem performOwn_effect {env : Environment} {β : Type} {op : Own β} {s : Database} {x : Draw} :
    ownEffect env β op s (performOwn env β op s x).1 (performOwn env β op s x).2 := by
  cases op with
  | findGateStatus id => exact ⟨_, findOne_find?, rfl, rfl⟩
  | verifyPassword hash password => exact ⟨rfl, rfl⟩
  | touchLastLogin | signAccessToken | recordActivity => rfl
  | _ => exact ⟨findOne_find?, rfl⟩

/-- `exec` as a function. -/
def perform (env : Environment) (β : Type) (op : Op β) (s : Database) (x : Draw) :
    Option (β × Database) :=
  match op with
  | .inl op => (performThrottle β op s.throttle).bind fun (b, t) =>
      if t.Indexed then some (b, { s with throttle := t }) else none
  | .inr (.inl op) => (TokenSession.perform β op s.sessions x).bind fun (b, t) =>
      if t.Indexed then some (b, { s with sessions := t }) else none
  | .inr (.inr op) => some (performOwn env β op s x)

theorem perform_exec {env : Environment} {β : Type} {op : Op β} {s s' : Database} {x : Draw} {b : β}
    (h : perform env β op s x = some (b, s')) : exec env β op s b s' := by
  cases op with
  | inl op =>
    obtain ⟨⟨b', t⟩, hp, hr⟩ := Option.bind_eq_some_iff.mp h
    by_cases hi : t.Indexed
    · simp only [hi, if_true] at hr
      cases hr
      exact ⟨t, ⟨performThrottle_effect hp, hi⟩, rfl⟩
    · simp only [hi, if_false] at hr
      cases hr
  | inr op =>
    cases op with
    | inl op =>
      obtain ⟨⟨b', t⟩, hp, hr⟩ := Option.bind_eq_some_iff.mp h
      by_cases hi : t.Indexed
      · simp only [hi, if_true] at hr
        cases hr
        exact ⟨t, ⟨perform_effect hp, hi⟩, rfl⟩
      · simp only [hi, if_false] at hr
        cases hr
    | inr op =>
      have heffect := @performOwn_effect env β op s x
      rw [Option.some.inj h] at heffect
      exact heffect

variable {ι ρ : Type}

/-- The driver of the requests under a gate that `admits` checks. It makes no call throw. -/
def driver (env : Environment) (body : Request → Prog Op ρ) {gate : Gate ι Request Op Database Event}
    (admits : ι → (β : Type) → Op β → Bool → Database → List (Entry ι Request Event) → Bool)
    (admitted : ∀ {i β op a s J}, admits i β op a s J = true → gate i β op a s J) :
    Driver (service env body) gate Draw where
  run := perform env
  run_exec := perform_exec
  fails := fun _ _ => false
  fallible h := by cases h
  admits := admits
  admitted := admitted

section Schedules

/-- String methods and hashes that change nothing, one key, and the default limits. -/
def plain : Environment where
  trim := id
  toLowerCase := id
  toUpperCase := id
  isEmail := fun _ => true
  hmac := fun secret message => secret ++ message
  sha256 := id
  verify := fun hash password => decide (hash = password)
  correlate := fun _ => none
  throttle :=
    { keyring := [⟨1, "k"⟩]
      apart := List.nodup_singleton _
      signInIdentifierFailure := ⟨5, 900⟩
      signInSource := ⟨20, 900⟩
      refresh := ⟨30, 300⟩ }
  accessTokenTtlSeconds := 900
  refreshTokenTtlSeconds := 3600

theorem plain_hmac_injective (secret : String) : Function.Injective (plain.hmac secret) := by
  intro message message' heq
  exact (String.append_right_inj secret).mp heq

def Database.empty : Database :=
  ⟨AuthThrottle.Database.empty 0, TokenSession.Database.empty 0, [], [], [], [], [], []⟩

/-- The driver that admits every call. -/
def anyDriver (env : Environment) (body : Request → Prog Op ρ) :
    Driver (service env body) (anyCall : Gate ι Request Op Database Event) Draw :=
  driver env body (fun _ _ _ _ _ _ => true) fun _ => anyCall_pass

/-- Caller `i` issues its next call. -/
def go (i : ℕ) : Move ℕ Request Draw := .reply i ⟨"", 0⟩

end Schedules

end SignIn
