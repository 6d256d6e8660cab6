import BookLibrary.AuthThrottle.Rotation
import Mathlib.Tactic.Linarith

/-!
# The seconds of a denial

A client that is denied is told after how many seconds to try again. If nobody tries the value in
the meantime its window is over by then, and not a second before.
-/

namespace AuthThrottle

open Documents Interleaving

/-- No other upsert comes first. -/
def unraced : (β : Type) → Op β → β → Prop
  | _, .rollBucket .., .duplicateKey => False
  | _, _, _ => True

def execAlone (β : Type) (op : Op β) (s : Database) (b : β) (s' : Database) : Prop :=
  exec β op s b s' ∧ unraced β op b

theorem execAlone.exec {β : Type} {op : Op β} {s s' : Database} {b : β}
    (h : execAlone β op s b s') : exec β op s b s' :=
  h.1

theorem execAlone.not_duplicateKey {dimension : AuthThrottleDimension} {current : Candidate}
    {now expiresAt : Date} {s s' : Database}
    (h : execAlone _ (.rollBucket dimension current now expiresAt) s .duplicateKey s') : False :=
  h.2

/-- An attempt on the database of the deployment while nobody else writes to it. -/
def Deployment.AttemptsAlone (hmac : String → String → String) (d : Deployment) (attempt : Attempt)
    (r : Except ThrottleFailure AuthThrottleDecision) (s' : Database) : Prop :=
  ∃ l, Traces execAlone (fun _ _ => True)
    (consumeMany hmac d.settings attempt.dimensions attempt.now).run d.store l r s'

/-- The bucket has been opened at that time, by an attempt that is its first. -/
structure AuthThrottleBucket.OpenedAt (settings : Settings) (b : AuthThrottleBucket) (now : Date) :
    Prop where
  count : b.count = 1
  windowStartedAt : b.windowStartedAt = now
  expiresAt : b.expiresAt = now + (settings.policy b.dimension).windowSeconds * 1000

/-- What the consumption of one value answers and leaves behind. -/
inductive Outcome (hmac : String → String → String) (secretOf : ℕ → String) (settings : Settings)
    (raced : Prop) (input : ConsumeDimensionInput) (now : Date) (s s' : Database) :
    AuthThrottleDecision → Prop where
  | joined {b : AuthThrottleBucket} (found : b ∈ s.buckets) (live : now < b.expiresAt)
      (belongs : Belongs hmac secretOf input b) (counted : b.increment now ∈ s'.buckets) :
      Outcome hmac secretOf settings raced input now s s'
        (toDecision (b.increment now) (settings.policy input.dimension).limit now)
  | opened {b : AuthThrottleBucket} (expired : ∀ b ∈ s.buckets, now < b.expiresAt →
      ¬ Belongs hmac secretOf input b) (stored : b ∈ s'.buckets)
      (belongs : Belongs hmac secretOf input b) (opened : b.OpenedAt settings now) :
      Outcome hmac secretOf settings raced input now s s'
        (toDecision b (settings.policy input.dimension).limit now)
  | raced (race : raced) (expired : ∀ b ∈ s.buckets, now < b.expiresAt →
      ¬ Belongs hmac secretOf input b) (same : s' = s) :
      Outcome hmac secretOf settings raced input now s s' (deniedDecision .throttleLimitExceeded)

/-- What `consumeMany` answers for a value by itself. -/
def answerOf (decision : AuthThrottleDecision) : AuthThrottleDecision :=
  if decision.allowed then allowedDecision
  else ⟨false, some .throttleLimitExceeded, some (decision.retryAfterSeconds.getD 1)⟩

variable {hmac : String → String → String} {secretOf : ℕ → String} {settings : Settings}
  {input : ConsumeDimensionInput} {now : Date} {s s' : Database} {raced : Prop}
  {exec' : (β : Type) → Op β → Database → β → Database → Prop}

section Walks

variable (hexec : ∀ {β : Type} {op : Op β} {s s' : Database} {b : β},
    exec' β op s b s' → exec β op s b s')
  (hraced : ∀ {dimension current now expiresAt s s'},
    exec' _ (.rollBucket dimension current now expiresAt) s .duplicateKey s' → raced)
  (hkeeps : settings.Keeps secretOf)

include hexec hraced hkeeps

theorem consumeDimension_outcome {current : VersionedSecret} {previous : List VersionedSecret}
    (hkeyring : settings.keyring = current :: previous)
    (hkeys : KeysPresent settings now s.buckets) :
    EndsBy exec' (consumeDimension hmac settings input current previous now) s fun r s' =>
      ∀ decision, r = .ok decision →
        Outcome hmac secretOf settings raced input now s s' decision := by
  have hsame : candidatesFor hmac (current :: previous) input.dimension input.value =
      keysFor hmac settings input := by rw [keysFor, hkeyring]
  have hcurrent : (⟨current.version, deriveBucketKey hmac current.secret input.dimension
      input.value⟩ : Candidate) ∈ keysFor hmac settings input := by
    rw [← hsame]
    exact List.mem_cons_self
  rw [consumeDimension, hsame]
  refine EndsBy.call (fun _ _ => by rintro ⟨⟩) fun r s₁ h => ⟨fun _ _ => by rintro ⟨⟩, ?_⟩
  obtain ⟨⟨buckets, hgreatest, rfl⟩, -⟩ := hexec h
  have hupdate := hgreatest.updateOne
  cases r with
  | some existing =>
    obtain ⟨b, hb, hfilter, rfl, hcounted⟩ := hupdate.source
    simp only [AuthThrottleBucket.isLive, Bool.and_eq_true, decide_eq_true_eq] at hfilter
    refine EndsBy.pure ?_
    rintro decision ⟨⟩
    exact .joined hb hfilter.1.2 (belongs_of_mem_keysFor hkeeps hfilter.1.1 hfilter.2) hcounted
  | none =>
    obtain ⟨hmissed, rfl⟩ := hupdate
    have hnone := not_belongs_of_missed hkeeps hkeys hmissed
    refine EndsBy.call (fun _ _ => by rintro ⟨⟩) fun r s₁ h => ⟨fun _ _ => by rintro ⟨⟩, ?_⟩
    cases r with
    | bucket b =>
      obtain ⟨⟨buckets, hupsert, rfl⟩, -⟩ := hexec h
      refine EndsBy.pure ?_
      rintro decision ⟨⟩
      rcases hupsert with hrolled | ⟨-, rfl, rfl⟩
      · -- the bucket is still there, but its window is over
        obtain ⟨b', hb', hkey, rfl, hstored⟩ := hrolled.source
        simp only [Bool.and_eq_true, decide_eq_true_eq] at hkey
        have hbelongs : Belongs hmac secretOf input b' :=
          belongs_of_mem_keysFor hkeeps hkey.1 (hkey.2 ▸ hcurrent)
        have hover : ¬ now < b'.expiresAt := fun hlive => hnone b' hb' hlive hbelongs
        rw [AuthThrottleBucket.roll, if_neg hover] at hstored ⊢
        exact .opened hnone hstored hbelongs ⟨rfl, rfl, by rw [hkey.1]⟩
      · exact .opened hnone List.mem_cons_self (belongs_of_mem_keysFor hkeeps rfl hcurrent)
          ⟨rfl, rfl, rfl⟩
    | duplicateKey =>
      obtain ⟨⟨-, rfl⟩, -⟩ := hexec h
      have hrace := hraced h
      refine EndsBy.call (fun _ _ => by rintro ⟨⟩) fun r s₁ h => ⟨fun _ _ => by rintro ⟨⟩, ?_⟩
      obtain ⟨⟨buckets, hupdate, rfl⟩, -⟩ := hexec h
      cases r with
      | some b =>
        obtain ⟨b', hb', hfilter, -, -⟩ := hupdate.source
        simp only [AuthThrottleBucket.isLive, Bool.and_eq_true, decide_eq_true_eq,
          List.mem_singleton] at hfilter
        have hbelongs : Belongs hmac secretOf input b' :=
          belongs_of_mem_keysFor hkeeps hfilter.1.1 (hfilter.2 ▸ hcurrent)
        exact absurd hbelongs (hnone b' hb' hfilter.1.2)
      | none =>
        obtain ⟨-, rfl⟩ := hupdate
        refine EndsBy.pure ?_
        rintro decision ⟨⟩
        exact .raced hrace hnone rfl

theorem consumeMany_outcome (hkeys : KeysPresent settings now s.buckets)
    (hkeyring : settings.keyring ≠ []) :
    EndsBy exec' (consumeMany hmac settings [input] now) s fun r s' => ∀ answer, r = .ok answer →
      ∃ decision, answer = answerOf decision ∧
        Outcome hmac secretOf settings raced input now s s' decision := by
  rw [consumeMany]
  split
  · next hempty => exact absurd hempty hkeyring
  · next current previous hcurrent =>
    refine EndsBy.then (R := fun r s₁ => s₁ = s ∧ ∀ all, r = .ok all → all = true) ?_ ?_ ?_
    · refine EndsBy.call (fun e => ⟨rfl, fun _ => by rintro ⟨⟩⟩) ?_
      intro versions s₁ h
      obtain ⟨⟨rfl, rfl⟩, -⟩ := hexec h
      refine ⟨fun e => ⟨rfl, fun _ => by rintro ⟨⟩⟩, EndsBy.pure ⟨rfl, ?_⟩⟩
      rintro all ⟨⟩
      rw [List.all_eq_true]
      intro version hversion
      obtain ⟨b, hb, rfl⟩ := List.mem_map.mp hversion
      obtain ⟨hmem, hlive⟩ := List.mem_filter.mp hb
      exact decide_eq_true (hkeys b hmem (of_decide_eq_true hlive))
    · rintro all s₁ ⟨rfl, hall⟩
      rw [hall all rfl]
      refine EndsBy.then (R := fun r s' => ∀ decisions, r = .ok decisions → ∃ decision,
        decisions = [decision] ∧ Outcome hmac secretOf settings raced input now s₁ s' decision)
        ?_ ?_ fun _ _ _ _ => by rintro ⟨⟩
      · refine EndsBy.then (R := fun r s' => ∀ decision, r = .ok (some decision) →
          Outcome hmac secretOf settings raced input now s₁ s' decision) ?_ ?_ fun _ _ _ _ => by rintro ⟨⟩
        · refine Leads.run_tryCatch (R := fun _ r s' => ∀ decision, r = .ok (some decision) →
            Outcome hmac secretOf settings raced input now s₁ s' decision) ?_
            (fun _ _ _ h => h) fun _ _ _ _ => Leads.run_pure fun _ => by rintro ⟨⟩
          refine EndsBy.then (consumeDimension_outcome hexec hraced hkeeps hcurrent hkeys) ?_
            fun _ _ _ _ => by rintro ⟨⟩
          intro decision s' houtcome
          refine EndsBy.pure ?_
          rintro decision' ⟨⟩
          exact houtcome decision rfl
        · intro decision s' houtcome
          refine EndsBy.then (R := fun r s₂ => s₂ = s' ∧ ∀ decisions, r = .ok decisions →
            decisions = []) (EndsBy.pure ⟨rfl, fun _ h => by cases h; rfl⟩) ?_ fun _ _ _ _ => by rintro ⟨⟩
          rintro decisions s₂ ⟨rfl, hnil⟩
          rw [hnil decisions rfl]
          cases decision with
          | none => exact Leads.run_throw fun _ => by rintro ⟨⟩
          | some decision =>
            refine EndsBy.pure ?_
            rintro decisions' ⟨⟩
            exact ⟨decision, rfl, houtcome decision rfl⟩
      · intro decisions s' h
        obtain ⟨decision, rfl, houtcome⟩ := h decisions rfl
        cases hallowed : decision.allowed with
        | true =>
          simp only [List.filter_cons, hallowed, Bool.not_true, Bool.false_eq_true, if_false,
            List.filter_nil, List.isEmpty_nil, if_true]
          refine EndsBy.pure ?_
          rintro answer ⟨⟩
          exact ⟨decision, by rw [answerOf, if_pos hallowed], houtcome⟩
        | false =>
          simp only [List.filter_cons, hallowed, Bool.not_false, if_true, List.filter_nil,
            List.isEmpty_cons, Bool.false_eq_true, if_false]
          refine EndsBy.pure ?_
          rintro answer ⟨⟩
          exact ⟨decision, by rw [answerOf, hallowed]; rfl, houtcome⟩
    · exact fun _ _ _ _ => by rintro ⟨⟩

end Walks

section Seconds

/-- Milliseconds rounded up to seconds. -/
theorem le_seconds (ms : ℤ) : ms ≤ max 1 ((ms + 999) / 1000) * 1000 := by omega

theorem toDecision_denied {b : AuthThrottleBucket} {limit : ℕ} (h : limit < b.count) :
    answerOf (toDecision b limit now) = ⟨false, some .throttleLimitExceeded,
      some (max 1 ((b.expiresAt - now + 999) / 1000))⟩ := by
  rw [toDecision, if_neg (Nat.not_le.mpr h)]
  rfl

theorem toDecision_allowed_of_le {b : AuthThrottleBucket} {limit : ℕ} (h : b.count ≤ limit) :
    answerOf (toDecision b limit now) = allowedDecision := by
  rw [toDecision, if_pos h]
  rfl

/-- What stands behind a denial: the window that is used up, or a race for a window that is over. -/
inductive DeniedBy (hmac : String → String → String) (secretOf : ℕ → String) (limit : ℕ)
    (input : ConsumeDimensionInput) (now : Date) (s : Database) : ℤ → Prop where
  | bucket {b : AuthThrottleBucket} (stored : b ∈ s.buckets) (live : now < b.expiresAt)
      (belongs : Belongs hmac secretOf input b) (exceeds : limit < b.count) :
      DeniedBy hmac secretOf limit input now s (max 1 ((b.expiresAt - now + 999) / 1000))
  | race (expired : ∀ b ∈ s.buckets, now < b.expiresAt → ¬ Belongs hmac secretOf input b) :
      DeniedBy hmac secretOf limit input now s 1

variable {limit : ℕ} {retryAfterSeconds : ℤ} {earlier later : Date}

namespace DeniedBy

variable (h : DeniedBy hmac secretOf limit input now s retryAfterSeconds)

include h

theorem pos : 1 ≤ retryAfterSeconds := by
  cases h with
  | bucket => exact le_max_left _ _
  | race => exact le_refl 1

/-- By the end of the seconds every window of the value is over. -/
theorem expiresAt_le (hsingle : SingleOpen hmac secretOf now s.buckets) {b : AuthThrottleBucket}
    (hb : b ∈ s.buckets) (hbelongs : Belongs hmac secretOf input b) :
    b.expiresAt ≤ now + retryAfterSeconds * 1000 := by
  by_cases hlive : now < b.expiresAt
  · cases h with
    | @bucket b' stored live belongs exceeds =>
      rw [hsingle input b hb b' stored hlive live hbelongs belongs]
      have hseconds := le_seconds (b'.expiresAt - now)
      linarith
    | race expired => exact absurd hbelongs (expired b hb hlive)
  · have hpos := h.pos
    linarith

/-- A second before their end a window of the value that is still open is the one used up. -/
theorem exceeds (hsingle : SingleOpen hmac secretOf now s.buckets) {b : AuthThrottleBucket}
    (hb : b ∈ s.buckets) (hlive : now < b.expiresAt) (hbelongs : Belongs hmac secretOf input b) :
    limit < b.count := by
  cases h with
  | @bucket b' stored live belongs exceeds =>
    rw [hsingle input b hb b' stored hlive live hbelongs belongs]
    exact exceeds
  | race expired => exact absurd hbelongs (expired b hb hlive)

end DeniedBy

variable {d d₀ : Deployment} {answer : AuthThrottleDecision} {s₁ s₂ s₃ : Database}

theorem Deployment.Attempts.keyed {attempt : Attempt} (h : d.Attempts hmac attempt (.ok answer) s₁)
    (hreason : answer.reason = some .throttleLimitExceeded) :
    KeysPresent d.settings attempt.now d.store.buckets ∧ d.settings.keyring ≠ [] := by
  refine ⟨?_, fun hempty => ?_⟩
  · by_contra hmissing
    rw [(h.denied hmissing).2 answer rfl] at hreason
    cases hreason
  · obtain ⟨l, htraces⟩ := h
    rw [consumeMany, hempty] at htraces
    obtain ⟨-, hanswer, -⟩ := htraces
    cases hanswer
    cases hreason

variable (hkeeps : d.settings.Keeps secretOf)
  (hlimit : 1 ≤ (d.settings.policy input.dimension).limit)

include hkeeps hlimit in
theorem Deployment.Attempts.deniedBy (h : d.Attempts hmac ⟨[input], now⟩ (.ok answer) s₁)
    (hreason : answer.reason = some .throttleLimitExceeded) :
    ∃ retryAfterSeconds, answer.retryAfterSeconds = some retryAfterSeconds ∧
      DeniedBy hmac secretOf (d.settings.policy input.dimension).limit input now s₁
        retryAfterSeconds := by
  obtain ⟨hkeys, hkeyring⟩ := h.keyed hreason
  obtain ⟨l, htraces⟩ := h
  obtain ⟨_, rfl, houtcome⟩ := consumeMany_outcome id (fun _ => (trivial : True)) hkeeps
    hkeys hkeyring _ rfl l _ s₁ htraces
  obtain ⟨decision, rfl, hcase⟩ := houtcome answer rfl
  cases hcase with
  | @joined b found live belongs counted =>
    by_cases hover : (d.settings.policy input.dimension).limit < (b.increment now).count
    · rw [toDecision_denied hover]
      exact ⟨_, rfl, .bucket counted live belongs hover⟩
    · rw [toDecision_allowed_of_le (Nat.le_of_not_lt hover)] at hreason
      cases hreason
  | opened expired stored belongs opened =>
    rw [toDecision_allowed_of_le (opened.count.trans_le hlimit)] at hreason
    cases hreason
  | raced race expired same => exact ⟨1, rfl, .race (same ▸ expired)⟩

/-- What is left of a sound store when time has passed. -/
theorem Sound.elapse (h : Sound hmac secretOf settings now s) (hle : now ≤ later)
    (he : s.Elapse s') : Sound hmac secretOf settings later s' := by
  obtain ⟨-, hsublist, -⟩ := he
  refine ⟨Documents.Unique.sublist h.indexed hsublist, fun input b hb b' hb' => ?_,
    fun b hb hlive => h.keys b (hsublist.subset hb) (lt_of_le_of_lt hle hlive)⟩
  exact h.single.later hle input b (hsublist.subset hb) b' (hsublist.subset hb')

/-- The seconds of a denial are enough, and one less is not. -/
structure Suffices (hmac : String → String → String) (secretOf : ℕ → String) (d : Deployment)
    (input : ConsumeDimensionInput) (now : Date) (s₁ : Database) (retryAfterSeconds : ℤ) : Prop where
  pos : 1 ≤ retryAfterSeconds
  enough : ∀ later s₂ answer s₃, s₁.Elapse s₂ → now + retryAfterSeconds * 1000 ≤ later →
    ({ d with store := s₂ } : Deployment).AttemptsAlone hmac ⟨[input], later⟩ (.ok answer) s₃ →
    answer = allowedDecision ∧
      ∃ b ∈ s₃.buckets, Belongs hmac secretOf input b ∧ b.OpenedAt d.settings later
  needed : ∀ earlier s₂ answer s₃, s₁.Elapse s₂ → s₂.clock ≤ earlier → now ≤ earlier →
    earlier + 1000 ≤ now + retryAfterSeconds * 1000 →
    (∃ b ∈ s₁.buckets, Belongs hmac secretOf input b ∧ earlier < b.expiresAt) →
    ({ d with store := s₂ } : Deployment).Attempts hmac ⟨[input], earlier⟩ (.ok answer) s₃ →
    answer.allowed = false

variable (hinj : ∀ secret, Function.Injective (hmac secret))

include hinj in
/-- Any denial of one value, in a deployment whose keyring changes as it may. -/
theorem retryAfter_suffices (hkeeps : d₀.settings.Keeps secretOf) (hindexed : d₀.store.Indexed)
    (hsingle : SingleOpen hmac secretOf d₀.moment d₀.store.buckets)
    (hruns : Deployment.Runs hmac secretOf d₀ d) (hnow : d.moment ≤ now)
    (hlimit : 1 ≤ (d.settings.policy input.dimension).limit)
    (hdenied : d.Attempts hmac ⟨[input], now⟩ (.ok answer) s₁)
    (hreason : answer.reason = some .throttleLimitExceeded) :
    ∃ retryAfterSeconds, answer.retryAfterSeconds = some retryAfterSeconds ∧
      Suffices hmac secretOf d input now s₁ retryAfterSeconds := by
  have hsteady := (Deployment.Steady.mk hkeeps hindexed hsingle).runs hinj hruns
  obtain ⟨hkeys, hkeyring⟩ := hdenied.keyed hreason
  have hsound := (hdenied.consumed hinj hsteady.keeps
    ⟨hsteady.indexed, hsteady.single.later hnow, hkeys⟩).1
  obtain ⟨retryAfterSeconds, hseconds, hby⟩ := hdenied.deniedBy hsteady.keeps hlimit hreason
  refine ⟨retryAfterSeconds, hseconds, hby.pos, ?_, ?_⟩
  · intro later s₂ answer' s₃ helapse hlater ⟨l, htraces⟩
    have hle : now ≤ later := by
      have hpos := hby.pos
      linarith
    obtain ⟨_, rfl, houtcome⟩ := consumeMany_outcome execAlone.exec
      execAlone.not_duplicateKey hsteady.keeps (hsound.elapse hle helapse).keys hkeyring _ rfl
      l _ s₃ htraces
    obtain ⟨decision, rfl, hcase⟩ := houtcome answer' rfl
    cases hcase with
    | joined found live belongs counted =>
      have hover := hby.expiresAt_le hsound.single (helapse.buckets.1.subset found) belongs
      exact absurd (hover.trans hlater) (not_le.mpr live)
    | opened expired stored belongs opened =>
      exact ⟨toDecision_allowed_of_le (opened.count.trans_le hlimit), _, stored, belongs, opened⟩
    | raced race => exact race.elim
  · intro earlier s₂ answer' s₃ helapse hclock hle _ ⟨b, hb, hbelongs, hlive⟩ ⟨l, htraces⟩
    have hb₂ : b ∈ s₂.buckets := helapse.buckets.2 b hb (lt_of_le_of_lt hclock hlive)
    obtain ⟨_, rfl, houtcome⟩ := consumeMany_outcome id (fun _ => (trivial : True))
      hsteady.keeps (hsound.elapse hle helapse).keys hkeyring _ rfl l _ s₃ htraces
    obtain ⟨decision, rfl, hcase⟩ := houtcome answer' rfl
    cases hcase with
    | @joined b' found live belongs counted =>
      have hover := hby.exceeds hsound.single (helapse.buckets.1.subset found)
        (lt_of_le_of_lt hle live) belongs
      have hmore : (d.settings.policy input.dimension).limit < (b'.increment earlier).count :=
        Nat.lt_succ_of_lt hover
      rw [toDecision_denied hmore]
    | opened expired => exact absurd hbelongs (expired b hb₂ hlive)
    | raced _ expired => exact absurd hbelongs (expired b hb₂ hlive)

/-- One attempt a window. -/
def onceAWindow : Settings := { withKeyring [1] (by decide) with signInSource := ⟨1, 900⟩ }

/-- The second attempt is denied a second and a half after the first, for 898.5 seconds more. -/
theorem retryAfter_suffices_second : ∃ d s₁,
    Deployment.Runs SignIn.plain.hmac keyOf ⟨onceAWindow, .empty 0, 0⟩ d ∧
    d.Attempts SignIn.plain.hmac (knocks 1500)
      (.ok ⟨false, some .throttleLimitExceeded, some 899⟩) s₁ ∧
    Suffices SignIn.plain.hmac keyOf d ⟨.signInSource, "203.0.113.9"⟩ 1500 s₁ 899 := by
  have hopens : Deployment.Attempts SignIn.plain.hmac ⟨onceAWindow, .empty 0, 0⟩ (knocks 0)
      (.ok allowedDecision) ⟨[knocked 1 0], 0⟩ := Deployment.attempts_of_trace (by decide +kernel)
  have hdenied : Deployment.Attempts SignIn.plain.hmac ⟨onceAWindow, ⟨[knocked 1 0], 0⟩, 0⟩
      (knocks 1500) (.ok ⟨false, some .throttleLimitExceeded, some 899⟩) ⟨[knocked 2 1500], 0⟩ :=
    Deployment.attempts_of_trace (by decide +kernel)
  have hruns : Deployment.Runs SignIn.plain.hmac keyOf ⟨onceAWindow, .empty 0, 0⟩
      ⟨onceAWindow, ⟨[knocked 1 0], 0⟩, 0⟩ := .single (.attempt (le_refl _) hopens)
  have hkeeps : onceAWindow.Keeps keyOf := @withKeyring_keeps [1] (by decide)
  have hindexed : (Database.empty 0).Indexed := List.nodup_nil
  obtain ⟨seconds, hseconds, hsuffices⟩ := retryAfter_suffices SignIn.plain_hmac_injective hkeeps
    hindexed (fun _ b hb => absurd hb List.not_mem_nil) hruns (by decide : (0 : ℤ) ≤ 1500)
    (by decide) hdenied rfl
  cases hseconds
  exact ⟨_, _, hruns, hdenied, hsuffices⟩

end Seconds

end AuthThrottle
