import BookLibrary.AuthThrottle.Generations
import BookLibrary.Interleaving.Traces

/-!
# Rotating the correlation key

Attempts follow one another while the keyring changes between them. A bucket belongs to
a value under the key version it was hashed with, whatever the keyring is by then: the
lookup goes over every version, and a version that is missing denies the request before
anything is written.
-/

namespace AuthThrottle

open Documents Interleaving

deriving instance DecidableEq for ConsumeDimensionInput

/-- The service as it is deployed: its configuration, its database and the time. -/
structure Deployment where
  settings : Settings
  store : Database
  moment : Date

/-- The keys of the configuration are those their versions have always had. -/
def Settings.Keeps (settings : Settings) (secretOf : ℕ → String) : Prop :=
  ∀ key ∈ settings.keyring, key.secret = secretOf key.version

/-- The bucket was hashed from the value, under the key of its version. -/
def Belongs (hmac : String → String → String) (secretOf : ℕ → String)
    (input : ConsumeDimensionInput) (b : AuthThrottleBucket) : Prop :=
  b.dimension = input.dimension ∧
    b.bucketKey = deriveBucketKey hmac (secretOf b.keyVersion) input.dimension input.value

/-- Of the buckets of one value at most one is unexpired. -/
def SingleOpen (hmac : String → String → String) (secretOf : ℕ → String) (now : Date)
    (bs : List AuthThrottleBucket) : Prop :=
  ∀ input, ∀ b ∈ bs, ∀ b' ∈ bs, now < b.expiresAt → now < b'.expiresAt →
    Belongs hmac secretOf input b → Belongs hmac secretOf input b' → b = b'

/-- Unexpired buckets refer to configured key versions. -/
def KeysPresent (settings : Settings) (now : Date) (bs : List AuthThrottleBucket) : Prop :=
  ∀ b ∈ bs, now < b.expiresAt → b.keyVersion ∈ settings.keyring.map (·.version)

instance (settings : Settings) (now : Date) (bs : List AuthThrottleBucket) :
    Decidable (KeysPresent settings now bs) := by
  unfold KeysPresent
  infer_instance

/-- The same window under the same key, `n` attempts later. -/
def AuthThrottleBucket.Continues (b b' : AuthThrottleBucket) (n : ℕ) : Prop :=
  b'.dimension = b.dimension ∧ b'.candidate = b.candidate ∧
    b'.windowStartedAt = b.windowStartedAt ∧ b'.expiresAt = b.expiresAt ∧ b'.count = b.count + n

/-- Every unexpired bucket has gone on by as many attempts as its value was tried. -/
def Advances (hmac : String → String → String) (secretOf : ℕ → String) (now : Date)
    (times : ConsumeDimensionInput → ℕ) (bs bs' : List AuthThrottleBucket) : Prop :=
  ∀ input, ∀ b ∈ bs, now < b.expiresAt → Belongs hmac secretOf input b →
    ∃ b' ∈ bs', b.Continues b' (times input)

section Deployment

variable (hmac : String → String → String) (secretOf : ℕ → String)

/-- One attempt on the database of the deployment, whose calls may throw at any point. -/
def Deployment.Attempts (d : Deployment) (attempt : Attempt)
    (r : Except ThrottleFailure AuthThrottleDecision) (s' : Database) : Prop :=
  ∃ l, Traces exec (fun _ _ => True)
    (consumeMany hmac d.settings attempt.dimensions attempt.now).run d.store l r s'

inductive Deployment.Step : Deployment → Deployment → Prop
  | attempt {d attempt r s'} (later : d.moment ≤ attempt.now)
      (attempts : d.Attempts hmac attempt r s') :
      Deployment.Step d { d with store := s', moment := attempt.now }
  | rotate {d settings'} (keeps : settings'.Keeps secretOf) :
      Deployment.Step d { d with settings := settings' }
  | elapse {d s' moment'} (later : d.moment ≤ moment') (elapse : d.store.Elapse s') :
      Deployment.Step d { d with store := s', moment := moment' }

def Deployment.Runs : Deployment → Deployment → Prop :=
  Relation.ReflTransGen (Deployment.Step hmac secretOf)

/-- What a rotation must not change: one unexpired bucket for each value, in which every
attempt of its window is counted, or the denial of the attempt without a write. -/
structure Deployment.Counts (d : Deployment) : Prop where
  indexed : d.store.Indexed
  single : SingleOpen hmac secretOf d.moment d.store.buckets
  counted : ∀ attempt r s', d.moment ≤ attempt.now → d.Attempts hmac attempt r s' →
    KeysPresent d.settings attempt.now d.store.buckets → ∀ decision, r = .ok decision →
      Advances hmac secretOf attempt.now (attempt.dimensions.count ·) d.store.buckets s'.buckets
  denied : ∀ attempt r s', d.Attempts hmac attempt r s' →
    ¬ KeysPresent d.settings attempt.now d.store.buckets → s' = d.store ∧
      ∀ decision, r = .ok decision → decision = deniedDecision .throttleKeyRequired

end Deployment

variable {hmac : String → String → String} {secretOf : ℕ → String} {settings : Settings}
  {input : ConsumeDimensionInput} {now : Date} {s s' : Database}

section Keys

theorem belongs_congr {b b' : AuthThrottleBucket} (hdim : b'.dimension = b.dimension)
    (hcand : b'.candidate = b.candidate) :
    Belongs hmac secretOf input b' ↔ Belongs hmac secretOf input b := by
  simp only [AuthThrottleBucket.candidate, Candidate.mk.injEq] at hcand
  rw [Belongs, Belongs, hdim, hcand.1, hcand.2]

/-- A bucket tells the value it was hashed from. -/
theorem Belongs.input_eq (hinj : ∀ secret, Function.Injective (hmac secret))
    {input' : ConsumeDimensionInput} {b : AuthThrottleBucket} (h : Belongs hmac secretOf input b)
    (h' : Belongs hmac secretOf input' b) : input = input' := by
  obtain ⟨dimension, value⟩ := input
  obtain ⟨dimension', value'⟩ := input'
  obtain ⟨rfl, hkey⟩ := h
  obtain ⟨rfl, hkey'⟩ := h'
  exact congrArg _ (deriveBucketKey_injective hinj _ _ (hkey.symm.trans hkey'))

/-- The lookup goes over every version of the keyring. -/
theorem belongs_of_mem_keysFor (hkeeps : settings.Keeps secretOf) {b : AuthThrottleBucket}
    (hdim : b.dimension = input.dimension) (hcand : b.candidate ∈ keysFor hmac settings input) :
    Belongs hmac secretOf input b := by
  obtain ⟨key, hkey, heq⟩ := mem_candidatesFor.mp hcand
  simp only [AuthThrottleBucket.candidate, Candidate.mk.injEq] at heq
  refine ⟨hdim, ?_⟩
  rw [← heq.1, ← heq.2, hkeeps key hkey]

theorem mem_keysFor_of_belongs (hkeeps : settings.Keeps secretOf) {b : AuthThrottleBucket}
    (h : Belongs hmac secretOf input b) (hv : b.keyVersion ∈ settings.keyring.map (·.version)) :
    b.candidate ∈ keysFor hmac settings input := by
  obtain ⟨key, hkey, hversion⟩ := List.mem_map.mp hv
  refine mem_candidatesFor.mpr ⟨key, hkey, ?_⟩
  rw [AuthThrottleBucket.candidate, h.2, hkeeps key hkey, hversion]

/-- A lookup that finds nothing leaves no unexpired bucket of the value. -/
theorem not_belongs_of_missed (hkeeps : settings.Keeps secretOf)
    (hkeys : KeysPresent settings now s.buckets)
    (hnone : ∀ b ∈ s.buckets,
      b.isLive input.dimension (keysFor hmac settings input) now = false) :
    ∀ b ∈ s.buckets, now < b.expiresAt → ¬ Belongs hmac secretOf input b := by
  intro b hb hlive hbelongs
  have hfalse := hnone b hb
  have hcand := mem_keysFor_of_belongs hkeeps hbelongs (hkeys b hb hlive)
  simp only [AuthThrottleBucket.isLive, hbelongs.1, hlive, hcand, decide_true, Bool.and_self,
    Bool.true_eq_false] at hfalse

end Keys

section Advances

variable {bs bs' bs'' : List AuthThrottleBucket} {times times' : ConsumeDimensionInput → ℕ}

theorem AuthThrottleBucket.Continues.refl (b : AuthThrottleBucket) : b.Continues b 0 :=
  ⟨rfl, rfl, rfl, rfl, rfl⟩

theorem AuthThrottleBucket.Continues.trans {b b' b'' : AuthThrottleBucket} {n m : ℕ}
    (h : b.Continues b' n) (h' : b'.Continues b'' m) : b.Continues b'' (n + m) := by
  obtain ⟨hdim, hcand, hstart, hexp, hcount⟩ := h
  obtain ⟨hdim', hcand', hstart', hexp', hcount'⟩ := h'
  refine ⟨hdim'.trans hdim, hcand'.trans hcand, hstart'.trans hstart, hexp'.trans hexp, ?_⟩
  rw [hcount', hcount, Nat.add_assoc]

theorem Advances.refl : Advances hmac secretOf now (fun _ => 0) bs bs :=
  fun _ b hb _ _ => ⟨b, hb, .refl b⟩

theorem Advances.trans (h : Advances hmac secretOf now times bs bs')
    (h' : Advances hmac secretOf now times' bs' bs'') :
    Advances hmac secretOf now (fun input => times input + times' input) bs bs'' := by
  intro input b hb hlive hbelongs
  obtain ⟨b', hb', hcont⟩ := h input b hb hlive hbelongs
  obtain ⟨b'', hb'', hcont'⟩ := h' input b' hb' (hcont.2.2.2.1 ▸ hlive)
    ((belongs_congr hcont.1 hcont.2.1).mpr hbelongs)
  exact ⟨b'', hb'', hcont.trans hcont'⟩

end Advances

/-- What holds of the buckets throughout an attempt that all keys are there for. -/
structure Sound (hmac : String → String → String) (secretOf : ℕ → String) (settings : Settings)
    (now : Date) (s : Database) : Prop where
  indexed : s.Indexed
  single : SingleOpen hmac secretOf now s.buckets
  keys : KeysPresent settings now s.buckets

section Writes

variable {buckets : List AuthThrottleBucket} {d d' : AuthThrottleBucket}

/-- The increment of an unexpired bucket of the value. -/
theorem Sound.incremented (hinj : ∀ secret, Function.Injective (hmac secret))
    (h : Sound hmac secretOf settings now s) (hkeeps : settings.Keeps secretOf)
    {candidates : List Candidate} (hcands : ∀ c ∈ candidates, c ∈ keysFor hmac settings input)
    (hupdate : UpdateOne (AuthThrottleBucket.isLive input.dimension candidates now)
      (AuthThrottleBucket.increment now) s.buckets (some d') buckets)
    (hindexed : ({ s with buckets := buckets } : Database).Indexed) :
    Sound hmac secretOf settings now { s with buckets := buckets } ∧
      Advances hmac secretOf now ([input].count ·) s.buckets buckets := by
  obtain ⟨d, hd, hfilter, rfl, hd'⟩ := hupdate.source
  have hfound : ∀ b : AuthThrottleBucket,
      b.isLive input.dimension candidates now = true →
        now < b.expiresAt ∧ Belongs hmac secretOf input b := by
    intro b hb
    simp only [AuthThrottleBucket.isLive, Bool.and_eq_true, decide_eq_true_eq] at hb
    exact ⟨hb.1.2, belongs_of_mem_keysFor hkeeps hb.1.1 (hcands _ hb.2)⟩
  obtain ⟨hlive, hbelongs⟩ := hfound d hfilter
  -- each bucket was there before, a count aside
  have hback : ∀ x ∈ buckets, ∃ y ∈ s.buckets, x.dimension = y.dimension ∧
      x.candidate = y.candidate ∧ x.expiresAt = y.expiresAt := by
    intro x hx
    rcases hupdate.mem hx with hold | rfl
    · exact ⟨x, hold, rfl, rfl, rfl⟩
    · exact ⟨d, hd, rfl, rfl, rfl⟩
  refine ⟨⟨hindexed, ?_, ?_⟩, ?_⟩
  · intro input' x hx x' hx' hxlive hxlive' hxb hxb'
    obtain ⟨y, hy, hdim, hcand, hexp⟩ := hback x hx
    obtain ⟨y', hy', hdim', hcand', hexp'⟩ := hback x' hx'
    have heq : y = y' := h.single input' y hy y' hy' (hexp ▸ hxlive) (hexp' ▸ hxlive')
      ((belongs_congr hdim hcand).mp hxb) ((belongs_congr hdim' hcand').mp hxb')
    refine Documents.Unique.eq hindexed hx hx' rfl ?_
    rw [hdim, hcand, hdim', hcand', heq]
  · intro x hx hxlive
    obtain ⟨y, hy, -, hcand, hexp⟩ := hback x hx
    have hversion : x.keyVersion = y.keyVersion := congrArg Candidate.keyVersion hcand
    rw [hversion]
    exact h.keys y hy (hexp ▸ hxlive)
  · intro input' b hb hblive hbb
    by_cases heq : input' = input
    · subst heq
      show ∃ b' ∈ buckets, b.Continues b' ([input'].count input')
      rw [h.single input' b hb d hd hblive hlive hbb hbelongs, List.count_singleton_self]
      exact ⟨d.increment now, hd', rfl, rfl, rfl, rfl, rfl⟩
    · show ∃ b' ∈ buckets, b.Continues b' ([input].count input')
      rw [List.count_eq_zero_of_not_mem (by simpa using heq)]
      rcases hupdate.kept hb with hkept | ⟨hfilter', -⟩
      · exact ⟨b, hkept, .refl b⟩
      · exact absurd (hbb.input_eq hinj (hfound b hfilter').2) heq

/-- The upsert under the current key, when no bucket of the value is unexpired. -/
theorem Sound.rolled (hinj : ∀ secret, Function.Injective (hmac secret))
    (h : Sound hmac secretOf settings now s) (hkeeps : settings.Keeps secretOf)
    {current : Candidate} {expiresAt : Date}
    (hcurrent : current ∈ keysFor hmac settings input)
    (hnone : ∀ b ∈ s.buckets, now < b.expiresAt → ¬ Belongs hmac secretOf input b)
    (hupsert : Upserts
      (fun b => decide (b.dimension = input.dimension) && decide (b.candidate = current))
      (AuthThrottleBucket.roll now expiresAt)
      (AuthThrottleBucket.start input.dimension current now expiresAt) s.buckets d' buckets)
    (hindexed : ({ s with buckets := buckets } : Database).Indexed) :
    Sound hmac secretOf settings now { s with buckets := buckets } ∧
      Advances hmac secretOf now ([input].count ·) s.buckets buckets := by
  have hbelongs : ∀ b : AuthThrottleBucket, b.dimension = input.dimension →
      b.candidate = current → Belongs hmac secretOf input b :=
    fun b hdim hcand => belongs_of_mem_keysFor hkeeps hdim (hcand ▸ hcurrent)
  have hnew : d'.dimension = input.dimension ∧ d'.candidate = current := by
    rcases hupsert with hupdate | ⟨-, rfl, -⟩
    · obtain ⟨d, -, hkey, rfl, -⟩ := hupdate.source
      simpa using hkey
    · exact ⟨rfl, rfl⟩
  have hback : ∀ x ∈ buckets, x ∈ s.buckets ∨ x = d' := by
    intro x hx
    rcases hupsert with hupdate | ⟨-, rfl, rfl⟩
    · exact hupdate.mem hx
    · exact (List.mem_cons.mp hx).symm
  have hkept : ∀ b ∈ s.buckets, now < b.expiresAt → b ∈ buckets := by
    intro b hb hlive
    rcases hupsert with hupdate | ⟨-, rfl, rfl⟩
    · rcases hupdate.kept hb with hkept | ⟨hkey, -⟩
      · exact hkept
      · simp only [Bool.and_eq_true, decide_eq_true_eq] at hkey
        exact absurd (hbelongs b hkey.1 hkey.2) (hnone b hb hlive)
    · exact List.mem_cons_of_mem _ hb
  have hforeign : ∀ input', Belongs hmac secretOf input' d' → input' = input :=
    fun input' hb => hb.input_eq hinj (hbelongs d' hnew.1 hnew.2)
  refine ⟨⟨hindexed, ?_, ?_⟩, ?_⟩
  · intro input' x hx x' hx' hxlive hxlive' hxb hxb'
    rcases hback x hx with hold | rfl <;> rcases hback x' hx' with hold' | rfl
    · exact h.single input' x hold x' hold' hxlive hxlive' hxb hxb'
    · exact absurd (hforeign input' hxb' ▸ hxb) (hnone x hold hxlive)
    · exact absurd (hforeign input' hxb ▸ hxb') (hnone x' hold' hxlive')
    · rfl
  · intro x hx hxlive
    rcases hback x hx with hold | rfl
    · exact h.keys x hold hxlive
    · obtain ⟨key, hkey, heq⟩ := mem_candidatesFor.mp hcurrent
      have hversion : x.keyVersion = key.version :=
        congrArg Candidate.keyVersion (hnew.2.trans heq.symm)
      rw [hversion]
      exact List.mem_map_of_mem hkey
  · intro input' b hb hblive hbb
    have hne : input' ∉ [input] := by
      intro hmem
      rw [List.mem_singleton.mp hmem] at hbb
      exact hnone b hb hblive hbb
    show ∃ b' ∈ buckets, b.Continues b' ([input].count input')
    rw [List.count_eq_zero_of_not_mem hne]
    exact ⟨b, hkept b hb hblive, .refl b⟩

end Writes

section Walks

section Ends

variable {exec' : (β : Type) → Op β → Database → β → Database → Prop}

/-- Every way the program may go on a database alone whose calls answer as `exec'` says, its calls
throwing or not. -/
abbrev EndsBy {α : Type} (exec' : (β : Type) → Op β → Database → β → Database → Prop)
    (x : Throttle α) (s : Database) (Q : Except ThrottleFailure α → Database → Prop) : Prop :=
  Leads exec' (fun _ _ => True) (fun _ : Interleaving.Step Op => (none : Option Unit))
    (fun s₁ s₂ => s₂ = s₁) x.run s fun _ => Q

theorem EndsBy.pure {α : Type} {a : α} {Q : Except ThrottleFailure α → Database → Prop}
    (h : Q (.ok a) s) : EndsBy exec' (pure a) s Q := Leads.run_pure h

theorem EndsBy.then {α β : Type} {x : Throttle β} {f : β → Throttle α}
    {R : Except ThrottleFailure β → Database → Prop}
    {Q : Except ThrottleFailure α → Database → Prop} (hx : EndsBy exec' x s R)
    (hok : ∀ b s₁, R (.ok b) s₁ → EndsBy exec' (f b) s₁ Q)
    (herr : ∀ e s₁, R (.error e) s₁ → Q (.error e) s₁) : EndsBy exec' (x >>= f) s Q :=
  Leads.run_bind hx (fun _ => hok) fun _ => herr

theorem EndsBy.call {α β : Type} {op : Op β} {f : β → Throttle α}
    {Q : Except ThrottleFailure α → Database → Prop} (hlost : ∀ e, Q (.error e) s)
    (happlied : ∀ b s₁, exec' β op s b s₁ → (∀ e, Q (.error e) s₁) ∧ EndsBy exec' (f b) s₁ Q) :
    EndsBy exec' (AuthThrottle.call op >>= f) s Q := by
  refine Leads.run_bind (R := fun _ r s₁ => (∃ b, r = .ok b ∧ EndsBy exec' (f b) s₁ Q) ∨
    (∃ e, r = .error e) ∧ ∀ e, Q (.error e) s₁) ?_ ?_ ?_
  · refine Leads.call fun s₁ heq o s₂ hgoes => ⟨s₂, rfl, ?_⟩
    subst heq
    rcases o with b | _ | b
    · exact Leads.done (.inl ⟨b, rfl, (happlied b s₂ hgoes).2⟩)
    · obtain ⟨-, rfl⟩ := hgoes
      exact Leads.done (.inr ⟨⟨_, rfl⟩, hlost⟩)
    · exact Leads.done (.inr ⟨⟨_, rfl⟩, (happlied b s₂ hgoes.2).1⟩)
  · rintro l b s₁ (⟨b', heq, h⟩ | ⟨⟨e, heq⟩, -⟩)
    · cases heq
      exact h
    · cases heq
  · rintro l e s₁ (⟨b', heq, -⟩ | ⟨-, h⟩)
    · cases heq
    · exact h e

end Ends

/-- Every way the program may go on the database alone, its calls throwing or not. -/
abbrev EndsIn {α : Type} (x : Throttle α) (s : Database)
    (Q : Except ThrottleFailure α → Database → Prop) : Prop :=
  Leads exec (fun _ _ => True) (fun _ : Interleaving.Step Op => (none : Option Unit))
    (fun s₁ s₂ => s₂ = s₁) x.run s fun _ => Q

theorem EndsIn.pure {α : Type} {a : α} {Q : Except ThrottleFailure α → Database → Prop}
    (h : Q (.ok a) s) : EndsIn (pure a) s Q := EndsBy.pure h

/-- The buckets stay sound, and an answer means that the values were counted. -/
def Consumed (hmac : String → String → String) (secretOf : ℕ → String) (settings : Settings)
    (now : Date) (inputs : List ConsumeDimensionInput) (s : Database) {α : Type}
    (r : Except ThrottleFailure α) (s' : Database) : Prop :=
  Sound hmac secretOf settings now s' ∧
    ∀ a, r = .ok a → Advances hmac secretOf now (inputs.count ·) s.buckets s'.buckets

theorem Consumed.failed {α : Type} {inputs : List ConsumeDimensionInput} {e : ThrottleFailure}
    (h : Sound hmac secretOf settings now s') :
    Consumed hmac secretOf settings now inputs s (.error e : Except ThrottleFailure α) s' :=
  ⟨h, fun _ heq => by cases heq⟩

variable (hinj : ∀ secret, Function.Injective (hmac secret)) (hkeeps : settings.Keeps secretOf)

include hinj hkeeps in
theorem consumeDimension_ends {current : VersionedSecret} {previous : List VersionedSecret}
    (hkeyring : settings.keyring = current :: previous)
    (h : Sound hmac secretOf settings now s) :
    EndsIn (consumeDimension hmac settings input current previous now) s
      (Consumed hmac secretOf settings now [input] s) := by
  have hkeys : candidatesFor hmac (current :: previous) input.dimension input.value =
      keysFor hmac settings input := by rw [keysFor, hkeyring]
  have hcurrent : (⟨current.version, deriveBucketKey hmac current.secret input.dimension
      input.value⟩ : Candidate) ∈ keysFor hmac settings input := by
    rw [← hkeys]
    exact List.mem_cons_self
  rw [consumeDimension, hkeys]
  refine EndsBy.call (fun _ => .failed h) fun r s₁ hr => ?_
  obtain ⟨⟨buckets, hgreatest, rfl⟩, hindexed⟩ := hr
  have hupdate := hgreatest.updateOne
  cases r with
  | some existing =>
    obtain ⟨hsound, hadvances⟩ :=
      h.incremented hinj hkeeps (fun _ hc => hc) hupdate hindexed
    exact ⟨fun _ => .failed hsound, .pure ⟨hsound, fun _ _ => hadvances⟩⟩
  | none =>
    -- the lookup has found no unexpired bucket, under any version
    obtain ⟨hmissed, rfl⟩ := hupdate
    have hnone := not_belongs_of_missed hkeeps h.keys hmissed
    refine ⟨fun _ => .failed h, EndsBy.call (fun _ => .failed h) fun r s₁ hr => ?_⟩
    obtain ⟨heffect, hindexed⟩ := hr
    cases r with
    | bucket b =>
      obtain ⟨buckets, hupsert, rfl⟩ := heffect
      obtain ⟨hsound, hadvances⟩ := h.rolled hinj hkeeps hcurrent hnone hupsert hindexed
      exact ⟨fun _ => .failed hsound, .pure ⟨hsound, fun _ _ => hadvances⟩⟩
    | duplicateKey =>
      obtain ⟨-, rfl⟩ := heffect
      refine ⟨fun _ => .failed h, EndsBy.call (fun _ => .failed h) fun r s₁ hr => ?_⟩
      obtain ⟨⟨buckets, hupdate, rfl⟩, hindexed⟩ := hr
      cases r with
      | some b =>
        have hcandidates : ∀ c ∈ [(⟨current.version, deriveBucketKey hmac current.secret
            input.dimension input.value⟩ : Candidate)], c ∈ keysFor hmac settings input := by
          intro c hc
          rw [List.mem_singleton.mp hc]
          exact hcurrent
        obtain ⟨hsound, hadvances⟩ := h.incremented hinj hkeeps hcandidates hupdate hindexed
        exact ⟨fun _ => .failed hsound, .pure ⟨hsound, fun _ _ => hadvances⟩⟩
      | none =>
        obtain ⟨-, rfl⟩ := hupdate
        refine ⟨fun _ => .failed h, .pure ⟨h, fun _ _ input' b hb hlive hbelongs => ?_⟩⟩
        have hne : input' ∉ [input] := by
          intro hmem
          rw [List.mem_singleton.mp hmem] at hbelongs
          exact hnone b hb hlive hbelongs
        show ∃ b' ∈ s.buckets, b.Continues b' ([input].count input')
        rw [List.count_eq_zero_of_not_mem hne]
        exact ⟨b, hb, .refl b⟩

include hinj hkeeps in
theorem consumeEach_ends {current : VersionedSecret} {previous : List VersionedSecret}
    (hkeyring : settings.keyring = current :: previous) {inputs : List ConsumeDimensionInput}
    (h : Sound hmac secretOf settings now s) :
    EndsIn (consumeEach hmac settings current previous now inputs) s
      (Consumed hmac secretOf settings now inputs s) := by
  induction inputs generalizing s with
  | nil => exact .pure ⟨h, fun _ _ => Advances.refl⟩
  | cons input inputs ih =>
    -- a failure of the first dimension is kept until the others are through
    refine EndsBy.then (R := fun r s₁ => Sound hmac secretOf settings now s₁ ∧
      ∀ decision, r = .ok (some decision) →
        Advances hmac secretOf now ([input].count ·) s.buckets s₁.buckets) ?_ ?_ ?_
    · refine Leads.run_tryCatch (R := fun _ r s₁ => Sound hmac secretOf settings now s₁ ∧
        ∀ decision, r = .ok (some decision) →
          Advances hmac secretOf now ([input].count ·) s.buckets s₁.buckets) ?_ ?_ ?_
      · refine EndsBy.then (consumeDimension_ends hinj hkeeps hkeyring h) ?_ ?_
        · intro decision s₁ hconsumed
          exact .pure ⟨hconsumed.1, fun _ _ => hconsumed.2 decision rfl⟩
        · intro e s₁ hconsumed
          exact ⟨hconsumed.1, fun _ heq => by cases heq⟩
      · exact fun _ _ _ hR => hR
      · intro _ e s₁ hR
        exact Leads.run_pure ⟨hR.1, fun _ heq => by cases heq⟩
    · intro decision s₁ ⟨hsound, hadvances⟩
      refine EndsBy.then (ih hsound) ?_ fun e s₂ hconsumed => .failed hconsumed.1
      intro decisions s₂ hconsumed
      cases decision with
      | none => exact Leads.run_throw (.failed hconsumed.1)
      | some decision =>
        refine .pure ⟨hconsumed.1, fun _ _ => ?_⟩
        have hboth := (hadvances decision rfl).trans (hconsumed.2 decisions rfl)
        intro input' b hb hlive hbelongs
        obtain ⟨b', hb', hcont⟩ := hboth input' b hb hlive hbelongs
        have hcount : ([input] ++ inputs).count input' =
            [input].count input' + inputs.count input' := List.count_append
        have hall : b.Continues b' (([input] ++ inputs).count input') := by
          rw [hcount]
          exact hcont
        exact ⟨b', hb', hall⟩
    · exact fun e s₁ hR => .failed hR.1

end Walks

section Attempts

variable {d d₀ : Deployment} {attempt : Attempt} {r : Except ThrottleFailure AuthThrottleDecision}

/-- The check of the referenced versions comes before every write. -/
theorem Deployment.Attempts.denied (h : d.Attempts hmac attempt r s')
    (hmissing : ¬ KeysPresent d.settings attempt.now d.store.buckets) :
    s' = d.store ∧ ∀ decision, r = .ok decision →
      decision = deniedDecision .throttleKeyRequired := by
  have hends : EndsIn (consumeMany hmac d.settings attempt.dimensions attempt.now) d.store
      fun r s' => s' = d.store ∧ ∀ decision, r = .ok decision →
        decision = deniedDecision .throttleKeyRequired := by
    have hlost : ∀ e, d.store = d.store ∧ ∀ decision : AuthThrottleDecision,
        (.error e : Except ThrottleFailure AuthThrottleDecision) = .ok decision →
          decision = deniedDecision .throttleKeyRequired :=
      fun e => ⟨rfl, fun _ heq => by cases heq⟩
    have hdenied : EndsIn (pure (deniedDecision .throttleKeyRequired)) d.store
        fun r s' => s' = d.store ∧ ∀ decision, r = .ok decision →
          decision = deniedDecision .throttleKeyRequired :=
      .pure ⟨rfl, fun _ heq => by cases heq; rfl⟩
    rw [consumeMany]
    split
    · exact hdenied
    · refine EndsBy.then (R := fun r s₁ => s₁ = d.store ∧ ∀ all, r = .ok all → all = false)
        ?_ ?_ ?_
      · refine EndsBy.call (fun e => ⟨rfl, fun _ heq => by cases heq⟩) ?_
        rintro versions s₁ ⟨⟨rfl, rfl⟩, -⟩
        refine ⟨fun e => ⟨rfl, fun _ heq => by cases heq⟩, .pure ⟨rfl, ?_⟩⟩
        rintro all ⟨⟩
        by_contra htrue
        refine hmissing fun b hb hlive => ?_
        rw [Bool.not_eq_false, List.all_eq_true] at htrue
        exact of_decide_eq_true (htrue _ (List.mem_map_of_mem
          (List.mem_filter.mpr ⟨hb, decide_eq_true hlive⟩)))
      · rintro all s₁ ⟨rfl, hall⟩
        rw [hall all rfl]
        exact hdenied
      · rintro e s₁ ⟨rfl, -⟩
        exact hlost e
  obtain ⟨l, htraces⟩ := h
  obtain ⟨_, rfl, hends⟩ := hends _ rfl l r s' htraces
  exact hends

variable (hinj : ∀ secret, Function.Injective (hmac secret))

include hinj in
/-- An attempt that all keys are there for. -/
theorem Deployment.Attempts.consumed (h : d.Attempts hmac attempt r s')
    (hkeeps : d.settings.Keeps secretOf)
    (hsound : Sound hmac secretOf d.settings attempt.now d.store) :
    Consumed hmac secretOf d.settings attempt.now attempt.dimensions d.store r s' := by
  have hends : EndsIn (consumeMany hmac d.settings attempt.dimensions attempt.now) d.store
      (Consumed hmac secretOf d.settings attempt.now attempt.dimensions d.store) := by
    rw [consumeMany]
    split
    · next hempty =>
      refine .pure ⟨hsound, fun _ _ input b hb hlive _ => ?_⟩
      have hversion := hsound.keys b hb hlive
      rw [hempty] at hversion
      exact absurd hversion List.not_mem_nil
    · next current previous hkeyring =>
      refine EndsBy.then (R := fun r s₁ => s₁ = d.store ∧ ∀ all, r = .ok all → all = true)
        ?_ ?_ ?_
      · refine EndsBy.call (fun e => ⟨rfl, fun _ heq => by cases heq⟩) ?_
        rintro versions s₁ ⟨⟨rfl, rfl⟩, -⟩
        refine ⟨fun e => ⟨rfl, fun _ heq => by cases heq⟩, .pure ⟨rfl, ?_⟩⟩
        rintro all ⟨⟩
        rw [List.all_eq_true]
        intro version hversion
        obtain ⟨b, hb, rfl⟩ := List.mem_map.mp hversion
        obtain ⟨hmem, hlive⟩ := List.mem_filter.mp hb
        exact decide_eq_true (hsound.keys b hmem (of_decide_eq_true hlive))
      · rintro all s₁ ⟨rfl, hall⟩
        rw [hall all rfl]
        refine EndsBy.then (consumeEach_ends hinj hkeeps hkeyring hsound) ?_
          fun e s₂ hconsumed => .failed hconsumed.1
        intro decisions s₂ hconsumed
        have hanswer : ∀ decision : AuthThrottleDecision,
            Consumed hmac secretOf d.settings attempt.now attempt.dimensions d.store
              (.ok decision : Except ThrottleFailure AuthThrottleDecision) s₂ :=
          fun _ => ⟨hconsumed.1, fun _ _ => hconsumed.2 decisions rfl⟩
        by_cases hnone : (decisions.filter fun decision => !decision.allowed).isEmpty = true
        · simp only [hnone, if_true]
          exact .pure (hanswer _)
        · simp only [hnone]
          exact .pure (hanswer _)
      · rintro e s₁ ⟨rfl, -⟩
        exact .failed hsound
  obtain ⟨l, htraces⟩ := h
  obtain ⟨_, rfl, hends⟩ := hends _ rfl l r s' htraces
  exact hends

/-- A bucket that is unexpired later was so before. -/
theorem SingleOpen.later {bs : List AuthThrottleBucket} {now' : Date}
    (h : SingleOpen hmac secretOf now bs) (hle : now ≤ now') :
    SingleOpen hmac secretOf now' bs :=
  fun input b hb b' hb' hlive hlive' =>
    h input b hb b' hb' (lt_of_le_of_lt hle hlive) (lt_of_le_of_lt hle hlive')

/-- What every step of the deployment keeps. -/
structure Deployment.Steady (hmac : String → String → String) (secretOf : ℕ → String)
    (d : Deployment) : Prop where
  keeps : d.settings.Keeps secretOf
  indexed : d.store.Indexed
  single : SingleOpen hmac secretOf d.moment d.store.buckets

include hinj in
theorem Deployment.Steady.step {d' : Deployment} (h : d.Steady hmac secretOf)
    (hstep : Deployment.Step hmac secretOf d d') : d'.Steady hmac secretOf := by
  cases hstep with
  | @attempt attempt r s' later attempts =>
    have hsingle := h.single.later later
    by_cases hkeys : KeysPresent d.settings attempt.now d.store.buckets
    · have hsound := (attempts.consumed hinj h.keeps ⟨h.indexed, hsingle, hkeys⟩).1
      exact ⟨h.keeps, hsound.indexed, hsound.single⟩
    · obtain ⟨rfl, -⟩ := attempts.denied hkeys
      exact ⟨h.keeps, h.indexed, hsingle⟩
  | rotate keeps => exact ⟨keeps, h.indexed, h.single⟩
  | elapse later elapse =>
    obtain ⟨-, hsublist, -⟩ := elapse
    refine ⟨h.keeps, Documents.Unique.sublist h.indexed hsublist, ?_⟩
    intro input b hb b' hb'
    exact h.single.later later input b (hsublist.subset hb) b' (hsublist.subset hb')

include hinj in
theorem Deployment.Steady.runs {d' : Deployment} (h : d.Steady hmac secretOf)
    (hruns : Deployment.Runs hmac secretOf d d') : d'.Steady hmac secretOf := by
  induction hruns with
  | refl => exact h
  | tail _ hstep ih => exact ih.step hinj hstep

/-- The keys that versions have. -/
def keyOf (version : ℕ) : String := if version = 1 then "k" else "l"

/-- The default limits under a keyring. -/
def withKeyring (versions : List ℕ) (apart : versions.Nodup) : Settings where
  keyring := versions.map fun version => ⟨version, keyOf version⟩
  apart := by simpa [Function.comp_def] using apart
  signInIdentifierFailure := ⟨5, 900⟩
  signInSource := ⟨20, 900⟩
  refresh := ⟨30, 300⟩

theorem withKeyring_keeps {versions : List ℕ} {apart : versions.Nodup} :
    (withKeyring versions apart).Keeps keyOf := by
  intro key hkey
  obtain ⟨version, -, rfl⟩ := List.mem_map.mp hkey
  rfl

/-- A sign-in of one source. -/
def knocks (now : Date) : Attempt := ⟨[⟨.signInSource, "203.0.113.9"⟩], now⟩

/-- An attempt that nothing throws in, evaluated. -/
theorem Deployment.attempts_of_trace {attempt : Attempt} {bs : List AuthThrottleBucket}
    {clock : Date} (h : (trace perform (fun _ _ => false) () []
      (consumeMany hmac d.settings attempt.dimensions attempt.now).run d.store).map
        (fun x => (x.2.1, x.2.2.buckets, x.2.2.clock)) = some (r, bs, clock)) :
    d.Attempts hmac attempt r ⟨bs, clock⟩ := by
  obtain ⟨⟨l, r', s'⟩, htrace, hview⟩ := Option.map_eq_some_iff.mp h
  simp only [Prod.mk.injEq] at hview
  obtain ⟨rfl, rfl, rfl⟩ := hview
  exact ⟨l, traces_of_trace perform_exec (fun h => by cases h) htrace⟩

/-- The bucket of the source, after `count` attempts. -/
def knocked (count : ℕ) (updatedAt : Date) : AuthThrottleBucket :=
  ⟨.signInSource, 1, deriveBucketKey SignIn.plain.hmac "k" .signInSource "203.0.113.9", count,
    0, 900000, 0, updatedAt⟩

end Attempts

end AuthThrottle
