import Mathlib.Data.List.Pairwise
import Mathlib.Data.List.Perm.Subperm
import BookLibrary.AuthThrottle.Service

/-!
# Counting within one window

For one dimension and value, and for a set of dates no bucket expires between, one
bucket takes every attempt. The counts it has answered are pairwise different, so
no more attempts than the limit have been answered a count within the limit.
-/

namespace AuthThrottle

open Documents Interleaving

variable {ι Call : Type} {hmac : String → String → String} {settings : Settings}

/-- The candidates of a value under the configured keys. -/
def keysFor (hmac : String → String → String) (settings : Settings)
    (input : ConsumeDimensionInput) : List Candidate :=
  candidatesFor hmac settings.keyring input.dimension input.value

section Roll

variable {now expiresAt : Date} {b : AuthThrottleBucket}

@[simp] theorem AuthThrottleBucket.roll_dimension :
    (b.roll now expiresAt).dimension = b.dimension := by
  by_cases h : now < b.expiresAt <;> simp [roll, increment, h]

theorem AuthThrottleBucket.roll_count_pos : 0 < (b.roll now expiresAt).count := by
  by_cases h : now < b.expiresAt <;> simp [roll, increment, h]

@[simp] theorem AuthThrottleBucket.roll_candidate :
    (b.roll now expiresAt).candidate = b.candidate := by
  by_cases h : now < b.expiresAt <;> simp [roll, increment, candidate, h]

end Roll

section Keys

theorem mem_candidatesFor {keyring : List VersionedSecret} {dimension : AuthThrottleDimension}
    {value : String} {c : Candidate} : c ∈ candidatesFor hmac keyring dimension value ↔
      ∃ key ∈ keyring, (⟨key.version, deriveBucketKey hmac key.secret dimension value⟩ :
        Candidate) = c := by
  simp [candidatesFor]

theorem deriveBucketKey_injective (h : ∀ secret, Function.Injective (hmac secret))
    (secret : String) (dimension : AuthThrottleDimension) :
    Function.Injective (deriveBucketKey hmac secret dimension) := by
  intro value value' heq
  have happ := h secret heq
  rwa [String.append_right_inj] at happ

/-- One version has one secret. -/
theorem Settings.secret_eq {key key' : VersionedSecret} (hk : key ∈ settings.keyring)
    (hk' : key' ∈ settings.keyring) (hv : key.version = key'.version) : key = key' :=
  List.inj_on_of_nodup_map settings.apart hk hk' hv

/-- Two values of one dimension never share a candidate. -/
theorem value_eq_of_mem_keysFor (h : ∀ secret, Function.Injective (hmac secret))
    {dimension : AuthThrottleDimension} {value value' : String} {c : Candidate}
    (hc : c ∈ keysFor hmac settings ⟨dimension, value⟩)
    (hc' : c ∈ keysFor hmac settings ⟨dimension, value'⟩) : value = value' := by
  obtain ⟨key, hk, rfl⟩ := mem_candidatesFor.mp hc
  obtain ⟨key', hk', heq⟩ := mem_candidatesFor.mp hc'
  simp only [Candidate.mk.injEq] at heq
  obtain ⟨hv, hd⟩ := heq
  rw [settings.secret_eq hk' hk hv] at hd
  exact (deriveBucketKey_injective h key.secret dimension hd).symm

end Keys

/-- What a consumption of the values that `may` allows, made at `now`, issues. -/
def conduct (hmac : String → String → String) (settings : Settings)
    (may : ConsumeDimensionInput → Prop) (now : Date) :
    List Event → (β : Type) → Op β → Prop
  | _, _, .findReferencedVersions _ => True
  | _, _, .incrementLive dimension candidates date => date = now ∧
      ∃ value, may ⟨dimension, value⟩ ∧ candidates = keysFor hmac settings ⟨dimension, value⟩
  | l, _, .rollBucket dimension current date expiresAt => date = now ∧
      expiresAt = now + (settings.policy dimension).windowSeconds * 1000 ∧
      ∃ value, may ⟨dimension, value⟩ ∧
        .missed dimension (keysFor hmac settings ⟨dimension, value⟩) ∈ l ∧
        (keysFor hmac settings ⟨dimension, value⟩).head? = some current
  | _, _, .incrementRaced dimension current date => date = now ∧
      ∃ value, may ⟨dimension, value⟩ ∧
        (keysFor hmac settings ⟨dimension, value⟩).head? = some current

/-- A bucket of the value. -/
def Concerns (hmac : String → String → String) (settings : Settings)
    (input : ConsumeDimensionInput) (b : AuthThrottleBucket) : Prop :=
  b.dimension = input.dimension ∧ b.candidate ∈ keysFor hmac settings input

/-- A bucket of the value that has not expired at some date of the set. -/
def OpenFor (hmac : String → String → String) (settings : Settings)
    (input : ConsumeDimensionInput) (W : Set Date) (b : AuthThrottleBucket) : Prop :=
  Concerns hmac settings input b ∧ ∃ t ∈ W, t < b.expiresAt

/-- The buckets of one value and what has been answered from them. -/
structure Ledger (hmac : String → String → String) (settings : Settings)
    (input : ConsumeDimensionInput) (W : Set Date) (bs : List AuthThrottleBucket)
    (J : List (Entry ι Call Event)) : Prop where
  steady : ∀ b ∈ bs, OpenFor hmac settings input W b → ∀ t ∈ W, t < b.expiresAt
  single : ∀ b ∈ bs, ∀ b' ∈ bs, OpenFor hmac settings input W b →
    OpenFor hmac settings input W b' → b = b'
  current : (∃ e ∈ J, e.event = .missed input.dimension (keysFor hmac settings input)) →
    ∀ b ∈ bs, OpenFor hmac settings input W b →
      (keysFor hmac settings input).head? = some b.candidate
  covered : ∀ e ∈ J, ∀ c, e.event = .counted c → Concerns hmac settings input c →
    ∃ b ∈ bs, OpenFor hmac settings input W b ∧ c.candidate = b.candidate ∧ c.count ≤ b.count
  distinct : J.Pairwise fun e e' => ∀ c c', e.event = .counted c → e'.event = .counted c' →
    Concerns hmac settings input c → Concerns hmac settings input c' → c.count ≠ c'.count

/-- The event tells nothing of the value. -/
def Event.Foreign (hmac : String → String → String) (settings : Settings)
    (input : ConsumeDimensionInput) : Event → Prop
  | .missed dimension candidates =>
    ¬ (dimension = input.dimension ∧ candidates = keysFor hmac settings input)
  | .counted b => ¬ Concerns hmac settings input b

namespace Ledger

variable {input : ConsumeDimensionInput} {W : Set Date} {bs bs' : List AuthThrottleBucket}
  {J : List (Entry ι Call Event)} {i : ι} {call : Call}

/-- Before anybody counts: no bucket expires between the dates, and one at most is open. -/
theorem init (hsteady : ∀ b ∈ bs, OpenFor hmac settings input W b → ∀ t ∈ W, t < b.expiresAt)
    (hsingle : ∀ b ∈ bs, ∀ b' ∈ bs, OpenFor hmac settings input W b →
      OpenFor hmac settings input W b' → b = b') :
    Ledger hmac settings input W bs ([] : List (Entry ι Call Event)) :=
  ⟨hsteady, hsingle, fun ⟨_, he, _⟩ => absurd he List.not_mem_nil,
    fun _ he => absurd he List.not_mem_nil, .nil⟩

/-- Whatever leaves the open buckets of the value alone keeps the ledger. -/
theorem kept (h : Ledger hmac settings input W bs J)
    (hback : ∀ b ∈ bs', Concerns hmac settings input b → b ∈ bs)
    (hkept : ∀ b ∈ bs, OpenFor hmac settings input W b → b ∈ bs') :
    Ledger hmac settings input W bs' J := by
  refine ⟨fun b hb ho => h.steady b (hback b hb ho.1) ho, fun b hb b' hb' ho ho' =>
    h.single b (hback b hb ho.1) b' (hback b' hb' ho'.1) ho ho',
    fun hmissed b hb ho => h.current hmissed b (hback b hb ho.1) ho, ?_, h.distinct⟩
  intro e he c hev hc
  obtain ⟨b, hb, ho, hcount⟩ := h.covered e he c hev hc
  exact ⟨b, hkept b hb ho, ho, hcount⟩

/-- Events of other values do not show in the ledger. -/
theorem foreign (h : Ledger hmac settings input W bs J) {evs : List Event}
    (hevs : ∀ ev ∈ evs, ev.Foreign hmac settings input) :
    Ledger hmac settings input W bs (record i call evs ++ J) := by
  have hnew : ∀ e ∈ record i call evs, ∀ c, e.event = .counted c →
      ¬ Concerns hmac settings input c := by
    intro e he c hev
    have hforeign := hevs _ (mem_record.mp he).2.2
    rwa [hev] at hforeign
  refine ⟨h.steady, h.single, ?_, ?_, ?_⟩
  · intro ⟨e, he, hev⟩
    rcases List.mem_append.mp he with hrecord | hold
    · have hforeign := hevs _ (mem_record.mp hrecord).2.2
      rw [hev] at hforeign
      exact absurd ⟨rfl, rfl⟩ hforeign
    · exact h.current ⟨e, hold, hev⟩
  · intro e he c hev hc
    rcases List.mem_append.mp he with hrecord | hold
    · exact absurd hc (hnew e hrecord c hev)
    · exact h.covered e hold c hev hc
  · exact List.pairwise_append.mpr
      ⟨List.pairwise_of_forall_mem_list fun e he _ _ c _ hev _ hc => absurd hc (hnew e he c hev),
        h.distinct, fun e he _ _ c _ hev _ hc => absurd hc (hnew e he c hev)⟩

theorem skip (h : Ledger hmac settings input W bs J)
    (hback : ∀ b ∈ bs', Concerns hmac settings input b → b ∈ bs)
    (hkept : ∀ b ∈ bs, OpenFor hmac settings input W b → b ∈ bs') {evs : List Event}
    (hevs : ∀ ev ∈ evs, ev.Foreign hmac settings input) :
    Ledger hmac settings input W bs' (record i call evs ++ J) :=
  (h.kept hback hkept).foreign hevs

theorem noted (h : Ledger hmac settings input W bs J)
    (hnone : ∀ b ∈ bs, ¬ OpenFor hmac settings input W b) :
    Ledger hmac settings input W bs
      (record i call [.missed input.dimension (keysFor hmac settings input)] ++ J) := by
  refine ⟨h.steady, h.single, fun _ b hb ho => absurd ho (hnone b hb), ?_, ?_⟩
  · intro e he c hev hc
    rcases List.mem_cons.mp he with rfl | hold
    · cases hev
    · exact h.covered e hold c hev hc
  · refine List.pairwise_cons.mpr ⟨fun e' _ c c' hev => ?_, h.distinct⟩
    cases hev

/-- An increment of the open bucket. -/
theorem increment (h : Ledger hmac settings input W bs J) {d d' : AuthThrottleBucket}
    (hd : d ∈ bs) (ho : OpenFor hmac settings input W d)
    (hdim : d'.dimension = d.dimension) (hcand : d'.candidate = d.candidate)
    (hexp : d'.expiresAt = d.expiresAt) (hcount : d'.count = d.count + 1) (hd' : d' ∈ bs')
    (hback : ∀ b ∈ bs', b ∈ bs ∨ b = d')
    (hunique : Unique (fun b : AuthThrottleBucket => some (b.dimension, b.candidate)) bs') :
    Ledger hmac settings input W bs' (record i call [.counted d'] ++ J) := by
  have ho' : OpenFor hmac settings input W d' := by
    obtain ⟨⟨hdim', hcand'⟩, t, ht, hlt⟩ := ho
    exact ⟨⟨hdim.trans hdim', hcand ▸ hcand'⟩, t, ht, hexp ▸ hlt⟩
  -- the open buckets are the incremented one
  have hopen : ∀ b ∈ bs', OpenFor hmac settings input W b → b = d' := by
    intro b hb hob
    rcases hback b hb with hold | rfl
    · have heq := h.single b hold d hd hob ho
      exact hunique.eq hb hd' rfl (by rw [heq, hdim, hcand])
    · rfl
  refine ⟨?_, ?_, ?_, ?_, ?_⟩
  · intro b hb hob t ht
    rw [hopen b hb hob, hexp]
    exact h.steady d hd ho t ht
  · intro b hb b' hb' hob hob'
    rw [hopen b hb hob, hopen b' hb' hob']
  · intro ⟨e, he, hev⟩ b hb hob
    rw [hopen b hb hob, hcand]
    rcases List.mem_cons.mp he with rfl | hold
    · cases hev
    · exact h.current ⟨e, hold, hev⟩ d hd ho
  · intro e he c hev hc
    refine ⟨d', hd', ho', ?_⟩
    rcases List.mem_cons.mp he with rfl | hold
    · cases hev
      exact ⟨rfl, le_refl _⟩
    · obtain ⟨b, hb, hob, hkey, hle⟩ := h.covered e hold c hev hc
      rw [h.single b hb d hd hob ho] at hkey hle
      exact ⟨hkey.trans hcand.symm, by omega⟩
  · refine List.pairwise_cons.mpr ⟨?_, h.distinct⟩
    intro e' he' c c' hev hev' _ hc'
    cases hev
    obtain ⟨b, hb, hob, -, hle⟩ := h.covered e' he' c' hev' hc'
    rw [h.single b hb d hd hob ho] at hle
    omega

/-- The first bucket of the window. -/
theorem opened (h : Ledger hmac settings input W bs J)
    (hnone : ∀ b ∈ bs, ¬ OpenFor hmac settings input W b) {d' : AuthThrottleBucket}
    (ho : OpenFor hmac settings input W d') (hexp : ∀ t ∈ W, t < d'.expiresAt)
    (hhead : (keysFor hmac settings input).head? = some d'.candidate) (hd' : d' ∈ bs')
    (hback : ∀ b ∈ bs', b ∈ bs ∨ b = d') :
    Ledger hmac settings input W bs' (record i call [.counted d'] ++ J) := by
  have hopen : ∀ b ∈ bs', OpenFor hmac settings input W b → b = d' := by
    intro b hb hob
    rcases hback b hb with hold | rfl
    · exact absurd hob (hnone b hold)
    · rfl
  refine ⟨?_, ?_, ?_, ?_, ?_⟩
  · intro b hb hob t ht
    rw [hopen b hb hob]
    exact hexp t ht
  · intro b hb b' hb' hob hob'
    rw [hopen b hb hob, hopen b' hb' hob']
  · intro _ b hb hob
    rw [hopen b hb hob]
    exact hhead
  · intro e he c hev hc
    rcases List.mem_cons.mp he with rfl | hold
    · cases hev
      exact ⟨d', hd', ho, rfl, le_refl _⟩
    · obtain ⟨b, hb, hob, -⟩ := h.covered e hold c hev hc
      exact absurd hob (hnone b hb)
  · refine List.pairwise_cons.mpr ⟨?_, h.distinct⟩
    intro e' he' c c' _ hev' _ hc'
    obtain ⟨b, hb, hob, -⟩ := h.covered e' he' c' hev' hc'
    exact absurd hob (hnone b hb)

/-- All counts of the value come from one bucket. -/
theorem one_bucket (h : Ledger hmac settings input W bs J) : ∃ key, ∀ e ∈ J, ∀ c,
    e.event = .counted c → Concerns hmac settings input c → c.candidate = key := by
  by_cases hany : ∃ b ∈ bs, OpenFor hmac settings input W b
  · obtain ⟨b, hb, ho⟩ := hany
    refine ⟨b.candidate, fun e he c hev hc => ?_⟩
    obtain ⟨b', hb', ho', hkey, -⟩ := h.covered e he c hev hc
    rw [hkey, h.single b' hb' b hb ho' ho]
  · refine ⟨⟨0, ""⟩, fun e he c hev hc => ?_⟩
    obtain ⟨b', hb', ho', -⟩ := h.covered e he c hev hc
    exact absurd ⟨b', hb', ho'⟩ hany

theorem count_ne (h : Ledger hmac settings input W bs J) {e e' : Entry ι Call Event}
    {c c' : AuthThrottleBucket} (he : e ∈ J) (he' : e' ∈ J) (hne : e ≠ e')
    (hev : e.event = .counted c) (hev' : e'.event = .counted c')
    (hc : Concerns hmac settings input c) (hc' : Concerns hmac settings input c') :
    c.count ≠ c'.count := by
  have hsymm : Std.Symm fun e e' : Entry ι Call Event => ∀ c c', e.event = .counted c →
      e'.event = .counted c' → Concerns hmac settings input c → Concerns hmac settings input c' →
      c.count ≠ c'.count :=
    ⟨fun _ _ hdistinct _ _ hev hev' hc hc' => (hdistinct _ _ hev' hev hc' hc).symm⟩
  exact h.distinct.forall he he' hne c c' hev hev' hc hc'

/-- No more callers than the limit have been answered a count within it. -/
theorem length_le (h : Ledger hmac settings input W bs J) {callers : List ι} {limit : ℕ}
    (hcallers : callers.Nodup)
    (hcounted : ∀ i ∈ callers, ∃ call c, (⟨i, call, .counted c⟩ : Entry ι Call Event) ∈ J ∧
      Concerns hmac settings input c ∧ 0 < c.count ∧ c.count ≤ limit) :
    callers.length ≤ limit := by
  have hchoice : ∀ i, ∃ n, i ∈ callers → ∃ call c,
      (⟨i, call, .counted c⟩ : Entry ι Call Event) ∈ J ∧ Concerns hmac settings input c ∧
        0 < c.count ∧ c.count ≤ limit ∧ c.count = n := by
    intro i
    by_cases hi : i ∈ callers
    · obtain ⟨call, c, he, hc, hpos, hle⟩ := hcounted i hi
      exact ⟨c.count, fun _ => ⟨call, c, he, hc, hpos, hle, rfl⟩⟩
    · exact ⟨0, fun hi' => absurd hi' hi⟩
  choose count hcount using hchoice
  -- a caller is known by its count
  have hnodup : (callers.map count).Nodup := by
    refine hcallers.map_on fun i hi j hj heq => ?_
    by_contra hne
    obtain ⟨call, c, he, hc, -, -, hn⟩ := hcount i hi
    obtain ⟨call', c', he', hc', -, -, hn'⟩ := hcount j hj
    refine h.count_ne he he' (fun h => hne (congrArg Entry.caller h)) rfl rfl hc hc' ?_
    rw [hn, hn', heq]
  have hsubset : callers.map count ⊆ List.range' 1 limit := by
    intro n hn
    obtain ⟨i, hi, rfl⟩ := List.mem_map.mp hn
    obtain ⟨-, c, -, -, hpos, hle, hn⟩ := hcount i hi
    rw [List.mem_range'_1]
    omega
  have hlength := (hnodup.subperm hsubset).length_le
  rwa [List.length_map, List.length_range'] at hlength

variable (hinj : ∀ secret, Function.Injective (hmac secret))

include hinj in
/-- The buckets of another value are none of this value's. -/
theorem concerns_eq {input' : ConsumeDimensionInput} {b : AuthThrottleBucket}
    (hb : Concerns hmac settings input b) (hb' : Concerns hmac settings input' b) :
    input = input' := by
  obtain ⟨dimension, value⟩ := input
  obtain ⟨dimension', value'⟩ := input'
  obtain ⟨rfl, hk⟩ := hb
  obtain ⟨rfl, hk'⟩ := hb'
  rw [value_eq_of_mem_keysFor hinj hk hk']

include hinj in
/-- An increment under the filter of the value `input'`. -/
theorem updated (h : Ledger hmac settings input W bs J) (input' : ConsumeDimensionInput)
    {now : Date} {candidates : List Candidate} {d' : AuthThrottleBucket}
    (hupdate : UpdateOne (AuthThrottleBucket.isLive input'.dimension candidates now)
      (AuthThrottleBucket.increment now) bs (some d') bs')
    (hcand : ∀ c ∈ candidates, c ∈ keysFor hmac settings input') (hW : input = input' → now ∈ W)
    (hunique : Unique (fun b : AuthThrottleBucket => some (b.dimension, b.candidate)) bs') :
    Ledger hmac settings input W bs' (record i call [.counted d'] ++ J) := by
  obtain ⟨d, hd, hlive, rfl, hd'⟩ := hupdate.source
  simp only [AuthThrottleBucket.isLive, Bool.and_eq_true, decide_eq_true_eq] at hlive
  obtain ⟨⟨hdim, hlt⟩, hkey⟩ := hlive
  have hconcerns : Concerns hmac settings input' d := ⟨hdim, hcand _ hkey⟩
  by_cases heq : input = input'
  · subst heq
    exact h.increment hd ⟨hconcerns, now, hW rfl, hlt⟩ rfl rfl rfl rfl hd'
      (fun b hb => hupdate.mem hb) hunique
  · have hforeign : ¬ Concerns hmac settings input (d.increment now) :=
      fun hc => heq (concerns_eq hinj hc (b := d.increment now) hconcerns)
    refine h.skip ?_ ?_ ?_
    · intro b hb hc
      rcases hupdate.mem hb with hold | rfl
      · exact hold
      · exact absurd hc hforeign
    · intro b hb ho
      rcases hupdate.kept hb with hkept | ⟨hlive', -⟩
      · exact hkept
      · simp only [AuthThrottleBucket.isLive, Bool.and_eq_true, decide_eq_true_eq] at hlive'
        exact absurd (concerns_eq hinj ho.1 ⟨hlive'.1.1, hcand _ hlive'.2⟩) heq
    · intro ev hev
      cases List.mem_singleton.mp hev
      exact hforeign

include hinj in
/-- The upsert of a caller that found no open bucket of the value `input'`. -/
theorem rolled (h : Ledger hmac settings input W bs J) (input' : ConsumeDimensionInput)
    {current : Candidate} {now expiresAt : Date} {d' : AuthThrottleBucket}
    (hupsert : Upserts
      (fun b => decide (b.dimension = input'.dimension) && decide (b.candidate = current))
      (AuthThrottleBucket.roll now expiresAt)
      (AuthThrottleBucket.start input'.dimension current now expiresAt) bs d' bs')
    (hhead : (keysFor hmac settings input').head? = some current)
    (hmissed : ∃ e ∈ J, e.event = .missed input'.dimension (keysFor hmac settings input'))
    (hW : input = input' → now ∈ W ∧ ∀ t ∈ W, t < expiresAt)
    (hindexed : Unique (fun b : AuthThrottleBucket => some (b.dimension, b.candidate)) bs)
    (hindexed' : Unique (fun b : AuthThrottleBucket => some (b.dimension, b.candidate)) bs') :
    Ledger hmac settings input W bs' (record i call [.counted d'] ++ J) := by
  have hcurrent : current ∈ keysFor hmac settings input' := List.mem_of_mem_head? hhead
  rcases hupsert with hupdate | ⟨hnone, rfl, rfl⟩
  · obtain ⟨d, hd, hkey, rfl, hd'⟩ := hupdate.source
    simp only [Bool.and_eq_true, decide_eq_true_eq] at hkey
    by_cases hlt : now < d.expiresAt
    · -- somebody else opened the bucket meanwhile
      have hlive : UpdateOne (AuthThrottleBucket.isLive input'.dimension [current] now)
          (AuthThrottleBucket.increment now) bs (some (d.roll now expiresAt)) bs' := by
        obtain ⟨pre, x, post, rfl, hx, hroll, hbs'⟩ := hupdate
        simp only [Bool.and_eq_true, decide_eq_true_eq] at hx
        have hxd : x = d := hindexed.eq (by simp) hd rfl (by rw [hkey.1, hkey.2, hx.1, hx.2])
        subst hxd
        refine ⟨pre, x, post, rfl, ?_, by simp [AuthThrottleBucket.roll, hlt], hbs'⟩
        simp [AuthThrottleBucket.isLive, hx.1, hx.2, hlt]
      refine h.updated hinj input' hlive (fun c hc => ?_) (fun heq => (hW heq).1) hindexed'
      rwa [List.mem_singleton.mp hc]
    · -- the bucket of an earlier window
      have hroll : d.roll now expiresAt =
          { d with count := 1, windowStartedAt := now, expiresAt := expiresAt, updatedAt := now } := by
        simp [AuthThrottleBucket.roll, hlt]
      have hconcerns : Concerns hmac settings input' (d.roll now expiresAt) := by
        rwa [Concerns, AuthThrottleBucket.roll_dimension, AuthThrottleBucket.roll_candidate,
          hkey.1, hkey.2, eq_self, true_and]
      by_cases heq : input = input'
      · subst heq
        obtain ⟨hnow, hexp⟩ := hW rfl
        refine h.opened ?_ ⟨hconcerns, now, hnow, ?_⟩ ?_ ?_ hd' fun b hb => hupdate.mem hb
        · intro b hb ho
          have hbd : b = d := by
            refine hindexed.eq hb hd rfl ?_
            have hbc := Option.some.inj ((h.current hmissed b hb ho).symm.trans hhead)
            rw [hkey.1, hkey.2, ho.1.1, hbc]
          rw [hbd] at ho
          exact hlt (h.steady d hd ho now hnow)
        · rw [hroll]
          exact hexp now hnow
        · rw [hroll]
          exact hexp
        · rw [AuthThrottleBucket.roll_candidate, hkey.2]
          exact hhead
      · have hforeign : ¬ Concerns hmac settings input (d.roll now expiresAt) :=
          fun hc => heq (concerns_eq hinj hc hconcerns)
        refine h.skip ?_ ?_ ?_
        · intro b hb hc
          rcases hupdate.mem hb with hold | rfl
          · exact hold
          · exact absurd hc hforeign
        · intro b hb ho
          rcases hupdate.kept hb with hkept | ⟨hkey', -⟩
          · exact hkept
          · simp only [Bool.and_eq_true, decide_eq_true_eq] at hkey'
            exact absurd (concerns_eq hinj ho.1 ⟨hkey'.1, hkey'.2 ▸ hcurrent⟩) heq
        · intro ev hev
          cases List.mem_singleton.mp hev
          exact hforeign
  · -- no bucket had the key
    have hconcerns : Concerns hmac settings input'
        (AuthThrottleBucket.start input'.dimension current now expiresAt) := ⟨rfl, hcurrent⟩
    by_cases heq : input = input'
    · subst heq
      obtain ⟨hnow, hexp⟩ := hW rfl
      refine h.opened ?_ ⟨hconcerns, now, hnow, hexp now hnow⟩ hexp hhead List.mem_cons_self ?_
      · intro b hb ho
        have hbc := Option.some.inj ((h.current hmissed b hb ho).symm.trans hhead)
        have hkey := hnone b hb
        simp only [Bool.and_eq_false_iff, decide_eq_false_iff_not] at hkey
        rcases hkey with hdim | hcand
        · exact hdim ho.1.1
        · exact hcand hbc
      · intro b hb
        exact (List.mem_cons.mp hb).symm
    · have hforeign : ¬ Concerns hmac settings input
          (AuthThrottleBucket.start input'.dimension current now expiresAt) :=
        fun hc => heq (concerns_eq hinj hc hconcerns)
      refine h.skip ?_ (fun b hb _ => List.mem_cons_of_mem _ hb) ?_
      · intro b hb hc
        rcases List.mem_cons.mp hb with rfl | hold
        · exact absurd hc hforeign
        · exact hold
      · intro ev hev
        cases List.mem_singleton.mp hev
        exact hforeign

include hinj in
/-- What one atomic call does to the ledger of a value. -/
theorem applied {s s' : Database} {β : Type} {op : Op β} {x : β} {l : List Event}
    {may : ConsumeDimensionInput → Prop} {now : Date}
    (h : Ledger hmac settings input W s.buckets J) (hs : s.Indexed)
    (hop : exec β op s x s') (hconduct : conduct hmac settings may now l β op)
    (hown : ∀ ev ∈ l, ∃ e ∈ J, e.event = ev)
    (hW : may input → note β op (some x) ≠ [] → now ∈ W)
    (hshort : ∀ t ∈ W, ∀ t' ∈ W,
      t' < t + (settings.policy input.dimension).windowSeconds * 1000) :
    Ledger hmac settings input W s'.buckets (record i call (note β op (some x)) ++ J) := by
  obtain ⟨heffect, hs'⟩ := hop
  cases op with
  | findReferencedVersions date =>
    obtain ⟨-, rfl⟩ := heffect
    exact h
  | incrementLive dimension candidates date =>
    obtain ⟨rfl, value, hmay, rfl⟩ := hconduct
    obtain ⟨buckets, hgreatest, rfl⟩ := heffect
    have hupdate := hgreatest.updateOne
    cases x with
    | some d' =>
      exact h.updated hinj ⟨dimension, value⟩ hupdate (fun c hc => hc)
        (fun heq => hW (heq ▸ hmay) (List.cons_ne_nil _ _)) hs'
    | none =>
      obtain ⟨hnone, rfl⟩ := hupdate
      by_cases hsame : dimension = input.dimension ∧
          keysFor hmac settings ⟨dimension, value⟩ = keysFor hmac settings input
      · obtain ⟨rfl, hkeys⟩ := hsame
        show Ledger hmac settings input W s.buckets (record i call [.missed _ _] ++ J)
        rw [hkeys]
        refine h.noted fun b hb ho => ?_
        have heq : input = ⟨input.dimension, value⟩ :=
          concerns_eq hinj ho.1 ⟨ho.1.1, hkeys ▸ ho.1.2⟩
        have hnow := hW (heq ▸ hmay) (List.cons_ne_nil _ _)
        have hlive := hnone b hb
        simp only [AuthThrottleBucket.isLive, hkeys, ho.1.1, ho.1.2, h.steady b hb ho date hnow,
          decide_true, Bool.and_true, Bool.true_eq_false] at hlive
      · refine h.skip (fun b hb _ => hb) (fun b hb _ => hb) fun ev hev => ?_
        cases List.mem_singleton.mp hev
        exact hsame
  | rollBucket dimension current date expiresAt =>
    obtain ⟨rfl, rfl, value, hmay, hmissed, hhead⟩ := hconduct
    cases x with
    | bucket d' =>
      obtain ⟨buckets, hupsert, rfl⟩ := heffect
      refine h.rolled hinj ⟨dimension, value⟩ hupsert hhead (hown _ hmissed) ?_ hs hs'
      rintro rfl
      have hnow := hW hmay (List.cons_ne_nil _ _)
      exact ⟨hnow, fun t ht => hshort date hnow t ht⟩
    | duplicateKey =>
      obtain ⟨-, rfl⟩ := heffect
      exact h
  | incrementRaced dimension current date =>
    obtain ⟨rfl, value, hmay, hhead⟩ := hconduct
    obtain ⟨buckets, hupdate, rfl⟩ := heffect
    cases x with
    | some d' =>
      refine h.updated hinj ⟨dimension, value⟩ hupdate (fun c hc => ?_)
        (fun heq => hW (heq ▸ hmay) (List.cons_ne_nil _ _)) hs'
      rw [List.mem_singleton.mp hc]
      exact List.mem_of_mem_head? hhead
    | none =>
      obtain ⟨-, rfl⟩ := hupdate
      exact h

end Ledger

end AuthThrottle
