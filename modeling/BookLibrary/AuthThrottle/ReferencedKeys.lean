import BookLibrary.AuthThrottle.Consumption
import BookLibrary.AuthThrottle.Rotation
import BookLibrary.Interleaving.Within

/-!
# The keys that buckets refer to

Buckets are opened under the current key and counted in under the version that they have.
So whatever attempts meet in the store, no version is referred to that was not before, but
the current one, and no attempt is denied for want of a key.
-/

namespace AuthThrottle

open Documents Interleaving

variable {ι : Type} [DecidableEq ι] {hmac : String → String → String} {settings : Settings}
  {moment : Date} {s s' : Database}

section Writes

variable {bs bs' : List AuthThrottleBucket} {b : AuthThrottleBucket}

theorem KeysPresent.subset (h : KeysPresent settings moment bs) (hsub : bs' ⊆ bs) :
    KeysPresent settings moment bs' :=
  fun b hb => h b (hsub hb)

/-- A count leaves the version and the expiry of the bucket. -/
theorem KeysPresent.counted (h : KeysPresent settings moment bs)
    {filter : AuthThrottleBucket → Bool} {now : Date} {r : Option AuthThrottleBucket}
    (hupdate : UpdateOne filter (AuthThrottleBucket.increment now) bs r bs') :
    KeysPresent settings moment bs' := by
  cases r with
  | none =>
    obtain ⟨-, rfl⟩ := hupdate
    exact h
  | some d =>
    obtain ⟨d₀, hd₀, -, rfl, -⟩ := hupdate.source
    intro b hb hlive
    rcases hupdate.mem hb with hold | rfl
    · exact h b hold hlive
    · exact h d₀ hd₀ hlive

/-- A bucket is rolled over, or opened, under the version it is looked up by. -/
theorem KeysPresent.rolled (h : KeysPresent settings moment bs) {dimension : AuthThrottleDimension}
    {current : Candidate} {now expiresAt : Date} {d : AuthThrottleBucket}
    (hcurrent : current.keyVersion ∈ settings.keyring.map (·.version))
    (hupsert : Upserts (fun b => decide (b.dimension = dimension) && decide (b.candidate = current))
      (AuthThrottleBucket.roll now expiresAt)
      (AuthThrottleBucket.start dimension current now expiresAt) bs d bs') :
    KeysPresent settings moment bs' := by
  intro b hb hlive
  rcases hupsert with hupdate | ⟨-, rfl, rfl⟩
  · obtain ⟨d₀, -, hfilter, rfl, -⟩ := hupdate.source
    rcases hupdate.mem hb with hold | rfl
    · exact h b hold hlive
    · simp only [Bool.and_eq_true, decide_eq_true_eq] at hfilter
      have hcandidate : (d₀.roll now expiresAt).candidate = current :=
        AuthThrottleBucket.roll_candidate.trans hfilter.2
      have hversion : (d₀.roll now expiresAt).keyVersion = current.keyVersion :=
        congrArg Candidate.keyVersion hcandidate
      rwa [hversion]
  · rcases List.mem_cons.mp hb with rfl | hold
    · exact hcurrent
    · exact h b hold hlive

end Writes

section Conduct

variable {may : ConsumeDimensionInput → Prop} {now : Date} {l : List Event} {β : Type} {op : Op β}

theorem version_of_head {input : ConsumeDimensionInput} {current : Candidate}
    (h : (keysFor hmac settings input).head? = some current) :
    current.keyVersion ∈ settings.keyring.map (·.version) := by
  obtain ⟨key, hkey, rfl⟩ := mem_candidatesFor.mp (List.mem_of_mem_head? h)
  exact List.mem_map_of_mem hkey

/-- What a consumption issues opens no bucket but under the current key. -/
theorem KeysPresent.applied {x : β} (h : KeysPresent settings moment s.buckets)
    (hconduct : conduct hmac settings may now l β op) (hexec : exec β op s x s') :
    KeysPresent settings moment s'.buckets := by
  obtain ⟨heffect, -⟩ := hexec
  cases op with
  | findReferencedVersions now =>
    obtain ⟨-, rfl⟩ := heffect
    exact h
  | incrementLive dimension candidates now =>
    obtain ⟨buckets, hupdate, rfl⟩ := heffect
    exact h.counted hupdate.updateOne
  | rollBucket dimension current now expiresAt =>
    obtain ⟨-, -, value, -, -, hhead⟩ := hconduct
    cases x with
    | bucket b =>
      obtain ⟨buckets, hupsert, rfl⟩ := heffect
      exact h.rolled (version_of_head hhead) hupsert
    | duplicateKey =>
      obtain ⟨-, rfl⟩ := heffect
      exact h
  | incrementRaced dimension current now =>
    obtain ⟨buckets, hupdate, rfl⟩ := heffect
    exact h.counted hupdate

variable (ι hmac settings moment) in
def keysContract : Contract ι (system hmac settings) where
  inv s _ := KeysPresent settings moment s.buckets
  legal attempt _ l β op := conduct hmac settings (· ∈ attempt.dimensions) attempt.now l β op
  post attempt fl l r := Decided hmac settings attempt.dimensions fl l r
  inv_call {s s' J i call fl β op r} h _ hconduct happlies := by
    cases r with
    | none =>
      obtain ⟨-, rfl⟩ := happlies
      exact h
    | some x => exact h.applied hconduct happlies
  inv_env h helapse := h.subset helapse.buckets.1.subset
  conforms attempt := consumeMany_walks fun _ hinput => hinput

/-- The keys that are there stay those that are referred to. -/
theorem KeysPresent.runs {gate : Gate ι Attempt Op Database Event}
    {c : Config ι Attempt Op Database (Except ThrottleFailure AuthThrottleDecision) Event}
    (h : KeysPresent settings moment s.buckets)
    (hrun : (system hmac settings).Runs gate (Config.init s) c) :
    KeysPresent settings moment c.store.buckets :=
  ((WellFormed.init (k := keysContract ι hmac settings moment) h).runs hrun).inv

end Conduct

section Answers

/-- The attempt is not denied for want of a key, if its date is not before the moment. -/
def Served (moment : Date) (attempt : Attempt) (_faulted : Bool) (_l : List Event)
    (r : Except ThrottleFailure AuthThrottleDecision) : Prop :=
  moment ≤ attempt.now → ∀ decision, r = .ok decision →
    decision.reason ≠ some .throttleKeyRequired

variable {attempt : Attempt} {faulted : Bool} {l : List Event}

/-- Where every key that is referred to is there, the check of the keys lets the attempt on. -/
theorem consumeMany_served (hkeyring : settings.keyring ≠ []) :
    Conforms ((system hmac settings).within fun s => KeysPresent settings moment s.buckets)
      (fun _ _ _ _ => True) (Served moment attempt) faulted l
      (consumeMany hmac settings attempt.dimensions attempt.now).run := by
  have hthrown : ∀ fl l e, Served moment attempt fl l (.error e) :=
    fun fl l e _ decision heq => by cases heq
  rw [consumeMany]
  split
  · next hempty => exact absurd hempty hkeyring
  · refine Conforms.run_then (R := fun _ _ r => moment ≤ attempt.now → ∀ all, r = .ok all →
      all = true) ?_ ?_ fun fl l e _ => hthrown fl l e
    · refine Conforms.run_call trivial (fun _ _ _ all heq => by cases heq) fun versions hanswers => ?_
      refine Conforms.run_pure fun hmoment all heq => ?_
      obtain rfl := Except.ok.inj heq
      obtain ⟨s, s', hkeys, ⟨rfl, -⟩, -⟩ := hanswers
      rw [List.all_eq_true]
      intro version hversion
      obtain ⟨b, hb, rfl⟩ := List.mem_map.mp hversion
      obtain ⟨hmem, hlive⟩ := List.mem_filter.mp hb
      exact decide_eq_true (hkeys b hmem (lt_of_le_of_lt hmoment (of_decide_eq_true hlive)))
    · intro fl l all hall
      cases all with
      | false =>
        refine Conforms.run_pure fun hmoment => ?_
        exact absurd (hall hmoment false rfl) (by decide)
      | true =>
        -- the dimensions may end as they like: the answer names the limit, or nothing
        refine Conforms.run_then (R := fun _ _ _ => True)
          ((Conforms.vacuous _).mono fun _ _ _ _ => trivial) ?_ fun fl l e _ => hthrown fl l e
        intro fl l decisions _
        cases hdenied : (decisions.filter fun decision => !decision.allowed).isEmpty with
        | true =>
          simp only [hdenied, if_true]
          refine Conforms.run_pure fun _ decision heq => ?_
          obtain rfl := Except.ok.inj heq
          decide
        | false =>
          simp only [hdenied, Bool.false_eq_true, if_false]
          refine Conforms.run_pure fun _ decision heq => ?_
          obtain rfl := Except.ok.inj heq
          simp

/-- However attempts meet, none of them is denied for want of a key. -/
theorem served_of_runs {gate : Gate ι Attempt Op Database Event}
    {c : Config ι Attempt Op Database (Except ThrottleFailure AuthThrottleDecision) Event}
    (hkeys : KeysPresent settings moment s.buckets) (hkeyring : settings.keyring ≠ [])
    (hrun : (system hmac settings).Runs gate (Config.init s) c) {i : ι}
    {th : Thread Attempt Op (Except ThrottleFailure AuthThrottleDecision)}
    {r : Except ThrottleFailure AuthThrottleDecision} (hreturns : c.Returns i th r) :
    Served moment th.call th.faulted (own i c.journal) r :=
  System.Runs.ends_within (fun _ h => hkeys.runs h) (fun _ => consumeMany_served hkeyring) hrun
    hreturns

end Answers

end AuthThrottle
