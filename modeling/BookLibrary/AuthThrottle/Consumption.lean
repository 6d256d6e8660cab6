import BookLibrary.Interleaving.Contract
import BookLibrary.AuthThrottle.Counting

/-!
# What a consumption issues and answers

A walk through the service, one caller at a time. An attempt is allowed only after
every dimension it consumes has answered it a count within the limit.
-/

namespace AuthThrottle

open Documents Interleaving

variable {hmac : String → String → String} {settings : Settings}

/-- The caller has been answered a count within the limit. -/
def Granted (hmac : String → String → String) (settings : Settings)
    (input : ConsumeDimensionInput) (l : List Event) : Prop :=
  ∃ b, .counted b ∈ l ∧ Concerns hmac settings input b ∧ 0 < b.count ∧
    b.count ≤ (settings.policy input.dimension).limit

theorem Granted.mono {input : ConsumeDimensionInput} {l l' : List Event}
    (h : Granted hmac settings input l) (hl : l ⊆ l') : Granted hmac settings input l' := by
  obtain ⟨b, hb, hgranted⟩ := h
  exact ⟨b, hl hb, hgranted⟩

theorem toDecision_allowed {b : AuthThrottleBucket} {limit : ℕ} {now : Date}
    (h : (toDecision b limit now).allowed = true) : b.count ≤ limit := by
  by_contra hlt
  simp [toDecision, hlt] at h

section Answers

theorem incrementLive_answer {dimension : AuthThrottleDimension} {candidates : List Candidate}
    {now : Date} {b : AuthThrottleBucket}
    (h : (system hmac settings).Answers (.incrementLive dimension candidates now) (some b)) :
    (b.dimension = dimension ∧ b.candidate ∈ candidates) ∧ 0 < b.count := by
  obtain ⟨s, s', ⟨buckets, hupdate, -⟩, -⟩ := h
  obtain ⟨d, -, hlive, rfl, -⟩ := hupdate.updateOne.source
  simp only [AuthThrottleBucket.isLive, Bool.and_eq_true, decide_eq_true_eq] at hlive
  exact ⟨⟨hlive.1.1, hlive.2⟩, Nat.succ_pos _⟩

theorem rollBucket_answer {dimension : AuthThrottleDimension} {current : Candidate}
    {now expiresAt : Date} {b : AuthThrottleBucket}
    (h : (system hmac settings).Answers (.rollBucket dimension current now expiresAt)
      (.bucket b)) : (b.dimension = dimension ∧ b.candidate = current) ∧ 0 < b.count := by
  obtain ⟨s, s', ⟨buckets, hupsert, -⟩, -⟩ := h
  rcases hupsert with hupdate | ⟨-, rfl, -⟩
  · obtain ⟨d, -, hkey, rfl, -⟩ := hupdate.source
    simp only [Bool.and_eq_true, decide_eq_true_eq] at hkey
    rw [AuthThrottleBucket.roll_dimension, AuthThrottleBucket.roll_candidate]
    exact ⟨hkey, AuthThrottleBucket.roll_count_pos⟩
  · exact ⟨⟨rfl, rfl⟩, Nat.one_pos⟩

theorem incrementRaced_answer {dimension : AuthThrottleDimension} {current : Candidate}
    {now : Date} {b : AuthThrottleBucket}
    (h : (system hmac settings).Answers (.incrementRaced dimension current now) (some b)) :
    (b.dimension = dimension ∧ b.candidate = current) ∧ 0 < b.count := by
  obtain ⟨s, s', ⟨buckets, hupdate, -⟩, -⟩ := h
  obtain ⟨d, -, hlive, rfl, -⟩ := hupdate.source
  simp only [AuthThrottleBucket.isLive, Bool.and_eq_true, decide_eq_true_eq,
    List.mem_singleton] at hlive
  exact ⟨⟨hlive.1.1, hlive.2⟩, Nat.succ_pos _⟩

end Answers

section Walks

variable {may : ConsumeDimensionInput → Prop} {now : Date} {faulted : Bool} {l : List Event}

/-- The walk through one piece of the service. -/
abbrev Walks (hmac : String → String → String) (settings : Settings)
    (may : ConsumeDimensionInput → Prop) (now : Date) {α : Type}
    (Q : Bool → List Event → Except ThrottleFailure α → Prop) (faulted : Bool) (l : List Event)
    (x : Throttle α) : Prop :=
  Conforms (system hmac settings) (fun _ => conduct hmac settings may now) Q faulted l x.run

/-- A decision that allows the attempt was granted. -/
def Decided (hmac : String → String → String) (settings : Settings)
    (inputs : List ConsumeDimensionInput) (_faulted : Bool) (l : List Event) :
    Except ThrottleFailure AuthThrottleDecision → Prop
  | .ok decision => decision.allowed = true → ∀ input ∈ inputs, Granted hmac settings input l
  | .error _ => True

theorem decided_of_count {input : ConsumeDimensionInput} {b : AuthThrottleBucket}
    (hb : .counted b ∈ l) (hconcerns : Concerns hmac settings input b) (hpos : 0 < b.count) :
    Decided hmac settings [input] faulted l
      (.ok (toDecision b (settings.policy input.dimension).limit now)) := by
  intro hallowed input' hinput
  rw [List.mem_singleton.mp hinput]
  exact ⟨b, hb, hconcerns, hpos, toDecision_allowed hallowed⟩

theorem consumeDimension_walks {input : ConsumeDimensionInput} {current : VersionedSecret}
    {previous : List VersionedSecret} (hkeyring : settings.keyring = current :: previous)
    (hmay : may input) :
    Walks hmac settings may now (Decided hmac settings [input]) faulted l
      (consumeDimension hmac settings input current previous now) := by
  have hkeys : candidatesFor hmac (current :: previous) input.dimension input.value =
      keysFor hmac settings input := by rw [keysFor, hkeyring]
  have hhead : (keysFor hmac settings input).head? = some
      ⟨current.version, deriveBucketKey hmac current.secret input.dimension input.value⟩ := by
    rw [← hkeys]
    rfl
  have hcurrent := List.mem_of_mem_head? hhead
  rw [consumeDimension, hkeys]
  refine Conforms.run_call ⟨rfl, input.value, hmay, rfl⟩ (fun _ _ => trivial) fun r hr => ?_
  cases r with
  | some existing =>
    obtain ⟨hconcerns, hpos⟩ := incrementLive_answer hr
    exact Conforms.run_pure (decided_of_count List.mem_cons_self hconcerns hpos)
  | none =>
    refine Conforms.run_call ⟨rfl, rfl, input.value, hmay, List.mem_cons_self, hhead⟩
      (fun _ _ => trivial) fun r hr => ?_
    cases r with
    | bucket b =>
      obtain ⟨⟨hdim, hcand⟩, hpos⟩ := rollBucket_answer hr
      exact Conforms.run_pure
        (decided_of_count List.mem_cons_self ⟨hdim, hcand ▸ hcurrent⟩ hpos)
    | duplicateKey =>
      refine Conforms.run_call ⟨rfl, input.value, hmay, hhead⟩ (fun _ _ => trivial) fun r hr => ?_
      cases r with
      | some b =>
        obtain ⟨⟨hdim, hcand⟩, hpos⟩ := incrementRaced_answer hr
        exact Conforms.run_pure
          (decided_of_count List.mem_cons_self ⟨hdim, hcand ▸ hcurrent⟩ hpos)
      | none => exact Conforms.run_pure fun hallowed => by cases hallowed

/-- The decisions belong to the dimensions, one by one. -/
def DecidedEach (hmac : String → String → String) (settings : Settings)
    (inputs : List ConsumeDimensionInput) (_faulted : Bool) (l : List Event) :
    Except ThrottleFailure (List AuthThrottleDecision) → Prop
  | .ok decisions => (∀ decision ∈ decisions, decision.allowed = true) →
      ∀ input ∈ inputs, Granted hmac settings input l
  | .error _ => True

theorem consumeEach_walks {current : VersionedSecret} {previous : List VersionedSecret}
    (hkeyring : settings.keyring = current :: previous) {inputs : List ConsumeDimensionInput}
    (hmay : ∀ input ∈ inputs, may input) :
    Walks hmac settings may now (DecidedEach hmac settings inputs) faulted l
      (consumeEach hmac settings current previous now inputs) := by
  induction inputs generalizing faulted l with
  | nil => exact Conforms.run_pure fun _ _ h => absurd h List.not_mem_nil
  | cons input inputs ih =>
    -- the first dimension, whose failure is kept for later
    refine Conforms.run_then (R := fun _ l r => ∀ decision, r = .ok (some decision) →
      decision.allowed = true → Granted hmac settings input l) ?_ ?_ fun _ _ _ _ => trivial
    · refine Conforms.run_handle (R := fun _ l r => ∀ decision, r = .ok (some decision) →
        decision.allowed = true → Granted hmac settings input l) ?_ (fun _ _ _ h => h) ?_
      · refine Conforms.run_then
          (consumeDimension_walks hkeyring (hmay input List.mem_cons_self)) ?_ ?_
        · intro fl l decision hdecision
          refine Conforms.run_pure fun decision' heq hallowed => ?_
          cases heq
          exact hdecision hallowed input (List.mem_singleton_self _)
        · intro fl l e _ decision heq
          cases heq
      · intro fl l e _
        refine Conforms.run_pure fun decision heq => ?_
        cases heq
    · intro fl l decision hdecision
      refine Conforms.run_then (Conforms.frame (List.suffix_refl l)
        (ih fun input hinput => hmay input (List.mem_cons_of_mem _ hinput))) ?_
        fun _ _ _ _ => trivial
      intro fl m decisions hdecisions
      obtain ⟨heach, hl⟩ := hdecisions
      cases decision with
      | none => exact Conforms.run_throw trivial
      | some decision =>
        refine Conforms.run_pure fun hallowed input' hinput => ?_
        rcases List.mem_cons.mp hinput with rfl | hinput
        · exact (hdecision decision rfl (hallowed _ List.mem_cons_self)).mono hl.subset
        · exact heach (fun d hd => hallowed d (List.mem_cons_of_mem _ hd)) input' hinput

theorem consumeMany_walks {inputs : List ConsumeDimensionInput}
    (hmay : ∀ input ∈ inputs, may input) :
    Walks hmac settings may now (Decided hmac settings inputs) faulted l
      (consumeMany hmac settings inputs now) := by
  rw [consumeMany]
  split
  · exact Conforms.run_pure fun hallowed => by cases hallowed
  · next current previous hkeyring =>
    refine Conforms.run_then (R := fun _ _ _ => True) ?_ ?_ fun _ _ _ _ => trivial
    · exact Conforms.run_call trivial (fun _ _ => trivial) fun _ _ => Conforms.run_pure trivial
    · intro fl l referenced _
      cases referenced with
      | false => exact Conforms.run_pure fun hallowed => by cases hallowed
      | true =>
        refine Conforms.run_then (consumeEach_walks hkeyring hmay) ?_ fun _ _ _ _ => trivial
        intro fl l decisions hdecisions
        cases hdenied : (decisions.filter fun decision => !decision.allowed).isEmpty with
        | true =>
          simp only [hdenied, if_true]
          refine Conforms.run_pure fun _ => hdecisions fun decision hmem => ?_
          rw [List.isEmpty_iff, List.filter_eq_nil_iff] at hdenied
          simpa using hdenied decision hmem
        | false =>
          simp only [hdenied, Bool.false_eq_true, if_false]
          exact Conforms.run_pure fun hallowed => by cases hallowed

end Walks

end AuthThrottle
