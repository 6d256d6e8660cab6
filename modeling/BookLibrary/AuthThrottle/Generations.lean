import BookLibrary.AuthThrottle.Consumption
import BookLibrary.SignIn.Execution

/-!
# Exact counting

Any number of callers consume one dimension and value at once. A bucket lives through
generations: one ends when the bucket is rolled over or gone, and the next begins at
one. Within a generation the counts answered are consecutive, so what has been
counted and what has been allowed can be read off the counts alone.
-/

namespace AuthThrottle

open Documents Interleaving

variable {ι : Type} {hmac : String → String → String} {settings : Settings}
  {input : ConsumeDimensionInput} {current : VersionedSecret} {previous : List VersionedSecret}

def Event.bucket? : Event → Option AuthThrottleBucket
  | .counted b => some b
  | .missed .. => none

/-- The buckets a caller has been answered. -/
def tally (l : List Event) : List AuthThrottleBucket := l.filterMap Event.bucket?

@[simp] theorem tally_nil : tally [] = [] := rfl

@[simp] theorem tally_counted {b : AuthThrottleBucket} {l : List Event} :
    tally (.counted b :: l) = b :: tally l := rfl

@[simp] theorem tally_missed {dimension : AuthThrottleDimension} {candidates : List Candidate}
    {l : List Event} : tally (.missed dimension candidates :: l) = tally l := rfl

theorem mem_tally {b : AuthThrottleBucket} {l : List Event} :
    b ∈ tally l ↔ .counted b ∈ l := by
  rw [tally, List.mem_filterMap]
  constructor
  · rintro ⟨ev, hev, heq⟩
    cases ev with
    | counted b' =>
      cases heq
      exact hev
    | missed => cases heq
  · intro h
    exact ⟨_, h, rfl⟩

/-- Any number of consumptions of one dimension and value under one keyring; a request
is the date it is made at. -/
def consumption (hmac : String → String → String) (settings : Settings)
    (input : ConsumeDimensionInput) (current : VersionedSecret)
    (previous : List VersionedSecret) :
    System Date Op Database (Except ThrottleFailure AuthThrottleDecision) Event where
  body now := (consumeDimension hmac settings input current previous now).run
  exec := exec
  fallible := fun _ _ => True
  env := Database.Elapse
  note := note

/-- An attempt that was counted, with the bucket it was answered. -/
abbrev Counted (ι : Type) := Entry ι Date AuthThrottleBucket

/-- The attempts counted in the bucket of candidate `c`, latest first. -/
def countedIn (c : Candidate) (J : List (Entry ι Date Event)) : List (Counted ι) :=
  J.filterMap fun e => (e.event.bucket?.filter fun b => decide (b.candidate = c)).map
    (⟨e.caller, e.call, ·⟩)

/-- One window of one bucket: what it had counted before the run, and the attempts
counted in it since, oldest first. -/
structure Generation (ι : Type) where
  startedAt : Date
  expiresAt : Date
  before : ℕ
  attempts : List (Counted ι)

namespace Generation

/-- The bucket shows this generation. -/
def Shows (g : Generation ι) (b : AuthThrottleBucket) : Prop :=
  b.windowStartedAt = g.startedAt ∧ b.expiresAt = g.expiresAt

/-- The counts of the attempts run on from what was counted before. -/
def Consecutive (g : Generation ι) : Prop :=
  ∀ k e, g.attempts[k]? = some e → e.event.count = g.before + k + 1 ∧ g.Shows e.event

/-- The first attempt of the generation opened its window. -/
def Opened (g : Generation ι) (windowSeconds : ℕ) : Prop :=
  g.before = 0 ∧ ∃ e, g.attempts.head? = some e ∧ g.startedAt = e.call ∧
    g.expiresAt = e.call + windowSeconds * 1000

/-- The window had been opened before the run. -/
def Resumed (g : Generation ι) (bs : List AuthThrottleBucket) (dimension : AuthThrottleDimension)
    (c : Candidate) : Prop :=
  ∃ b ∈ bs, b.dimension = dimension ∧ b.candidate = c ∧ g.before = b.count ∧ g.Shows b

def append (g : Generation ι) (e : Counted ι) : Generation ι :=
  { g with attempts := g.attempts ++ [e] }

end Generation

/-- The generations of the bucket of candidate `c`, oldest first: they take every counted
attempt once and in order, only the first of them may go back to before the run, and the
last of them is what the store shows. -/
structure Tallied (settings : Settings) (dimension : AuthThrottleDimension) (c : Candidate)
    (s₀ s : Database) (J : List (Entry ι Date Event)) (gens : List (Generation ι)) : Prop where
  attempts : (countedIn c J).reverse = gens.flatMap (·.attempts)
  consecutive : ∀ g ∈ gens, g.Consecutive
  opened : ∀ g ∈ gens.tail, g.Opened (settings.policy dimension).windowSeconds
  first : ∀ g ∈ gens.head?, g.Opened (settings.policy dimension).windowSeconds ∨
    g.Resumed s₀.buckets dimension c
  stored : ∀ b ∈ s.buckets, b.dimension = dimension → b.candidate = c → ∃ g,
    gens.getLast? = some g ∧ g.Shows b ∧ b.count = g.before + g.attempts.length

/-- No attempt is counted twice, none is allowed uncounted, and of a generation exactly
the first `limit` counted attempts are allowed, of those that have been answered. -/
structure CountedExactly (settings : Settings) (dimension : AuthThrottleDimension) [DecidableEq ι]
    (s₀ : Database)
    (cfg : Config ι Date Op Database (Except ThrottleFailure AuthThrottleDecision) Event) :
    Prop where
  once : ∀ i, (tally (own i cfg.journal)).length ≤ 1
  counted : ∀ i th decision, cfg.Returns i th (.ok decision) → decision.allowed = true →
    ∃ b, tally (own i cfg.journal) = [b]
  generations : ∀ c, ∃ gens, Tallied settings dimension c s₀ cfg.store cfg.journal gens ∧
    ∀ g ∈ gens, ∀ k e, g.attempts[k]? = some e → ∀ th decision,
      cfg.Returns e.caller th (.ok decision) →
        (decision.allowed = true ↔ g.before + k < (settings.policy dimension).limit)

section Counted

variable {c : Candidate} {J : List (Entry ι Date Event)} {i : ι} {now : Date}
  {b : AuthThrottleBucket}

@[simp] theorem countedIn_nil : countedIn c ([] : List (Entry ι Date Event)) = [] := rfl

theorem countedIn_self (h : b.candidate = c) :
    countedIn c (record i now [.counted b] ++ J) = ⟨i, now, b⟩ :: countedIn c J := by
  simp [countedIn, record, Event.bucket?, Option.filter, h]

theorem countedIn_other (h : b.candidate ≠ c) :
    countedIn c (record i now [.counted b] ++ J) = countedIn c J := by
  simp [countedIn, record, Event.bucket?, Option.filter, h]

theorem countedIn_silent {evs : List Event} (h : tally evs = []) :
    countedIn c (record i now evs ++ J) = countedIn c J := by
  have hnew : countedIn c (record i now evs) = [] := by
    refine List.filterMap_eq_nil_iff.mpr fun e he => ?_
    rw [List.filterMap_eq_nil_iff.mp h _ (mem_record.mp he).2.2]
    rfl
  rw [countedIn, List.filterMap_append]
  exact congrArg (· ++ countedIn c J) hnew

theorem mem_countedIn {e : Counted ι} : e ∈ countedIn c J ↔
    (⟨e.caller, e.call, .counted e.event⟩ : Entry ι Date Event) ∈ J ∧ e.event.candidate = c := by
  obtain ⟨i, now, b⟩ := e
  simp only [countedIn, List.mem_filterMap, Option.map_eq_some_iff, Option.filter_eq_some_iff,
    decide_eq_true_eq, Entry.mk.injEq]
  constructor
  · rintro ⟨⟨i', now', ev⟩, he, b', ⟨hev, hc⟩, rfl, rfl, rfl⟩
    cases ev with
    | counted b' =>
      cases hev
      exact ⟨he, hc⟩
    | missed => cases hev
  · intro ⟨he, hc⟩
    exact ⟨_, he, b, ⟨rfl, hc⟩, rfl, rfl, rfl⟩

end Counted

section Tallied

variable {dimension : AuthThrottleDimension} {c : Candidate} {s₀ s s' : Database}
  {J : List (Entry ι Date Event)} {gens : List (Generation ι)} {i : ι} {now : Date}
  {b d : AuthThrottleBucket}

/-- Before the run: the generation a bucket of the candidate is in, if there is one. -/
theorem Tallied.init (hindexed : s₀.Indexed) : ∃ gens : List (Generation ι),
    Tallied settings dimension c s₀ s₀ [] gens := by
  by_cases hany : ∃ b ∈ s₀.buckets, b.dimension = dimension ∧ b.candidate = c
  · obtain ⟨b, hb, hdim, hc⟩ := hany
    refine ⟨[⟨b.windowStartedAt, b.expiresAt, b.count, []⟩], rfl, ?_, ?_, ?_, ?_⟩
    · intro g hg k e he
      rw [List.mem_singleton.mp hg] at he
      cases he
    · exact fun g hg => absurd hg List.not_mem_nil
    · intro g hg
      cases hg
      exact .inr ⟨b, hb, hdim, hc, rfl, rfl, rfl⟩
    · intro b' hb' hdim' hc'
      have heq : b' = b := hindexed.eq hb' hb rfl (by rw [hdim, hc, hdim', hc'])
      exact ⟨_, rfl, heq ▸ ⟨rfl, rfl⟩, by rw [heq]; rfl⟩
  · refine ⟨[], rfl, ?_, ?_, ?_, ?_⟩
    · exact fun g hg => absurd hg List.not_mem_nil
    · exact fun g hg => absurd hg List.not_mem_nil
    · exact fun g hg => by cases hg
    · exact fun b hb hdim hc => absurd ⟨b, hb, hdim, hc⟩ hany

/-- Whatever counts nothing and leaves no new bucket of the candidate. -/
theorem Tallied.kept (h : Tallied settings dimension c s₀ s J gens) {evs : List Event}
    (hevs : tally evs = [])
    (hback : ∀ b ∈ s'.buckets, b.dimension = dimension → b.candidate = c → b ∈ s.buckets) :
    Tallied settings dimension c s₀ s' (record i now evs ++ J) gens := by
  refine ⟨?_, h.consecutive, h.opened, h.first, fun b hb hdim hc =>
    h.stored b (hback b hb hdim hc) hdim hc⟩
  rw [countedIn_silent hevs]
  exact h.attempts

/-- An attempt counted in the bucket of another candidate. -/
theorem Tallied.elsewhere (h : Tallied settings dimension c s₀ s J gens) (hb : b.candidate ≠ c)
    (hback : ∀ x ∈ s'.buckets, x ∈ s.buckets ∨ x = b) :
    Tallied settings dimension c s₀ s' (record i now [.counted b] ++ J) gens := by
  refine ⟨?_, h.consecutive, h.opened, h.first, fun x hx hdim hc => ?_⟩
  · rw [countedIn_other hb]
    exact h.attempts
  · rcases hback x hx with hold | rfl
    · exact h.stored x hold hdim hc
    · exact absurd hc hb

theorem Generation.Consecutive.append {g : Generation ι} {e : Counted ι} (h : g.Consecutive)
    (hcount : e.event.count = g.before + g.attempts.length + 1) (hshows : g.Shows e.event) :
    (g.append e).Consecutive := by
  intro k e' he'
  rcases Nat.lt_trichotomy k g.attempts.length with hk | rfl | hk
  · rw [Generation.append, List.getElem?_append_left hk] at he'
    exact h k e' he'
  · rw [Generation.append, List.getElem?_concat_length, Option.some.injEq] at he'
    subst he'
    exact ⟨hcount, hshows⟩
  · rw [Generation.append, List.getElem?_eq_none (by rw [List.length_append]; exact hk)] at he'
    cases he'

theorem Generation.Opened.append {g : Generation ι} {e : Counted ι} {windowSeconds : ℕ}
    (h : g.Opened windowSeconds) : (g.append e).Opened windowSeconds := by
  obtain ⟨hbefore, e', he', hopened⟩ := h
  exact ⟨hbefore, e', by rw [Generation.append, List.head?_append, he']; rfl, hopened⟩

/-- An attempt counted in the generation the store shows. -/
theorem Tallied.joins (h : Tallied settings dimension c s₀ s J gens) (hd : d ∈ s.buckets)
    (hdim : d.dimension = dimension) (hc : d.candidate = c) (hbc : b.candidate = c)
    (hcount : b.count = d.count + 1) (hwindow : b.windowStartedAt = d.windowStartedAt ∧
      b.expiresAt = d.expiresAt)
    (hsole : ∀ x ∈ s'.buckets, x.dimension = dimension → x.candidate = c → x = b) :
    ∃ gens : List (Generation ι),
      Tallied settings dimension c s₀ s' (record i now [.counted b] ++ J) gens := by
  obtain ⟨g, hlast, hshows, hstored⟩ := h.stored d hd hdim hc
  obtain ⟨older, rfl⟩ := List.getLast?_eq_some_iff.mp hlast
  have hshows' : g.Shows b := ⟨hwindow.1.trans hshows.1, hwindow.2.trans hshows.2⟩
  refine ⟨older ++ [g.append ⟨i, now, b⟩], ?_, ?_, ?_, ?_, ?_⟩
  · rw [countedIn_self hbc, List.reverse_cons, h.attempts]
    simp [Generation.append]
  · intro g' hg'
    rcases List.mem_append.mp hg' with hold | hnew
    · exact h.consecutive g' (List.mem_append_left _ hold)
    · rw [List.mem_singleton.mp hnew]
      exact (h.consecutive g (by simp)).append (by rw [hcount, hstored]) hshows'
  · intro g' hg'
    cases older with
    | nil => cases hg'
    | cons g₀ older =>
      have hopened := h.opened
      simp only [List.cons_append, List.tail_cons, List.mem_append, List.mem_singleton]
        at hg' hopened
      rcases hg' with hold | rfl
      · exact hopened g' (.inl hold)
      · exact (hopened g (.inr rfl)).append
  · intro g' hg'
    cases older with
    | nil =>
      cases hg'
      rcases h.first g rfl with hopened | hresumed
      · exact .inl hopened.append
      · exact .inr hresumed
    | cons g₀ older => exact h.first g' hg'
  · intro x hx hxdim hxc
    rw [hsole x hx hxdim hxc]
    refine ⟨g.append ⟨i, now, b⟩, List.getLast?_concat, hshows', ?_⟩
    rw [hcount, hstored, Generation.append, List.length_append]
    rfl

/-- An attempt that opens a window. -/
theorem Tallied.opens (h : Tallied settings dimension c s₀ s J gens) (hbc : b.candidate = c)
    (hcount : b.count = 1) (hstart : b.windowStartedAt = now)
    (hexpires : b.expiresAt = now + (settings.policy dimension).windowSeconds * 1000)
    (hsole : ∀ x ∈ s'.buckets, x.dimension = dimension → x.candidate = c → x = b) :
    ∃ gens : List (Generation ι),
      Tallied settings dimension c s₀ s' (record i now [.counted b] ++ J) gens := by
  have hopened : (⟨now, b.expiresAt, 0, [⟨i, now, b⟩]⟩ : Generation ι).Opened
      (settings.policy dimension).windowSeconds := ⟨rfl, _, rfl, rfl, hexpires⟩
  refine ⟨gens ++ [⟨now, b.expiresAt, 0, [⟨i, now, b⟩]⟩], ?_, ?_, ?_, ?_, ?_⟩
  · rw [countedIn_self hbc, List.reverse_cons, h.attempts]
    simp
  · intro g hg
    rcases List.mem_append.mp hg with hold | hnew
    · exact h.consecutive g hold
    · rw [List.mem_singleton.mp hnew]
      intro k e he
      cases k with
      | zero =>
        cases he
        exact ⟨hcount, hstart, rfl⟩
      | succ k => cases he
  · intro g hg
    cases gens with
    | nil => cases hg
    | cons g₀ gens =>
      rcases List.mem_append.mp hg with hold | hnew
      · exact h.opened g hold
      · exact List.mem_singleton.mp hnew ▸ hopened
  · intro g hg
    cases gens with
    | nil =>
      cases hg
      exact .inl hopened
    | cons g₀ gens => exact h.first g hg
  · intro x hx hxdim hxc
    rw [hsole x hx hxdim hxc]
    exact ⟨_, List.getLast?_concat, ⟨hstart, rfl⟩, by rw [hcount]; rfl⟩

end Tallied

section Steps

variable {c : Candidate} {s₀ s s' : Database} {J : List (Entry ι Date Event)} {i : ι} {now : Date}
  {b : AuthThrottleBucket} {dimension : AuthThrottleDimension}

/-- The bucket of a candidate is the only one of its key. -/
theorem Database.Indexed.sole {s : Database} (h : s.Indexed) (hb : b ∈ s.buckets)
    (hdim : b.dimension = dimension) (hc : b.candidate = c) :
    ∀ x ∈ s.buckets, x.dimension = dimension → x.candidate = c → x = b :=
  fun _ hx hxdim hxc => Documents.Unique.eq h hx hb rfl (by rw [hdim, hc, hxdim, hxc])

/-- The tallies of all candidates. -/
def AllTallied (settings : Settings) (dimension : AuthThrottleDimension) (s₀ s : Database)
    (J : List (Entry ι Date Event)) : Prop :=
  ∀ c, ∃ gens, Tallied settings dimension c s₀ s J gens

theorem AllTallied.kept (h : AllTallied settings dimension s₀ s J) {evs : List Event}
    (hevs : tally evs = []) (hback : s'.buckets ⊆ s.buckets) :
    AllTallied settings dimension s₀ s' (record i now evs ++ J) := by
  intro c
  obtain ⟨gens, hgens⟩ := h c
  exact ⟨gens, hgens.kept hevs fun b hb _ _ => hback hb⟩

theorem AllTallied.incremented (h : AllTallied settings dimension s₀ s J)
    {p : AuthThrottleBucket → Bool} {date : Date} {buckets : List AuthThrottleBucket}
    (hupdate : UpdateOne p (AuthThrottleBucket.increment date) s.buckets (some b) buckets)
    (hp : ∀ d, p d = true → d.dimension = dimension)
    (hindexed : ({ s with buckets := buckets } : Database).Indexed) :
    AllTallied settings dimension s₀ { s with buckets := buckets }
      (record i now [.counted b] ++ J) := by
  intro c
  obtain ⟨d, hd, hpd, rfl, hb⟩ := hupdate.source
  have hdim := hp d hpd
  obtain ⟨gens, hgens⟩ := h c
  by_cases hc : d.candidate = c
  · exact hgens.joins hd hdim hc hc rfl ⟨rfl, rfl⟩ (hindexed.sole hb hdim hc)
  · exact ⟨gens, hgens.elsewhere hc fun x hx => hupdate.mem hx⟩

theorem AllTallied.reopened (h : AllTallied settings dimension s₀ s J)
    (hback : ∀ x ∈ s'.buckets, x ∈ s.buckets ∨ x = b) (hb : b ∈ s'.buckets)
    (hdim : b.dimension = dimension) (hcount : b.count = 1) (hstart : b.windowStartedAt = now)
    (hexpires : b.expiresAt = now + (settings.policy dimension).windowSeconds * 1000)
    (hindexed : s'.Indexed) :
    AllTallied settings dimension s₀ s' (record i now [.counted b] ++ J) := by
  intro c
  obtain ⟨gens, hgens⟩ := h c
  by_cases hc : b.candidate = c
  · exact hgens.opens hc hcount hstart hexpires (hindexed.sole hb hdim hc)
  · exact ⟨gens, hgens.elsewhere hc hback⟩

/-- The upsert joins the generation it finds open, and opens one otherwise. -/
theorem AllTallied.rolled (h : AllTallied settings dimension s₀ s J) {current : Candidate}
    {buckets : List AuthThrottleBucket}
    (hupsert : Upserts (fun b => decide (b.dimension = dimension) && decide (b.candidate = current))
      (AuthThrottleBucket.roll now (now + (settings.policy dimension).windowSeconds * 1000))
      (AuthThrottleBucket.start dimension current now
        (now + (settings.policy dimension).windowSeconds * 1000)) s.buckets b buckets)
    (hindexed : ({ s with buckets := buckets } : Database).Indexed) :
    AllTallied settings dimension s₀ { s with buckets := buckets }
      (record i now [.counted b] ++ J) := by
  rcases hupsert with hupdate | ⟨-, rfl, rfl⟩
  · obtain ⟨d, hd, hkey, rfl, hb⟩ := hupdate.source
    simp only [Bool.and_eq_true, decide_eq_true_eq] at hkey
    obtain ⟨hdim, -⟩ := hkey
    by_cases hlive : now < d.expiresAt
    · have hroll : d.roll now (now + (settings.policy dimension).windowSeconds * 1000) =
          d.increment now := if_pos hlive
      rw [hroll] at hupdate hb ⊢
      intro c
      obtain ⟨gens, hgens⟩ := h c
      by_cases hc : d.candidate = c
      · exact hgens.joins hd hdim hc hc rfl ⟨rfl, rfl⟩ (hindexed.sole hb hdim hc)
      · exact ⟨gens, hgens.elsewhere hc fun x hx => hupdate.mem hx⟩
    · have hroll : d.roll now (now + (settings.policy dimension).windowSeconds * 1000) =
          { d with
            count := 1
            windowStartedAt := now
            expiresAt := now + (settings.policy dimension).windowSeconds * 1000
            updatedAt := now } := if_neg hlive
      refine h.reopened (fun x hx => hupdate.mem hx) hb ?_ ?_ ?_ ?_ hindexed
      · rw [AuthThrottleBucket.roll_dimension, hdim]
      · exact congrArg AuthThrottleBucket.count hroll
      · exact congrArg AuthThrottleBucket.windowStartedAt hroll
      · exact congrArg AuthThrottleBucket.expiresAt hroll
  · exact h.reopened (fun x hx => (List.mem_cons.mp hx).symm) List.mem_cons_self rfl rfl rfl rfl
      hindexed

end Steps

section Contract

/-- The calls of one consumption; those that count come while nothing has been counted. -/
def countConduct (settings : Settings) (dimension : AuthThrottleDimension) (now : Date)
    (l : List Event) : (β : Type) → Op β → Prop
  | _, .findReferencedVersions _ => True
  | _, .incrementLive dimension' _ date => tally l = [] ∧ dimension' = dimension ∧ date = now
  | _, .rollBucket dimension' _ date expiresAt => tally l = [] ∧ dimension' = dimension ∧
      date = now ∧ expiresAt = now + (settings.policy dimension).windowSeconds * 1000
  | _, .incrementRaced dimension' _ date => tally l = [] ∧ dimension' = dimension ∧ date = now

/-- A decision goes by the one bucket that was answered, and denies if there was none. -/
def Judged (settings : Settings) (dimension : AuthThrottleDimension) (l : List Event) :
    Except ThrottleFailure AuthThrottleDecision → Prop
  | .ok decision => (∃ b, tally l = [b] ∧
      (decision.allowed = true ↔ b.count ≤ (settings.policy dimension).limit)) ∨
        tally l = [] ∧ decision.allowed = false
  | .error _ => True

theorem toDecision_allowed_iff {b : AuthThrottleBucket} {limit : ℕ} {now : Date} :
    (toDecision b limit now).allowed = true ↔ b.count ≤ limit := by
  refine ⟨toDecision_allowed, fun h => ?_⟩
  rw [toDecision, if_pos h]
  rfl

theorem consumeDimension_judged {now : Date} {fl : Bool} :
    Conforms (consumption hmac settings input current previous)
      (fun _ => countConduct settings input.dimension now)
      (fun _ => Judged settings input.dimension) fl []
      (consumeDimension hmac settings input current previous now).run := by
  rw [consumeDimension]
  refine Conforms.run_call ⟨rfl, rfl, rfl⟩ (fun _ _ => trivial) fun r _ => ?_
  cases r with
  | some existing => exact Conforms.run_pure (.inl ⟨_, rfl, toDecision_allowed_iff⟩)
  | none =>
    refine Conforms.run_call ⟨rfl, rfl, rfl, rfl⟩ (fun _ _ => trivial) fun r _ => ?_
    cases r with
    | bucket b => exact Conforms.run_pure (.inl ⟨_, rfl, toDecision_allowed_iff⟩)
    | duplicateKey =>
      refine Conforms.run_call ⟨rfl, rfl, rfl⟩ (fun _ _ => trivial) fun r _ => ?_
      cases r with
      | some b => exact Conforms.run_pure (.inl ⟨_, rfl, toDecision_allowed_iff⟩)
      | none => exact Conforms.run_pure (.inr ⟨rfl, rfl⟩)

variable [DecidableEq ι] {s₀ : Database}

/-- What every step of the consumptions keeps. -/
structure Accounted (settings : Settings) (dimension : AuthThrottleDimension) (s₀ s : Database)
    (J : List (Entry ι Date Event)) : Prop where
  indexed : s.Indexed
  tallied : AllTallied settings dimension s₀ s J
  once : ∀ i, (tally (own i J)).length ≤ 1

theorem tally_append {l l' : List Event} : tally (l ++ l') = tally l ++ tally l' :=
  List.filterMap_append

/-- A caller that has counted nothing may count one attempt. -/
theorem once_record {J : List (Entry ι Date Event)} {i : ι} {now : Date} {evs : List Event}
    (h : ∀ j, (tally (own j J)).length ≤ 1)
    (hevs : tally evs = [] ∨ (tally evs).length ≤ 1 ∧ tally (own i J) = []) (j : ι) :
    (tally (own j (record i now evs ++ J))).length ≤ 1 := by
  by_cases hj : i = j
  · subst hj
    rw [own_record_self, tally_append, List.length_append]
    rcases hevs with hnone | ⟨hone, hnone⟩
    · rw [hnone]
      simpa using h i
    · rw [hnone]
      simpa using hone
  · rw [own_record_of_ne hj]
    exact h j

theorem Accounted.step {dimension : AuthThrottleDimension} {s s' : Database}
    {J : List (Entry ι Date Event)} {i : ι} {now : Date} {β : Type} {op : Op β} {r : Option β}
    (h : Accounted settings dimension s₀ s J)
    (hconduct : countConduct settings dimension now (own i J) β op)
    (happly : (consumption hmac settings input current previous).Applies op s r s') :
    Accounted settings dimension s₀ s' (record i now (note β op r) ++ J) := by
  cases r with
  | none =>
    obtain ⟨-, rfl⟩ := happly
    have hnote : note β op none = [] := by cases op <;> rfl
    rw [hnote]
    exact ⟨h.indexed, h.tallied.kept rfl (List.Subset.refl _), once_record h.once (.inl rfl)⟩
  | some x =>
    obtain ⟨heffect, hindexed⟩ := happly
    cases op with
    | findReferencedVersions date =>
      obtain ⟨-, rfl⟩ := heffect
      exact ⟨h.indexed, h.tallied.kept rfl (List.Subset.refl _), once_record h.once (.inl rfl)⟩
    | incrementLive dimension' candidates date =>
      obtain ⟨hnone, rfl, rfl⟩ := hconduct
      obtain ⟨buckets, hgreatest, rfl⟩ := heffect
      cases x with
      | some b =>
        refine ⟨hindexed, h.tallied.incremented hgreatest.updateOne ?_ hindexed,
          once_record h.once (.inr ⟨le_refl _, hnone⟩)⟩
        intro d hd
        simp only [AuthThrottleBucket.isLive, Bool.and_eq_true, decide_eq_true_eq] at hd
        exact hd.1.1
      | none =>
        obtain ⟨-, rfl⟩ := hgreatest.updateOne
        exact ⟨hindexed, h.tallied.kept rfl (List.Subset.refl _), once_record h.once (.inl rfl)⟩
    | rollBucket dimension' key date expiresAt =>
      obtain ⟨hnone, rfl, rfl, rfl⟩ := hconduct
      cases x with
      | bucket b =>
        obtain ⟨buckets, hupsert, rfl⟩ := heffect
        exact ⟨hindexed, h.tallied.rolled hupsert hindexed,
          once_record h.once (.inr ⟨le_refl _, hnone⟩)⟩
      | duplicateKey =>
        obtain ⟨-, rfl⟩ := heffect
        exact ⟨hindexed, h.tallied.kept rfl (List.Subset.refl _), once_record h.once (.inl rfl)⟩
    | incrementRaced dimension' key date =>
      obtain ⟨hnone, rfl, rfl⟩ := hconduct
      obtain ⟨buckets, hupdate, rfl⟩ := heffect
      cases x with
      | some b =>
        refine ⟨hindexed, h.tallied.incremented hupdate ?_ hindexed,
          once_record h.once (.inr ⟨le_refl _, hnone⟩)⟩
        intro d hd
        simp only [AuthThrottleBucket.isLive, Bool.and_eq_true, decide_eq_true_eq] at hd
        exact hd.1.1
      | none =>
        obtain ⟨-, rfl⟩ := hupdate
        exact ⟨hindexed, h.tallied.kept rfl (List.Subset.refl _), once_record h.once (.inl rfl)⟩

/-- Expired buckets end their generations when they go. -/
theorem Accounted.elapse {dimension : AuthThrottleDimension} {s s' : Database}
    {J : List (Entry ι Date Event)} (h : Accounted settings dimension s₀ s J)
    (helapse : s.Elapse s') : Accounted settings dimension s₀ s' J := by
  obtain ⟨-, hsublist, -⟩ := helapse
  refine ⟨Documents.Unique.sublist h.indexed hsublist, fun c => ?_, h.once⟩
  obtain ⟨gens, hgens⟩ := h.tallied c
  exact ⟨gens, hgens.attempts, hgens.consecutive, hgens.opened, hgens.first,
    fun b hb => hgens.stored b (hsublist.subset hb)⟩

def counting (ι : Type) [DecidableEq ι] (hmac : String → String → String) (settings : Settings)
    (input : ConsumeDimensionInput) (current : VersionedSecret) (previous : List VersionedSecret)
    (s₀ : Database) : Contract ι (consumption hmac settings input current previous) where
  inv s J := Accounted settings input.dimension s₀ s J
  legal now _ l β op := countConduct settings input.dimension now l β op
  post _ _ l r := Judged settings input.dimension l r
  inv_call h _ hconduct happly := h.step hconduct happly
  inv_env h helapse := h.elapse helapse
  conforms _ := consumeDimension_judged

end Contract

section Main

variable [DecidableEq ι] {s₀ : Database}
  {cfg : Config ι Date Op Database (Except ThrottleFailure AuthThrottleDecision) Event}

/-- The law of counting, for every schedule and every number of callers: also when the
bucket is created by several at once, and when it is rolled over under them. -/
theorem consumptions_counted (hindexed : s₀.Indexed)
    (hreach : (consumption hmac settings input current previous).Reachable s₀ cfg) :
    CountedExactly settings input.dimension s₀ cfg := by
  have w : WellFormed (counting ι hmac settings input current previous s₀) cfg :=
    (WellFormed.init (k := counting ι hmac settings input current previous s₀)
      ⟨hindexed, fun c => Tallied.init hindexed, fun i => Nat.zero_le _⟩).runs hreach
  have haccounted : Accounted settings input.dimension s₀ cfg.store cfg.journal := w.inv
  refine ⟨haccounted.once, ?_, fun c => ?_⟩
  · intro i th decision hreturns hallowed
    have hjudged : Judged settings input.dimension (own i cfg.journal) (.ok decision) :=
      w.post_of_returns hreturns
    rcases hjudged with ⟨b, hb, -⟩ | ⟨-, hdenied⟩
    · exact ⟨b, hb⟩
    · rw [hallowed] at hdenied
      cases hdenied
  · obtain ⟨gens, hgens⟩ := haccounted.tallied c
    refine ⟨gens, hgens, fun g hg k e he th decision hreturns => ?_⟩
    -- the attempt is in the journal, so it is what its caller has been answered
    have hmem : e ∈ (countedIn c cfg.journal).reverse := by
      rw [hgens.attempts]
      exact List.mem_flatMap.mpr ⟨g, hg, List.mem_of_getElem? he⟩
    have hentry := (mem_countedIn.mp (List.mem_reverse.mp hmem)).1
    have hown : e.event ∈ tally (own e.caller cfg.journal) :=
      mem_tally.mpr (mem_own.mpr ⟨_, hentry⟩)
    have hcount := (hgens.consecutive g hg k e he).1
    have hjudged : Judged settings input.dimension (own e.caller cfg.journal) (.ok decision) :=
      w.post_of_returns hreturns
    rcases hjudged with ⟨b, hb, hiff⟩ | ⟨hnone, -⟩
    · rw [hb, List.mem_singleton] at hown
      rw [hiff, ← hown, hcount]
      omega
    · rw [hnone] at hown
      exact absurd hown List.not_mem_nil

/-- `exec` as a function. -/
def perform (β : Type) (op : Op β) (s : Database) (_ : Unit) : Option (β × Database) :=
  (SignIn.performThrottle β op s).bind fun (b, s') => if s'.Indexed then some (b, s') else none

theorem perform_exec {β : Type} {op : Op β} {s s' : Database} {x : Unit} {b : β}
    (h : perform β op s x = some (b, s')) : exec β op s b s' := by
  obtain ⟨⟨b', t⟩, hp, hr⟩ := Option.bind_eq_some_iff.mp h
  by_cases hi : t.Indexed
  · simp only [hi, if_true] at hr
    cases hr
    exact ⟨SignIn.performThrottle_effect hp, hi⟩
  · simp only [hi, if_false] at hr
    cases hr

/-- The driver that admits every call and makes none throw. -/
def consumptionDriver (ι : Type) (hmac : String → String → String) (settings : Settings)
    (input : ConsumeDimensionInput) (current : VersionedSecret) (previous : List VersionedSecret) :
    Driver (consumption hmac settings input current previous)
      (anyCall : Gate ι Date Op Database Event) Unit where
  run := perform
  run_exec := perform_exec
  fails _ _ := false
  fallible h := by cases h
  admits _ _ _ _ _ _ := true
  admitted _ := anyCall_pass

/-- The value "a" had its five attempts in a window that has expired. -/
def exhausted : Database :=
  ⟨[⟨.signInIdentifierFailure, 1, deriveBucketKey SignIn.plain.hmac "k" .signInIdentifierFailure "a",
    5, 0, 900000, 0, 0⟩], 900000⟩

/-- Two callers roll the bucket over at once. -/
theorem consumptions_counted_run : ∃ cfg : Config ℕ Date Op Database
    (Except ThrottleFailure AuthThrottleDecision) Event,
    (consumption SignIn.plain.hmac SignIn.plain.throttle ⟨.signInIdentifierFailure, "a"⟩
      ⟨1, "k"⟩ []).Reachable exhausted cfg ∧
    cfg.result 0 = some (900001, .ok allowedDecision) ∧
    cfg.result 1 = some (900000, .ok allowedDecision) ∧
    cfg.store.buckets.map (·.count) = [2] ∧
    CountedExactly SignIn.plain.throttle .signInIdentifierFailure exhausted cfg := by
  have hrun : ((consumptionDriver ℕ SignIn.plain.hmac SignIn.plain.throttle
      ⟨.signInIdentifierFailure, "a"⟩ ⟨1, "k"⟩ []).play (Config.init exhausted)
      [.start 0 900001, .start 1 900000, .reply 0 (), .reply 1 (), .reply 0 (), .reply 1 ()]).map
      (fun cfg => (cfg.result 0, cfg.result 1, cfg.store.buckets.map (·.count))) =
    some (some (900001, .ok allowedDecision), some (900000, .ok allowedDecision), [2]) := by
    decide +kernel
  obtain ⟨cfg, hplay, hview⟩ := Option.map_eq_some_iff.mp hrun
  obtain ⟨hfirst, hview⟩ := Prod.mk.inj hview
  obtain ⟨hsecond, hcounts⟩ := Prod.mk.inj hview
  have hreach := Driver.play_runs hplay
  exact ⟨cfg, hreach, hfirst, hsecond, hcounts,
    consumptions_counted (show exhausted.Indexed by decide +kernel) hreach⟩

end Main

end AuthThrottle
