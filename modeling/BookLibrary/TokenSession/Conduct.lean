import BookLibrary.Interleaving.Contract
import BookLibrary.TokenSession.Service

/-!
# What a caller of the token session service does

`conduct` says which calls a method may issue, given what the caller has seen so
far, and `verdict` how the method may end. `body_walks` walks every method once.
-/

namespace TokenSession

open Documents Interleaving

/-- The family that the event gives a new current hash. -/
def Event.issued : Event → Option RefreshTokenFamily
  | .opened f => some f
  | .swapped _ f => some f
  | _ => none

def Quiet (l : List Event) : Prop := ∀ ev ∈ l, ev.issued = none

/-- The event shows a document of the family. -/
def Event.names (id : String) : Event → Prop
  | .found _ (some m) => m.familyId = id
  | .current _ (some f) => f.familyId = id
  | .batch ms => ∃ m ∈ ms, m.familyId = id
  | _ => False

/-- The event is a question, or a value that was drawn. -/
def Event.Asks : Event → Prop
  | .drew _ | .found .. | .current .. | .resolved .. => True
  | _ => False

def Names (l : List Event) (id : String) : Prop := ∃ ev ∈ l, ev.names id

/-- Pending, with a lease that has not expired. -/
def RefreshTokenReplayMarker.leased (now : Date) (m : RefreshTokenReplayMarker) : Prop :=
  m.status = .pending ∧ ∃ date, m.leaseExpiresAt = some date ∧ now < date

/-- The caller has met no live lease. -/
def Unleased (now : Date) (l : List Event) : Prop :=
  ∀ hash m, .found hash (some m) ∈ l → ¬ m.leased now

/-- The caller has met no committed marker. -/
def Uncommitted (l : List Event) : Prop :=
  ∀ hash m, .found hash (some m) ∈ l → m.status ≠ .committed

/-- After `l` the caller tried to commit the marker, to the end `l'`. -/
def Tried (tokenHash operationId : String) (l l' : List Event) : Prop :=
  (∃ m, l' = .committed tokenHash operationId m :: l) ∨ l' = .uncommitted tokenHash operationId :: l

/-- The last thing the caller did was to commit the marker, or to fail at it. -/
def Finalizing (tokenHash operationId : String) (l : List Event) : Prop :=
  ∃ l₀, Tried tokenHash operationId l₀ l

section Conduct

variable (sha256 : String → String)

def MayOpen : Call → List Event → RefreshTokenFamily → Prop
  | .createFamily .., l, f => Quiet l ∧ f.status = .active ∧ .drew f.familyId ∈ l ∧
      ∃ token, .drew token ∈ l ∧ f.currentTokenHash = some (sha256 token)
  | _, _, _ => False

def MayInsert : Call → List Event → RefreshTokenReplayMarker → Prop
  | .rotate token _, l, m => m.tokenHash = sha256 token ∧
      ∃ f, .current m.tokenHash (some f) ∈ l ∧ f.familyId = m.familyId ∧ f.expiresAt = m.expiresAt
  | _, _, _ => False

def MaySwap : Call → List Event → (familyId tokenHash nextTokenHash operationId : String) → Prop
  | .rotate token now, l, id, hash, next, operationId => hash = sha256 token ∧ Quiet l ∧
      Names l id ∧ Unleased now l ∧
      (∃ m, .prepared m ∈ l ∧ m.tokenHash = hash ∧ m.rotationOperationId = operationId) ∧
      ∃ token', .drew token' ∈ l ∧ next = sha256 token'
  | _, _, _, _, _, _ => False

def MayRevoke : Call → List Event → RevocationFilter → Prop
  | .rotate _ now, l, filter => ∃ id, filter = .familyId id ∧ Names l id ∧
      ∀ hash m, .found hash (some m) ∈ l → m.leased now → id = m.familyId ∧
        ∃ f, .read m.familyId f ∈ l ∧
          (rotatedBy m.rotationOperationId f = true ∨ stillCurrent m.tokenHash now f = false)
  | .reconcileExpiredPendingMarkers _, l, filter => ∃ m : RefreshTokenReplayMarker,
      filter = .familyId m.familyId ∧ Names l m.familyId ∧
        Finalizing m.tokenHash m.rotationOperationId l
  | _, _, _ => True

/-- The calls a method may issue after the events `l`. -/
def conduct (call : Call) (_faulted : Bool) (l : List Event) (β : Type) (op : Op β) : Prop :=
  match op with
  | .insertFamily f => MayOpen sha256 call l f
  | .insertMarker m => MayInsert sha256 call l m
  | .findMarker _ => ∀ ev ∈ l, ev.Asks
  | .findFamily id => Names l id
  | .swapFamily id hash _ next operationId => MaySwap sha256 call l id hash next operationId
  | .revokeFamilies filter status _ _ => status ≠ .active ∧ MayRevoke call l filter
  | _ => True

/-- The marker as `commitMarker` leaves it. -/
def RefreshTokenReplayMarker.CommittedBy (tokenHash operationId : String)
    (m : RefreshTokenReplayMarker) : Prop :=
  m.tokenHash = tokenHash ∧ m.rotationOperationId = operationId ∧ m.status = .committed

/-- What lies behind a successor credential. -/
def Rotated (token : String) (l : List Event) (r : RefreshTokenRotationResult) : Prop :=
  ∃ f m m', .prepared m ∈ l ∧ m.tokenHash = sha256 token ∧ .drew m.rotationOperationId ∈ l ∧
    .swapped (sha256 token) f ∈ l ∧ f.lastRotationOperationId = some m.rotationOperationId ∧
    f.currentTokenHash = some (sha256 r.refreshToken) ∧ .drew r.refreshToken ∈ l ∧
    .committed (sha256 token) m.rotationOperationId (some m') ∈ l ∧
    m'.CommittedBy (sha256 token) m.rotationOperationId ∧ r = rotationResult f r.refreshToken

/-- A caller that is denied has asked for the marker, and has revoked the family
of a committed one. -/
def Denied (token : String) (l : List Event) : Prop :=
  (token ≠ "" → ∃ m, .found (sha256 token) m ∈ l) ∧
    ∀ hash m, .found hash (some m) ∈ l → m.status = .committed →
      ∃ n, .revoked (.familyId m.familyId) n ∈ l

def Resolved (token : String) (l : List Event) (id : Option String) : Prop :=
  (∃ f, .resolved (sha256 token) (some f) ∈ l ∧ id = some f.familyId) ∨
    (∀ hash f, .resolved hash (some f) ∈ l → f.familyId = "") ∧
      ∃ m, .found (sha256 token) m ∈ l ∧ id = m.map (·.familyId)

/-- How a method may end after the events `l`. -/
def verdict : Call → Bool → List Event → Reply → Prop
  | .rotate token now, _, l, .ok a =>
    ∃ r, a = .credentials r ∧ Rotated sha256 token l r ∧ Unleased now l
  | .rotate token _, faulted, l, .error e =>
    faulted = false → e = .denied ∧ Denied sha256 token l
  | .resolveFamilyId token, faulted, l, r => faulted = false → ∃ id, r = .ok (.family id) ∧
    ∀ t, token = some t → t ≠ "" → Resolved sha256 t l id
  | _, _, _, _ => True

end Conduct

section Lists

variable {ev : Event} {l : List Event}

theorem Quiet.cons (hev : ev.issued = none) (h : Quiet l) : Quiet (ev :: l) := by
  intro e he
  rcases List.mem_cons.mp he with rfl | he
  · exact hev
  · exact h e he

theorem Names.cons {id : String} (h : Names l id) : Names (ev :: l) id := by
  obtain ⟨e, he, hid⟩ := h
  exact ⟨e, List.mem_cons_of_mem _ he, hid⟩

theorem Unleased.cons {now : Date} (hev : ∀ hash m, ev ≠ .found hash m) (h : Unleased now l) :
    Unleased now (ev :: l) := by
  intro hash m hm
  rcases List.mem_cons.mp hm with he | hm
  · exact absurd he.symm (hev hash _)
  · exact h hash m hm

theorem Uncommitted.cons (hev : ∀ hash m, ev ≠ .found hash m) (h : Uncommitted l) :
    Uncommitted (ev :: l) := by
  intro hash m hm
  rcases List.mem_cons.mp hm with he | hm
  · exact absurd he.symm (hev hash _)
  · exact h hash m hm

/-- The caller has asked for the marker and met no committed one. -/
structure Settled (hash : String) (l : List Event) : Prop where
  asked : ∃ m, .found hash m ∈ l
  uncommitted : Uncommitted l

theorem Settled.cons {hash : String} (hev : ∀ hash m, ev ≠ .found hash m) (h : Settled hash l) :
    Settled hash (ev :: l) := by
  obtain ⟨m, hm⟩ := h.asked
  exact ⟨⟨m, List.mem_cons_of_mem _ hm⟩, h.uncommitted.cons hev⟩

theorem Settled.denied {sha256 : String → String} {token : String}
    (h : Settled (sha256 token) l) : Denied sha256 token l :=
  ⟨fun _ => h.asked, fun hash m hm hc => absurd hc (h.uncommitted hash m hm)⟩

theorem Tried.subset {h o : String} {l' : List Event} (ht : Tried h o l l') : l ⊆ l' := by
  rcases ht with ⟨m, rfl⟩ | rfl
  · exact List.subset_cons_self _ _
  · exact List.subset_cons_self _ _

theorem Settled.tried {hash h o : String} {l' : List Event} (ht : Tried h o l l')
    (h : Settled hash l) : Settled hash l' := by
  rcases ht with ⟨m, rfl⟩ | rfl
  · exact h.cons nofun
  · exact h.cons nofun

theorem Names.tried {id h o : String} {l' : List Event} (ht : Tried h o l l')
    (h : Names l id) : Names l' id := by
  rcases ht with ⟨m, rfl⟩ | rfl
  · exact h.cons
  · exact h.cons

theorem mem_of_tried {h o : String} {l' : List Event} {e : Event} (ht : Tried h o l l')
    (he : ∀ m, e ≠ .committed h o m) (he' : e ≠ .uncommitted h o) : e ∈ l' ↔ e ∈ l := by
  rcases ht with ⟨m, rfl⟩ | rfl
  · simp [he m]
  · simp [he']

end Lists

/-- The walk through one piece of a method. -/
abbrev Walks (sha256 : String → String) (ttl : Prop) (call : Call) {α : Type}
    (Q : Bool → List Event → Except RefreshFailure α → Prop) (faulted : Bool) (l : List Event)
    (x : Refresh α) : Prop :=
  Conforms (system sha256 ttl) (conduct sha256 call) Q faulted l x.run

section Rules

variable {sha256 : String → String} {ttl : Prop} {c : Call} {α β : Type} {faulted : Bool}
  {l : List Event}

theorem Walks.pure {Q : Bool → List Event → Except RefreshFailure α → Prop} {a : α}
    (h : Q faulted l (.ok a)) : Walks sha256 ttl c Q faulted l (pure a) :=
  Conforms.run_pure h

theorem Walks.deny {Q : Bool → List Event → Except RefreshFailure α → Prop}
    (h : Q faulted l (.error .denied)) : Walks sha256 ttl c Q faulted l denyRefresh :=
  Conforms.run_throw h

theorem Walks.bind {Q : Bool → List Event → Except RefreshFailure α → Prop}
    {R : Bool → List Event → Except RefreshFailure β → Prop} {x : Refresh β} {f : β → Refresh α}
    (hx : Walks sha256 ttl c R faulted l x)
    (hok : ∀ faulted l b, R faulted l (.ok b) → Walks sha256 ttl c Q faulted l (f b))
    (herr : ∀ faulted l e, R faulted l (.error e) → Q faulted l (.error e)) :
    Walks sha256 ttl c Q faulted l (x >>= f) := by
  refine Conforms.run_bind (hx.mono fun fl l r hr => ?_)
  cases r with
  | ok b => exact hok fl l b hr
  | error e => exact herr fl l e hr

theorem Walks.handle {Q R : Bool → List Event → Except RefreshFailure α → Prop} {x : Refresh α}
    {f : RefreshFailure → Refresh α} (hx : Walks sha256 ttl c R faulted l x)
    (hok : ∀ faulted l a, R faulted l (.ok a) → Q faulted l (.ok a))
    (herr : ∀ faulted l e, R faulted l (.error e) → Walks sha256 ttl c Q faulted l (f e)) :
    Walks sha256 ttl c Q faulted l (tryCatch x f) := by
  refine Conforms.run_tryCatch (hx.mono fun fl l r hr => ?_)
  cases r with
  | ok a => exact hok fl l a hr
  | error e => exact herr fl l e hr

theorem Walks.call {Q : Bool → List Event → Except RefreshFailure α → Prop} {op : Op α}
    (hl : conduct sha256 c faulted l α op)
    (hok : ∀ b, (system sha256 ttl).Answers op b → Q faulted (note α op (some b) ++ l) (.ok b))
    (herr : fallible α op → ∀ r, Q true (note α op r ++ l) (.error .thrown)) :
    Walks sha256 ttl c Q faulted l (call op) :=
  Conforms.run_perform hl hok fun hf r _ => herr hf r

/-- A call whose failure is passed on to somebody who accepts it. -/
theorem Walks.call_bind {Q : Bool → List Event → Except RefreshFailure α → Prop} {op : Op β}
    {f : β → Refresh α} (herr : ∀ l', l ⊆ l' → Q true l' (.error .thrown))
    (hl : conduct sha256 c faulted l β op)
    (hok : ∀ b, (system sha256 ttl).Answers op b →
      Walks sha256 ttl c Q faulted (note β op (some b) ++ l) (f b)) :
    Walks sha256 ttl c Q faulted l (TokenSession.call op >>= f) :=
  Conforms.run_bind (Walks.call hl hok fun _ _ => herr _ (List.subset_append_right _ _))

/-- A call that cannot fail. -/
theorem Walks.draw_bind {Q : Bool → List Event → Except RefreshFailure α → Prop} {op : Op β}
    {f : β → Refresh α} (hf : ¬ fallible β op) (hl : conduct sha256 c faulted l β op)
    (hok : ∀ b, (system sha256 ttl).Answers op b →
      Walks sha256 ttl c Q faulted (note β op (some b) ++ l) (f b)) :
    Walks sha256 ttl c Q faulted l (TokenSession.call op >>= f) :=
  Conforms.run_bind (Walks.call hl hok fun h => absurd h hf)

end Rules

section Answers

variable {sha256 : String → String} {ttl : Prop}

theorem findMarker_answer {hash : String} {m : RefreshTokenReplayMarker}
    (h : (system sha256 ttl).Answers (.findMarker hash) (some m)) : m.tokenHash = hash := by
  obtain ⟨s, s', ⟨⟨-, hm⟩, -⟩, -⟩ := h
  exact of_decide_eq_true hm

theorem findFamily_answer {id : String} {f : RefreshTokenFamily}
    (h : (system sha256 ttl).Answers (.findFamily id) (some f)) : f.familyId = id := by
  obtain ⟨s, s', ⟨⟨-, hf⟩, -⟩, -⟩ := h
  exact of_decide_eq_true hf

theorem takeOverMarker_answer {hash id op : String} {now lease : Date}
    {m : RefreshTokenReplayMarker}
    (h : (system sha256 ttl).Answers (.takeOverMarker hash id now op lease) (some m)) :
    m.tokenHash = hash ∧ m.rotationOperationId = op := by
  obtain ⟨s, s', ⟨ms, hu, -⟩, -⟩ := h
  obtain ⟨m₀, -, hm, rfl, -⟩ := hu.source
  simp only [RefreshTokenReplayMarker.isPending, Bool.and_eq_true, decide_eq_true_eq] at hm
  exact ⟨hm.1.1.1, rfl⟩

theorem swapFamily_answer {id hash next op : String} {now : Date} {f : RefreshTokenFamily}
    (h : (system sha256 ttl).Answers (.swapFamily id hash now next op) (some f)) :
    f.currentTokenHash = some next ∧ f.lastRotationOperationId = some op := by
  obtain ⟨s, s', ⟨fs, hu, -⟩, -⟩ := h
  obtain ⟨f₀, -, -, rfl, -⟩ := hu.source
  exact ⟨rfl, rfl⟩

theorem commitMarker_answer {hash op : String} {date : Date} {m : RefreshTokenReplayMarker}
    (h : (system sha256 ttl).Answers (.commitMarker hash op date) (some m)) :
    m.CommittedBy hash op := by
  obtain ⟨s, s', ⟨ms, hu, -⟩, -⟩ := h
  obtain ⟨m₀, -, hm, rfl, -⟩ := hu.source
  simp only [RefreshTokenReplayMarker.isPending, Bool.and_eq_true, decide_eq_true_eq] at hm
  exact ⟨hm.1.1, hm.2, rfl⟩

end Answers

section Methods

variable {sha256 : String → String} {ttl : Prop} {c : Call} {faulted : Bool} {l : List Event}

theorem commitMarker_walks {hash op : String}
    {Q : Bool → List Event → Except RefreshFailure (Option RefreshTokenReplayMarker) → Prop}
    (hok : ∀ m, (∀ m', m = some m' → m'.CommittedBy hash op) →
      Q faulted (.committed hash op m :: l) (.ok m))
    (herr : ∀ l', Tried hash op l l' → Q true l' (.error .thrown)) :
    Walks sha256 ttl c Q faulted l (commitMarker hash op) := by
  refine Walks.draw_bind id trivial fun date _ => ?_
  refine Walks.call trivial (fun m hm => hok m fun m' he => ?_) fun _ r => ?_
  · subst he
    exact commitMarker_answer hm
  cases r with
  | none => exact herr _ (.inr rfl)
  | some m => exact herr _ (.inl ⟨m, rfl⟩)

theorem revoke_walks {filter : RevocationFilter} {status : RefreshTokenFamilyStatus}
    {reason : String} {Q : Bool → List Event → Except RefreshFailure Unit → Prop}
    (hs : status ≠ .active) (hl : MayRevoke c l filter)
    (hok : ∀ n, Q faulted (.revoked filter n :: l) (.ok ()))
    (hlost : Q true l (.error .thrown))
    (hlate : ∀ n, Q true (.revoked filter n :: l) (.error .thrown)) :
    Walks sha256 ttl c Q faulted l (revoke filter status reason) := by
  refine Walks.draw_bind id trivial fun date _ => ?_
  have hl' : conduct sha256 c faulted l ℕ (.revokeFamilies filter status reason date) := ⟨hs, hl⟩
  refine Conforms.run_bind (Walks.call hl' (fun n _ => hok n) fun _ r => ?_)
  cases r with
  | none => exact hlost
  | some n => exact hlate n

theorem finalizeAndRevoke_walks {id hash op reason : String}
    {Q : Bool → List Event → Except RefreshFailure Unit → Prop}
    (hl : ∀ l', Tried hash op l l' → MayRevoke c l' (.familyId id))
    (hok : ∀ l' n, Tried hash op l l' → Q faulted (.revoked (.familyId id) n :: l') (.ok ()))
    (hfault : ∀ l' r, l ⊆ l' → Q true l' r) :
    Walks sha256 ttl c Q faulted l (finalizeAndRevoke id hash op reason) := by
  have hcommit : Walks sha256 ttl c (fun fl l' r => Tried hash op l l' ∧ (fl = true ∨ fl = faulted) ∧
      ∃ m, r = .ok m) faulted l
      (tryCatch (commitMarker hash op) fun _ => return none) := by
    refine Walks.handle (R := fun fl l' r => Tried hash op l l' ∧ (fl = true ∨ fl = faulted))
      ?_ ?_ ?_
    · exact commitMarker_walks (fun m _ => ⟨.inl ⟨m, rfl⟩, .inr rfl⟩) fun l' h => ⟨h, .inl rfl⟩
    · exact fun fl l' m h => ⟨h.1, h.2, m, rfl⟩
    · exact fun fl l' e h => Walks.pure ⟨h.1, h.2, none, rfl⟩
  refine Walks.bind hcommit ?_ ?_
  · rintro fl l' m ⟨ht, hfl, -⟩
    have hsub := ht.subset
    have hlate : ∀ n, l ⊆ .revoked (.familyId id) n :: l' :=
      fun _ => List.subset_cons_of_subset _ hsub
    refine revoke_walks (by decide) (hl l' ht) (fun n => ?_) (hfault _ _ hsub)
      fun n => hfault _ _ (hlate n)
    rcases hfl with rfl | rfl
    · exact hfault _ _ (hlate n)
    · exact hok l' n ht
  · rintro fl l' e ⟨-, -, m, hm⟩
    cases hm

theorem reconcileMarker_walks {now date : Date} {marker : RefreshTokenReplayMarker}
    (hm : Names l marker.familyId) :
    Walks sha256 ttl (.reconcileExpiredPendingMarkers now) (fun _ l' r => l ⊆ l' ∧ ∃ n, r = .ok n)
      faulted l (reconcileMarker date marker) := by
  refine Walks.handle (R := fun _ l' _ => l ⊆ l') ?_ (fun _ _ n h => ⟨h, n, rfl⟩)
    fun _ _ _ h => Walks.pure ⟨h, 0, rfl⟩
  refine Walks.call_bind (fun _ h => h) hm fun family _ => ?_
  split
  · exact Walks.pure (List.subset_cons_self _ _)
  · refine Walks.bind (R := fun _ l' _ => l ⊆ l') ?_ (fun _ _ _ h => Walks.pure h) fun _ _ _ h => h
    have hsub : l ⊆ .read marker.familyId family :: l := List.subset_cons_self _ _
    refine finalizeAndRevoke_walks (fun l' ht => ?_) (fun l' n ht => ?_) fun l' _ h => List.Subset.trans hsub h
    · exact ⟨marker, rfl, hm.cons.tried ht, _, ht⟩
    · exact List.subset_cons_of_subset _ (List.Subset.trans hsub ht.subset)

theorem reconcileMarkers_walks {now date : Date} {markers batch : List RefreshTokenReplayMarker}
    {n : ℕ} (hb : .batch batch ∈ l) (hm : markers ⊆ batch) :
    Walks sha256 ttl (.reconcileExpiredPendingMarkers now) (fun _ _ _ => True) faulted l
      (reconcileMarkers date markers n) := by
  induction markers generalizing faulted l n with
  | nil => exact Walks.pure trivial
  | cons marker markers ih =>
    rw [List.cons_subset] at hm
    refine Walks.bind (reconcileMarker_walks ⟨_, hb, marker, hm.1, rfl⟩) ?_ fun _ _ _ _ => trivial
    exact fun fl l' k h => ih (h.1 hb) hm.2

/-- What a caller of `rotate` owes when it fails. -/
def Refused (sha256 : String → String) (token : String) (faulted : Bool) (l : List Event)
    (e : RefreshFailure) : Prop :=
  faulted = false → e = .denied ∧ Denied sha256 token l

/-- What `prepareRotation` hands on. -/
structure Ready (sha256 : String → String) (token : String) (now : Date) (l : List Event)
    (prepared : PreparedRotation) : Prop where
  settled : Settled (sha256 token) l
  quiet : Quiet l
  unleased : Unleased now l
  named : Names l prepared.family.familyId
  drew : .drew prepared.operationId ∈ l
  marker : ∃ m, .prepared m ∈ l ∧ m.tokenHash = sha256 token ∧
    m.rotationOperationId = prepared.operationId

def Preparing (sha256 : String → String) (token : String) (now : Date) (faulted : Bool)
    (l : List Event) : Except RefreshFailure PreparedRotation → Prop
  | .ok prepared => Ready sha256 token now l prepared
  | .error e => Refused sha256 token faulted l e

theorem mayRevoke_of_unleased {token id : String} {now : Date} (hn : Names l id)
    (hu : Unleased now l) : MayRevoke (.rotate token now) l (.familyId id) :=
  ⟨id, rfl, hn, fun hash m hm hl => absurd hl (hu hash m hm)⟩

theorem Unleased.tried {now : Date} {h o : String} {l' : List Event} (ht : Tried h o l l')
    (hu : Unleased now l) : Unleased now l' := by
  rcases ht with ⟨m, rfl⟩ | rfl
  · exact hu.cons nofun
  · exact hu.cons nofun

/-- The denial of a rotation that gives up on a marker. -/
theorem finalize_walks {α : Type} {token id hash op reason : String} {now : Date}
    {Q : Bool → List Event → Except RefreshFailure α → Prop}
    (hs : Settled (sha256 token) l)
    (hl : ∀ l', Tried hash op l l' → MayRevoke (.rotate token now) l' (.familyId id))
    (hq : ∀ faulted l e, Refused sha256 token faulted l e → Q faulted l (.error e)) :
    Walks sha256 ttl (.rotate token now) Q faulted l
      (do finalizeAndRevoke id hash op reason; denyRefresh) := by
  refine Walks.bind (R := fun fl l' r => fl = false → (∃ u, r = .ok u) ∧ Settled (sha256 token) l')
    ?_ ?_ ?_
  · refine finalizeAndRevoke_walks hl (fun l' n ht _ => ?_) fun l' r _ hf => by cases hf
    exact ⟨⟨(), rfl⟩, (hs.tried ht).cons nofun⟩
  · exact fun fl l' _ h => Walks.deny (hq _ _ _ fun hf => ⟨rfl, (h hf).2.denied⟩)
  · refine fun fl l' e h => hq _ _ _ fun hf => ?_
    obtain ⟨⟨u, hu⟩, -⟩ := h hf
    cases hu

theorem handleExistingMarker_walks {token : String} {now : Date}
    {marker : RefreshTokenReplayMarker} (hash : marker.tokenHash = sha256 token)
    (seen : .found (sha256 token) (some marker) ∈ l)
    (sole : ∀ hash m, .found hash (some m) ∈ l → m = marker) (quiet : Quiet l) :
    Walks sha256 ttl (.rotate token now) (Preparing sha256 token now) faulted l
      (handleExistingMarker marker now) := by
  have hn : Names l marker.familyId := ⟨_, seen, rfl⟩
  have hfault : ∀ {l'}, Preparing sha256 token now true l' (.error .thrown) := fun hf => by cases hf
  unfold handleExistingMarker
  by_cases hc : marker.status = .committed
  · -- replay
    have hu : Unleased now l := by
      rintro h m hm ⟨hp, -⟩
      rw [sole h m hm, hc] at hp
      cases hp
    rw [if_pos hc]
    refine Walks.bind (R := fun fl l' r => fl = false → (∃ u, r = .ok u) ∧
      ∃ n, l' = .revoked (.familyId marker.familyId) n :: l) ?_ ?_ ?_
    · exact revoke_walks (by decide) (mayRevoke_of_unleased hn hu)
        (fun n _ => ⟨⟨(), rfl⟩, n, rfl⟩) nofun fun _ => nofun
    · refine fun fl l' _ h => Walks.deny fun hf => ⟨rfl, fun _ => ?_, fun h' m hm _ => ?_⟩
      · obtain ⟨-, n, rfl⟩ := h hf
        exact ⟨_, List.mem_cons_of_mem _ seen⟩
      · obtain ⟨-, n, rfl⟩ := h hf
        have hm' : .found h' (some m) ∈ l := by simpa using hm
        rw [sole h' m hm']
        exact ⟨n, List.mem_cons_self⟩
    · intro fl l' e h hf
      obtain ⟨⟨u, hu⟩, -⟩ := h hf
      cases hu
  · rw [if_neg hc]
    refine Walks.call_bind (fun _ _ => hfault) hn fun family hfam => ?_
    have hs : Settled (sha256 token) (.read marker.familyId family :: l) := by
      refine Settled.cons nofun ⟨⟨_, seen⟩, fun h m hm => ?_⟩
      rw [sole h m hm]
      exact hc
    -- giving up is allowed where the family read shows that the rotation cannot go on
    have hgive : ∀ {l'}, Tried marker.tokenHash marker.rotationOperationId
        (.read marker.familyId family :: l) l' →
        (marker.leased now → rotatedBy marker.rotationOperationId family = true ∨
          stillCurrent marker.tokenHash now family = false) →
        MayRevoke (.rotate token now) l' (.familyId marker.familyId) := by
      intro l' ht hbad
      refine ⟨_, rfl, hn.cons.tried ht, fun h m hm hl => ?_⟩
      have hm' := (mem_of_tried (e := .found h (some m)) ht nofun nofun).mp hm
      rcases List.mem_cons.mp hm' with hm' | hm'
      · cases hm'
      · obtain rfl := sole h m hm'
        exact ⟨rfl, family, ht.subset List.mem_cons_self, hbad hl⟩
    split
    · next hr => exact finalize_walks hs (fun l' ht => hgive ht fun _ => .inl hr) fun _ _ _ h => h
    · cases family with
      | none => exact finalize_walks hs (fun l' ht => hgive ht fun _ => .inr rfl) fun _ _ _ h => h
      | some f =>
        simp only
        split
        · next hcur =>
          refine finalize_walks hs (fun l' ht => hgive ht fun _ => .inr ?_) fun _ _ _ h => h
          simpa [stillCurrent] using hcur
        · split
          · next hlease =>
            refine finalize_walks hs (fun l' ht => hgive ht fun hl => ?_) fun _ _ _ h => h
            obtain ⟨-, date, hd, -⟩ := hl
            rw [hlease] at hd
            cases hd
          · next date hlease =>
            split
            · exact Walks.deny fun _ => ⟨rfl, hs.denied⟩
            · next hexp =>
              refine Walks.draw_bind id trivial fun op _ => ?_
              have hs' : Settled (sha256 token) (.drew op :: .read marker.familyId (some f) :: l) :=
                hs.cons nofun
              have hq : Quiet (.drew op :: .read marker.familyId (some f) :: l) :=
                (quiet.cons rfl).cons rfl
              have hu : Unleased now (.drew op :: .read marker.familyId (some f) :: l) := by
                refine Unleased.cons nofun (Unleased.cons nofun ?_)
                rintro h m hm ⟨-, d, hd, hlt⟩
                rw [sole h m hm, hlease] at hd
                cases hd
                exact hexp hlt
              refine Walks.call_bind (fun _ _ => hfault) trivial fun taken htaken => ?_
              cases taken with
              | none => exact Walks.deny fun _ => ⟨rfl, hs'.denied⟩
              | some m =>
                obtain ⟨hmh, hmo⟩ := takeOverMarker_answer htaken
                exact Walks.pure
                  { settled := hs'.cons nofun
                    quiet := hq.cons rfl
                    unleased := hu.cons nofun
                    named := (findFamily_answer hfam ▸ hn).cons.cons.cons
                    drew := by simp [note]
                    marker := ⟨m, by simp [note], hmh.trans hash, hmo⟩ }

theorem prepareRotation_walks {token : String} {now : Date} :
    Walks sha256 ttl (.rotate token now) (Preparing sha256 token now) false []
      (prepareRotation (sha256 token) now) := by
  have hfault : ∀ {l'} e, Preparing sha256 token now true l' (.error e) := fun _ hf => by cases hf
  have ha₀ : ∀ ev ∈ ([] : List Event), ev.Asks := fun ev hev => absurd hev List.not_mem_nil
  refine Walks.call_bind (fun _ _ => hfault _) ha₀ fun found hfound => ?_
  cases found with
  | some marker =>
    refine handleExistingMarker_walks (findMarker_answer hfound) (by simp [note]) ?_ ?_
    · intro h m hm
      exact And.right (by simpa [note] using hm)
    · simp [Quiet, note, Event.issued]
  | none =>
    refine Walks.call_bind (fun _ _ => hfault _) trivial fun family hfamily => ?_
    cases family with
    | none =>
      refine Walks.deny fun _ => ⟨rfl, Settled.denied ⟨⟨none, by simp [note]⟩, fun h m hm => ?_⟩⟩
      simp [note] at hm
    | some f =>
      refine Walks.draw_bind id trivial fun op _ => ?_
      let l₀ : List Event := [.drew op, .current (sha256 token) (some f), .found (sha256 token) none]
      let m : RefreshTokenReplayMarker := ⟨sha256 token, f.familyId, .pending, op,
        some (now + rotationLeaseMs), none, f.expiresAt⟩
      have hn : Names l₀ f.familyId := ⟨.current (sha256 token) (some f), by simp [l₀], rfl⟩
      have hs : Settled (sha256 token) l₀ :=
        ⟨⟨none, by simp [l₀]⟩, fun h m hm => by simp [l₀] at hm⟩
      have hq : Quiet l₀ := by simp [l₀, Quiet, Event.issued]
      have hu : Unleased now l₀ := fun h m hm => by simp [l₀] at hm
      refine Walks.bind (R := fun fl l' r => (r = .ok .inserted ∧ l' = .prepared m :: l₀) ∨
        (r = .ok .duplicateKey ∧ l' = l₀ ∧ fl = false) ∨ fl = true ∧ r = .error .denied) ?_ ?_ ?_
      · refine Walks.handle (R := fun fl l' r => (r = .ok .inserted ∧ l' = .prepared m :: l₀) ∨
          (r = .ok .duplicateKey ∧ l' = l₀ ∧ fl = false) ∨ fl = true ∧ r = .error .thrown) ?_ ?_ ?_
        · refine Walks.call ?_ (fun r _ => ?_) fun _ r => .inr (.inr ⟨rfl, rfl⟩)
          · exact ⟨rfl, f, by simp [note], rfl, rfl⟩
          · cases r with
            | inserted => exact .inl ⟨rfl, rfl⟩
            | duplicateKey => exact .inr (.inl ⟨rfl, rfl, rfl⟩)
        · rintro fl l' r (h | h | ⟨-, h⟩)
          · exact .inl h
          · exact .inr (.inl h)
          · cases h
        · rintro fl l' e (⟨h, -⟩ | ⟨h, -⟩ | ⟨h, -⟩)
          · cases h
          · cases h
          · exact Walks.deny (.inr (.inr ⟨h, rfl⟩))
      · rintro fl l' r (⟨h, rfl⟩ | ⟨h, rfl, rfl⟩ | ⟨-, h⟩)
        · cases h
          exact Walks.pure
            { settled := hs.cons nofun
              quiet := hq.cons rfl
              unleased := hu.cons nofun
              named := hn.cons
              drew := by simp [l₀]
              marker := ⟨m, by simp, rfl, rfl⟩ }
        · cases h
          have ha : ∀ ev ∈ l₀, ev.Asks := by simp [l₀, Event.Asks]
          refine Walks.call_bind (fun _ _ => hfault _) ha fun raced hraced => ?_
          cases raced with
          | none =>
            refine Walks.deny fun _ => ⟨rfl, Settled.denied ⟨⟨none, by simp [note]⟩, ?_⟩⟩
            exact fun h m hm => by simp [note, l₀] at hm
          | some marker =>
            refine handleExistingMarker_walks (findMarker_answer hraced) (by simp [note]) ?_
              (Quiet.cons rfl hq)
            intro h m hm
            exact And.right (by simpa [note, l₀] using hm)
        · cases h
      · rintro fl l' e (⟨h, -⟩ | ⟨h, -⟩ | ⟨rfl, h⟩)
        · cases h
        · cases h
        · exact hfault e

theorem recoverAfterInterruptedCas_walks {token familyId hash op : String} {now : Date}
    {Q : Bool → List Event → Except RefreshFailure Unit → Prop} (hn : Names l familyId)
    (hu : Unleased now l) (hQ : ∀ l' r, Q true l' r) :
    Walks sha256 ttl (.rotate token now) Q true l
      (recoverAfterInterruptedCas familyId hash op) := by
  refine Walks.handle (R := fun fl _ _ => fl = true) ?_ ?_ ?_
  · refine Walks.call_bind (fun _ _ => rfl) hn fun family _ => ?_
    have hu' : Unleased now (.read familyId family :: l) := hu.cons nofun
    refine Walks.draw_bind id trivial fun date _ => ?_
    split
    · exact Walks.pure rfl
    · refine finalizeAndRevoke_walks (fun l' ht => ?_) (fun _ _ _ => rfl) fun _ _ _ => rfl
      exact mayRevoke_of_unleased (hn.cons.tried ht) (hu'.tried ht)
  · rintro fl l' u rfl
    exact hQ l' _
  · rintro fl l' e rfl
    exact Walks.pure (hQ l' _)

theorem commitRotation_walks {token : String} {now : Date} {prepared : PreparedRotation}
    {hash : String} (hn : Names l prepared.family.familyId) (hu : Unleased now l)
    (hs : Settled (sha256 token) l) :
    Walks sha256 ttl (.rotate token now) (fun fl l' r =>
        (∃ m, r = .ok () ∧ l' = .committed hash prepared.operationId (some m) :: l ∧
          m.CommittedBy hash prepared.operationId) ∨ ∃ e, r = .error e ∧ Refused sha256 token fl l' e) faulted l
      (commitRotation prepared hash) := by
  refine Walks.handle (R := fun fl l' r =>
    (∃ m, r = .ok () ∧ l' = .committed hash prepared.operationId (some m) :: l ∧
        m.CommittedBy hash prepared.operationId) ∨
      (∃ e, r = .error e) ∧ Names l' prepared.family.familyId ∧ Unleased now l' ∧
        (fl = false → Settled (sha256 token) l')) ?_ ?_ ?_
  · refine Walks.bind (R := fun fl l' r => (∃ m, r = .ok m ∧
        l' = .committed hash prepared.operationId m :: l ∧
        ∀ m', m = some m' → m'.CommittedBy hash prepared.operationId) ∨
      fl = true ∧ (∃ e, r = .error e) ∧ Tried hash prepared.operationId l l') ?_ ?_ ?_
    · exact commitMarker_walks (fun m hm => .inl ⟨m, rfl, rfl, hm⟩)
        fun l' ht => .inr ⟨rfl, ⟨_, rfl⟩, ht⟩
    · rintro fl l' m (⟨m', hm, rfl, hby⟩ | ⟨-, ⟨e, h⟩, -⟩)
      · cases hm
        cases m with
        | some m => exact Walks.pure (.inl ⟨m, rfl, rfl, hby m rfl⟩)
        | none =>
          have hs' : Settled (sha256 token) (.committed hash prepared.operationId none :: l) :=
            hs.cons nofun
          have hu' : Unleased now (.committed hash prepared.operationId none :: l) := hu.cons nofun
          refine Walks.bind (R := fun fl l' _ => Names l' prepared.family.familyId ∧
            Unleased now l' ∧ (fl = false → Settled (sha256 token) l')) ?_ ?_ ?_
          · exact revoke_walks (by decide) (mayRevoke_of_unleased hn.cons hu')
              (fun n => ⟨hn.cons.cons, hu'.cons nofun, fun _ => hs'.cons nofun⟩)
              ⟨hn.cons, hu', nofun⟩ fun n => ⟨hn.cons.cons, hu'.cons nofun, nofun⟩
          · exact fun fl l' _ h => Walks.deny (.inr ⟨⟨_, rfl⟩, h⟩)
          · exact fun fl l' e h => .inr ⟨⟨e, rfl⟩, h⟩
      · cases h
    · rintro fl l' e (⟨m, hm, -⟩ | ⟨rfl, -, ht⟩)
      · cases hm
      · exact .inr ⟨⟨e, rfl⟩, hn.tried ht, hu.tried ht, nofun⟩
  · rintro fl l' u (h | ⟨⟨e, h⟩, -⟩)
    · exact .inl h
    · cases h
  · rintro fl l' e (⟨m, h, -⟩ | ⟨-, hn', hu', hs'⟩)
    · cases h
    · refine Walks.bind (R := fun fl' l'' r => (∃ u, r = .ok u) ∧
        (fl' = false → Settled (sha256 token) l'')) ?_ ?_ ?_
      · refine Walks.handle (R := fun fl' l'' r => fl' = false → Settled (sha256 token) l'') ?_
          (fun _ _ u h => ⟨⟨u, rfl⟩, h⟩) fun _ _ _ h => Walks.pure ⟨⟨(), rfl⟩, h⟩
        exact revoke_walks (by decide) (mayRevoke_of_unleased hn' hu')
          (fun n hf => (hs' hf).cons nofun) nofun fun _ => nofun
      · exact fun _ _ _ h => Walks.deny (.inr ⟨_, rfl, fun hf => ⟨rfl, (h.2 hf).denied⟩⟩)
      · rintro _ _ _ ⟨⟨u, h⟩, -⟩
        cases h

def Rotating (sha256 : String → String) (token : String) (now : Date) (faulted : Bool)
    (l : List Event) : Except RefreshFailure RefreshTokenRotationResult → Prop
  | .ok r => Rotated sha256 token l r ∧ Unleased now l
  | .error e => Refused sha256 token faulted l e

theorem rotate_walks {token : String} {now : Date} :
    Walks sha256 ttl (.rotate token now) (Rotating sha256 token now) false []
      (rotate sha256 token now) := by
  unfold rotate
  split
  · next ht => exact Walks.deny fun _ => ⟨rfl, fun h => absurd ht h, fun _ _ h => by simp at h⟩
  · refine Walks.bind prepareRotation_walks (fun fl l p hp => ?_) fun _ _ _ h => h
    refine Walks.draw_bind id trivial fun token' _ => ?_
    let l₁ : List Event := .drew token' :: l
    have hs₁ : Settled (sha256 token) l₁ := hp.settled.cons nofun
    have hu₁ : Unleased now l₁ := hp.unleased.cons nofun
    have hn₁ : Names l₁ p.family.familyId := hp.named.cons
    obtain ⟨m, hm, hmh, hmo⟩ := hp.marker
    refine Walks.bind (R := fun fl l' r => (∃ f, r = .ok (some f) ∧
        l' = .swapped (sha256 token) f :: l₁ ∧ f.currentTokenHash = some (sha256 token') ∧
        f.lastRotationOperationId = some p.operationId) ∨
      (r = .ok none ∧ l' = l₁) ∨ fl = true ∧ ∃ e, r = .error e) ?_ ?_ ?_
    · have hl : conduct sha256 (.rotate token now) fl l₁ _ (.swapFamily p.family.familyId
          (sha256 token) now (sha256 token') p.operationId) :=
        ⟨rfl, hp.quiet.cons rfl, hn₁, hu₁, ⟨m, List.mem_cons_of_mem _ hm, hmh, hmo⟩, token',
          List.mem_cons_self, rfl⟩
      refine Walks.handle (R := fun fl l' r => (∃ f, r = .ok (some f) ∧
          l' = .swapped (sha256 token) f :: l₁ ∧ f.currentTokenHash = some (sha256 token') ∧
          f.lastRotationOperationId = some p.operationId) ∨ (r = .ok none ∧ l' = l₁) ∨
        fl = true ∧ (∃ e, r = .error e) ∧ Names l' p.family.familyId ∧ Unleased now l') ?_ ?_ ?_
      · refine Walks.call hl (fun f hf => ?_) fun _ r => .inr (.inr ⟨rfl, ⟨_, rfl⟩, ?_⟩)
        · cases f with
          | none => exact .inr (.inl ⟨rfl, rfl⟩)
          | some f =>
            obtain ⟨hcur, hop⟩ := swapFamily_answer hf
            exact .inl ⟨f, rfl, rfl, hcur, hop⟩
        · rcases r with _ | _ | f
          · exact ⟨hn₁, hu₁⟩
          · exact ⟨hn₁, hu₁⟩
          · exact ⟨hn₁.cons, hu₁.cons nofun⟩
      · rintro fl l' r (h | h | ⟨-, ⟨e, h⟩, -⟩)
        · exact .inl h
        · exact .inr (.inl h)
        · cases h
      · rintro fl l' e (⟨f, h, -⟩ | ⟨h, -⟩ | ⟨rfl, -, hn, hu⟩)
        · cases h
        · cases h
        · refine Walks.bind (R := fun fl _ _ => fl = true) ?_ ?_ ?_
          · exact recoverAfterInterruptedCas_walks hn hu fun _ _ => rfl
          · rintro fl l' u rfl
            exact Walks.deny (.inr (.inr ⟨rfl, _, rfl⟩))
          · rintro fl l' e rfl
            exact .inr (.inr ⟨rfl, _, rfl⟩)
    · rintro fl l' r (⟨f, hr, rfl, hcur, hop⟩ | ⟨hr, rfl⟩ | ⟨-, e, hr⟩)
      · cases hr
        have hs₂ : Settled (sha256 token) (.swapped (sha256 token) f :: l₁) := hs₁.cons nofun
        have hu₂ : Unleased now (.swapped (sha256 token) f :: l₁) := hu₁.cons nofun
        refine Walks.bind (commitRotation_walks hn₁.cons hu₂ hs₂) ?_ ?_
        · rintro fl l' u (⟨m', -, rfl, hby⟩ | ⟨e, h, -⟩)
          · refine Walks.pure ⟨⟨f, m, m', ?_, hmh, ?_, ?_, ?_, hcur, ?_, ?_, ?_, rfl⟩,
              hu₂.cons nofun⟩
            · simp [l₁, hm]
            · simp [l₁, hmo, hp.drew]
            · simp
            · rw [hop, hmo]
            · simp [l₁, rotationResult]
            · rw [hmo]
              exact List.mem_cons_self
            · rw [hmo]
              exact hby
          · cases h
        · rintro fl l' e (⟨m', h, -⟩ | ⟨e', h, hr⟩)
          · cases h
          · cases h
            exact hr
      · cases hr
        exact finalize_walks hs₁ (fun l' ht => mayRevoke_of_unleased (hn₁.tried ht) (hu₁.tried ht))
          fun _ _ _ h => h
      · cases hr
    · rintro fl l' e (⟨f, h, -⟩ | ⟨h, -⟩ | ⟨rfl, -, -⟩)
      · cases h
      · cases h
      · exact nofun

theorem createFamily_walks {input : CreateRefreshTokenFamilyInput} {now : Date} :
    Walks sha256 ttl (.createFamily input now) (fun _ _ _ => True) false []
      (createFamily sha256 input now) := by
  refine Walks.draw_bind id trivial fun token _ => ?_
  refine Walks.draw_bind id trivial fun familyId _ => ?_
  refine Walks.call_bind (fun _ _ => trivial) ?_ fun _ _ => Walks.pure trivial
  refine ⟨?_, rfl, by simp [note], token, by simp [note], rfl⟩
  simp [Quiet, note, Event.issued]

theorem resolveFamilyId_walks {token : Option String} :
    Walks sha256 ttl (.resolveFamilyId token) (fun fl l r => fl = false → ∃ id, r = .ok id ∧
      ∀ t, token = some t → t ≠ "" → Resolved sha256 t l id) false []
      (resolveFamilyId sha256 token) := by
  unfold resolveFamilyId
  cases token with
  | none => exact Walks.pure fun _ => ⟨none, rfl, nofun⟩
  | some t =>
    simp only
    split
    · next ht =>
      refine Walks.pure fun _ => ⟨none, rfl, fun t' h hne => ?_⟩
      cases h
      exact absurd ht hne
    · refine Walks.call_bind (fun _ _ => nofun) trivial fun family _ => ?_
      cases family with
      | none =>
        have ha : ∀ ev ∈ [Event.resolved (sha256 t) none], ev.Asks := by simp [Event.Asks]
        refine Walks.call_bind (fun _ _ => nofun) ha fun m _ => Walks.pure fun _ => ?_
        refine ⟨_, rfl, fun t' h _ => .inr ⟨fun h' f hf => ?_, m, ?_, rfl⟩⟩
        · simp [note] at hf
        · cases h
          exact List.mem_cons_self
      | some f =>
        simp only
        split
        · refine Walks.pure fun _ => ⟨_, rfl, fun t' h _ => .inl ⟨f, ?_, rfl⟩⟩
          cases h
          exact List.mem_cons_self
        · next hf =>
          have ha : ∀ ev ∈ [Event.resolved (sha256 t) (some f)], ev.Asks := by simp [Event.Asks]
          refine Walks.call_bind (fun _ _ => nofun) ha fun m _ => Walks.pure fun _ => ?_
          refine ⟨_, rfl, fun t' h _ => .inr ⟨fun h' f' hf' => ?_, m, ?_, rfl⟩⟩
          · have hff : f' = f := And.right (by simpa [note] using hf')
            rw [hff]
            exact not_not.mp hf
          · cases h
            exact List.mem_cons_self

theorem runExpiredPendingMarkers_walks {now date : Date} :
    Walks sha256 ttl (.reconcileExpiredPendingMarkers now) (fun _ _ _ => True) false []
      (runExpiredPendingMarkers date) := by
  refine Walks.call_bind (fun _ _ => trivial) trivial fun batch _ => ?_
  exact reconcileMarkers_walks List.mem_cons_self (List.Subset.refl _)

/-- What a service method owes is what its reply owes. -/
theorem respond_walks {α : Type} {answer : α → Answer} {x : Refresh α}
    {Q : Bool → List Event → Except RefreshFailure α → Prop} (hx : Walks sha256 ttl c Q faulted l x)
    (hok : ∀ fl l a, Q fl l (.ok a) → verdict sha256 c fl l (.ok (answer a)))
    (herr : ∀ fl l e, Q fl l (.error e) → verdict sha256 c fl l (.error e)) :
    Conforms (system sha256 ttl) (conduct sha256 c) (verdict sha256 c) faulted l
      (respond answer x) :=
  Walks.bind hx (fun fl l a h => Walks.pure (hok fl l a h)) herr

/-- Every method keeps to its conduct and ends as its verdict says. -/
theorem body_walks (call : Call) : Conforms (system sha256 ttl) (conduct sha256 call)
    (verdict sha256 call) false [] (body sha256 call) := by
  cases call with
  | createFamily input now =>
    exact respond_walks createFamily_walks (fun _ _ _ _ => trivial) fun _ _ _ _ => trivial
  | rotate token now =>
    refine respond_walks rotate_walks (fun fl l r h => ⟨r, rfl, h⟩) fun fl l e h => h
  | resolveFamilyId token =>
    refine respond_walks resolveFamilyId_walks (fun fl l r h hf => ?_) fun fl l e h hf => ?_
    · obtain ⟨id, hid, hres⟩ := h hf
      cases hid
      exact ⟨r, rfl, hres⟩
    · obtain ⟨id, hid, -⟩ := h hf
      cases hid
  | reconcileExpiredPendingMarkers now =>
    exact respond_walks runExpiredPendingMarkers_walks (fun _ _ _ _ => trivial) fun _ _ _ _ => trivial
  | revokeRefreshToken token reason =>
    refine respond_walks (Q := fun _ _ _ => True) ?_ (fun _ _ _ _ => trivial) fun _ _ _ _ => trivial
    simp only [revokeRefreshToken]
    split
    · exact Walks.pure trivial
    · split
      · exact Walks.pure trivial
      · exact revoke_walks (by decide) trivial (fun _ => trivial) trivial fun _ => trivial
  | revokeFamily familyId reason =>
    refine respond_walks (Q := fun _ _ _ => True) ?_ (fun _ _ _ _ => trivial) fun _ _ _ _ => trivial
    exact revoke_walks (by decide) trivial (fun _ => trivial) trivial fun _ => trivial
  | revokeSubject subjectType subjectId reason =>
    refine respond_walks (Q := fun _ _ _ => True) ?_ (fun _ _ _ _ => trivial) fun _ _ _ _ => trivial
    exact revoke_walks (by decide) trivial (fun _ => trivial) trivial fun _ => trivial

end Methods

end TokenSession
