import BookLibrary.Accounts.Conduct
import BookLibrary.Accounts.Execution
import BookLibrary.Accounts.Members
import BookLibrary.Accounts.StaffUsers

/-!
# Claims on one identifier

Any number of callers of the two `reserveIdentifier` methods, outside of transactions,
that all want the same identifier.
-/

namespace Accounts

open AuthIdentifiers Documents Interleaving

/-- A call of `reserveIdentifier` of one of the two services. -/
inductive Reservation where
  | member (identifierType : AuthIdentifierType) (subjectId : String) (actorId : Option String)
  | staff (subjectId : String) (actorId : Option String)
  deriving DecidableEq

def Reservation.subject : Reservation → Subject
  | .member _ subjectId _ => (.member, subjectId)
  | .staff subjectId _ => (.staff, subjectId)

def Reservation.reserve (normalizedIdentifier : String) : Reservation → Handler Unit
  | .member identifierType subjectId actorId =>
    MembersService.reserveIdentifier normalizedIdentifier identifierType subjectId actorId
  | .staff subjectId actorId =>
    StaffUsersService.reserveIdentifier normalizedIdentifier subjectId actorId none

/-- The calls for one identifier. -/
def reservations (normalizedIdentifier : String) :
    System Reservation Op Store (Except Failure Unit) Event :=
  service fun request => (request.reserve normalizedIdentifier).run

/-- The update of a released reservation is applied while it is still released. -/
def claimsReleased {ι : Type} : Gate ι Reservation Op Store Event
  | _, _, .inr (.inl (.write _ (.claimReleased id ..))), true, s, _ =>
    ∃ d ∈ s.committed.identifiers, d.id = id ∧ d.status = .released
  | _, _, _, _, _, _ => True

section Conduct

variable (normalizedIdentifier : String)

/-- The event by which a call has come by the reservation, or has found it in its hands. -/
def Secures (subject : Subject) : Event → Prop
  | .foundIdentifier name (some d) =>
    name = normalizedIdentifier ∧ AuthIdentifier.owner d = some subject
  | .wrote none (.claimReleased ..) _ => True
  | .wrote none (.insertIdentifier _) (.written _) => True
  | _ => False

/-- A call that has returned has secured the reservation. -/
def Secured (subject : Subject) (_ : Bool) (l : List Event) (r : Except Failure Unit) : Prop :=
  r = .ok () → ∃ ev ∈ l, Secures normalizedIdentifier subject ev

/-- What a caller of `reserveIdentifier` may issue. -/
def reserves (subject : Subject) (_ : Bool) (l : List Event) : (β : Type) → Op β → Prop
  | _, .inl (session, .findIdentifier name) => session = none ∧ name = normalizedIdentifier
  | _, .inl _ => False
  | _, .inr (.inl (.write session (.claimReleased id _ subjectType subjectId _))) =>
    session = none ∧ subject = (subjectType, subjectId) ∧
      ∃ d, .foundIdentifier normalizedIdentifier (some d) ∈ l ∧ d.id = id
  | _, .inr (.inl (.write session (.insertIdentifier d))) =>
    session = none ∧ d.normalizedIdentifier = normalizedIdentifier ∧
      AuthIdentifier.owner d = some subject
  | _, .inr (.inl _) => False
  | _, .inr (.inr _) => True

variable {normalizedIdentifier} {body : Reservation → Prog Op (Except Failure Unit)}

theorem createIdentifier_conforms {subject : Subject} {fl : Bool} {l : List Event}
    (identifierType : AuthIdentifierType) (actorId : String)
    {Q : Bool → List Event → Except Failure (Sessions.WriteResult Document) → Prop}
    (herr : ∀ fl' l' error, Q fl' l' (.error error))
    (hok : ∀ d r, r ≠ .unmatched → Q fl (.wrote none (.insertIdentifier d) r :: l) (.ok r)) :
    Conforms (service body) (reserves normalizedIdentifier subject) Q fl l
      (createIdentifier none normalizedIdentifier identifierType subject.1 subject.2 actorId).run := by
  refine draw_conforms (fun _ => trivial) (fun l' error _ => herr true l' error) fun id => ?_
  by_cases hname : normalizedIdentifier = ""
  · rw [if_pos hname]
    exact Conforms.run_throw (herr _ _ _)
  · rw [if_neg hname]
    refine perform_conforms ⟨rfl, rfl, rfl⟩ (fun _ => trivial)
      (fun r hr => hok _ r (answers_insert hr)) fun l' error _ => herr true l' _

theorem Secured.error {subject : Subject} (fl : Bool) {l : List Event} {error : Failure} :
    Secured normalizedIdentifier subject fl l (.error error) := fun h => by cases h

theorem reserve_conforms {subject : Subject} (claimedType : Option AuthIdentifierType)
    (createdType : AuthIdentifierType) (actorId : Option String) {fl : Bool} {l : List Event} :
    Conforms (service body) (reserves normalizedIdentifier subject)
      (Secured normalizedIdentifier subject) fl l
      (reserve none normalizedIdentifier claimedType createdType subject.1 subject.2 actorId).run := by
  refine call_conforms ⟨rfl, rfl⟩ (fun _ => trivial) (fun _ _ _ => Secured.error true) fun found _ => ?_
  cases found with
  | some existing =>
    show Conforms _ _ _ _ _ (ExceptT.run (if _ then _ else if _ then _ else _))
    by_cases hown : existing.status = .active ∧ existing.subjectType = some subject.1 ∧
        existing.subjectId = some subject.2
    · rw [if_pos hown]
      refine Conforms.run_pure fun _ => ⟨_, List.mem_cons_self, rfl, ?_⟩
      exact AuthIdentifier.owner_eq_some.mpr hown
    · rw [if_neg hown]
      by_cases hreleased : existing.status ≠ .released
      · rw [if_pos hreleased]
        exact Conforms.run_throw (Secured.error fl)
      · rw [if_neg hreleased]
        refine call_conforms ⟨rfl, rfl, existing, List.mem_cons_self, rfl⟩ (fun _ => trivial)
          (fun _ _ _ => Secured.error true) fun r _ => ?_
        exact Conforms.run_pure fun _ => ⟨_, List.mem_cons_self, trivial⟩
  | none =>
    refine Conforms.run_bind (createIdentifier_conforms createdType _
      (fun fl _ _ => Secured.error fl) fun d r hr => ?_)
    cases r with
    | written docs => exact fun _ => ⟨_, List.mem_cons_self, trivial⟩
    | unmatched => exact absurd rfl hr
    | duplicateKey => exact Secured.error fl

end Conduct

section Ownership

variable {s : Database} {normalizedIdentifier : String}

/-- A reservation that a caller has read is still there under its identifier. -/
def Kept (s : Database) (d : AuthIdentifier) : Prop :=
  ∃ d' ∈ s.identifiers, d'.id = d.id ∧ d'.normalizedIdentifier = d.normalizedIdentifier

theorem Kept.trans {s' : Database} {d : AuthIdentifier} (h : Kept s d)
    (hs : ∀ x ∈ s.identifiers, Kept s' x) : Kept s' d := by
  obtain ⟨d', hmem, hid, hname⟩ := h
  obtain ⟨x, hx, hxid, hxname⟩ := hs d' hmem
  exact ⟨x, hx, hxid.trans hid, hxname.trans hname⟩

theorem kept_self {d : AuthIdentifier} (hd : d ∈ s.identifiers) : Kept s d := ⟨d, hd, rfl, rfl⟩

/-- A write of `reserveIdentifier` keeps every reservation under its identifier. -/
theorem kept_wrote (h : s.Indexed) {subject : Subject} {fl : Bool} {l : List Event} {w : Write}
    (hw : reserves normalizedIdentifier subject fl l _ (.inr (.inl (.write none w))))
    {x : AuthIdentifier} (hx : x ∈ s.identifiers) : Kept (s.wrote w) x := by
  cases w with
  | claimReleased id identifierType subjectType subjectId updatedBy =>
    rcases Database.write_identifier (s := s)
      (w := .claimReleased id identifierType subjectType subjectId updatedBy) h rfl (fun _ => rfl)
      (fun _ => rfl) with ⟨-, hr⟩ | ⟨d, hd, hr⟩
    · rw [Database.wrote_of_no_docs (by rw [hr]; rfl)]
      exact kept_self hx
    · rw [Database.wrote_written hr]
      refine Database.exists_put hx fun y hy hid => ?_
      rw [Database.identifier_eq_of_id h hy (List.mem_of_find?_eq_some hd) hid]
      rfl
  | insertIdentifier d =>
    rcases Database.write_insert (s := s) (w := .insertIdentifier d) h rfl with hr | ⟨hnew, hr, -⟩
    · rw [Database.wrote_of_no_docs (by rw [hr]; rfl)]
      exact kept_self hx
    · rw [Database.wrote_written hr]
      refine Database.exists_put hx fun y hy hid => ?_
      exact absurd hid (Database.id_ne_of_find hnew y hy)
  | _ => exact hw.elim

/-- Under the gate whoever owns the reservation keeps it. -/
theorem owner_wrote (h : s.Indexed) {subject owner : Subject} {fl : Bool} {l : List Event}
    {w : Write} (hw : reserves normalizedIdentifier subject fl l _ (.inr (.inl (.write none w))))
    (hgate : ∀ {id identifierType subjectType subjectId updatedBy},
      w = .claimReleased id identifierType subjectType subjectId updatedBy →
      ∃ d ∈ s.identifiers, d.id = id ∧ d.status = .released)
    (howner : s.owner normalizedIdentifier = some owner) :
    (s.wrote w).owner normalizedIdentifier = some owner := by
  obtain ⟨held, hheld, hactive⟩ := Database.owner_eq_some.mp howner
  cases w with
  | claimReleased id identifierType subjectType subjectId updatedBy =>
    obtain ⟨d, hd, rfl, hreleased⟩ := hgate rfl
    rw [Database.owner_claimReleased h hd hreleased]
    have hne : d.normalizedIdentifier ≠ normalizedIdentifier := by
      intro hname
      rw [← hname, Database.reservation_of_mem h hd] at hheld
      cases hheld
      rw [AuthIdentifier.owner_eq_some, hreleased] at hactive
      exact absurd hactive.1 (by decide)
    rw [if_neg hne, howner]
  | insertIdentifier d =>
    cases hr : schema.write (.insertIdentifier d) s with
    | written docs =>
      obtain ⟨hnone, -⟩ := Database.owner_insertIdentifier h hr normalizedIdentifier
      rw [hw.2.1, hheld] at hnone
      cases hnone
    | unmatched | duplicateKey => rw [Database.wrote_of_no_docs (by rw [hr]; rfl), howner]
  | _ => exact hw.elim

/-- Who has just claimed the reservation owns it. -/
theorem owner_secured (h : s.Indexed) {subject : Subject} {fl : Bool} {l : List Event} {w : Write}
    (hw : reserves normalizedIdentifier subject fl l _ (.inr (.inl (.write none w))))
    (hgate : ∀ {id identifierType subjectType subjectId updatedBy},
      w = .claimReleased id identifierType subjectType subjectId updatedBy →
      ∃ d ∈ s.identifiers, d.id = id ∧ d.status = .released)
    (hkept : ∀ d, .foundIdentifier normalizedIdentifier (some d) ∈ l →
      d.normalizedIdentifier = normalizedIdentifier ∧ Kept s d)
    (hsecures : Secures normalizedIdentifier subject (.wrote none w (schema.write w s))) :
    (s.wrote w).owner normalizedIdentifier = some subject := by
  cases w with
  | claimReleased id identifierType subjectType subjectId updatedBy =>
    obtain ⟨-, rfl, found, hfound, rfl⟩ := hw
    obtain ⟨d, hd, hid, hreleased⟩ := hgate rfl
    obtain ⟨hname, d', hd', hid', hname'⟩ := hkept found hfound
    have heq : d = d' := Database.identifier_eq_of_id h hd hd' (hid.trans hid'.symm)
    rw [← hid, Database.owner_claimReleased h hd hreleased, heq, hname', hname, if_pos rfl]
  | insertIdentifier d =>
    cases hr : schema.write (.insertIdentifier d) s with
    | written docs =>
      obtain ⟨-, howner⟩ := Database.owner_insertIdentifier h hr normalizedIdentifier
      rw [howner, if_pos hw.2.1, hw.2.2]
    | unmatched | duplicateKey =>
      rw [hr] at hsecures
      exact hsecures.elim
  | _ => exact hw.elim

end Ownership

section Contract

variable {ι : Type} {normalizedIdentifier : String}

/-- The unique indexes hold, and what has been read is still there. -/
structure Recorded (normalizedIdentifier : String) (s : Store)
    (J : List (Entry ι Reservation Event)) : Prop where
  indexed : s.committed.Indexed
  kept : ∀ e ∈ J, ∀ d, e.event = .foundIdentifier normalizedIdentifier (some d) →
    d.normalizedIdentifier = normalizedIdentifier ∧ Kept s.committed d

/-- A caller that has secured the reservation owns it. -/
def Owned (normalizedIdentifier : String) (s : Store) (J : List (Entry ι Reservation Event)) :
    Prop :=
  ∀ e ∈ J, Secures normalizedIdentifier e.call.subject e.event →
    s.committed.owner normalizedIdentifier = some e.call.subject

/-- What a legal call does: it reads the reservation, or claims it, or leaves all as it is. -/
theorem legal_cases (ι : Type) {subject : Subject} {fl : Bool} {l : List Event} {β : Type} {op : Op β}
    {r : Option β} {s s' : Store} (hlegal : reserves normalizedIdentifier subject fl l β op)
    (heff : (reservations normalizedIdentifier).Applies op s r s') :
    (s' = s ∧ (note β op r = [] ∨ ∃ found,
      note β op r = [.foundIdentifier normalizedIdentifier found] ∧
      FindOne (fun d => decide (d.normalizedIdentifier = normalizedIdentifier))
        s.committed.identifiers found)) ∨
    ∃ w, reserves normalizedIdentifier subject fl l _ (.inr (.inl (.write none w))) ∧
      (∀ (i : ι) J, claimsReleased i β op r.isSome s J →
        ∀ {id identifierType subjectType subjectId updatedBy},
        w = .claimReleased id identifierType subjectType subjectId updatedBy →
        ∃ d ∈ s.committed.identifiers, d.id = id ∧ d.status = .released) ∧
      note β op r = [.wrote none w (schema.write w s.committed)] ∧
      s' = { s with committed := s.committed.wrote w } := by
  cases r with
  | none =>
    refine .inl ⟨heff.2, .inl ?_⟩
    rcases op with ⟨session, q⟩ | c | x
    · cases q <;> rfl
    · cases c <;> rfl
    · rfl
  | some b =>
    rcases op with ⟨session, q⟩ | c | x
    · cases q with
      | findIdentifier name =>
        obtain ⟨rfl, rfl⟩ := hlegal
        obtain ⟨⟨v, hv, hfind⟩, hs⟩ := heff
        cases hv
        exact .inl ⟨hs, .inr ⟨b, rfl, hfind⟩⟩
      | _ => exact hlegal.elim
    · cases c with
      | write session w =>
        have hnone : session = none := by
          cases w with
          | claimReleased | insertIdentifier => exact hlegal.1
          | _ => exact hlegal.elim
        subst hnone
        obtain ⟨rfl, hs⟩ := heff
        refine .inr ⟨w, hlegal, fun i J hgate => ?_, rfl, hs⟩
        rintro id identifierType subjectType subjectId updatedBy rfl
        exact hgate
      | _ => exact hlegal.elim
    · exact .inl ⟨heff, .inl rfl⟩

variable [DecidableEq ι]

theorem Recorded.step {s s' : Store} {J : List (Entry ι Reservation Event)} {i : ι}
    {call : Reservation} {fl : Bool} {β : Type} {op : Op β} {r : Option β}
    (h : Recorded normalizedIdentifier s J)
    (hlegal : reserves normalizedIdentifier call.subject fl (own i J) β op)
    (heff : (reservations normalizedIdentifier).Applies op s r s') :
    Recorded normalizedIdentifier s' (record i call (note β op r) ++ J) := by
  rcases legal_cases ι hlegal heff with ⟨rfl, hnote⟩ | ⟨w, hw, -, hnote, rfl⟩
  · refine ⟨h.indexed, fun e he d hd => ?_⟩
    rcases List.mem_append.mp he with hnew | hold
    · obtain ⟨-, -, hev⟩ := mem_record.mp hnew
      rcases hnote with hnote | ⟨found, hnote, hfind⟩
      · rw [hnote] at hev
        cases hev
      · rw [hnote, List.mem_singleton, hd] at hev
        cases hev
        exact ⟨by simpa using hfind.select, kept_self hfind.mem⟩
    · exact h.kept e hold d hd
  · refine ⟨Database.wrote_indexed h.indexed w, fun e he d hd => ?_⟩
    rcases List.mem_append.mp he with hnew | hold
    · obtain ⟨-, -, hev⟩ := mem_record.mp hnew
      rw [hnote, List.mem_singleton, hd] at hev
      cases hev
    · obtain ⟨hname, hkept⟩ := h.kept e hold d hd
      exact ⟨hname, hkept.trans fun x hx => kept_wrote h.indexed hw hx⟩

theorem Owned.step {s s' : Store} {J : List (Entry ι Reservation Event)} {i : ι}
    {call : Reservation} (fl : Bool) {β : Type} {op : Op β} {r : Option β}
    (hr : Recorded normalizedIdentifier s J) (h : Owned normalizedIdentifier s J)
    (hlegal : reserves normalizedIdentifier call.subject fl (own i J) β op)
    (hgate : claimsReleased i β op r.isSome s J)
    (heff : (reservations normalizedIdentifier).Applies op s r s') :
    Owned normalizedIdentifier s' (record i call (note β op r) ++ J) := by
  intro e he hsecures
  rcases legal_cases ι hlegal heff with ⟨rfl, hnote⟩ | ⟨w, hw, hreleased, hnote, rfl⟩
  · rcases List.mem_append.mp he with hnew | hold
    · obtain ⟨-, -, hev⟩ := mem_record.mp hnew
      rcases hnote with hnote | ⟨found, hnote, hfind⟩
      · rw [hnote] at hev
        cases hev
      · -- the caller has found its own reservation
        rw [hnote, List.mem_singleton] at hev
        rw [hev] at hsecures
        cases found with
        | none => exact hsecures.elim
        | some d =>
          have hname : d.normalizedIdentifier = normalizedIdentifier := by
            simpa using hfind.select
          have hres := Database.reservation_of_mem hr.indexed hfind.mem
          rw [hname] at hres
          exact Database.owner_eq_some.mpr ⟨d, hres, hsecures.2⟩
    · exact h e hold hsecures
  · rcases List.mem_append.mp he with hnew | hold
    · obtain ⟨-, hcall', hev⟩ := mem_record.mp hnew
      rw [hnote, List.mem_singleton] at hev
      rw [hcall', hev] at hsecures
      rw [hcall']
      refine owner_secured hr.indexed hw (hreleased i J hgate) (fun d hd => ?_) hsecures
      obtain ⟨call', hmem⟩ := mem_own.mp hd
      exact hr.kept _ hmem d rfl
    · exact owner_wrote hr.indexed hw (hreleased i J hgate) (h e hold hsecures)

def contract (normalizedIdentifier : String) : Contract ι (reservations normalizedIdentifier) where
  inv := Recorded normalizedIdentifier
  legal request := reserves normalizedIdentifier request.subject
  post request := Secured normalizedIdentifier request.subject
  inv_call h _ hlegal heff := h.step hlegal heff
  inv_env := by
    rintro s s' J h rfl
    exact h
  conforms request := by
    cases request with
    | member identifierType subjectId actorId =>
      exact reserve_conforms (some identifierType) identifierType actorId
    | staff subjectId actorId => exact reserve_conforms none .email actorId

/-- Where every claim of a released reservation is applied while it is released, whoever
has been told that the identifier is reserved owns it, and nobody else has been told so. -/
theorem claims_exclusive {s : Database} (hs : s.Indexed)
    {c : Config ι Reservation Op Store (Except Failure Unit) Event}
    (hrun : (reservations normalizedIdentifier).Runs claimsReleased (Config.init (.init s)) c) :
    (∀ i th, c.Returns i th (.ok ()) →
      c.store.committed.owner normalizedIdentifier = some th.call.subject) ∧
    ∀ i j th th', c.Returns i th (.ok ()) → c.Returns j th' (.ok ()) →
      th.call.subject = th'.call.subject := by
  have hinit : Recorded normalizedIdentifier (.init s)
      ([] : List (Entry ι Reservation Event)) := ⟨hs, fun e he => by cases he⟩
  have w : WellFormed (contract normalizedIdentifier) (Config.init (.init s)) :=
    WellFormed.init hinit
  have howned : Owned normalizedIdentifier c.store c.journal :=
    w.runs_induct (P := Owned normalizedIdentifier)
      (fun {_ _ _ _ _ fl _ _ _} hr h _ hlegal hgate heff => h.step fl hr hlegal hgate heff)
      (fun _ h henv => henv ▸ h) hrun fun e he => by cases he
  have howner : ∀ i th, c.Returns i th (.ok ()) →
      c.store.committed.owner normalizedIdentifier = some th.call.subject := by
    intro i th hreturns
    obtain ⟨ev, hev, hsecures⟩ := (w.runs hrun).post_of_returns hreturns rfl
    obtain ⟨call, hmem⟩ := mem_own.mp hev
    have hcall : call = th.call := (w.runs hrun).call_eq hreturns.1 _ hmem rfl
    subst hcall
    exact howned _ hmem hsecures
  refine ⟨howner, fun i j th th' hi hj => ?_⟩
  exact Option.some.inj ((howner i th hi).symm.trans (howner j th' hj))

end Contract

section Runs

abbrev Run := Config ℕ Reservation Op Store (Except Failure Unit) Event

/-- `claimsReleased`, checked. -/
def checksReleased (_ : ℕ) (β : Type) (op : Op β) (applied : Bool) (s : Store)
    (_ : List (Entry ℕ Reservation Event)) : Bool :=
  match β, op, applied with
  | _, .inr (.inl (.write _ (.claimReleased id ..))), true =>
    s.committed.identifiers.any fun d => decide (d.id = id) && decide (d.status = .released)
  | _, _, _ => true

theorem claimsReleased_of_checks {i : ℕ} {β : Type} {op : Op β} {applied : Bool} {s : Store}
    {J : List (Entry ℕ Reservation Event)} (h : checksReleased i β op applied s J = true) :
    claimsReleased i β op applied s J := by
  rcases op with q | c | x
  · trivial
  · cases c with
    | write session w =>
      cases w with
      | claimReleased id identifierType subjectType subjectId updatedBy =>
        cases applied with
        | true =>
          obtain ⟨d, hd, hcheck⟩ := List.any_eq_true.mp h
          rw [Bool.and_eq_true, decide_eq_true_eq, decide_eq_true_eq] at hcheck
          exact ⟨d, hd, hcheck⟩
        | false => trivial
      | _ => trivial
    | _ => trivial
  · trivial

/-- The reservation of `ada@library.local`, which member `m0` has given up. -/
def released : Database :=
  .reserved [reservation "r0" "ada@library.local" .released (.member, "m0")]

theorem released_indexed : released.Indexed := by decide

def claimsDriver : Driver (reservations "ada@library.local") (claimsReleased : Gate ℕ _ _ _ _) Choice :=
  driver _ checksReleased claimsReleased_of_checks

def freeDriver : Driver (reservations "ada@library.local") (anyCall : Gate ℕ _ _ _ _) Choice :=
  driver _ (fun _ _ _ _ _ _ => true) fun _ => anyCall_pass

/-- A member and a staff user both look the reservation up. -/
def bothFind : List (Move ℕ Reservation Choice) :=
  [.start 1 (.member .email "m1" none), .start 2 (.staff "s1" none), go 1, go 2]

/-- Caller 1 claims the reservation; caller 2 starts later and is refused. -/
theorem claims_exclusive_run : ∃ c : Run,
    (reservations "ada@library.local").Runs claimsReleased (Config.init (.init released)) c ∧
    (∃ th, c.Returns 1 th (.ok ()) ∧
      c.store.committed.owner "ada@library.local" = some th.call.subject) ∧
    c.result 2 = some (.staff "s1" none,
      .error (.conflict "Sign-in identifier is already reserved")) := by
  have hrun : ((claimsDriver.play (Config.init (.init released))
      [.start 1 (.member .email "m1" none), go 1, go 1, .start 2 (.staff "s1" none), go 2]).map
        fun c => (c.result 1, c.result 2)) =
      some (some (.member .email "m1" none, .ok ()), some (.staff "s1" none,
        .error (.conflict "Sign-in identifier is already reserved"))) := rfl
  obtain ⟨c, hplay, hview⟩ := Option.map_eq_some_iff.mp hrun
  obtain ⟨hclaims, hrefused⟩ := Prod.mk.inj hview
  obtain ⟨th, hreturns, -⟩ := Config.returns_of_result hclaims
  have hruns := Driver.play_runs hplay
  exact ⟨c, hruns, ⟨th, hreturns, (claims_exclusive released_indexed hruns).1 1 th hreturns⟩,
    hrefused⟩

/-- Both find the reservation released, and both are told that it is theirs. -/
theorem claims_not_exclusive : ∃ c : Run,
    (reservations "ada@library.local").Runs anyCall (Config.init (.init released)) c ∧
    c.result 1 = some (.member .email "m1" none, .ok ()) ∧
    c.result 2 = some (.staff "s1" none, .ok ()) ∧
    c.store.committed.owner "ada@library.local" = some (.member, "m1") := by
  have hrun : ((freeDriver.play (Config.init (.init released)) (bothFind ++ [go 1, go 2])).map
        fun c => (c.result 1, c.result 2, c.store.committed.owner "ada@library.local")) =
      some (some (.member .email "m1" none, .ok ()), some (.staff "s1" none, .ok ()),
        some (.member, "m1")) := rfl
  obtain ⟨c, hplay, hview⟩ := Option.map_eq_some_iff.mp hrun
  obtain ⟨hmember, hview⟩ := Prod.mk.inj hview
  obtain ⟨hstaff, howner⟩ := Prod.mk.inj hview
  exact ⟨c, Driver.play_runs hplay, hmember, hstaff, howner⟩

end Runs

end Accounts
