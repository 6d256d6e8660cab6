import BookLibrary.Accounts.Conduct
import BookLibrary.Interleaving.Traces

/-!
# The writes of a service on its own

What a service does when nobody else works on the accounts: the writes that it attempts,
and the database as its calls see it, within a transaction or outside of all.
-/

namespace Accounts

open AuthIdentifiers Documents Interleaving

/-- A write or a commit that was issued; `applied` is what it came to. -/
inductive Attempt where
  | write (session : Option ℕ) (w : Write) (applied : Option (Sessions.WriteResult Document))
      (threw : Bool)
  | commit (session : ℕ) (applied threw : Bool)
  deriving DecidableEq

def attempt : Step Op → Option Attempt
  | ⟨.inr (.inl (.write session w)), o⟩ => some (.write session w o.applied o.isThrown)
  | ⟨.inr (.inl (.commitTransaction n)), o⟩ => some (.commit n o.applied.isSome o.isThrown)
  | _ => none

/-- A write for the purpose was issued in the session. -/
def tried (session : Option ℕ) (p : Purpose) (l : List Attempt) : Bool :=
  l.any fun
    | .write session' w _ _ => decide (session' = session) && decide (w.purpose = p)
    | .commit .. => false

/-- A write for the purpose has left documents in the session. -/
def made (session : Option ℕ) (p : Purpose) (l : List Attempt) : Bool :=
  l.any fun
    | .write session' w (some (.written _)) _ =>
      decide (session' = session) && decide (w.purpose = p)
    | _ => false

/-- A write for the purpose has thrown in the session. -/
def threw (session : Option ℕ) (p : Purpose) (l : List Attempt) : Bool :=
  l.any fun
    | .write session' w _ true => decide (session' = session) && decide (w.purpose = p)
    | _ => false

/-- The call, or what the caller makes of its answer, throws. -/
def Attempt.fails : Attempt → Bool
  | .write none _ _ true => true
  | .write none _ (some .duplicateKey) _ => true
  | .write none w (some .unmatched) _ => decide (w.purpose = .save)
  | _ => false

@[simp] theorem tried_append (session : Option ℕ) (p : Purpose) (l l' : List Attempt) :
    tried session p (l ++ l') = (tried session p l || tried session p l') := List.any_append

@[simp] theorem made_append (session : Option ℕ) (p : Purpose) (l l' : List Attempt) :
    made session p (l ++ l') = (made session p l || made session p l') := List.any_append

@[simp] theorem threw_append (session : Option ℕ) (p : Purpose) (l l' : List Attempt) :
    threw session p (l ++ l') = (threw session p l || threw session p l') := List.any_append

@[simp] theorem tried_nil (session : Option ℕ) (p : Purpose) : tried session p [] = false := rfl

@[simp] theorem made_nil (session : Option ℕ) (p : Purpose) : made session p [] = false := rfl

@[simp] theorem threw_nil (session : Option ℕ) (p : Purpose) : threw session p [] = false := rfl

/-- What the calls of a session see. Outside of all sessions that is the database itself;
a transaction sees its snapshot `base`, which nobody has changed, under its own writes. -/
def At (session : Option ℕ) (base v : Database) (s : Store) : Prop :=
  match session with
  | none => s.committed = v
  | some n => s.committed = base ∧ ∃ t, s.transactions n = some t ∧ t.snapshot = base ∧
      schema.putAll t.buffer base = v

/-- What a program leads to that works on the view of one session. -/
abbrev Shows {α : Type} (session : Option ℕ) (base : Database) (p : Prog Op α) (v : Database)
    (Q : List Attempt → α → Database → Prop) : Prop :=
  Leads exec fallible attempt (At session base) p v Q

section Rules

variable {α β : Type} {session : Option ℕ} {base v : Database} {s s₁ : Store}
  {Q : List Attempt → Except Failure α → Database → Prop}

theorem view_at (h : At session base v s) : schema.view s session = some v := by
  cases session with
  | none => exact congrArg some h
  | some n =>
    obtain ⟨-, t, ht, rfl, rfl⟩ := h
    rw [Sessions.Schema.view, ht]
    rfl

theorem goes_query {q : Query β} {o : Outcome β} (hs : At session base v s)
    (h : Goes exec fallible (Sum.inl (session, q) : Op β) s o s₁) :
    s₁ = s ∧ ∀ b, o.applied = some b → Database.answers β q v b := by
  rcases h.applied with ⟨hnone, rfl⟩ | ⟨b, hb, ⟨v', hv', hq⟩, rfl⟩
  · refine ⟨rfl, fun b hb => ?_⟩
    rw [hnone] at hb
    cases hb
  · rw [view_at hs] at hv'
    cases hv'
    refine ⟨rfl, fun b' hb' => ?_⟩
    rw [hb] at hb'
    cases hb'
    exact hq

theorem goes_write {w : Write} {o : Outcome (Sessions.WriteResult Document)}
    (hs : At session base v s)
    (h : Goes exec fallible (Sum.inr (.inl (.write session w)) : Op _) s o s₁) :
    (o.applied = none ∧ At session base v s₁) ∨
      o.applied = some (schema.write w v) ∧ At session base (v.wrote w) s₁ := by
  rcases h.applied with ⟨hnone, rfl⟩ | ⟨r, hr, hexec⟩
  · exact .inl ⟨hnone, hs⟩
  · right
    cases session with
    | none =>
      obtain rfl := hs
      obtain ⟨rfl, rfl⟩ := hexec
      exact ⟨hr, rfl⟩
    | some n =>
      obtain ⟨hbase, t, ht, rfl, rfl⟩ := hs
      obtain ⟨t', ht', rfl, rfl⟩ := hexec
      rw [ht] at ht'
      cases ht'
      refine ⟨hr, hbase, _, Function.update_self .., rfl, ?_⟩
      rw [Sessions.Schema.putAll_append]
      rfl

theorem goes_draw {op : Draw β} {o : Outcome β} (h : Goes exec fallible (drawn op) s o s₁) :
    s₁ = s := by
  rcases h.applied with ⟨-, rfl⟩ | ⟨b, -, hexec⟩
  · rfl
  · exact hexec

/-- The error that a call has thrown is passed on. -/
theorem passed_on {e : Option Fault → α} {R : List Attempt → α → Database → Prop}
    (h : ∀ error, R [] (e error) v) :
    Shows session base (.call (drawn .lastError) fun error => .done (e error)) v R := by
  refine Leads.call fun s hs o s₁ hgoes => ⟨v, ?_, Leads.done (h _)⟩
  rw [goes_draw hgoes]
  exact hs

/-- A call that leaves the database as it is answers with some `P`, or throws. -/
def Reads (P : β → Prop) (T : Prop) (v : Database) (l : List Attempt) (r : Except Failure β)
    (v' : Database) : Prop :=
  l = [] ∧ v' = v ∧ match r with
    | .ok b => P b
    | .error e => T ∧ ∃ error, e = .thrown error

theorem Reads.then {P : β → Prop} {T : Prop} {x : Handler β} {f : β → Handler α}
    (hx : Shows session base x.run v (Reads P T v))
    (herr : T → ∀ error, Q [] (.error (.thrown error)) v)
    (hok : ∀ b, P b → Shows session base (f b).run v Q) :
    Shows session base (x >>= f).run v Q := by
  refine Leads.run_bind hx ?_ ?_
  · rintro l b v₁ ⟨rfl, rfl, hb⟩
    exact hok b hb
  · rintro l e v₁ ⟨rfl, rfl, hT, error, rfl⟩
    exact herr hT error

theorem find_then {q : Query β} {f : β → Handler α} (herr : ∀ error, Q [] (.error (.thrown error)) v)
    (hok : ∀ b, Database.answers β q v b → Shows session base (f b).run v Q) :
    Shows session base (find session q >>= f).run v Q := by
  refine Reads.then (P := Database.answers β q v) (T := True) ?_ (fun _ => herr) hok
  refine Leads.call fun s hs o s₁ hgoes => ?_
  obtain ⟨rfl, hanswers⟩ := goes_query hs hgoes
  refine ⟨v, hs, ?_⟩
  cases o with
  | answered b => exact Leads.done ⟨rfl, rfl, hanswers b rfl⟩
  | threw r => exact passed_on fun error => ⟨rfl, rfl, trivial, _, rfl⟩

theorem draw_then {op : Draw β} {f : β → Handler α}
    (herr : fallible β (drawn op) → ∀ error, Q [] (.error (.thrown error)) v)
    (hok : ∀ b, Shows session base (f b).run v Q) :
    Shows session base (draw op >>= f).run v Q := by
  refine Reads.then (P := fun _ => True) (T := fallible β (drawn op)) ?_ herr fun b _ => hok b
  refine Leads.call fun s hs o s₁ hgoes => ⟨v, ?_, ?_⟩
  · rw [goes_draw hgoes]
    exact hs
  · cases o with
    | answered b => exact Leads.done ⟨rfl, rfl, trivial⟩
    | threw r =>
      have hfails : fallible β (drawn op) := by
        cases r with
        | none => exact hgoes.1
        | some b => exact hgoes.1
      exact passed_on fun error => ⟨rfl, rfl, hfails, _, rfl⟩

/-- Nothing is written, and the database is as it was. -/
def Still {α : Type} (P : α → Prop) (v : Database) (l : List Attempt) (r : Except Failure α)
    (v' : Database) : Prop :=
  l = [] ∧ v' = v ∧ ∀ a, r = .ok a → P a

/-- A write that has thrown, applied or not. -/
inductive Thrown (session : Option ℕ) (w : Write) (v : Database) :
    List Attempt → Failure → Database → Prop
  | applied (error : Fault) : Thrown session w v
      [.write session w (some (schema.write w v)) true] (.thrown error) (v.wrote w)
  | lost (error : Fault) : Thrown session w v [.write session w none true] (.thrown error) v

/-- How a write goes. -/
def Writes (session : Option ℕ) (w : Write) (v : Database) (l : List Attempt)
    (r : Except Failure (Sessions.WriteResult Document)) (v' : Database) : Prop :=
  match r with
  | .ok b => l = [.write session w (some (schema.write w v)) false] ∧ b = schema.write w v ∧
      v' = v.wrote w
  | .error e => Thrown session w v l e v'

theorem write_shows (w : Write) : Shows session base (write session w).run v (Writes session w v) := by
  refine Leads.call fun s hs o s₁ hgoes => ?_
  have hcases := goes_write hs hgoes
  cases o with
  | answered r =>
    rcases hcases with ⟨hnone, -⟩ | ⟨hr, hs₁⟩
    · cases hnone
    · obtain rfl := Option.some.inj hr
      exact ⟨_, hs₁, Leads.done ⟨rfl, rfl, rfl⟩⟩
  | threw r =>
    rcases hcases with ⟨hnone, hs₁⟩ | ⟨hr, hs₁⟩
    · obtain rfl : r = none := hnone
      exact ⟨_, hs₁, passed_on fun error => .lost _⟩
    · obtain rfl : r = some (schema.write w v) := hr
      exact ⟨_, hs₁, passed_on fun error => .applied _⟩

theorem write_then {w : Write} {f : Sessions.WriteResult Document → Handler α}
    (herr : ∀ l e v', Thrown session w v l e v' → Q l (.error e) v')
    (hok : Shows session base (f (schema.write w v)).run (v.wrote w) fun l =>
      Q (.write session w (some (schema.write w v)) false :: l)) :
    Shows session base (write session w >>= f).run v Q := by
  refine Leads.run_bind (write_shows w) ?_ herr
  rintro l b v' ⟨rfl, rfl, rfl⟩
  exact hok

end Rules

/-- The session has left an active reservation of the identifier to the subject. -/
def acquired (session : Option ℕ) (subject : Subject) (identifier : String) (l : List Attempt) :
    Bool :=
  l.any fun
    | .write session' w (some (.written docs)) _ =>
      decide (session' = session) && decide (w.purpose = .reservation) && docs.any fun
        | .identifier d => decide (AuthIdentifier.owner d = some subject) &&
            decide (d.normalizedIdentifier = identifier)
        | _ => false
    | _ => false

@[simp] theorem acquired_append (session : Option ℕ) (subject : Subject) (identifier : String)
    (l l' : List Attempt) : acquired session subject identifier (l ++ l') =
      (acquired session subject identifier l || acquired session subject identifier l') :=
  List.any_append

@[simp] theorem acquired_nil (session : Option ℕ) (subject : Subject) (identifier : String) :
    acquired session subject identifier [] = false := rfl

/-- All that was issued are writes for the purpose `q` in the session. -/
def Issues (session : Option ℕ) (q : Purpose) (l : List Attempt) : Prop :=
  ∀ a ∈ l, ∃ w r t, a = .write session w r t ∧ w.purpose = q

namespace Issues

variable {session : Option ℕ} {p q : Purpose} {l l' : List Attempt}

theorem nil : Issues session q [] := fun a ha => by cases ha

theorem one {w : Write} (hw : w.purpose = q) {r : Option (Sessions.WriteResult Document)} {t : Bool} :
    Issues session q [.write session w r t] :=
  fun _ ha => ⟨w, r, t, List.mem_singleton.mp ha, hw⟩

theorem append (h : Issues session q l) (h' : Issues session q l') : Issues session q (l ++ l') :=
  fun a ha => (List.mem_append.mp ha).elim (h a) (h' a)

variable (h : Issues session q l)

include h

theorem tried (hpq : q ≠ p) (session' : Option ℕ) :
    tried session' p l = false := by
  rw [Accounts.tried, List.any_eq_false]
  intro a ha
  obtain ⟨w, r, t, rfl, hw⟩ := h a ha
  simp [hw, hpq]

theorem made (hpq : q ≠ p) (session' : Option ℕ) :
    made session' p l = false := by
  rw [Accounts.made, List.any_eq_false]
  intro a ha
  obtain ⟨w, r, t, rfl, hw⟩ := h a ha
  split
  · next heq =>
    cases heq
    simp [hw, hpq]
  · simp

theorem threw (hpq : q ≠ p) (session' : Option ℕ) :
    threw session' p l = false := by
  rw [Accounts.threw, List.any_eq_false]
  intro a ha
  obtain ⟨w, r, t, rfl, hw⟩ := h a ha
  split
  · next heq =>
    cases heq
    simp [hw, hpq]
  · simp

theorem acquired (hq : q ≠ .reservation) (session' : Option ℕ)
    (subject : Subject) (identifier : String) : acquired session' subject identifier l = false := by
  rw [Accounts.acquired, List.any_eq_false]
  intro a ha
  obtain ⟨w, r, t, rfl, hw⟩ := h a ha
  split
  · next heq =>
    cases heq
    simp [hw, hq]
  · simp

end Issues

/-- What `reserve` does: it leaves at most the one reservation to its subject. -/
structure Reserves (session : Option ℕ) (identifier : String) (subject : Subject) (v : Database)
    (l : List Attempt) (r : Except Failure Unit) (v' : Database) : Prop where
  indexed : v'.Indexed
  staffUsers : v'.staffUsers = v.staffUsers
  members : v'.members = v.members
  owner : ∀ x, v'.owner x =
    if x = identifier ∧ made session .reservation l = true then some subject else v.owner x
  free : made session .reservation l = true → v.owner identifier = none
  secured : r = .ok () → v'.owner identifier = some subject
  acquires : ∀ x, acquired session subject x l =
    (decide (x = identifier) && made session .reservation l)
  issues : Issues session .reservation l

section Reserve

variable {session : Option ℕ} {base v : Database} {identifier : String} {subject : Subject}

/-- The write leaves the reservation, which nobody owned, to the subject, or is refused. -/
def Takes (identifier : String) (subject : Subject) (v : Database) (w : Write) : Prop :=
  w.purpose = .reservation ∧ (schema.write w v = .duplicateKey ∨
    ∃ d, schema.write w v = .written [.identifier d] ∧ AuthIdentifier.owner d = some subject ∧
      d.normalizedIdentifier = identifier ∧ v.owner identifier = none ∧
      ∀ x, (v.wrote w).owner x = if x = identifier then some subject else v.owner x)

theorem takes_claim (subject : Subject) (hv : v.Indexed) {d : AuthIdentifier} (hd : d ∈ v.identifiers)
    (hs : d.status = .released) (identifierType : Option AuthIdentifierType) (actorId : String) :
    Takes d.normalizedIdentifier subject v
      (.claimReleased d.id identifierType subject.1 subject.2 actorId) := by
  refine ⟨rfl, .inr ⟨_, Database.write_claimReleased hv hd hs, rfl, rfl, ?_, fun x => ?_⟩⟩
  · rw [Database.owner, Database.reservation_of_mem hv hd]
    simp [AuthIdentifier.owner, hs]
  · rw [Database.owner_claimReleased hv hd hs]
    simp only [eq_comm]

theorem takes_insert (hv : v.Indexed) {d : AuthIdentifier} (ho : AuthIdentifier.owner d = some subject) :
    Takes d.normalizedIdentifier subject v (.insertIdentifier d) := by
  refine ⟨rfl, ?_⟩
  rcases Database.write_insert (s := v) (w := .insertIdentifier d) hv rfl with hdup | ⟨-, hw, -⟩
  · exact .inl hdup
  · have howner := Database.owner_insertIdentifier hv hw
    refine .inr ⟨d, hw, ho, rfl, ?_, fun x => ?_⟩
    · rw [Database.owner, (howner d.normalizedIdentifier).1]
      rfl
    · rw [(howner x).2, ho]
      simp only [eq_comm]

theorem Reserves.nothing (hv : v.Indexed) {r : Except Failure Unit}
    (hr : r = .ok () → v.owner identifier = some subject) :
    Reserves session identifier subject v [] r v where
  indexed := hv
  staffUsers := rfl
  members := rfl
  owner x := by simp
  free h := by cases h
  secured := hr
  acquires x := by simp
  issues := .nil

/-- The one write of `reserve`, applied. -/
theorem Reserves.applied (hv : v.Indexed) {w : Write} (hw : Takes identifier subject v w) (t : Bool)
    {r : Except Failure Unit} (hr : r = .ok () → schema.write w v ≠ .duplicateKey) :
    Reserves session identifier subject v [.write session w (some (schema.write w v)) t] r
      (v.wrote w) := by
  obtain ⟨hkind, hdup | ⟨d, hd, howner, hname, hfree, hx⟩⟩ := hw
  · have hsame : v.wrote w = v := Database.wrote_of_no_docs (by rw [hdup]; rfl)
    rw [hsame, hdup]
    exact {
      indexed := hv
      staffUsers := rfl
      members := rfl
      owner := fun x => by simp [made]
      free := fun h => by simp [made] at h
      secured := fun h => absurd hdup (hr h)
      acquires := fun x => by simp [made, acquired]
      issues := .one hkind }
  · have hput := Database.wrote_written hd
    rw [hd]
    exact {
      indexed := Database.wrote_indexed hv w
      staffUsers := by rw [hput]; rfl
      members := by rw [hput]; rfl
      owner := fun x => by simp [made, hkind, hx x]
      free := fun _ => hfree
      secured := fun _ => by rw [hx, if_pos rfl]
      acquires := fun x => by simp [made, acquired, hkind, howner, hname, eq_comm]
      issues := .one hkind }

theorem Reserves.lost (hv : v.Indexed) {w : Write} (hw : w.purpose = .reservation) {e : Failure} :
    Reserves session identifier subject v [.write session w none true] (.error e) v where
  indexed := hv
  staffUsers := rfl
  members := rfl
  owner x := by simp [made]
  free h := by simp [made] at h
  secured h := by cases h
  acquires x := by simp [made, acquired]
  issues := .one hw

theorem Reserves.thrown (hv : v.Indexed) {w : Write} (hw : Takes identifier subject v w)
    {l : List Attempt} {e : Failure} {v' : Database} (h : Thrown session w v l e v') :
    Reserves session identifier subject v l (.error e) v' := by
  cases h with
  | applied error => exact .applied hv hw true fun h => by cases h
  | lost error => exact .lost hv hw.1

/-- `createIdentifier` writes a reservation of the subject's, unless it fails before. -/
def Creates (session : Option ℕ) (identifier : String) (subject : Subject) (v : Database)
    (l : List Attempt) (r : Except Failure (Sessions.WriteResult Document)) (v' : Database) : Prop :=
  match r with
  | .ok b => ∃ d, AuthIdentifier.owner d = some subject ∧ d.normalizedIdentifier = identifier ∧
      Writes session (.insertIdentifier d) v l (.ok b) v'
  | .error e => (l = [] ∧ v' = v) ∨ ∃ d, AuthIdentifier.owner d = some subject ∧
      d.normalizedIdentifier = identifier ∧ Thrown session (.insertIdentifier d) v l e v'

theorem createIdentifier_shows (subject : Subject) (identifierType : AuthIdentifierType) (actorId : String) :
    Shows session base
      (createIdentifier session identifier identifierType subject.1 subject.2 actorId).run v
      (Creates session identifier subject v) := by
  refine draw_then (fun h => h.elim) fun id => ?_
  refine Leads.run_ite (fun _ => Leads.run_throw (.inl ⟨rfl, rfl⟩)) fun _ => ?_
  refine (write_shows _).mono fun l r v' h => ?_
  cases r with
  | ok b => exact ⟨_, rfl, rfl, h⟩
  | error e => exact .inr ⟨_, rfl, rfl, h⟩

theorem reserve_shows (subject : Subject) (hv : v.Indexed) (claimedType : Option AuthIdentifierType)
    (createdType : AuthIdentifierType) (actorId : Option String) :
    Shows session base
      (reserve session identifier claimedType createdType subject.1 subject.2 actorId).run v
      (Reserves session identifier subject v) := by
  refine find_then (fun error => .nothing hv fun h => by cases h) fun found hfound => ?_
  cases found with
  | some existing =>
    replace hfound : FindOne (fun d => decide (d.normalizedIdentifier = identifier)) v.identifiers
      (some existing) := hfound
    have hmem := hfound.mem
    have hname : existing.normalizedIdentifier = identifier := by simpa using hfound.select
    subst hname
    refine Leads.run_ite (fun hown => ?_) fun hown => ?_
    · refine Leads.run_pure (.nothing hv fun _ => ?_)
      exact Database.owner_eq_some.mpr
        ⟨existing, Database.reservation_of_mem hv hmem, AuthIdentifier.owner_eq_some.mpr hown⟩
    · refine Leads.run_ite (fun hreleased => ?_) fun hreleased => ?_
      · exact Leads.run_throw (.nothing hv fun h => by cases h)
      · have htakes := takes_claim subject hv hmem (not_not.mp hreleased) claimedType
          (actorId.getD "system")
        refine write_then (fun l e v' h => .thrown hv htakes h) (Leads.run_pure ?_)
        refine .applied hv htakes false fun _ hdup => ?_
        rw [Database.write_claimReleased hv hmem (not_not.mp hreleased)] at hdup
        cases hdup
  | none =>
    refine Leads.run_bind (createIdentifier_shows subject createdType _) ?_ ?_
    · rintro l b v' ⟨d, ho, rfl, rfl, rfl, rfl⟩
      have htakes := takes_insert hv ho
      cases hw : schema.write (.insertIdentifier d) v with
      | duplicateKey =>
        refine Leads.run_throw ?_
        rw [← hw]
        exact .applied hv htakes false fun h => by cases h
      | unmatched | written =>
        refine Leads.run_pure ?_
        rw [← hw]
        exact .applied hv htakes false fun _ hdup => by rw [hdup] at hw; cases hw
    · rintro l e v' (⟨rfl, rfl⟩ | ⟨d, ho, rfl, hthrown⟩)
      · exact .nothing hv fun h => by cases h
      · exact .thrown hv (takes_insert hv ho) hthrown

end Reserve

/-- How many of the writes outside of transactions have failed. -/
def faults (l : List Attempt) : ℕ := l.countP Attempt.fails

@[simp] theorem faults_append (l l' : List Attempt) : faults (l ++ l') = faults l + faults l' :=
  List.countP_append

@[simp] theorem faults_nil : faults [] = 0 := rfl

theorem faults_pos {l : List Attempt} {a : Attempt} (ha : a ∈ l) (h : a.fails = true) :
    1 ≤ faults l :=
  List.countP_pos_iff.mpr ⟨a, ha, h⟩

theorem faults_of_threw {l : List Attempt} {p : Purpose} (h : threw none p l = true) :
    1 ≤ faults l := by
  obtain ⟨a, ha, hp⟩ := List.any_eq_true.mp h
  refine faults_pos ha ?_
  cases a with
  | commit => cases hp
  | write session w applied t =>
    cases t with
    | false => cases hp
    | true =>
      simp only [Bool.and_eq_true, decide_eq_true_eq] at hp
      rw [hp.1]
      rfl

/-- What `release` does: it frees the identifier if the subject holds it. -/
structure Releases (session : Option ℕ) (identifier : String) (subject : Subject) (v : Database)
    (l : List Attempt) (r : Except Failure Unit) (v' : Database) : Prop where
  indexed : v'.Indexed
  staffUsers : v'.staffUsers = v.staffUsers
  members : v'.members = v.members
  owner : ∀ x, v'.owner x =
    if x = identifier ∧ made session (.release identifier) l = true then none
    else v.owner x
  held : made session (.release identifier) l = true → v.owner identifier = some subject
  freed : r = .ok () → v'.owner identifier ≠ some subject
  returned : r = .ok () ↔ threw session (.release identifier) l = false
  issues : Issues session (.release identifier) l

section Release

variable {session : Option ℕ} {base v : Database} {identifier : String} {subject : Subject}

/-- The write frees the identifier from the subject, or finds it in other hands. -/
def Frees (identifier : String) (subject : Subject) (v : Database) (w : Write) : Prop :=
  w.purpose = .release identifier ∧
    ((schema.write w v = .unmatched ∧ v.owner identifier ≠ some subject) ∨
    ∃ d, schema.write w v = .written [.identifier d] ∧ v.owner identifier = some subject ∧
      ∀ x, (v.wrote w).owner x = if x = identifier then none else v.owner x)

theorem frees_release (identifier : String) (subject : Subject) (hv : v.Indexed) (releasedAt : Date) (actorId : String) :
    Frees identifier subject v
      (.releaseIdentifier identifier subject.1 subject.2 releasedAt actorId) := by
  refine ⟨rfl, ?_⟩
  have howner : ∀ x, (v.wrote (.releaseIdentifier identifier subject.1 subject.2 releasedAt
      actorId)).owner x = if identifier = x ∧ v.owner identifier = some subject then none
        else v.owner x :=
    fun x => Database.owner_releaseIdentifier hv identifier x
  rcases Database.write_identifier (s := v)
    (w := .releaseIdentifier identifier subject.1 subject.2 releasedAt actorId) hv rfl (fun _ => rfl)
    (fun _ => rfl) with ⟨hnone, hw⟩ | ⟨d, hd, hw⟩
  · refine .inl ⟨hw, fun h => ?_⟩
    have hself := howner identifier
    rw [Database.wrote_of_no_docs (by rw [hw]; rfl), if_pos ⟨rfl, h⟩, h] at hself
    cases hself
  · obtain ⟨hname, ho⟩ := isHeldBy_iff.mp (List.find?_some hd)
    have hheld : v.owner identifier = some subject := Database.owner_eq_some.mpr
      ⟨d, hname ▸ Database.reservation_of_mem hv (List.mem_of_find?_eq_some hd), ho⟩
    refine .inr ⟨_, hw, hheld, fun x => ?_⟩
    rw [howner x]
    simp [hheld, eq_comm]

/-- The one write of `release`, applied. -/
theorem Releases.applied (hv : v.Indexed) {w : Write} (hw : Frees identifier subject v w) {t : Bool}
    {r : Except Failure Unit} (hr : r = .ok () ↔ t = false) :
    Releases session identifier subject v [.write session w (some (schema.write w v)) t] r
      (v.wrote w) := by
  obtain ⟨hkind, hcases⟩ := hw
  have hreturned : ∀ res, r = .ok () ↔
      threw session (.release identifier) [.write session w res t] = false := by
    intro res
    cases t with
    | false => simpa [threw] using hr
    | true => simpa [threw, hkind] using hr
  rcases hcases with ⟨hnone, hfree⟩ | ⟨d, hd, hheld, hx⟩
  · have hsame : v.wrote w = v := Database.wrote_of_no_docs (by rw [hnone]; rfl)
    rw [hsame, hnone]
    exact {
      indexed := hv
      staffUsers := rfl
      members := rfl
      owner := fun x => by simp [made]
      held := fun h => by simp [made] at h
      freed := fun _ => hfree
      returned := hreturned _
      issues := .one hkind }
  · have hput := Database.wrote_written hd
    rw [hd]
    exact {
      indexed := Database.wrote_indexed hv w
      staffUsers := by rw [hput]; rfl
      members := by rw [hput]; rfl
      owner := fun x => by simp [made, hkind, hx x]
      held := fun _ => hheld
      freed := fun _ h => by simp [hx] at h
      returned := hreturned _
      issues := .one hkind }

theorem Releases.lost (hv : v.Indexed) {w : Write} (hw : w.purpose = .release identifier)
    {e : Failure} :
    Releases session identifier subject v [.write session w none true] (.error e) v where
  indexed := hv
  staffUsers := rfl
  members := rfl
  owner x := by simp [made]
  held h := by simp [made] at h
  freed h := by cases h
  returned := by simp [threw, hw]
  issues := .one hw

/-- `release` comes to its write, whatever befalls it. -/
theorem release_tried (identifier : String) (subject : Subject) (hv : v.Indexed)
    (actorId : Option String) :
    Shows session base (release session identifier subject.1 subject.2 actorId).run v
      fun l r v' => Releases session identifier subject v l r v' ∧
        tried session (.release identifier) l = true := by
  refine draw_then (fun h => h.elim) fun releasedAt => ?_
  have hfrees := frees_release identifier subject hv releasedAt (actorId.getD "system")
  refine write_then (fun l e v' h => ?_) (Leads.run_pure ⟨?_, ?_⟩)
  · cases h with
    | applied error => exact ⟨.applied hv hfrees (by simp), by simp [tried, hfrees.1]⟩
    | lost error => exact ⟨.lost hv hfrees.1, by simp [tried, hfrees.1]⟩
  · exact .applied hv hfrees (by simp)
  · simp [tried, hfrees.1]

theorem release_shows (identifier : String) (subject : Subject) (hv : v.Indexed)
    (actorId : Option String) :
    Shows session base (release session identifier subject.1 subject.2 actorId).run v
      (Releases session identifier subject v) :=
  (release_tried identifier subject hv actorId).mono fun _ _ _ h => h.1

end Release

def Document.isElsewhere : Document → Bool
  | .family _ => true
  | .event _ => true
  | _ => false

/-- Writes outside of transactions that concern neither an account nor a reservation. -/
structure Elsewhere {α : Type} (v : Database) (l : List Attempt) (r : Except Failure α)
    (v' : Database) : Prop where
  indexed : v'.Indexed
  staffUsers : v'.staffUsers = v.staffUsers
  members : v'.members = v.members
  identifiers : v'.identifiers = v.identifiers
  faults : (∃ e, r = .error e) → 1 ≤ faults l
  issues : Issues none .elsewhere l

section Elsewhere

variable {α β : Type} {base v : Database}

theorem Elsewhere.nothing (hv : v.Indexed) {b : α} :
    Elsewhere v [] (.ok b : Except Failure α) v where
  indexed := hv
  staffUsers := rfl
  members := rfl
  identifiers := rfl
  faults := fun ⟨e, he⟩ => by cases he
  issues := .nil

theorem Elsewhere.trans {v' v'' : Database} {l l' : List Attempt} {a : β} {r : Except Failure α}
    (h : Elsewhere v l (.ok a : Except Failure β) v') (h' : Elsewhere v' l' r v'') :
    Elsewhere v (l ++ l') r v'' where
  indexed := h'.indexed
  staffUsers := h'.staffUsers.trans h.staffUsers
  members := h'.members.trans h.members
  identifiers := h'.identifiers.trans h.identifiers
  faults hr := by
    have := h'.faults hr
    rw [faults_append]
    omega
  issues := h.issues.append h'.issues

/-- Documents of other collections leave accounts and reservations as they are. -/
theorem Elsewhere.applied (hv : v.Indexed) {w : Write} (hw : w.purpose = .elsewhere) {t : Bool}
    {r : Except Failure α} (hdocs : ∀ d ∈ (schema.write w v).docs, d.isElsewhere = true)
    (hr : (∃ e, r = .error e) →
      (Attempt.write none w (some (schema.write w v)) t).fails = true) :
    Elsewhere v [.write none w (some (schema.write w v)) t] r (v.wrote w) := by
  have hputs : ∀ docs : List Document, (∀ d ∈ docs, d.isElsewhere = true) →
      (schema.putAll docs v).staffUsers = v.staffUsers ∧
      (schema.putAll docs v).members = v.members ∧
      (schema.putAll docs v).identifiers = v.identifiers := by
    intro docs hall
    induction docs with
    | nil => exact ⟨rfl, rfl, rfl⟩
    | cons d docs ih =>
      obtain ⟨h₁, h₂, h₃⟩ := ih fun x hx => hall x (List.mem_cons_of_mem _ hx)
      have hd := hall d List.mem_cons_self
      cases d with
      | family | event => exact ⟨h₁, h₂, h₃⟩
      | _ => cases hd
  obtain ⟨h₁, h₂, h₃⟩ := hputs _ hdocs
  exact {
    indexed := Database.wrote_indexed hv w
    staffUsers := h₁
    members := h₂
    identifiers := h₃
    faults := fun h => faults_pos List.mem_cons_self (hr h)
    issues := .one hw }

theorem Elsewhere.lost (hv : v.Indexed) {w : Write} (hw : w.purpose = .elsewhere) {e : Failure} :
    Elsewhere v [.write none w none true] (.error e : Except Failure α) v where
  indexed := hv
  staffUsers := rfl
  members := rfl
  identifiers := rfl
  faults _ := faults_pos List.mem_cons_self rfl
  issues := .one hw

theorem Elsewhere.thrown (hv : v.Indexed) {w : Write} (hw : w.purpose = .elsewhere)
    (hdocs : ∀ d ∈ (schema.write w v).docs, d.isElsewhere = true) {l : List Attempt} {e : Failure}
    {v' : Database} (h : Thrown none w v l e v') :
    Elsewhere v l (.error e : Except Failure α) v' := by
  cases h with
  | applied error => exact .applied hv hw hdocs fun _ => rfl
  | lost error => exact .lost hv hw

theorem revokeSessions_shows (hv : v.Indexed) (subjectType : AuthIdentifierSubjectType)
    (subjectId reason : String) :
    Shows none base (revokeSessions subjectType subjectId reason).run v (Elsewhere v) := by
  refine draw_then (fun h => h.elim) fun revokedAt => ?_
  have hdocs : ∀ d ∈ (schema.write (.revokeFamilies subjectType subjectId reason revokedAt) v).docs,
      d.isElsewhere = true := by
    intro d hd
    rw [Database.write_eq] at hd
    split at hd
    · obtain ⟨f, -, rfl⟩ := List.mem_map.mp hd
      rfl
    · cases hd
  refine write_then (fun l e v' h => .thrown hv rfl hdocs h) (Leads.run_pure ?_)
  exact .applied hv rfl hdocs fun ⟨e, he⟩ => by cases he

theorem recordActivity_shows (hv : v.Indexed) (e : String → SecurityActivityEvent) :
    Shows none base (recordActivity e).run v (Elsewhere v) := by
  refine draw_then (fun h => h.elim) fun id => ?_
  have hwrite : schema.write (.recordActivity (e id.1)) v = .duplicateKey ∨
      schema.write (.recordActivity (e id.1)) v = .written [.event (e id.1)] := by
    rcases Database.write_insert (s := v) (w := .recordActivity (e id.1)) hv rfl with
      hdup | ⟨-, hw, -⟩
    · exact .inl hdup
    · exact .inr hw
  have hdocs : ∀ d ∈ (schema.write (.recordActivity (e id.1)) v).docs, d.isElsewhere = true := by
    intro d hd
    rcases hwrite with hdup | hw
    · rw [hdup] at hd
      cases hd
    · rw [hw] at hd
      rw [List.mem_singleton.mp hd]
      rfl
  refine write_then (fun l e v' h => .thrown hv rfl hdocs h) ?_
  rcases hwrite with hdup | hw
  · rw [hdup]
    refine draw_then (fun h => h.elim) fun error => Leads.run_throw ?_
    rw [← hdup]
    refine .applied hv rfl hdocs fun _ => ?_
    rw [hdup]
    rfl
  · rw [hw]
    refine Leads.run_pure ?_
    rw [← hw]
    exact .applied hv rfl hdocs fun ⟨e, he⟩ => by cases he

theorem Elsewhere.run_bind {x : Handler β} {f : β → Handler α}
    (hx : Shows none base x.run v (Elsewhere v))
    (hf : ∀ b v', v'.Indexed → Shows none base (f b).run v' (Elsewhere v')) :
    Shows none base (x >>= f).run v (Elsewhere v) := by
  refine Leads.run_bind hx ?_ ?_
  · intro l b v₁ h
    exact (hf b v₁ h.indexed).mono fun l' r v₂ h' => h.trans h'
  · intro l e v₁ h
    exact { h with faults := fun _ => h.faults ⟨e, rfl⟩ }

theorem Elsewhere.run_if {c : Prop} [Decidable c] {x : Handler PUnit} {f : PUnit → Handler α}
    (hv : v.Indexed) (hx : c → Shows none base x.run v (Elsewhere v))
    (hf : ∀ v', v'.Indexed → Shows none base (f ⟨⟩).run v' (Elsewhere v')) :
    Shows none base (if c then x >>= f else f ⟨⟩).run v (Elsewhere v) :=
  Leads.run_ite (fun h => Elsewhere.run_bind (hx h) fun _ => hf) fun _ => hf v hv

end Elsewhere

/-- Some save has returned in a transaction, so that the object in memory passes for saved. -/
def kept (l : List Attempt) : Bool :=
  l.any fun
    | .write (some _) w (some (.written _)) false => decide (w.purpose = .save)
    | _ => false

/-- Some transaction has been committed. -/
def committed (l : List Attempt) : Bool :=
  l.any fun
    | .commit _ true _ => true
    | _ => false

@[simp] theorem kept_append (l l' : List Attempt) : kept (l ++ l') = (kept l || kept l') :=
  List.any_append

@[simp] theorem committed_append (l l' : List Attempt) :
    committed (l ++ l') = (committed l || committed l') := List.any_append

theorem Issues.kept {q : Purpose} {l : List Attempt} (h : Issues none q l) : kept l = false := by
  rw [Accounts.kept, List.any_eq_false]
  intro a ha
  obtain ⟨w, r, t, rfl, -⟩ := h a ha
  simp

theorem Issues.committed {session : Option ℕ} {q : Purpose} {l : List Attempt}
    (h : Issues session q l) : committed l = false := by
  rw [Accounts.committed, List.any_eq_false]
  intro a ha
  obtain ⟨w, r, t, rfl, -⟩ := h a ha
  simp

theorem kept_one {n : ℕ} {w : Write} {r : Option (Sessions.WriteResult Document)} {t : Bool} :
    kept [.write (some n) w r t] = match r, t with
      | some (.written _), false => decide (w.purpose = .save)
      | _, _ => false := by
  rw [kept, List.any_cons, List.any_nil, Bool.or_false]
  split
  · next heq =>
    cases heq
    rfl
  · next h =>
    split
    · exact absurd rfl (h n w _)
    · rfl

theorem kept_of_purpose {n : ℕ} {w : Write} {r : Option (Sessions.WriteResult Document)} {t : Bool}
    (hw : w.purpose ≠ .save) : kept [.write (some n) w r t] = false := by
  rw [kept_one]
  split
  · simp [hw]
  · rfl

/-- All that was issued belongs to transactions. -/
def Within (l : List Attempt) : Prop :=
  ∀ a ∈ l, (∃ n w r t, a = .write (some n) w r t) ∨ ∃ n r t, a = .commit n r t

namespace Within

variable {l l' : List Attempt}

theorem nil : Within [] := fun a ha => by cases ha

theorem append (h : Within l) (h' : Within l') : Within (l ++ l') :=
  fun a ha => (List.mem_append.mp ha).elim (h a) (h' a)

theorem one {a : Attempt} (ha : (∃ n w r t, a = .write (some n) w r t) ∨ ∃ n r t, a = .commit n r t) :
    Within [a] := fun a' ha' => by
  rw [List.mem_singleton.mp ha']
  exact ha

variable (h : Within l)

include h

theorem tried (p : Purpose) : tried none p l = false := by
  rw [Accounts.tried, List.any_eq_false]
  intro a ha
  rcases h a ha with ⟨n, w, r, t, rfl⟩ | ⟨n, r, t, rfl⟩
  · simp
  · simp

theorem made (p : Purpose) : made none p l = false := by
  rw [Accounts.made, List.any_eq_false]
  intro a ha
  rcases h a ha with ⟨n, w, r, t, rfl⟩ | ⟨n, r, t, rfl⟩
  · split
    · next heq =>
      cases heq
      simp
    · simp
  · simp

theorem threw (p : Purpose) : threw none p l = false := by
  rw [Accounts.threw, List.any_eq_false]
  intro a ha
  rcases h a ha with ⟨n, w, r, t, rfl⟩ | ⟨n, r, t, rfl⟩
  · split
    · next heq =>
      cases heq
      simp
    · simp
  · simp

theorem acquired (subject : Subject) (x : String) : acquired none subject x l = false := by
  rw [Accounts.acquired, List.any_eq_false]
  intro a ha
  rcases h a ha with ⟨n, w, r, t, rfl⟩ | ⟨n, r, t, rfl⟩
  · split
    · next heq =>
      cases heq
      simp
    · simp
  · simp

theorem faults : faults l = 0 := by
  rw [Accounts.faults, List.countP_eq_zero]
  intro a ha
  rcases h a ha with ⟨n, w, r, t, rfl⟩ | ⟨n, r, t, rfl⟩
  · simp [Attempt.fails]
  · simp [Attempt.fails]

end Within

/-- The calls of a transaction, its commit and its saves aside. -/
def Inside : (β : Type) → Op β → Prop
  | _, .inl (session, _) => session.isSome = true
  | _, .inr (.inl (.write session w)) => session.isSome = true ∧ w.purpose ≠ .save
  | _, .inr (.inl (.commitTransaction _)) => False
  | _, _ => True

/-- What the inside of a transaction does, as seen from outside. -/
structure Unseen (v : Database) (l : List Attempt) (v' : Database) : Prop where
  same : v' = v
  within : Within l
  kept : kept l = false
  committed : committed l = false

theorem Unseen.nil (v : Database) : Unseen v [] v := ⟨rfl, .nil, rfl, rfl⟩

theorem Unseen.trans {v v' v'' : Database} {l l' : List Attempt} (h : Unseen v l v')
    (h' : Unseen v' l' v'') : Unseen v (l ++ l') v'' where
  same := h'.same.trans h.same
  within := h.within.append h'.within
  kept := by rw [kept_append, h.kept, h'.kept, Bool.false_or]
  committed := by rw [committed_append, h.committed, h'.committed, Bool.false_or]

theorem goes_write_inside {n : ℕ} {w : Write} {o : Outcome (Sessions.WriteResult Document)}
    {v base : Database} {s s₁ : Store} (hs : At none base v s)
    (h : Goes exec fallible (Sum.inr (.inl (.write (some n) w)) : Op _) s o s₁) :
    At none base v s₁ := by
  rcases h.applied with ⟨-, rfl⟩ | ⟨b, -, t, -, -, rfl⟩
  · exact hs
  · exact hs

theorem goes_inside {β : Type} {op : Op β} {v : Database} {s s₁ : Store} {o : Outcome β} {base : Database}
    (hop : Inside β op) (hs : At none base v s) (h : Goes exec fallible op s o s₁) :
    At none base v s₁ ∧ Unseen v (attempt ⟨op, o⟩).toList v := by
  obtain rfl := hs
  rcases op with ⟨session, q⟩ | c | op
  · rcases h.applied with ⟨-, rfl⟩ | ⟨b, -, -, rfl⟩
    · exact ⟨rfl, .nil _⟩
    · exact ⟨rfl, .nil _⟩
  · cases c with
    | write session w =>
      obtain ⟨hsession, hw⟩ := hop
      obtain ⟨n, rfl⟩ := Option.isSome_iff_exists.mp hsession
      have hs₁ : At none base s.committed s₁ := goes_write_inside rfl h
      exact ⟨hs₁, rfl, .one (.inl ⟨_, _, _, _, rfl⟩),
        kept_of_purpose hw, rfl⟩
    | startTransaction =>
      refine ⟨?_, .nil _⟩
      rcases h.applied with ⟨-, rfl⟩ | ⟨b, -, -, rfl⟩
      · rfl
      · rfl
    | commitTransaction n => cases hop
    | abortTransaction n =>
      refine ⟨?_, .nil _⟩
      rcases h.applied with ⟨-, rfl⟩ | ⟨b, -, rfl⟩
      · rfl
      · rfl
  · have := goes_draw h
    subst this
    exact ⟨rfl, .nil _⟩

/-- A program that stays inside a transaction is not seen. -/
theorem inside_shows {α : Type} {p : Prog Op α} {base v : Database} (hp : p.Confined Inside) :
    Shows none base p v fun l _ v' => Unseen v l v' := by
  induction p with
  | done a => exact Leads.done (.nil v)
  | call op next ih =>
    refine Leads.call fun s hs o s₁ hgoes => ?_
    obtain ⟨hs₁, hunseen⟩ := goes_inside hp.1 hs hgoes
    exact ⟨v, hs₁, (ih _ (hp.2 _)).mono fun l a v' h => hunseen.trans h⟩

end Accounts
