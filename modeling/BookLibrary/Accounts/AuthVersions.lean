import BookLibrary.Accounts.AuthIdentifiers
import BookLibrary.Accounts.Conduct
import BookLibrary.Accounts.Execution
import BookLibrary.Accounts.Members
import BookLibrary.Accounts.StaffUsers
import BookLibrary.Interleaving.Walks
import BookLibrary.SignIn.Execution

/-!
# Authentication versions

The writers of `authVersion` side by side: saves, which send a version computed from an
earlier read, and atomic increments, on their own or in a transaction.
-/

namespace Accounts

open AuthIdentifiers Documents Interleaving SignIn

/-- The account that a document is, with its version. -/
def Document.account : Document → Option (Subject × ℕ)
  | .staffUser d => some ((.staff, d.id), d.authVersion.getD 0)
  | .member d => some ((.member, d.id), d.authVersion.getD 0)
  | _ => none

/-- The stored version of an account. -/
def Database.authVersion (s : Database) : Subject → Option ℕ
  | (.staff, id) => (s.staffUser id).map fun d => d.authVersion.getD 0
  | (.member, id) => (s.member id).map fun d => d.authVersion.getD 0

section Effects

variable {s : Database} {subject : Subject}

theorem authVersion_put (d : Document) (s : Database) (subject : Subject) :
    (s.put d).authVersion subject =
      match d.account with
      | some (account, version) =>
        if account = subject then some version else s.authVersion subject
      | none => s.authVersion subject := by
  obtain ⟨subjectType, id⟩ := subject
  cases d with
  | staffUser d =>
    cases subjectType with
    | staff =>
      rw [Database.authVersion, Database.staffUser_put]
      by_cases hid : d.id = id
      · simp [Document.account, hid]
      · simp [Document.account, hid, Database.authVersion]
    | member => rfl
  | member d =>
    cases subjectType with
    | staff => rfl
    | member =>
      rw [Database.authVersion, Database.member_put]
      by_cases hid : d.id = id
      · simp [Document.account, hid]
      · simp [Document.account, hid, Database.authVersion]
  | _ =>
    cases subjectType with
    | staff => rfl
    | member => rfl

/-- Documents taken in leave the version of an account alone, or one of them decides it. -/
theorem authVersion_putAll (docs : List Document) (subject : Subject) :
    ((∀ d ∈ docs, ∀ version, d.account ≠ some (subject, version)) ∧
      ∀ s, (schema.putAll docs s).authVersion subject = s.authVersion subject) ∨
    ∃ d ∈ docs, ∃ version, d.account = some (subject, version) ∧
      ∀ s, (schema.putAll docs s).authVersion subject = some version := by
  induction docs with
  | nil => exact .inl ⟨fun d hd => absurd hd List.not_mem_nil, fun s => rfl⟩
  | cons d docs ih =>
    have hput : ∀ s, (schema.putAll (d :: docs) s).authVersion subject =
        match d.account with
        | some (account, version) => if account = subject then some version
          else (schema.putAll docs s).authVersion subject
        | none => (schema.putAll docs s).authVersion subject :=
      fun s => authVersion_put d _ subject
    by_cases hd : ∃ version, d.account = some (subject, version)
    · obtain ⟨version, hd⟩ := hd
      refine .inr ⟨d, List.mem_cons_self, version, hd, fun s => ?_⟩
      rw [hput, hd]
      exact if_pos rfl
    · -- the document is of another account, or of none
      have hskip : ∀ s, (schema.putAll (d :: docs) s).authVersion subject =
          (schema.putAll docs s).authVersion subject := by
        intro s
        rw [hput]
        cases hacc : d.account with
        | none => rfl
        | some p =>
          obtain ⟨account, version⟩ := p
          have hne : account ≠ subject := by
            rintro rfl
            exact hd ⟨version, hacc⟩
          exact if_neg hne
      rcases ih with ⟨hnone, hkeep⟩ | ⟨d', hd', version, hacc, hset⟩
      · refine .inl ⟨fun x hx => ?_, fun s => (hskip s).trans (hkeep s)⟩
        rcases List.mem_cons.mp hx with rfl | hx
        · exact fun version h => hd ⟨version, h⟩
        · exact hnone x hx
      · exact .inr ⟨d', List.mem_cons_of_mem _ hd', version, hacc,
          fun s => (hskip s).trans (hset s)⟩

/-- A save leaves the version as it was loaded, or sends a greater one. -/
def Write.Sound : Write → Prop
  | .saveStaffUser loaded now =>
    now.authVersion = loaded.authVersion ∨ loaded.authVersion.getD 0 < now.authVersion.getD 0
  | .saveMember loaded now =>
    now.authVersion = loaded.authVersion ∨ loaded.authVersion.getD 0 < now.authVersion.getD 0
  | _ => True

/-- The write outdates the tokens of the account. -/
def Write.Raises (subject : Subject) : Write → Prop
  | .saveStaffUser loaded now =>
    subject = (.staff, loaded.id) ∧ loaded.authVersion.getD 0 < now.authVersion.getD 0
  | .saveMember loaded now =>
    subject = (.member, loaded.id) ∧ loaded.authVersion.getD 0 < now.authVersion.getD 0
  | .bumpAuthVersion subjectType id => subject = (subjectType, id)
  | .setAccountIdentifier subjectType id _ => subject = (subjectType, id)
  | _ => False

/-- A version that a save is about to send is computed from one that nobody has passed. -/
def Write.Current (s : Database) : Write → Prop
  | .saveStaffUser loaded now => now.authVersion ≠ loaded.authVersion →
    ∀ version, s.authVersion (.staff, loaded.id) = some version →
      version ≤ loaded.authVersion.getD 0
  | .saveMember loaded now => now.authVersion ≠ loaded.authVersion →
    ∀ version, s.authVersion (.member, loaded.id) = some version →
      version ≤ loaded.authVersion.getD 0
  | _ => True

/-- The version of a saved document. -/
theorem sent_authVersion {loaded now stored : Option ℕ}
    (hs : now = loaded ∨ loaded.getD 0 < now.getD 0)
    (hc : now ≠ loaded → stored.getD 0 ≤ loaded.getD 0) :
    stored.getD 0 ≤ (sent loaded now stored).getD 0 ∧
      (loaded.getD 0 < now.getD 0 → stored.getD 0 < (sent loaded now stored).getD 0) := by
  by_cases h : now = loaded
  · subst h
    rw [sent_self]
    exact ⟨le_rfl, fun h => absurd h (lt_irrefl _)⟩
  · have hlt := hs.resolve_left h
    have hle := hc h
    rw [sent, if_neg h]
    exact ⟨by omega, fun _ => by omega⟩

theorem lt_incremented (authVersion : Option ℕ) :
    authVersion.getD 0 < (incremented authVersion).getD 0 := Nat.lt_succ_self _

theorem docs_write (w : Write) (s : Database) :
    (schema.write w s).docs = [] ∨ schema.write w s = s.unchecked w := by
  rw [Database.write_eq]
  split
  · exact .inr rfl
  · exact .inl rfl

section Documents

variable {id : String} {d : Document} {version version' : ℕ}

/-- The document that an update of a staff user leaves. -/
theorem account_updateStaff {f : StaffUser → StaffUser}
    (hd : d ∈ (Database.update .staffUser (fun d => decide (d.id = id)) f s.staffUsers).docs)
    (hid : ∀ d, (f d).id = d.id) :
    ∃ stored, s.staffUser id = some stored ∧
      d.account = some ((.staff, id), (f stored).authVersion.getD 0) := by
  rw [Database.update] at hd
  cases hfind : s.staffUsers.find? fun d => decide (d.id = id) with
  | none =>
    rw [hfind] at hd
    cases hd
  | some stored =>
    rw [hfind] at hd
    obtain rfl := List.mem_singleton.mp hd
    have hstored : stored.id = id := by
      simpa using List.find?_some hfind
    exact ⟨stored, hfind, by rw [Document.account, hid, hstored]⟩

theorem account_updateMember {f : Member → Member}
    (hd : d ∈ (Database.update .member (fun d => decide (d.id = id)) f s.members).docs)
    (hid : ∀ d, (f d).id = d.id) :
    ∃ stored, s.member id = some stored ∧
      d.account = some ((.member, id), (f stored).authVersion.getD 0) := by
  rw [Database.update] at hd
  cases hfind : s.members.find? fun d => decide (d.id = id) with
  | none =>
    rw [hfind] at hd
    cases hd
  | some stored =>
    rw [hfind] at hd
    obtain rfl := List.mem_singleton.mp hd
    have hstored : stored.id = id := by
      simpa using List.find?_some hfind
    exact ⟨stored, hfind, by rw [Document.account, hid, hstored]⟩

theorem authVersion_staff {stored : StaffUser} (h : s.staffUser id = some stored) :
    s.authVersion (.staff, id) = some (stored.authVersion.getD 0) := by
  rw [Database.authVersion, h, Option.map_some]

theorem authVersion_member {stored : Member} (h : s.member id = some stored) :
    s.authVersion (.member, id) = some (stored.authVersion.getD 0) := by
  rw [Database.authVersion, h, Option.map_some]

/-- An insertion is of no account that is stored already. -/
theorem account_insert {new : Document} (hd : d ∈ (s.insert new).docs)
    (hacc : d.account = some (subject, version')) : s.authVersion subject = none := by
  rw [Database.insert] at hd
  by_cases hfind : (s.find new.key).isSome
  · rw [if_pos hfind] at hd
    cases hd
  · rw [if_neg hfind] at hd
    obtain rfl := List.mem_singleton.mp hd
    rw [Option.not_isSome_iff_eq_none] at hfind
    cases d with
    | staffUser d =>
      cases hacc
      have hnone : s.staffUser d.id = none := by
        simpa [Database.find, Document.key, Database.staffUser] using hfind
      rw [Database.authVersion, hnone, Option.map_none]
    | member d =>
      cases hacc
      have hnone : s.member d.id = none := by
        simpa [Database.find, Document.key, Database.member] using hfind
      rw [Database.authVersion, hnone, Option.map_none]
    | _ => cases hacc

end Documents

/-- What a write sends for an account is at least what is stored. -/
theorem account_write {w : Write} {d : Document} {version version' : ℕ} (hs : w.Sound)
    (hc : w.Current s) (hd : d ∈ (schema.write w s).docs)
    (hacc : d.account = some (subject, version')) (h : s.authVersion subject = some version) :
    version ≤ version' ∧ (w.Raises subject → version < version') := by
  rcases docs_write w s with hnil | hw
  · rw [hnil] at hd
    cases hd
  rw [hw] at hd
  cases w with
  | insertStaffUser | insertMember | insertIdentifier | recordActivity =>
    rw [account_insert hd hacc] at h
    cases h
  | saveStaffUser loaded now =>
    obtain ⟨stored, hstored, hacc'⟩ := account_updateStaff hd fun _ => rfl
    rw [hacc] at hacc'
    cases hacc'
    rw [authVersion_staff hstored] at h
    cases h
    obtain ⟨hle, hlt⟩ := sent_authVersion hs fun hne => hc hne _ (authVersion_staff hstored)
    exact ⟨hle, fun hr => hlt hr.2⟩
  | saveMember loaded now =>
    obtain ⟨stored, hstored, hacc'⟩ := account_updateMember hd fun _ => rfl
    rw [hacc] at hacc'
    cases hacc'
    rw [authVersion_member hstored] at h
    cases h
    obtain ⟨hle, hlt⟩ := sent_authVersion hs fun hne => hc hne _ (authVersion_member hstored)
    exact ⟨hle, fun hr => hlt hr.2⟩
  | bumpAuthVersion subjectType id | setAccountIdentifier subjectType id identifier =>
    cases subjectType with
    | staff =>
      obtain ⟨stored, hstored, hacc'⟩ := account_updateStaff hd fun _ => rfl
      rw [hacc] at hacc'
      cases hacc'
      rw [authVersion_staff hstored] at h
      cases h
      exact ⟨(lt_incremented _).le, fun _ => lt_incremented _⟩
    | member =>
      obtain ⟨stored, hstored, hacc'⟩ := account_updateMember hd fun _ => rfl
      rw [hacc] at hacc'
      cases hacc'
      rw [authVersion_member hstored] at h
      cases h
      exact ⟨(lt_incremented _).le, fun _ => lt_incremented _⟩
  | claimReleased | releaseIdentifier =>
    simp only [Database.unchecked, Database.update] at hd
    split at hd
    · obtain rfl := List.mem_singleton.mp hd
      cases hacc
    · cases hd
  | revokeFamilies =>
    obtain ⟨f, -, rfl⟩ := List.mem_map.mp hd
    cases hacc

/-- A write that outdates the tokens of an account writes its document. -/
theorem exists_account_write {w : Write} {docs : List Document} (hw : schema.write w s = .written docs)
    (hr : w.Raises subject) : ∃ d ∈ docs, ∃ version, d.account = some (subject, version) := by
  have hdocs : docs = (schema.write w s).docs := by rw [hw]; rfl
  have hunchecked : schema.write w s = s.unchecked w := by
    rw [Database.write_eq] at hw ⊢
    split
    · rfl
    · next hi =>
      rw [if_neg hi] at hw
      cases hw
  -- the write is an update that has found its document
  have of_find : ∀ {D : Type} {wrap : D → Document} {p : D → Bool} {f : D → D} {stored : List D},
      s.unchecked w = Database.update wrap p f stored → ∃ d, docs = [wrap (f d)] ∧ p d = true := by
    intro D wrap p f stored hu
    rw [hunchecked, hu, Database.update] at hw
    split at hw
    · next d hfind =>
      cases hw
      exact ⟨d, rfl, List.find?_some hfind⟩
    · cases hw
  cases w with
  | saveStaffUser loaded now =>
    obtain ⟨d, rfl, hd⟩ := of_find rfl
    obtain ⟨rfl, -⟩ := hr
    rw [← of_decide_eq_true hd]
    exact ⟨_, List.mem_singleton_self _, _, rfl⟩
  | saveMember loaded now =>
    obtain ⟨d, rfl, hd⟩ := of_find rfl
    obtain ⟨rfl, -⟩ := hr
    rw [← of_decide_eq_true hd]
    exact ⟨_, List.mem_singleton_self _, _, rfl⟩
  | bumpAuthVersion subjectType id | setAccountIdentifier subjectType id identifier =>
    obtain rfl := hr
    cases subjectType with
    | staff | member =>
      obtain ⟨d, rfl, hd⟩ := of_find rfl
      rw [← of_decide_eq_true hd]
      exact ⟨_, List.mem_singleton_self _, _, rfl⟩
  | _ => exact hr.elim

/-- An increment reaches its account whenever there is one. -/
theorem bump_written {subjectType : AuthIdentifierSubjectType} {id : String} (hi : s.Indexed)
    {version : ℕ} (h : s.authVersion (subjectType, id) = some version) :
    ∃ docs, schema.write (.bumpAuthVersion subjectType id) s = .written docs := by
  cases subjectType with
  | staff =>
    obtain ⟨stored, hstored, -⟩ := Option.map_eq_some_iff.mp h
    rcases Database.write_update (s := s) (w := .bumpAuthVersion .staff id) hi rfl with
      ⟨-, hnone⟩ | ⟨d, hd, -, hn⟩ | ⟨d, -, hw, -⟩
    · rw [Database.staffUser, hnone] at hstored
      cases hstored
    · exact (hn (hi.put_staffUser (List.mem_of_find?_eq_some hd) rfl rfl)).elim
    · exact ⟨_, hw⟩
  | member =>
    obtain ⟨stored, hstored, -⟩ := Option.map_eq_some_iff.mp h
    rcases Database.write_update (s := s) (w := .bumpAuthVersion .member id) hi rfl with
      ⟨-, hnone⟩ | ⟨d, hd, -, hn⟩ | ⟨d, -, hw, -⟩
    · rw [Database.member, hnone] at hstored
      cases hstored
    · exact (hn (hi.put_member (List.mem_of_find?_eq_some hd) rfl rfl rfl rfl)).elim
    · exact ⟨_, hw⟩

/-- What a write does to a version. -/
theorem authVersion_wrote {w : Write} {version : ℕ} (hs : w.Sound) (hc : w.Current s)
    (h : s.authVersion subject = some version) :
    ∃ version', (s.wrote w).authVersion subject = some version' ∧ version ≤ version' ∧
      ∀ docs, schema.write w s = .written docs → w.Raises subject → version < version' := by
  rcases authVersion_putAll (schema.write w s).docs subject with
    ⟨hnone, hkeep⟩ | ⟨d, hd, version', hacc, hset⟩
  · refine ⟨version, (hkeep s).trans h, le_rfl, fun docs hw hr => ?_⟩
    obtain ⟨d, hd, version', hacc⟩ := exists_account_write hw hr
    rw [hw] at hnone
    exact absurd hacc (hnone d hd version')
  · obtain ⟨hle, hlt⟩ := account_write hs hc hd hacc h
    exact ⟨version', hset s, hle, fun _ _ hr => hlt hr⟩

end Effects

/-- A request that may change the version of an account. -/
inductive VersionCall where
  | updateStaffUser (dto : UpdateStaffUserDto) (actor : Option AuditActor) (id : String)
  | updateMember (dto : UpdateMemberDto) (actor : Option AuditActor) (id : String)
  | setMemberCredentials (actor : Option AuditActor) (id loginIdentifier password : String)
  | bumpStaffUser (id : String)
  | bumpMember (id : String)
  | applyIdentifiers (transactional : Bool)
      (assignments : List (AuthIdentifierAssignmentInput × String))
  deriving DecidableEq

/-- What an identifier operation does to the accounts: one update an assignment, in the
transaction of the operation or each on its own. -/
def applyIdentifiers (transactional : Bool)
    (assignments : List (AuthIdentifierAssignmentInput × String)) : Handler Unit :=
  if transactional then do
    let session ← change .startTransaction
    tryCatch (do
      assignments.forM fun a =>
        AuthIdentifierService.updateAggregateIdentifier a.1 a.2 (some session)
      change (.commitTransaction session)) fun error => do
        change (.abortTransaction session)
        throw error
  else assignments.forM fun a => AuthIdentifierService.updateAggregateIdentifier a.1 a.2 none

namespace VersionCall

variable (env : Environment)

def handle : VersionCall → Handler Unit
  | .updateStaffUser dto actor id => do
    let _ ← StaffUsersService.update env dto actor id
  | .updateMember dto actor id => do
    let _ ← MembersService.update env dto actor id
  | .setMemberCredentials actor id loginIdentifier password => do
    let _ ← MembersService.setMemberCredentials env actor id loginIdentifier password
  | .bumpStaffUser id => StaffUsersService.bumpAuthVersion id
  | .bumpMember id => MembersService.bumpAuthVersion id
  | .applyIdentifiers transactional assignments =>
    Accounts.applyIdentifiers transactional assignments

/-- The request is a security-relevant change of the account: judged, for an update, from
the account as the request has read it. -/
def Outdates (l : List Event) (subject : Subject) : VersionCall → Prop
  | .updateStaffUser dto _ _ => ∃ user, .foundStaffUser (some user) ∈ l ∧
    subject = (.staff, user.id) ∧ StaffUsersService.securityChanged env dto user
      ((dto.roles.map List.eraseDups).getD user.roles) = true
  | .updateMember dto _ _ => ∃ member, .foundMember (some member) ∈ l ∧
    subject = (.member, member.id) ∧
      (MembersService.emailChanged env dto member || MembersService.statusChanged dto member) = true
  | .setMemberCredentials .. => ∃ member, .foundMember (some member) ∈ l ∧
    subject = (.member, member.id)
  | .bumpStaffUser id => ∃ id', ObjectId.parse id = some id' ∧ subject = (.staff, id'.1)
  | .bumpMember id => ∃ id', ObjectId.parse id = some id' ∧ subject = (.member, id'.1)
  | .applyIdentifiers _ assignments =>
    ∃ a ∈ assignments, subject = (a.1.subjectType, a.1.subjectId)

end VersionCall

/-- The requests on the account store. -/
def versions (env : Environment) : System VersionCall Op Store (Except Failure Unit) Event :=
  service fun call => (call.handle env).run

/-- A save that changes the version is applied while nobody has passed the version that it
was computed from. -/
def savesCurrent {ι : Type} : Gate ι VersionCall Op Store Event
  | _, _, .inr (.inl (.write session w)), true, s, _ =>
    ∀ v, schema.view s session = some v → w.Current v
  | _, _, _, _, _, _ => True

section Conduct

/-- A request reads its account first, and only once; its saves are sound. -/
def sends (_ : Bool) (l : List Event) : (β : Type) → Op β → Prop
  | _, .inl (_, .findStaffUser _) => l = []
  | _, .inl (_, .findMember _) => l = []
  | _, .inr (.inl (.write _ w)) => w.Sound
  | _, _ => True

/-- The calls other than the read of an account. -/
def Further : (β : Type) → Op β → Prop
  | _, .inl (_, .findStaffUser _) => False
  | _, .inl (_, .findMember _) => False
  | _, .inr (.inl (.write _ w)) => w.Sound
  | _, _ => True

def Event.isAccount : Event → Prop
  | .foundStaffUser _ => True
  | .foundMember _ => True
  | _ => False

theorem further_sends {fl : Bool} {l : List Event} {β : Type} {op : Op β} (h : Further β op) :
    sends fl l β op := by
  rcases op with ⟨session, q⟩ | c | x
  · cases q with
    | findStaffUser | findMember => exact h.elim
    | _ => trivial
  · cases c with
    | write => exact h
    | _ => trivial
  · trivial

theorem further_note {β : Type} {op : Op β} {r : Option β} (h : Further β op) :
    ∀ ev ∈ note β op r, ¬ ev.isAccount := by
  intro ev hev
  rcases op with ⟨session, q⟩ | c | x
  · cases q with
    | findStaffUser | findMember => exact h.elim
    | findIdentifier =>
      obtain ⟨found, -, rfl⟩ := List.mem_map.mp hev
      exact id
    | _ => cases hev
  · cases c with
    | write | commitTransaction =>
      obtain ⟨r, -, rfl⟩ := List.mem_map.mp hev
      exact id
    | _ => cases hev
  · cases hev

variable {α β : Type}

theorem Write.sound_of_purpose {w : Write} (h : w.purpose ≠ .save) : w.Sound := by
  cases w with
  | saveStaffUser | saveMember => exact absurd rfl h
  | _ => trivial

theorem further_draw (op : Draw β) : (draw op).run.Confined Further :=
  perform_confined trivial trivial

theorem further_raiseDuplicateKey : (raiseDuplicateKey : Handler α).run.Confined Further :=
  confined_raiseDuplicateKey fun _ => trivial

theorem further_write {session : Option ℕ} {w : Write} (h : w.purpose ≠ .save) :
    Further _ (.inr (.inl (.write session w))) := Write.sound_of_purpose h

theorem further_reserve {session : Option ℕ} {normalizedIdentifier : String}
    {claimedType : Option AuthIdentifierType} {createdType : AuthIdentifierType}
    {subjectType : AuthIdentifierSubjectType} {subjectId : String} {actorId : Option String} :
    (reserve session normalizedIdentifier claimedType createdType subjectType subjectId
      actorId).run.Confined Further :=
  confined_reserve trivial (fun _ hw => further_write (by rw [hw]; nofun)) fun _ => trivial

theorem further_release {session : Option ℕ} {normalizedIdentifier : String}
    {subjectType : AuthIdentifierSubjectType} {subjectId : String} {actorId : Option String} :
    (release session normalizedIdentifier subjectType subjectId actorId).run.Confined Further :=
  confined_release (fun _ hw => further_write (by rw [hw]; nofun)) fun _ => trivial

theorem further_recordActivity (e : String → SecurityActivityEvent) :
    (recordActivity e).run.Confined Further :=
  confined_recordActivity e (fun _ hw => further_write (by rw [hw]; nofun)) fun _ => trivial

theorem further_revokeSessions {subjectType : AuthIdentifierSubjectType}
    {subjectId reason : String} : (revokeSessions subjectType subjectId reason).run.Confined Further :=
  confined_revokeSessions (fun _ hw => further_write (by rw [hw]; nofun)) fun _ => trivial

theorem continues_wrote (session : Option ℕ) (w : Write) (r : Sessions.WriteResult Document)
    (l : List Event) : Continues Event.isAccount l (.wrote session w r :: l) := by
  show Continues Event.isAccount l ([.wrote session w r] ++ l)
  refine .append (fun ev hev => ?_) l
  rw [List.mem_singleton.mp hev]
  exact id

variable {env : Environment} {Q : Bool → List Event → Except Failure α → Prop} {fl : Bool}
  {l : List Event}

/-- The walk through calls that concern no version. -/
theorem further_then {x : Handler β} {f : β → Handler α} (hx : x.run.Confined Further)
    (hok : ∀ fl' l' b, Continues Event.isAccount l l' →
      Conforms (versions env) sends Q fl' l' (f b).run)
    (herr : ∀ fl' l' error, Q fl' l' (.error error)) :
    Conforms (versions env) sends Q fl l (x >>= f).run := by
  refine Conforms.run_then (Conforms.of_confined hx further_sends further_note) hok ?_
  intro fl' l' error _
  exact herr fl' l' error

/-- A condition on which further calls are made before the rest. -/
theorem further_if {c : Prop} [Decidable c] {x : Handler PUnit} {f : PUnit → Handler α}
    (hx : c → x.run.Confined Further)
    (hok : ∀ fl' l' b, Continues Event.isAccount l l' →
      Conforms (versions env) sends Q fl' l' (f b).run)
    (herr : ∀ fl' l' error, Q fl' l' (.error error)) :
    Conforms (versions env) sends Q fl l (if c then x >>= f else f ⟨⟩).run :=
  Conforms.run_ite (fun h => further_then (hx h) hok herr) fun _ => hok fl l ⟨⟩ (.refl l)

/-- The write has reached its document, or is one that does so whenever there is one. -/
def Write.Takes (w : Write) (r : Sessions.WriteResult Document) : Prop :=
  (∃ docs, r = .written docs) ∨ ∃ subjectType id, w = .bumpAuthVersion subjectType id

/-- The caller has raised the version of the account, on its own or in a transaction that it
has committed. -/
def Raised (l : List Event) (subject : Subject) : Prop :=
  (∃ w r, .wrote none w r ∈ l ∧ w.Raises subject ∧ w.Takes r) ∨
  ∃ n, .committed n ∈ l ∧ ∃ w docs, .wrote (some n) w (.written docs) ∈ l ∧ w.Raises subject

def Ended (env : Environment) (call : VersionCall) (_ : Bool) (l : List Event)
    (r : Except Failure α) : Prop :=
  ∀ a, r = .ok a → ∀ subject, call.Outdates env l subject → Raised l subject

theorem Ended.error {call : VersionCall} (fl : Bool) (l : List Event) (error : Failure) :
    Ended env call fl l (.error error : Except Failure α) := fun a h => by cases h

/-- What a save of a member ends with. -/
theorem saveMember_conforms {Q : Bool → List Event → Except Failure Member → Prop}
    {loaded now : Member} (hs : (Write.saveMember loaded now).Sound)
    (hok : ∀ docs, Q fl (.wrote none (.saveMember loaded now) (.written docs) :: l) (.ok now))
    (herr : ∀ fl' l' error, Q fl' l' (.error error)) :
    Conforms (versions env) sends Q fl l (MembersService.save loaded now).run := by
  refine call_conforms hs (fun _ => trivial) (fun l' error _ => herr true l' error) fun r _ => ?_
  cases r with
  | written docs => exact Conforms.run_pure (hok docs)
  | unmatched => exact Conforms.run_throw (herr _ _ _)
  | duplicateKey =>
    exact call_conforms trivial (fun _ => trivial) (fun l' error _ => herr true l' error)
      fun _ _ => Conforms.run_throw (herr _ _ _)

theorem confined_toMongoObjectId {P : (β : Type) → Op β → Prop} (value fieldName : String) :
    (toMongoObjectId value fieldName).run.Confined P := by
  cases h : ObjectId.parse value with
  | some id =>
    rw [toMongoObjectId_some h]
    exact .run_pure
  | none =>
    rw [toMongoObjectId_none h]
    exact .run_throw

section Members

variable {member : Member}

theorem findMember_conforms (id : String) :
    Conforms (versions env) sends
      (fun _ l r => ∀ member, r = .ok member → l = [.foundMember (some member)]) false []
      (MembersService.findDocumentById id).run := by
  have herr : ∀ (l : List Event) (error : Failure) (member : Member),
      (.error error : Except Failure Member) = .ok member → l = [.foundMember (some member)] :=
    fun _ _ _ h => by cases h
  rw [MembersService.findDocumentById]
  cases hid : ObjectId.parse id with
  | none =>
    rw [toMongoObjectId_none hid]
    exact Conforms.run_throw (herr _ _)
  | some id' =>
    rw [toMongoObjectId_some hid]
    refine call_conforms rfl (fun _ => trivial) (fun l' error _ => herr l' error) fun found _ => ?_
    cases found with
    | some member =>
      refine Conforms.run_pure fun member' h => ?_
      cases h
      rfl
    | none => exact Conforms.run_throw (herr _ _)

theorem further_forIdentifier {identifier : Option String} {f : String → Handler Unit}
    (hf : ∀ identifier, (f identifier).run.Confined Further) :
    (MembersService.forIdentifier identifier f).run.Confined Further := by
  cases identifier with
  | none => exact .run_pure
  | some identifier => exact .run_ite (fun _ => .run_pure) fun _ => hf identifier

theorem further_validateActivePolicy (id : String) :
    (MembersService.validateActivePolicy id).run.Confined Further := by
  refine .run_bind (confined_toMongoObjectId _ _) fun id' => ?_
  refine .run_bind (perform_confined trivial trivial) fun found => ?_
  cases found with
  | none => exact .run_throw
  | some membershipType => exact .run_ite (fun _ => .run_pure) fun _ => .run_throw

theorem further_recordMemberChange (actor : Option AuditActor)
    (identifierChanged statusChanged : Bool) :
    (MembersService.recordMemberChange member actor identifierChanged
      statusChanged).run.Confined Further :=
  .run_ite (fun _ => .run_bind (further_recordActivity _) fun _ =>
      .run_ite (fun _ => further_recordActivity _) fun _ => .run_pure)
    fun _ => .run_ite (fun _ => further_recordActivity _) fun _ => .run_pure

/-- A change of the e-mail address or the status raises the version. -/
theorem applyUpdates_authVersion (dto : UpdateMemberDto) (actor : Option AuditActor)
    (member : Member) :
    let now := MembersService.applyUpdates env dto actor member
    (now.authVersion = member.authVersion ∨
      member.authVersion.getD 0 < now.authVersion.getD 0) ∧
    ((MembersService.emailChanged env dto member ||
      MembersService.statusChanged dto member) = true →
      member.authVersion.getD 0 < now.authVersion.getD 0) := by
  have h₁ := lt_incremented member.authVersion
  have h₂ := lt_incremented (incremented member.authVersion)
  simp only [MembersService.applyUpdates]
  cases MembersService.emailChanged env dto member with
  | true =>
    cases MembersService.statusChanged dto member with
    | true => exact ⟨.inr (h₁.trans h₂), fun _ => h₁.trans h₂⟩
    | false => exact ⟨.inr h₁, fun _ => h₁⟩
  | false =>
    cases MembersService.statusChanged dto member with
    | true => exact ⟨.inr h₁, fun _ => h₁⟩
    | false => exact ⟨.inl rfl, fun h => by cases h⟩

theorem ended_updateMember {dto : UpdateMemberDto} {actor : Option AuditActor} {id : String}
    {a : α} (hl : Continues Event.isAccount [.foundMember (some member)] l)
    (hw : ∃ docs, .wrote none (.saveMember member (MembersService.applyUpdates env dto actor member))
      (.written docs) ∈ l) :
    Ended env (.updateMember dto actor id) fl l (.ok a) := by
  rintro - - subject ⟨member', hfound, rfl, hchanged⟩
  obtain rfl : member' = member := by
    simpa using hl.2 _ hfound trivial
  obtain ⟨docs, hw⟩ := hw
  exact .inl ⟨_, _, hw, ⟨rfl, (applyUpdates_authVersion dto actor member').2 hchanged⟩,
    .inl ⟨docs, rfl⟩⟩

theorem persistMember_conforms (dto : UpdateMemberDto) (actor : Option AuditActor) (id : String)
    (hl : Continues Event.isAccount [.foundMember (some member)] l) :
    Conforms (versions env) sends (Ended env (.updateMember dto actor id)) fl l
      (MembersService.persist env dto actor member).run := by
  have herr := @Ended.error MemberResponseDto env (.updateMember dto actor id)
  rw [MembersService.persist]
  refine Conforms.run_bind (saveMember_conforms (applyUpdates_authVersion dto actor member).1
    (fun docs => ?_) herr)
  have hsaved := hl.trans (continues_wrote none
    (.saveMember member (MembersService.applyUpdates env dto actor member)) (.written docs) l)
  refine further_if (fun _ => further_forIdentifier fun _ => further_release)
    (fun _ _ _ h₁ => ?_) herr
  refine further_if (fun _ => further_revokeSessions) (fun _ _ _ h₂ => ?_) herr
  refine further_then (further_recordMemberChange _ _ _) (fun _ _ _ h₃ => ?_) herr
  have hrest := h₁.trans (h₂.trans h₃)
  exact Conforms.run_pure (ended_updateMember (hsaved.trans hrest)
    ⟨docs, hrest.mem List.mem_cons_self⟩)

theorem updateMember_conforms (dto : UpdateMemberDto) (actor : Option AuditActor) (id : String) :
    Conforms (versions env) sends (Ended env (.updateMember dto actor id)) false []
      (MembersService.update env dto actor id).run := by
  have herr := @Ended.error MemberResponseDto env (.updateMember dto actor id)
  rw [MembersService.update]
  refine Conforms.run_then (findMember_conforms id) (fun fl l member hfound => ?_)
    fun fl l error _ => herr fl l error
  obtain rfl := hfound member rfl
  refine further_if (fun _ => further_forIdentifier fun _ => further_reserve) (fun fl l _ hl => ?_)
    herr
  have htry : ∀ {fl l'}, Continues Event.isAccount l l' →
      Conforms (versions env) sends (Ended env (.updateMember dto actor id)) fl l'
        (tryCatch (MembersService.persist env dto actor member) fun error => do
          if MembersService.emailChanged env dto member then
            MembersService.forIdentifier (MembersService.nextEmail env dto) fun nextEmail =>
              MembersService.releaseIdentifier nextEmail member.id (actor.map (·.id))
          throw error : Handler _).run := by
    intro fl l' hl'
    refine Conforms.run_handle (persistMember_conforms dto actor id (hl.trans hl'))
      (fun _ _ _ h => h) fun _ _ error _ => ?_
    exact further_if (fun _ => further_forIdentifier fun _ => further_release)
      (fun fl l _ _ => Conforms.run_throw (herr fl l error)) herr
  cases hm : dto.membershipTypeId with
  | some membershipTypeId =>
    exact further_then (further_validateActivePolicy _) (fun _ _ _ hl' => htry hl') herr
  | none => exact htry (.refl l)

theorem persistCredentials_conforms {actor : Option AuditActor} {id loginIdentifier : String}
    {password : String} {now : Member} {normalizedLoginIdentifier : String}
    (hnow : now.authVersion = incremented member.authVersion)
    (hl : Continues Event.isAccount [.foundMember (some member)] l) :
    Conforms (versions env) sends
      (Ended env (.setMemberCredentials actor id loginIdentifier password)) fl l
      (MembersService.persistCredentials actor member now normalizedLoginIdentifier).run := by
  have herr := @Ended.error MemberResponseDto env
    (.setMemberCredentials actor id loginIdentifier password)
  have hlt : member.authVersion.getD 0 < now.authVersion.getD 0 := by
    rw [hnow]
    exact lt_incremented _
  rw [MembersService.persistCredentials]
  refine Conforms.run_bind (saveMember_conforms (.inr hlt) (fun docs => ?_) herr)
  have hsaved := hl.trans (continues_wrote none (.saveMember member now) (.written docs) l)
  refine further_if (fun _ => further_forIdentifier fun _ => further_release)
    (fun _ _ _ h₁ => ?_) herr
  refine further_then further_revokeSessions (fun _ _ _ h₂ => ?_) herr
  refine further_then (further_recordMemberChange _ _ _) (fun _ _ _ h₃ => ?_) herr
  have hrest := h₁.trans (h₂.trans h₃)
  refine Conforms.run_pure ?_
  rintro - - subject ⟨member', hfound, rfl⟩
  obtain rfl : member' = member := by
    simpa using (hsaved.trans hrest).2 _ hfound trivial
  exact .inl ⟨_, _, hrest.mem List.mem_cons_self, ⟨rfl, hlt⟩, .inl ⟨docs, rfl⟩⟩

theorem setMemberCredentials_conforms (actor : Option AuditActor)
    (id loginIdentifier password : String) :
    Conforms (versions env) sends
      (Ended env (.setMemberCredentials actor id loginIdentifier password)) false []
      (MembersService.setMemberCredentials env actor id loginIdentifier password).run := by
  have herr := @Ended.error MemberResponseDto env
    (.setMemberCredentials actor id loginIdentifier password)
  rw [MembersService.setMemberCredentials]
  refine Conforms.run_then (findMember_conforms id) (fun fl l member hfound => ?_)
    fun fl l error _ => herr fl l error
  obtain rfl := hfound member rfl
  refine further_then (perform_confined trivial trivial) (fun _ _ taken h₁ => ?_) herr
  refine Conforms.run_ite (fun _ => Conforms.run_throw (herr _ _ _)) fun _ => ?_
  refine further_then further_reserve (fun _ _ _ h₂ => ?_) herr
  refine further_then (further_draw _) (fun _ _ passwordHash h₃ => ?_) herr
  refine further_then (further_draw _) (fun _ _ passwordUpdatedAt h₄ => ?_) herr
  refine Conforms.run_handle
    (persistCredentials_conforms rfl (h₁.trans (h₂.trans (h₃.trans h₄))))
    (fun _ _ _ h => h) fun _ _ error _ => ?_
  exact further_then further_release (fun fl l _ _ => Conforms.run_throw (herr fl l error)) herr

end Members

theorem bumpStaffUser_conforms (id : String) :
    Conforms (versions env) sends (Ended env (.bumpStaffUser id)) false []
      (StaffUsersService.bumpAuthVersion id).run := by
  have herr := @Ended.error Unit env (.bumpStaffUser id)
  rw [StaffUsersService.bumpAuthVersion]
  cases hid : ObjectId.parse id with
  | none =>
    rw [toMongoObjectId_none hid]
    exact Conforms.run_throw (herr _ _ _)
  | some id' =>
    rw [toMongoObjectId_some hid]
    refine call_conforms trivial (fun _ => trivial) (fun l' error _ => herr true l' error)
      fun r _ => Conforms.run_pure ?_
    rintro - - subject ⟨id'', hid'', rfl⟩
    rw [hid] at hid''
    cases hid''
    exact .inl ⟨_, r, List.mem_cons_self, rfl, .inr ⟨_, _, rfl⟩⟩

theorem bumpMember_conforms (id : String) :
    Conforms (versions env) sends (Ended env (.bumpMember id)) false []
      (MembersService.bumpAuthVersion id).run := by
  have herr := @Ended.error Unit env (.bumpMember id)
  rw [MembersService.bumpAuthVersion]
  cases hid : ObjectId.parse id with
  | none =>
    rw [toMongoObjectId_none hid]
    exact Conforms.run_throw (herr _ _ _)
  | some id' =>
    rw [toMongoObjectId_some hid]
    refine call_conforms trivial (fun _ => trivial) (fun l' error _ => herr true l' error)
      fun r _ => ?_
    have hend : Ended env (.bumpMember id) false
        [.wrote none (.bumpAuthVersion .member id'.1) r] (.ok () : Except Failure Unit) := by
      rintro - - subject ⟨id'', hid'', rfl⟩
      rw [hid] at hid''
      cases hid''
      exact .inl ⟨_, r, List.mem_cons_self, rfl, .inr ⟨_, _, rfl⟩⟩
    cases r with
    | unmatched => exact Conforms.run_throw (herr _ _ _)
    | written docs | duplicateKey => exact Conforms.run_pure hend

/-- The version of the account has been raised in the session. -/
def Updated (session : Option ℕ) (l : List Event) (subject : Subject) : Prop :=
  ∃ w docs, .wrote session w (.written docs) ∈ l ∧ w.Raises subject

theorem Updated.mono {session : Option ℕ} {l l' : List Event} {subject : Subject}
    (h : Updated session l subject) (hl : l <:+ l') : Updated session l' subject := by
  obtain ⟨w, docs, hw, hr⟩ := h
  exact ⟨w, docs, hl.subset hw, hr⟩

theorem Raised.mono {l l' : List Event} {subject : Subject} (h : Raised l subject)
    (hl : l <:+ l') : Raised l' subject := by
  rcases h with ⟨w, r, hw, hr⟩ | ⟨n, hn, hu⟩
  · exact .inl ⟨w, r, hl.subset hw, hr⟩
  · exact .inr ⟨n, hl.subset hn, Updated.mono hu hl⟩

theorem Updated.raised {l : List Event} {subject : Subject} (h : Updated none l subject) :
    Raised l subject := by
  obtain ⟨w, docs, hw, hr⟩ := h
  exact .inl ⟨w, _, hw, hr, .inl ⟨docs, rfl⟩⟩

theorem Updated.raised_of_committed {n : ℕ} {l : List Event} {subject : Subject}
    (h : Updated (some n) l subject) (hn : .committed n ∈ l) : Raised l subject :=
  .inr ⟨n, hn, h⟩

section Assignments

variable {session : Option ℕ}

theorem updateAggregateIdentifier_conforms (a : AuthIdentifierAssignmentInput × String) :
    Conforms (versions env) sends (fun _ l' r => l <:+ l' ∧
        (r = .ok () → Updated session l' (a.1.subjectType, a.1.subjectId)))
      fl l (AuthIdentifierService.updateAggregateIdentifier a.1 a.2 session).run := by
  refine call_conforms trivial (fun _ => trivial)
    (fun l' error hl => ⟨hl, fun h => by cases h⟩) fun r _ => ?_
  cases r with
  | written docs =>
    exact Conforms.run_pure ⟨List.suffix_cons _ _, fun _ =>
      ⟨_, docs, List.mem_cons_self, rfl⟩⟩
  | unmatched => exact Conforms.run_throw ⟨List.suffix_cons _ _, fun h => by cases h⟩
  | duplicateKey =>
    exact call_conforms trivial (fun _ => trivial)
      (fun l' error hl => ⟨(List.suffix_cons _ _).trans hl, fun h => by cases h⟩)
      fun _ _ => Conforms.run_throw ⟨List.suffix_cons _ _, fun h => by cases h⟩

theorem updateAll_conforms (assignments : List (AuthIdentifierAssignmentInput × String))
    {fl : Bool} {l : List Event} :
    Conforms (versions env) sends
      (fun _ l' r => l <:+ l' ∧ (r = .ok () → ∀ a ∈ assignments,
        Updated session l' (a.1.subjectType, a.1.subjectId))) fl l
      (assignments.forM fun a =>
        AuthIdentifierService.updateAggregateIdentifier a.1 a.2 session : Handler Unit).run := by
  induction assignments generalizing fl l with
  | nil => exact Conforms.run_pure ⟨List.suffix_refl _, fun _ a ha => by cases ha⟩
  | cons a assignments ih =>
    refine Conforms.run_then (updateAggregateIdentifier_conforms a) (fun fl₁ l₁ _ h₁ => ?_)
      fun fl₁ l₁ error h₁ => ⟨h₁.1, fun h => by cases h⟩
    refine (@ih fl₁ l₁).mono fun fl₂ l₂ r h₂ => ⟨h₁.1.trans h₂.1, fun hr x hx => ?_⟩
    rcases List.mem_cons.mp hx with rfl | hx
    · exact (h₁.2 rfl).mono h₂.1
    · exact h₂.2 hr x hx

theorem applyIdentifiers_conforms (transactional : Bool)
    (assignments : List (AuthIdentifierAssignmentInput × String)) :
    Conforms (versions env) sends (Ended env (.applyIdentifiers transactional assignments)) false []
      (applyIdentifiers transactional assignments).run := by
  have herr := @Ended.error Unit env (.applyIdentifiers transactional assignments)
  refine Conforms.run_ite (fun _ => ?_) fun _ => ?_
  · refine call_conforms trivial (fun _ => trivial) (fun l' error _ => herr true l' error)
      fun n _ => ?_
    refine Conforms.run_handle (R := Ended env (.applyIdentifiers transactional assignments))
      (Conforms.run_then (updateAll_conforms assignments) (fun fl l _ h => ?_) fun fl l error _ => herr fl l error)
      (fun _ _ _ h => h) fun fl l error _ => ?_
    · refine perform_conforms trivial (fun _ => trivial) (fun _ _ => ?_)
        fun l' error _ => herr true l' _
      rintro - - subject ⟨a, ha, rfl⟩
      exact ((h.2 rfl a ha).mono (List.suffix_cons _ _)).raised_of_committed List.mem_cons_self
    · exact call_conforms trivial (fun _ => trivial) (fun l' error _ => herr true l' error)
        fun _ _ => Conforms.run_throw (herr _ _ error)
  · refine (updateAll_conforms assignments).mono fun fl l r h => ?_
    rintro _ rfl subject ⟨a, ha, rfl⟩
    exact (h.2 rfl a ha).raised

end Assignments

section StaffUsers

open StaffUsersService

variable {id : String} {m : Hydrated StaffUser} {session : Option ℕ}

/-- The account in memory, with a version that a save may send. -/
structure Tracks (id : String) (m : Hydrated StaffUser) : Prop where
  old : m.isNew = false
  loaded : m.loaded.id = id
  now : m.now.id = id
  version : m.now.authVersion = m.loaded.authVersion ∨
    m.loaded.authVersion.getD 0 < m.now.authVersion.getD 0

/-- The edits raise the version of what is in memory, whatever has been saved before. -/
theorem applyUpdates_tracks (env : Environment) (dto : UpdateStaffUserDto) (actor : Option AuditActor)
    (user : StaffUser) (nextRoles : List StaffRole) (h : Tracks id m) :
    Tracks id (applyUpdates env dto actor user nextRoles m) ∧
    (securityChanged env dto user nextRoles = true → m.loaded.authVersion.getD 0 <
      (applyUpdates env dto actor user nextRoles m).now.authVersion.getD 0) := by
  have hlt := lt_incremented m.now.authVersion
  have hle : m.loaded.authVersion.getD 0 ≤ m.now.authVersion.getD 0 := by
    rcases h.version with heq | hlt
    · rw [heq]
    · exact hlt.le
  refine ⟨⟨h.old, h.loaded, h.now, ?_⟩, fun hc => ?_⟩
  · show (if _ then _ else _) = _ ∨ _ < Option.getD (if _ then _ else _) 0
    split
    · exact .inr (hle.trans_lt hlt)
    · exact h.version
  · show _ < Option.getD (if _ then _ else _) 0
    rw [if_pos hc]
    exact hle.trans_lt hlt

/-- What a piece of the update ends with: `done` where it has not thrown. -/
def Works {α : Type} (id : String) (l : List Event) (done : α → List Event → Prop) (_ : Bool)
    (l' : List Event) (r : Except Failure α × Hydrated StaffUser) : Prop :=
  Tracks id r.2 ∧ Continues Event.isAccount l l' ∧ ∀ a, r.1 = .ok a → done a l'

variable {done : α → List Event → Prop}

theorem works_error (h : Tracks id m) {l l' : List Event} (hl : Continues Event.isAccount l l')
    (error : Failure) : Works id l done fl l' (.error error, m) :=
  ⟨h, hl, fun a ha => by cases ha⟩

theorem works_ok (h : Tracks id m) {l l' : List Event} (hl : Continues Event.isAccount l l')
    {a : α} (ha : done a l') : Works id l done fl l' (.ok a, m) := by
  refine ⟨h, hl, ?_⟩
  rintro _ ⟨⟩
  exact ha

/-- A piece of the update, and then the rest, judged from where the piece has ended. -/
theorem works_then {P : β → List Event → Prop} {x : Working β} {f : β → Working α}
    (hx : Conforms (versions env) sends (Works id l P) fl l (x.runFrom m))
    (hf : ∀ fl' l' b m', Tracks id m' → Continues Event.isAccount l l' → P b l' →
      Conforms (versions env) sends (Works id l' done) fl' l' ((f b).runFrom m')) :
    Conforms (versions env) sends (Works id l done) fl l ((x >>= f).runFrom m) := by
  refine Conforms.keeping_then hx (fun fl l' b m h => ?_)
    fun fl l' error m h => works_error h.1 h.2.1 error
  exact (hf fl l' b m h.1 h.2.1 (h.2.2 b rfl)).mono
    fun _ _ _ h' => ⟨h'.1, h.2.1.trans h'.2.1, h'.2.2⟩

theorem works_handle {P : α → List Event → Prop} {x : Working α} {f : Failure → Working α}
    (hx : Conforms (versions env) sends (Works id l P) fl l (x.runFrom m))
    (hok : ∀ a l', P a l' → done a l')
    (hf : ∀ fl' l' error m', Tracks id m' →
      Conforms (versions env) sends (Works id l' done) fl' l' ((f error).runFrom m')) :
    Conforms (versions env) sends (Works id l done) fl l ((tryCatch x f).runFrom m) := by
  refine Conforms.keeping_handle hx
    (fun fl l a m h => works_ok h.1 h.2.1 (hok a l (h.2.2 a rfl))) fun fl l' error m h => ?_
  exact (hf fl l' error m h.1).mono fun _ _ _ h' => ⟨h'.1, h.2.1.trans h'.2.1, h'.2.2⟩

theorem works_further {x : Handler α} (h : Tracks id m) (hx : x.run.Confined Further) :
    Conforms (versions env) sends (Works id l fun _ _ => True) fl l
      ((liftM x : Working α).runFrom m) :=
  Conforms.keeping_lift ((Conforms.of_confined hx further_sends further_note).mono
    fun _ _ _ hl => ⟨h, hl, fun _ _ => trivial⟩)

theorem works_raise (h : Tracks id m) :
    Conforms (versions env) sends (Works id l done) fl l
      ((liftM (raiseDuplicateKey : Handler α) : Working α).runFrom m) := by
  have hraise : Conforms (versions env) sends (fun _ _ r => ∀ a, r ≠ .ok a) fl l
      (raiseDuplicateKey : Handler α).run :=
    call_conforms trivial (fun _ => trivial) (fun _ _ _ _ h => by cases h)
      fun _ _ => Conforms.run_throw fun _ h => by cases h
  refine Conforms.keeping_lift (((Conforms.of_confined further_raiseDuplicateKey further_sends
    further_note).and hraise).mono fun _ _ r hr => ⟨h, hr.1, fun a ha => absurd ha (hr.2 a)⟩)

theorem write_conforms {w : Write} (hw : w.Sound) :
    Conforms (versions env) sends (fun _ l' r => Continues Event.isAccount l l' ∧
      ∀ b, r = .ok b → .wrote session w b ∈ l') fl l (write session w).run :=
  (Conforms.of_confined (perform_confined hw trivial) further_sends further_note).and
    (perform_conforms hw (fun _ => trivial)
      (fun r _ b hb => by cases hb; exact List.mem_cons_self) fun _ _ _ b hb => by cases hb)

theorem save_works (h : Tracks id m) :
    Conforms (versions env) sends (Works id l fun _ l' =>
      m.loaded.authVersion.getD 0 < m.now.authVersion.getD 0 → Updated session l' (.staff, id))
      fl l ((save session).runFrom m) := by
  have hsound : (Write.saveStaffUser m.loaded m.now).Sound := h.version
  rw [save, Keeping.runFrom_get_bind, h.old]
  refine works_then (P := fun r l' => .wrote session (.saveStaffUser m.loaded m.now) r ∈ l')
    (Conforms.keeping_lift ((write_conforms hsound).mono fun _ _ _ hw => ⟨h, hw⟩))
    fun fl' l' r m' hm _ hr => ?_
  cases r with
  | written docs =>
    refine ⟨⟨rfl, h.now, h.now, .inl rfl⟩, .refl l', fun _ _ hlt => ⟨_, docs, hr, ?_, hlt⟩⟩
    rw [h.loaded]
  | unmatched => exact works_error hm (.refl l') _
  | duplicateKey => exact works_raise hm

section Update

variable {dto : UpdateStaffUserDto} {actor : Option AuditActor} {user : StaffUser}
  {nextRoles : List StaffRole}

/-- The edits and the save of a change of the e-mail address, in a transaction or not. -/
theorem edit_works {x : Working Unit} (h : Tracks id m)
    (hx : ∀ fl' l' m', Tracks id m' → Conforms (versions env) sends
      (Works id l' fun _ _ => True) fl' l' (x.runFrom m')) :
    Conforms (versions env) sends (Works id l fun _ l' =>
      securityChanged env dto user nextRoles = true → Updated session l' (.staff, id))
      fl l ((do
        modify (applyUpdates env dto actor user nextRoles)
        save session
        x : Working Unit).runFrom m) := by
  obtain ⟨hm, hlt⟩ := applyUpdates_tracks env dto actor user nextRoles h
  rw [Keeping.runFrom_modify_bind]
  refine works_then (save_works hm) fun fl' l' _ m' hm' _ hsaved => ?_
  refine (hx fl' l' m' hm').mono fun _ l'' r h' => ⟨h'.1, h'.2.1, fun _ _ hc => ?_⟩
  exact (hsaved (hlt hc)).mono h'.2.1.1

theorem changeWithIdentifier_works (h : Tracks id m) (n : ℕ) :
    Conforms (versions env) sends (Works id l fun _ l' =>
      securityChanged env dto user nextRoles = true → Updated (some n) l' (.staff, id))
      fl l ((changeWithIdentifier env dto actor user nextRoles n).runFrom m) :=
  works_then (works_further h further_reserve) fun _ _ _ _ hm _ _ =>
    edit_works hm fun _ _ _ hm' => works_further hm' further_release

theorem changeWithoutTransaction_works (h : Tracks id m) :
    Conforms (versions env) sends (Works id l fun _ l' =>
      securityChanged env dto user nextRoles = true → Raised l' (.staff, id))
      fl l ((changeWithoutTransaction env dto actor user nextRoles).runFrom m) := by
  refine works_then (works_further h further_reserve) fun _ _ _ _ hm _ _ => ?_
  refine works_handle (edit_works hm fun _ _ _ hm' => works_further hm' further_release)
    (fun _ _ hu hc => (hu hc).raised) fun _ l' error m' hm' => ?_
  exact works_then (works_further hm' further_release)
    fun _ l'' _ _ hm'' _ _ => works_error hm'' (.refl l'') error

theorem commit_conforms (n : ℕ) :
    Conforms (versions env) sends (fun _ l' r => Continues Event.isAccount l l' ∧
      (r = .ok () → .committed n ∈ l')) fl l (change (.commitTransaction n)).run :=
  (Conforms.of_confined (perform_confined trivial trivial) further_sends further_note).and
    (perform_conforms trivial (fun _ => trivial) (fun _ _ _ => List.mem_cons_self)
      fun _ _ _ h => by cases h)

/-- One run of the callback in its transaction. -/
theorem attempt_works (h : Tracks id m) :
    Conforms (versions env) sends (Works id l fun _ l' =>
      securityChanged env dto user nextRoles = true → Raised l' (.staff, id))
      fl l ((withTransaction.attempt
        (changeWithIdentifier env dto actor user nextRoles)).runFrom m) := by
  refine works_then (works_further h (perform_confined trivial trivial))
    fun fl₁ l₁ n m₁ hm₁ _ _ => ?_
  refine works_handle (works_then (changeWithIdentifier_works hm₁ n)
    fun fl₂ l₂ _ m₂ hm₂ _ hu => ?_) (fun _ _ hr => hr) fun _ l' error m' hm' => ?_
  · refine Conforms.keeping_lift ((commit_conforms n).mono fun _ l' r hr => ⟨hm₂, hr.1, ?_⟩)
    rintro _ rfl hc
    exact ((hu hc).mono hr.1.1).raised_of_committed (hr.2 rfl)
  · exact works_then (works_further hm' (perform_confined trivial trivial))
      fun _ l'' _ _ hm'' _ _ => works_error hm'' (.refl l'') error

theorem withTransaction_works (retries : ℕ) (h : Tracks id m) :
    Conforms (versions env) sends (Works id l fun _ l' =>
      securityChanged env dto user nextRoles = true → Raised l' (.staff, id))
      fl l ((withTransaction
        (changeWithIdentifier env dto actor user nextRoles) retries).runFrom m) := by
  induction retries generalizing fl l m with
  | zero => exact attempt_works h
  | succ retries ih =>
    refine works_handle (attempt_works h) (fun _ _ hr => hr) fun fl' l' error m' hm' => ?_
    by_cases ht : error.isTransient = true
    · rw [if_pos ht]
      exact ih hm'
    · rw [if_neg ht]
      exact works_error hm' (.refl l') error

theorem further_startSession : startSession.run.Confined Further :=
  .run_tryCatch (.run_bind (further_draw _) fun _ => .run_pure) fun _ => .run_pure

theorem persistIdentifierChange_works (h : Tracks id m) :
    Conforms (versions env) sends (Works id l fun _ l' =>
      securityChanged env dto user nextRoles = true → Raised l' (.staff, id))
      fl l ((persistIdentifierChange env dto actor user nextRoles).runFrom m) := by
  rw [persistIdentifierChange, persistWithIdentifier]
  refine works_then (works_further h further_startSession) fun fl₁ l₁ started m₁ hm₁ _ _ => ?_
  cases started with
  | false => exact changeWithoutTransaction_works hm₁
  | true =>
    refine works_then (P := fun completed l' => completed = true →
      securityChanged env dto user nextRoles = true → Raised l' (.staff, id)) ?_
      fun fl₂ l₂ completed m₂ hm₂ _ hr => ?_
    · refine works_handle (works_then (works_further hm₁ (further_draw _))
        fun _ _ retries _ hm _ _ => works_then (withTransaction_works retries hm)
          fun _ l' _ _ hm' _ hr => works_ok hm' (.refl l') fun _ => hr)
        (fun _ _ hr => hr) fun _ l' error _ hm => ?_
      by_cases hu : isTransactionUnavailable error = true
      · rw [if_pos hu]
        exact works_ok hm (.refl l') fun h => by cases h
      · rw [if_neg hu]
        exact works_error hm (.refl l') _
    · cases completed with
      | true => exact works_ok hm₂ (.refl l₂) (hr rfl)
      | false => exact changeWithoutTransaction_works hm₂

theorem further_recordChanges (now : StaffUser) :
    (recordChanges dto actor user nextRoles now).run.Confined Further :=
  .run_ite (fun _ => .run_bind (further_recordActivity _) fun _ =>
      .run_ite (fun _ => further_recordActivity _) fun _ => .run_pure)
    fun _ => .run_ite (fun _ => further_recordActivity _) fun _ => .run_pure

/-- The update from where the new roles are known. -/
theorem finishUpdate_conforms {idText : String}
    (hroles : nextRoles = (dto.roles.map List.eraseDups).getD user.roles) :
    Conforms (versions env) sends (Ended env (.updateStaffUser dto actor idText)) fl
      [.foundStaffUser (some user)] (do
        let saved ← Keeping.keep ⟨user, user, false⟩
          (if emailChanged env dto user then persistIdentifierChange env dto actor user nextRoles
          else do
            modify (applyUpdates env dto actor user nextRoles)
            save none)
        if securityChanged env dto user nextRoles then
          revokeSessions .staff user.id "staff-account-updated"
        recordChanges dto actor user nextRoles saved.now
        return toResponse saved.now : Handler StaffUserResponseDto).run := by
  have herr := @Ended.error StaffUserResponseDto env (.updateStaffUser dto actor idText)
  have hm : Tracks user.id ⟨user, user, false⟩ := ⟨rfl, rfl, rfl, .inl rfl⟩
  have hwork : ∀ {fl}, Conforms (versions env) sends
      (Works user.id [.foundStaffUser (some user)] fun _ l' =>
        securityChanged env dto user nextRoles = true → Raised l' (.staff, user.id)) fl
      [.foundStaffUser (some user)]
      ((if emailChanged env dto user then persistIdentifierChange env dto actor user nextRoles
        else do
          modify (applyUpdates env dto actor user nextRoles)
          save none : Working Unit).runFrom ⟨user, user, false⟩) := by
    intro fl
    by_cases hc : emailChanged env dto user = true
    · rw [if_pos hc]
      exact persistIdentifierChange_works hm
    · obtain ⟨hm', hlt⟩ := applyUpdates_tracks env dto actor user nextRoles hm
      rw [if_neg hc, Keeping.runFrom_modify_bind]
      exact (save_works hm').mono fun _ _ _ h =>
        ⟨h.1, h.2.1, fun a ha hs => (h.2.2 a ha (hlt hs)).raised⟩
  refine Conforms.run_bind (Conforms.run_keep (hwork.mono fun fl' l' r h => ?_))
  obtain ⟨r | _, saved⟩ := r
  · exact herr fl' l' r
  · obtain ⟨-, hl, hraised⟩ := h
    refine further_if (fun _ => further_revokeSessions) (fun _ _ _ h₁ => ?_) herr
    refine further_then (further_recordChanges _) (fun _ _ _ h₂ => ?_) herr
    have hrest := h₁.trans h₂
    refine Conforms.run_pure ?_
    rintro - - subject ⟨user', hfound, rfl, hchanged⟩
    obtain rfl : user' = user := by
      simpa using (hl.trans hrest).2 _ hfound trivial
    rw [← hroles] at hchanged
    exact (hraised _ rfl hchanged).mono hrest.1

theorem findStaffUser_conforms (id : String) :
    Conforms (versions env) sends
      (fun _ l r => ∀ user, r = .ok user → l = [.foundStaffUser (some user)]) false []
      (StaffUsersService.findDocumentById id).run := by
  have herr : ∀ (l : List Event) (error : Failure) (user : StaffUser),
      (.error error : Except Failure StaffUser) = .ok user → l = [.foundStaffUser (some user)] :=
    fun _ _ _ h => by cases h
  rw [StaffUsersService.findDocumentById]
  cases hid : ObjectId.parse id with
  | none =>
    rw [toMongoObjectId_none hid]
    exact Conforms.run_throw (herr _ _)
  | some id' =>
    rw [toMongoObjectId_some hid]
    refine call_conforms rfl (fun _ => trivial) (fun l' error _ => herr l' error) fun found _ => ?_
    cases found with
    | some user =>
      refine Conforms.run_pure fun user' h => ?_
      cases h
      rfl
    | none => exact Conforms.run_throw (herr _ _)

theorem updateStaffUser_conforms (id : String) :
    Conforms (versions env) sends (Ended env (.updateStaffUser dto actor id)) false []
      (StaffUsersService.update env dto actor id).run := by
  have herr := @Ended.error StaffUserResponseDto env (.updateStaffUser dto actor id)
  rw [StaffUsersService.update]
  refine Conforms.run_then (findStaffUser_conforms id) (fun fl l user hfound => ?_)
    fun fl l error _ => herr fl l error
  obtain rfl := hfound user rfl
  cases hr : dto.roles with
  | none => exact finishUpdate_conforms (by rw [hr]; rfl)
  | some roles =>
    by_cases hempty : roles.eraseDups.isEmpty = true
    · show Conforms _ _ _ _ _ (((if _ then _ else _ : Handler (List StaffRole)) >>= _).run)
      rw [if_pos hempty]
      exact Conforms.run_throw (herr _ _ _)
    · show Conforms _ _ _ _ _ (((if _ then _ else _ : Handler (List StaffRole)) >>= _).run)
      rw [if_neg hempty]
      exact finishUpdate_conforms (by rw [hr]; rfl)

end Update

end StaffUsers

theorem handle_conforms (call : VersionCall) :
    Conforms (versions env) sends (Ended env call) false [] (call.handle env).run := by
  have herr := @Ended.error Unit env call
  have hdiscard : ∀ {γ : Type} {x : Handler γ},
      Conforms (versions env) sends (Ended env call) false [] x.run →
      Conforms (versions env) sends (Ended env call) false [] (do let _ ← x : Handler Unit).run :=
    fun hx => Conforms.run_then hx (fun _ _ b h => Conforms.run_pure fun _ _ => h b rfl)
      fun fl l error _ => herr fl l error
  cases call with
  | updateStaffUser dto actor id => exact hdiscard (updateStaffUser_conforms id)
  | updateMember dto actor id => exact hdiscard (updateMember_conforms dto actor id)
  | setMemberCredentials actor id loginIdentifier password =>
    exact hdiscard (setMemberCredentials_conforms actor id loginIdentifier password)
  | bumpStaffUser id => exact bumpStaffUser_conforms id
  | bumpMember id => exact bumpMember_conforms id
  | applyIdentifiers transactional assignments =>
    exact applyIdentifiers_conforms transactional assignments

/-- What every request keeps to; what holds of the versions depends on the gate. -/
def versionContract (ι : Type) [DecidableEq ι] (env : Environment) : Contract ι (versions env) where
  inv _ _ := True
  legal _ := sends
  post := Ended env
  inv_call _ _ _ _ := trivial
  inv_env _ _ := trivial
  conforms call := handle_conforms call

end Conduct

section Runs

variable {ι : Type}

/-- The version in `now` is at least, or more than, what it was in `before`. -/
def Grown (before now : Subject → Option ℕ) (subject : Subject) : Prop :=
  ∀ version, before subject = some version → ∃ version', now subject = some version' ∧
    version ≤ version'

def Risen (before now : Subject → Option ℕ) (subject : Subject) : Prop :=
  ∀ version, before subject = some version → ∃ version', now subject = some version' ∧
    version < version'

theorem Grown.refl (before : Subject → Option ℕ) (subject : Subject) :
    Grown before before subject := fun version h => ⟨version, h, le_rfl⟩

theorem Grown.trans {a b c : Subject → Option ℕ} {subject : Subject} (h : Grown a b subject)
    (h' : Grown b c subject) : Grown a c subject := by
  intro version hv
  obtain ⟨version', hv', hle⟩ := h version hv
  obtain ⟨version'', hv'', hle'⟩ := h' version' hv'
  exact ⟨version'', hv'', hle.trans hle'⟩

theorem Risen.grown {a b c : Subject → Option ℕ} {subject : Subject} (h : Risen a b subject)
    (h' : Grown b c subject) : Risen a c subject := by
  intro version hv
  obtain ⟨version', hv', hlt⟩ := h version hv
  obtain ⟨version'', hv'', hle⟩ := h' version' hv'
  exact ⟨version'', hv'', hlt.trans_le hle⟩

theorem Grown.risen {a b c : Subject → Option ℕ} {subject : Subject} (h : Grown a b subject)
    (h' : Risen b c subject) : Risen a c subject := by
  intro version hv
  obtain ⟨version', hv', hle⟩ := h version hv
  obtain ⟨version'', hv'', hlt⟩ := h' version' hv'
  exact ⟨version'', hv'', hle.trans_lt hlt⟩

/-- What a write that may be applied does to the versions that it sees. -/
theorem grown_wrote {s : Database} {w : Write} (hs : w.Sound) (hc : w.Current s)
    (subject : Subject) : Grown s.authVersion (s.wrote w).authVersion subject := by
  intro version h
  obtain ⟨version', h', hle, -⟩ := authVersion_wrote hs hc h
  exact ⟨version', h', hle⟩

theorem risen_wrote {s : Database} {w : Write} (hs : w.Sound) (hc : w.Current s)
    {docs : List Document} (hw : schema.write w s = .written docs) {subject : Subject}
    (hr : w.Raises subject) : Risen s.authVersion (s.wrote w).authVersion subject := by
  intro version h
  obtain ⟨version', h', -, hlt⟩ := authVersion_wrote hs hc h
  exact ⟨version', h', hlt docs hw hr⟩

/-- An open transaction: what it sees has grown since it began, and an account that it has
raised is there and has risen. -/
structure Ahead (J : List (Entry ι VersionCall Event)) (n : ℕ)
    (t : Sessions.Transaction Database Document) : Prop where
  grown : ∀ subject, Grown t.snapshot.authVersion
    (schema.putAll t.buffer t.snapshot).authVersion subject
  risen : ∀ e ∈ J, ∀ w docs, e.event = .wrote (some n) w (.written docs) →
    ∀ subject, w.Raises subject → Risen t.snapshot.authVersion
        (schema.putAll t.buffer t.snapshot).authVersion subject ∧
      ∃ version, (schema.putAll t.buffer t.snapshot).authVersion subject = some version

/-- The store of a run under the gate. -/
structure Versioned (s : Store) (J : List (Entry ι VersionCall Event)) : Prop where
  indexed : s.committed.Indexed
  begun : ∀ n t, s.transactions n = some t → n < s.started
  ahead : ∀ n t, s.transactions n = some t → Ahead J n t
  past : ∀ e ∈ J, ∀ n w r, e.event = .wrote (some n) w r → n < s.started
  closed : ∀ e ∈ J, ∀ n, e.event = .committed n → n < s.started ∧ s.transactions n = none

/-- A save that the gate lets pass. -/
def admitted (s : Store) (session : Option ℕ) (w : Write) : Prop :=
  w.Sound ∧ ∀ v, schema.view s session = some v → w.Current v

theorem effect_of_admitted {env : Environment} {i : ι} {J : List (Entry ι VersionCall Event)}
    (fl : Bool) {l : List Event} {β : Type} {op : Op β} {r : Option β} {s s' : Store}
    (hlegal : sends fl l β op) (hgate : savesCurrent i β op r.isSome s J)
    (heff : (versions env).Applies op s r s') : Effect (admitted s) s (note β op r) s' := by
  refine effect_of_applies (fun hsome => ?_) heff
  rw [hsome] at hgate
  rcases op with ⟨session, q⟩ | c | x
  · trivial
  · cases c with
    | write session w => exact ⟨hlegal, hgate⟩
    | _ => trivial
  · trivial

/-- The version that a document gives a staff account. -/
def Document.staffVersion : Document → ℕ
  | .staffUser d => d.authVersion.getD 0
  | _ => 0

/-- The version that a document gives a member. -/
def Document.memberVersion : Document → ℕ
  | .member d => d.authVersion.getD 0
  | _ => 0

/-- What is committed takes the versions that the transaction saw. -/
theorem committed_authVersion {s : Store} {t : Sessions.Transaction Database Document}
    (hu : schema.Unconflicted t s.committed) (subject : Subject) :
    (schema.putAll t.buffer s.committed).authVersion subject = s.committed.authVersion subject ∧
      (schema.putAll t.buffer t.snapshot).authVersion subject = t.snapshot.authVersion subject ∨
    s.committed.authVersion subject = t.snapshot.authVersion subject ∧
      (schema.putAll t.buffer s.committed).authVersion subject =
        (schema.putAll t.buffer t.snapshot).authVersion subject := by
  rcases authVersion_putAll t.buffer subject with ⟨-, hkeep⟩ | ⟨d, hd, version, hacc, hset⟩
  · exact .inl ⟨hkeep _, hkeep _⟩
  · refine .inr ⟨?_, (hset _).trans (hset _).symm⟩
    have hfind : s.committed.find d.key = t.snapshot.find d.key := hu d hd
    cases d with
    | staffUser d =>
      cases hacc
      have hsame := congrArg (Option.map Document.staffVersion) hfind
      simpa [Database.find, Document.key, Document.staffVersion, Database.authVersion,
        Database.staffUser, Option.map_map, Function.comp_def] using hsame
    | member d =>
      cases hacc
      have hsame := congrArg (Option.map Document.memberVersion) hfind
      simpa [Database.find, Document.key, Document.memberVersion, Database.authVersion,
        Database.member, Option.map_map, Function.comp_def] using hsame
    | _ => cases hacc

/-- A step leaves events of writes and commits only where it writes or commits. -/
theorem Ahead.record {J : List (Entry ι VersionCall Event)} {n : ℕ}
    {t : Sessions.Transaction Database Document} (h : Ahead J n t) {i : ι} {call : VersionCall}
    {evs : List Event} (hevs : ∀ w r, .wrote (some n) w r ∉ evs) :
    Ahead (record i call evs ++ J) n t := by
  refine ⟨h.grown, fun e he w docs hw => ?_⟩
  rcases List.mem_append.mp he with hnew | hold
  · exact absurd (hw ▸ (mem_record.mp hnew).2.2) (hevs w _)
  · exact h.risen e hold w docs hw

/-- A transaction that has written what the gate lets pass. -/
theorem Ahead.write {s : Store} {J : List (Entry ι VersionCall Event)} {n : ℕ}
    {t : Sessions.Transaction Database Document} (h : Ahead J n t)
    (hopen : s.transactions n = some t) {w : Write} (hw : admitted s (some n) w) {i : ι}
    {call : VersionCall} :
    Ahead (Interleaving.record i call
        [.wrote (some n) w (schema.write w (schema.putAll t.buffer t.snapshot))] ++ J) n
      { t with
        buffer := (schema.write w (schema.putAll t.buffer t.snapshot)).docs ++ t.buffer } := by
  obtain ⟨hsound, hcurrent⟩ := hw
  have hview : w.Current (schema.putAll t.buffer t.snapshot) := by
    refine hcurrent _ ?_
    rw [Sessions.Schema.view, hopen, Option.map_some]
  have hput : schema.putAll ((schema.write w (schema.putAll t.buffer t.snapshot)).docs ++ t.buffer)
      t.snapshot = (schema.putAll t.buffer t.snapshot).wrote w := schema.putAll_append _ _ _
  constructor
  · intro subject
    show Grown _ (schema.putAll (_ ++ _) _).authVersion subject
    rw [hput]
    exact (h.grown subject).trans (grown_wrote hsound hview subject)
  · intro e he w' docs hw' subject hr
    show Risen _ (schema.putAll (_ ++ _) _).authVersion subject ∧
      ∃ version, (schema.putAll (_ ++ _) _).authVersion subject = some version
    rw [hput]
    rcases List.mem_append.mp he with hnew | hold
    · obtain ⟨-, -, hev⟩ := mem_record.mp hnew
      rw [hw', List.mem_singleton, Event.wrote.injEq] at hev
      obtain ⟨-, rfl, hdocs⟩ := hev
      refine ⟨(h.grown subject).risen (risen_wrote hsound hview hdocs.symm hr), ?_⟩
      obtain ⟨d, hd, version, hacc⟩ := exists_account_write hdocs.symm hr
      rcases authVersion_putAll docs subject with ⟨hnone, -⟩ | ⟨-, -, version, -, hset⟩
      · exact absurd hacc (hnone d hd version)
      · rw [Database.wrote, ← hdocs]
        exact ⟨version, hset _⟩
    · obtain ⟨hrisen, version, hversion⟩ := h.risen e hold w' docs hw' subject hr
      have hgrown := grown_wrote hsound hview subject
      obtain ⟨version', hversion', -⟩ := hgrown version hversion
      exact ⟨hrisen.grown hgrown, version', hversion'⟩

/-- One transaction may be new, the others are as they were. -/
theorem update_cases {α : Type} {f : ℕ → Option α} {n m : ℕ} {v : Option α} {a : α}
    (h : Function.update f n v m = some a) : m = n ∧ v = some a ∨ m ≠ n ∧ f m = some a := by
  by_cases hm : m = n
  · subst hm
    rw [Function.update_self] at h
    exact .inl ⟨rfl, h⟩
  · rw [Function.update_of_ne hm] at h
    exact .inr ⟨hm, h⟩

theorem of_update_none {α : Type} {f : ℕ → Option α} {n m : ℕ} {a : α}
    (h : Function.update f n none m = some a) : f m = some a := by
  rcases update_cases h with ⟨-, hnone⟩ | ⟨-, hf⟩
  · cases hnone
  · exact hf

theorem update_none_of_none {α : Type} {f : ℕ → Option α} {n m : ℕ} (h : f m = none) :
    Function.update f n none m = none := by
  by_cases hm : m = n
  · rw [hm, Function.update_self]
  · rw [Function.update_of_ne hm, h]

theorem Versioned.step {s s' : Store} {J : List (Entry ι VersionCall Event)} {evs : List Event}
    {i : ι} {call : VersionCall} (h : Versioned s J) (heff : Effect (admitted s) s evs s') :
    Versioned s' (record i call evs ++ J) := by
  cases heff with
  | read hread =>
    have hevs : ∀ n w r, Event.wrote n w r ∉ evs := fun n w r hev => hread _ hev
    refine ⟨h.indexed, h.begun, fun n t ht => (h.ahead n t ht).record (hevs _), ?_, ?_⟩
    · intro e he n w r hw
      rcases List.mem_append.mp he with hnew | hold
      · exact absurd (hw ▸ (mem_record.mp hnew).2.2) (hevs _ w r)
      · exact h.past e hold n w r hw
    · intro e he n hn
      rcases List.mem_append.mp he with hnew | hold
      · have hr : Event.isRead (.committed n) := hread _ (hn ▸ (mem_record.mp hnew).2.2)
        exact False.elim hr
      · exact h.closed e hold n hn
  | wrote hw =>
    refine ⟨Database.wrote_indexed h.indexed _, h.begun,
      fun n t ht => (h.ahead n t ht).record fun w r hev => ?_, ?_, ?_⟩
    · cases List.mem_singleton.mp hev
    · intro e he n w r hw
      rcases List.mem_append.mp he with hnew | hold
      · cases List.mem_singleton.mp (hw ▸ (mem_record.mp hnew).2.2)
      · exact h.past e hold n w r hw
    · intro e he n hn
      rcases List.mem_append.mp he with hnew | hold
      · cases List.mem_singleton.mp (hn ▸ (mem_record.mp hnew).2.2)
      · exact h.closed e hold n hn
  | @wroteIn n w t hw hopen =>
    have hbegun := h.begun n t hopen
    refine ⟨h.indexed, fun m t' ht' => ?_, fun m t' ht' => ?_, ?_, ?_⟩
    · rcases update_cases ht' with ⟨rfl, -⟩ | ⟨-, hold⟩
      · exact hbegun
      · exact h.begun m t' hold
    · rcases update_cases ht' with ⟨rfl, heq⟩ | ⟨hm, hold⟩
      · cases heq
        exact (h.ahead m t hopen).write hopen hw
      · refine (h.ahead m t' hold).record fun w' r' hev => ?_
        rw [List.mem_singleton, Event.wrote.injEq] at hev
        exact hm (Option.some.inj hev.1)
    · intro e he m w' r' hw'
      rcases List.mem_append.mp he with hnew | hold
      · have hev := (mem_record.mp hnew).2.2
        rw [hw', List.mem_singleton, Event.wrote.injEq] at hev
        rw [Option.some.inj hev.1]
        exact hbegun
      · exact h.past e hold m w' r' hw'
    · intro e he m hm
      rcases List.mem_append.mp he with hnew | hold
      · cases List.mem_singleton.mp (hm ▸ (mem_record.mp hnew).2.2)
      · obtain ⟨hlt, hnone⟩ := h.closed e hold m hm
        have hne : m ≠ n := by
          rintro rfl
          rw [hopen] at hnone
          cases hnone
        exact ⟨hlt, (Function.update_of_ne hne _ _).trans hnone⟩
  | started =>
    -- nobody has written to the new transaction yet
    refine ⟨h.indexed, fun m t' ht' => ?_, fun m t' ht' => ?_, fun e he m w r hw =>
      (h.past e he m w r hw).trans (Nat.lt_succ_self _), fun e he m hm => ?_⟩
    · rcases update_cases ht' with ⟨rfl, -⟩ | ⟨-, hold⟩
      · exact Nat.lt_succ_self _
      · exact (h.begun m t' hold).trans (Nat.lt_succ_self _)
    · rcases update_cases ht' with ⟨rfl, heq⟩ | ⟨-, hold⟩
      · cases heq
        exact ⟨fun subject => Grown.refl _ subject,
          fun e he w docs hw => absurd (h.past e he _ w _ hw) (lt_irrefl _)⟩
      · exact h.ahead m t' hold
    · obtain ⟨hlt, hnone⟩ := h.closed e he m hm
      exact ⟨hlt.trans (Nat.lt_succ_self _), (Function.update_of_ne hlt.ne _ _).trans hnone⟩
  | @committed n t hopen hunconflicted hindexed =>
    refine ⟨hindexed, fun m t' ht' => h.begun m t' (of_update_none ht'), fun m t' ht' =>
      (h.ahead m t' (of_update_none ht')).record fun w r hev => ?_, ?_, ?_⟩
    · cases List.mem_singleton.mp hev
    · intro e he m w r hw
      rcases List.mem_append.mp he with hnew | hold
      · cases List.mem_singleton.mp (hw ▸ (mem_record.mp hnew).2.2)
      · exact h.past e hold m w r hw
    · intro e he m hm
      rcases List.mem_append.mp he with hnew | hold
      · have hev := (mem_record.mp hnew).2.2
        rw [hm, List.mem_singleton] at hev
        cases hev
        exact ⟨h.begun n t hopen, Function.update_self ..⟩
      · obtain ⟨hlt, hnone⟩ := h.closed e hold m hm
        exact ⟨hlt, update_none_of_none hnone⟩
  | aborted n =>
    refine ⟨h.indexed, fun m t' ht' => h.begun m t' (of_update_none ht'),
      fun m t' ht' => h.ahead m t' (of_update_none ht'), h.past, fun e he m hm => ?_⟩
    obtain ⟨hlt, hnone⟩ := h.closed e he m hm
    exact ⟨hlt, update_none_of_none hnone⟩

/-- What has come of the versions `before`: none is lost, and what a caller that has begun
since has raised has risen. -/
structure Since (before : Subject → Option ℕ) (begun : ι → Prop) (s : Store)
    (J : List (Entry ι VersionCall Event)) : Prop where
  versioned : Versioned s J
  grown : ∀ subject, Grown before s.committed.authVersion subject
  direct : ∀ e ∈ J, begun e.caller → ∀ w r, e.event = .wrote none w r → w.Takes r →
    ∀ subject, w.Raises subject → Risen before s.committed.authVersion subject
  committed : ∀ e ∈ J, begun e.caller → ∀ n, e.event = .committed n → ∀ e' ∈ J, ∀ w docs,
    e'.event = .wrote (some n) w (.written docs) → ∀ subject, w.Raises subject →
    Risen before s.committed.authVersion subject

/-- A commit loses no version either. -/
theorem grown_committed {s : Store} {J : List (Entry ι VersionCall Event)} (h : Versioned s J)
    {n : ℕ} {t : Sessions.Transaction Database Document} (hopen : s.transactions n = some t)
    (hu : schema.Unconflicted t s.committed) (subject : Subject) :
    Grown s.committed.authVersion (schema.putAll t.buffer s.committed).authVersion subject := by
  intro version hv
  rcases committed_authVersion hu subject with ⟨hkeep, -⟩ | ⟨hsnapshot, hview⟩
  · exact ⟨version, hkeep.trans hv, le_rfl⟩
  · rw [hview]
    exact (h.ahead n t hopen).grown subject version (hsnapshot.symm.trans hv)

theorem risen_committed {s : Store} {J : List (Entry ι VersionCall Event)} (h : Versioned s J)
    {n : ℕ} {t : Sessions.Transaction Database Document} (hopen : s.transactions n = some t)
    (hu : schema.Unconflicted t s.committed) {e : Entry ι VersionCall Event} (he : e ∈ J)
    {w : Write} {docs : List Document} (hw : e.event = .wrote (some n) w (.written docs))
    {subject : Subject} (hr : w.Raises subject) :
    Risen s.committed.authVersion (schema.putAll t.buffer s.committed).authVersion subject := by
  intro version hv
  obtain ⟨hrisen, version', hversion'⟩ := (h.ahead n t hopen).risen e he w docs hw subject hr
  rcases committed_authVersion hu subject with ⟨-, hsame⟩ | ⟨hsnapshot, hview⟩
  · -- what has risen has been written
    obtain ⟨version'', hversion'', hlt⟩ := hrisen version' (hsame.symm.trans hversion')
    rw [hversion'] at hversion''
    cases hversion''
    exact absurd hlt (lt_irrefl _)
  · rw [hview]
    exact hrisen version (hsnapshot.symm.trans hv)

theorem Since.step {before : Subject → Option ℕ} {begun : ι → Prop} {s s' : Store}
    {J : List (Entry ι VersionCall Event)} {evs : List Event} {i : ι} {call : VersionCall}
    (h : Since before begun s J) (heff : Effect (admitted s) s evs s') :
    Since before begun s' (record i call evs ++ J) := by
  have hversioned : Versioned s' (record i call evs ++ J) := h.versioned.step heff
  -- where nothing is committed and no such event is new, what held still holds
  have still : s'.committed = s.committed → (∀ w r, .wrote none w r ∉ evs) →
      (∀ n, .committed n ∉ evs) → (∀ n w r, .wrote (some n) w r ∈ evs → s.transactions n ≠ none) →
      Since before begun s' (record i call evs ++ J) := by
    intro hsame hdirect hcommitted hopen
    refine ⟨hversioned, fun subject => hsame ▸ h.grown subject, ?_, ?_⟩
    · intro e he hbegun w r hw htakes subject hr
      rw [hsame]
      rcases List.mem_append.mp he with hnew | hold
      · exact absurd (hw ▸ (mem_record.mp hnew).2.2) (hdirect w r)
      · exact h.direct e hold hbegun w r hw htakes subject hr
    · intro e he hbegun n hn e' he' w docs hw subject hr
      rw [hsame]
      rcases List.mem_append.mp he with hnew | hold
      · exact absurd (hn ▸ (mem_record.mp hnew).2.2) (hcommitted n)
      · rcases List.mem_append.mp he' with hnew' | hold'
        · exact absurd (h.versioned.closed e hold n hn).2
            (hopen n w _ (hw ▸ (mem_record.mp hnew').2.2))
        · exact h.committed e hold hbegun n hn e' hold' w docs hw subject hr
  cases heff with
  | read hread =>
    exact still rfl (fun w r hev => hread _ hev) (fun n hev => hread _ hev)
      fun n w r hev => (hread _ hev).elim
  | @wrote w hw =>
    obtain ⟨hsound, hcurrent⟩ := hw
    have hcurrent' : w.Current s.committed := hcurrent _ rfl
    have hgrown := grown_wrote hsound hcurrent'
    refine ⟨hversioned, fun subject => (h.grown subject).trans (hgrown subject), ?_, ?_⟩
    · intro e he hbegun w' r hw' htakes subject hr
      rcases List.mem_append.mp he with hnew | hold
      · have hev := (mem_record.mp hnew).2.2
        rw [hw', List.mem_singleton, Event.wrote.injEq] at hev
        obtain ⟨-, rfl, rfl⟩ := hev
        intro version hv
        obtain ⟨version', hv', hle⟩ := h.grown subject version hv
        have hwritten : ∃ docs, schema.write w' s.committed = .written docs := by
          rcases htakes with hdocs | ⟨subjectType, id, rfl⟩
          · exact hdocs
          · obtain rfl := hr
            exact bump_written h.versioned.indexed hv'
        obtain ⟨docs, hdocs⟩ := hwritten
        exact (h.grown subject).risen (risen_wrote hsound hcurrent' hdocs hr) version hv
      · exact (h.direct e hold hbegun w' r hw' htakes subject hr).grown (hgrown subject)
    · intro e he hbegun n hn e' he' w' docs hw' subject hr
      rcases List.mem_append.mp he with hnew | hold
      · cases List.mem_singleton.mp (hn ▸ (mem_record.mp hnew).2.2)
      · rcases List.mem_append.mp he' with hnew' | hold'
        · cases List.mem_singleton.mp (hw' ▸ (mem_record.mp hnew').2.2)
        · exact (h.committed e hold hbegun n hn e' hold' w' docs hw' subject hr).grown
            (hgrown subject)
  | @wroteIn n w t hw hopen =>
    refine still rfl (fun w r hev => ?_) (fun m hev => ?_) fun m w' r hev => ?_
    · cases List.mem_singleton.mp hev
    · cases List.mem_singleton.mp hev
    · rw [List.mem_singleton, Event.wrote.injEq] at hev
      rw [Option.some.inj hev.1, hopen]
      exact fun h => by cases h
  | started | aborted =>
    exact still rfl (fun _ _ hev => by cases hev) (fun _ hev => by cases hev)
      fun _ _ _ hev => by cases hev
  | @committed n t hopen hunconflicted hindexed =>
    have hgrown := grown_committed h.versioned hopen hunconflicted
    refine ⟨hversioned, fun subject => (h.grown subject).trans (hgrown subject), ?_, ?_⟩
    · intro e he hbegun w r hw htakes subject hr
      rcases List.mem_append.mp he with hnew | hold
      · cases List.mem_singleton.mp (hw ▸ (mem_record.mp hnew).2.2)
      · exact (h.direct e hold hbegun w r hw htakes subject hr).grown (hgrown subject)
    · intro e he hbegun m hm e' he' w docs hw subject hr
      rcases List.mem_append.mp he' with hnew' | hold'
      · cases List.mem_singleton.mp (hw ▸ (mem_record.mp hnew').2.2)
      · rcases List.mem_append.mp he with hnew | hold
        · have hev := (mem_record.mp hnew).2.2
          rw [hm, List.mem_singleton] at hev
          cases hev
          exact (h.grown subject).risen
            (risen_committed h.versioned hopen hunconflicted hold' hw hr)
        · exact (h.committed e hold hbegun m hm e' hold' w docs hw subject hr).grown
            (hgrown subject)

variable {env : Environment} [DecidableEq ι]
  {c c' c'' : Config ι VersionCall Op Store (Except Failure Unit) Event}

theorem Since.runs {before : Subject → Option ℕ} {begun : ι → Prop}
    (w : WellFormed (versionContract ι env) c) (h : Since before begun c.store c.journal)
    (hrun : (versions env).Runs savesCurrent c c') : Since before begun c'.store c'.journal :=
  w.runs_induct (P := Since before begun)
    (fun {_ _ _ _ _ fl _ _ _} _ h _ hlegal hgate heff =>
      h.step (effect_of_admitted fl hlegal hgate heff))
    (fun _ h henv => henv ▸ h) hrun h

/-- Seen from a configuration of a run, with those who have not started yet. -/
theorem since_now (w : WellFormed (versionContract ι env) c) (h : Versioned c.store c.journal) :
    Since c.store.committed.authVersion (fun i => c.threads i = none) c.store c.journal := by
  have hnew : ∀ e ∈ c.journal, c.threads e.caller ≠ none := by
    intro e he hfree
    obtain ⟨th, hth, -⟩ := w.attributed e he
    rw [hfree] at hth
    cases hth
  exact ⟨h, fun subject => Grown.refl _ subject, fun e he hbegun => absurd hbegun (hnew e he),
    fun e he hbegun => absurd hbegun (hnew e he)⟩

theorem wellFormed_of_runs {s : Database} (hs : s.Indexed)
    (hrun : (versions env).Runs savesCurrent (Config.init (.init s)) c) :
    WellFormed (versionContract ι env) c ∧ Versioned c.store c.journal := by
  have w : WellFormed (versionContract ι env) (Config.init (.init s)) := WellFormed.init trivial
  have hinit : Versioned (.init s) ([] : List (Entry ι VersionCall Event)) :=
    ⟨hs, (fun n t h => by cases h), (fun n t h => by cases h), (fun e he => by cases he),
      fun e he => by cases he⟩
  exact ⟨w.runs hrun, ((since_now w hinit).runs w hrun).versioned⟩

/-- Where every save of a version is applied before anybody has passed the version that it was
computed from, no version ever falls, a completed security-relevant change leaves more than it
began with, and a token whose version has once been outdated stays so. -/
theorem authVersions_monotone {s : Database} (hs : s.Indexed)
    (hrun : (versions env).Runs savesCurrent (Config.init (.init s)) c)
    (hrun' : (versions env).Runs savesCurrent c c') :
    (∀ subject version, c.store.committed.authVersion subject = some version →
      ∃ version', c'.store.committed.authVersion subject = some version' ∧ version ≤ version') ∧
    (∀ i th, c.threads i = none → c'.Returns i th (.ok ()) → ∀ subject,
      th.call.Outdates env (own i c'.journal) subject → ∀ version,
      c.store.committed.authVersion subject = some version →
      ∃ version', c'.store.committed.authVersion subject = some version' ∧ version < version') ∧
    ∀ c'', (versions env).Runs savesCurrent c' c'' → ∀ subject version,
      c.store.committed.authVersion subject = some version →
      c'.store.committed.authVersion subject ≠ some version →
      c''.store.committed.authVersion subject ≠ some version := by
  obtain ⟨w, hversioned⟩ := wellFormed_of_runs hs hrun
  have hsince := (since_now w hversioned).runs w hrun'
  have w' := w.runs hrun'
  refine ⟨hsince.grown, fun i th hfree hreturns subject hchange => ?_,
    fun c'' hrun'' subject version hversion hother => ?_⟩
  · have hbegun : ∀ {call ev}, (⟨i, call, ev⟩ : Entry ι VersionCall Event) ∈ c'.journal →
        c.threads (⟨i, call, ev⟩ : Entry ι VersionCall Event).caller = none := fun _ => hfree
    rcases (w'.post_of_returns hreturns) () rfl subject hchange with
      ⟨w, r, hw, hr, htakes⟩ | ⟨n, hn, w, docs, hw, hr⟩
    · obtain ⟨call, hmem⟩ := mem_own.mp hw
      exact hsince.direct _ hmem (hbegun hmem) w r rfl htakes subject hr
    · obtain ⟨call, hmem⟩ := mem_own.mp hn
      obtain ⟨call', hmem'⟩ := mem_own.mp hw
      exact hsince.committed _ hmem (hbegun hmem) n rfl _ hmem' w docs rfl subject hr
  · obtain ⟨version', hversion', hle⟩ := hsince.grown subject version hversion
    have hsince' := (since_now w' hsince.versioned).runs w' hrun''
    obtain ⟨version'', hversion'', hle'⟩ := hsince'.grown subject version' hversion'
    have hlt : version < version' := by
      refine lt_of_le_of_ne hle ?_
      rintro rfl
      exact hother hversion'
    rw [hversion'']
    rintro ⟨⟩
    exact absurd hlt (not_lt.mpr hle')

end Runs

section Schedules

abbrev VersionRun := Config ℕ VersionCall Op Store (Except Failure Unit) Event

/-- `Write.Current`, checked. -/
def checksVersion (s : Database) : Write → Bool
  | .saveStaffUser loaded now => decide (now.authVersion = loaded.authVersion) ||
    (s.authVersion (.staff, loaded.id)).all fun version =>
      decide (version ≤ loaded.authVersion.getD 0)
  | .saveMember loaded now => decide (now.authVersion = loaded.authVersion) ||
    (s.authVersion (.member, loaded.id)).all fun version =>
      decide (version ≤ loaded.authVersion.getD 0)
  | _ => true

theorem current_of_checks {s : Database} {w : Write} (h : checksVersion s w = true) :
    w.Current s := by
  cases w with
  | saveStaffUser loaded now | saveMember loaded now =>
    intro hne version hversion
    rw [checksVersion, hversion, decide_eq_false hne] at h
    exact of_decide_eq_true h
  | _ => trivial

/-- `savesCurrent`, checked. -/
def checksCurrent (_ : ℕ) (β : Type) (op : Op β) (applied : Bool) (s : Store)
    (_ : List (Entry ℕ VersionCall Event)) : Bool :=
  match β, op, applied with
  | _, .inr (.inl (.write session w)), true => (schema.view s session).all (checksVersion · w)
  | _, _, _ => true

theorem savesCurrent_of_checks {i : ℕ} {β : Type} {op : Op β} {applied : Bool} {s : Store}
    {J : List (Entry ℕ VersionCall Event)} (h : checksCurrent i β op applied s J = true) :
    savesCurrent i β op applied s J := by
  rcases op with q | c | x
  · trivial
  · cases c with
    | write session w =>
      cases applied with
      | true =>
        intro v hv
        have hcheck : (schema.view s session).all (checksVersion · w) = true := h
        rw [hv] at hcheck
        exact current_of_checks hcheck
      | false => trivial
    | _ => trivial
  · trivial

def currentDriver : Driver (versions plain) (savesCurrent : Gate ℕ _ _ _ _) Choice :=
  driver _ checksCurrent savesCurrent_of_checks

def versionDriver : Driver (versions plain) (anyCall : Gate ℕ _ _ _ _) Choice :=
  driver _ (fun _ _ _ _ _ _ => true) fun _ => anyCall_pass

def suspends : VersionCall :=
  .updateMember ⟨none, none, none, none, some .suspended, none⟩ none memberId.1

/-- The member is suspended, and then the sessions are outdated once more. -/
theorem authVersions_monotone_run : ∃ c c' : VersionRun,
    (versions plain).Runs savesCurrent (Config.init (.init oneMember)) c ∧
    (versions plain).Runs savesCurrent c c' ∧
    c.store.committed.authVersion (.member, memberId.1) = some 1 ∧
    ∃ version', c'.store.committed.authVersion (.member, memberId.1) = some version' ∧
      1 < version' := by
  have hrun : ((currentDriver.play (Config.init (.init oneMember)) [.start 1 suspends, go 1, go 1]).bind
      fun c => (currentDriver.play c [.start 2 (.bumpMember memberId.1), go 2]).map fun c' =>
        (c.store.committed.authVersion (.member, memberId.1), (c.threads 2).isNone,
          c'.result 2)) =
      some (some 1, true, some (.bumpMember memberId.1, .ok ())) := by
    decide +kernel
  obtain ⟨c, hplay, hrest⟩ := Option.bind_eq_some_iff.mp hrun
  obtain ⟨c', hplay', hview⟩ := Option.map_eq_some_iff.mp hrest
  obtain ⟨hversion, hview⟩ := Prod.mk.inj hview
  obtain ⟨hfree, hresult⟩ := Prod.mk.inj hview
  obtain ⟨th, hreturns, hcall⟩ := Config.returns_of_result hresult
  have hruns := Driver.play_runs hplay
  have hruns' := Driver.play_runs hplay'
  have hindexed : oneMember.Indexed := by decide
  refine ⟨c, c', hruns, hruns', hversion, ?_⟩
  refine (authVersions_monotone hindexed hruns hruns').2.1 2 th
    (Option.isNone_iff_eq_none.mp hfree) hreturns _ ?_ 1 hversion
  rw [hcall]
  exact ⟨memberId, by decide +kernel, rfl⟩

/-- A suspension has read version 0 when two increments complete; its save takes the account
back to version 1, which the second of them had outdated. -/
theorem authVersions_not_monotone : ∃ c c' c'' : VersionRun,
    (versions plain).Runs anyCall (Config.init (.init oneMember)) c ∧
    (versions plain).Runs anyCall c c' ∧ (versions plain).Runs anyCall c' c'' ∧
    c.threads 3 = none ∧ c.store.committed.authVersion (.member, memberId.1) = some 1 ∧
    c'.result 3 = some (.bumpMember memberId.1, .ok ()) ∧
    c'.store.committed.authVersion (.member, memberId.1) = some 2 ∧
    c''.store.committed.authVersion (.member, memberId.1) = some 1 := by
  have hrun : ((versionDriver.play (Config.init (.init oneMember))
      [.start 1 suspends, go 1, .start 2 (.bumpMember memberId.1), go 2]).bind fun c =>
      (versionDriver.play c [.start 3 (.bumpMember memberId.1), go 3]).bind fun c' =>
        (versionDriver.play c' [go 1]).map fun c'' =>
          (c'.result 3, (c.threads 3).isNone,
            [c, c', c''].map fun c => c.store.committed.authVersion (.member, memberId.1))) =
      some (some (.bumpMember memberId.1, .ok ()), true, [some 1, some 2, some 1]) := by
    decide +kernel
  obtain ⟨c, hplay, hrest⟩ := Option.bind_eq_some_iff.mp hrun
  obtain ⟨c', hplay', hrest⟩ := Option.bind_eq_some_iff.mp hrest
  obtain ⟨c'', hplay'', hview⟩ := Option.map_eq_some_iff.mp hrest
  simp only [Prod.mk.injEq, List.map_cons, List.map_nil, List.cons.injEq] at hview
  obtain ⟨hresult, hfree, hone, htwo, hfall, -⟩ := hview
  exact ⟨c, c', c'', Driver.play_runs hplay, Driver.play_runs hplay', Driver.play_runs hplay'',
    Option.isNone_iff_eq_none.mp hfree, hone, hresult, htwo, hfall⟩

end Schedules

end Accounts
