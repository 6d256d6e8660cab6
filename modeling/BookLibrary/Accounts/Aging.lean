import BookLibrary.Accounts.AuthVersions
import BookLibrary.Interleaving.Steady

/-!
# Staff accounts over time

What the account services do to the staff when nobody else works on the accounts: no
account goes, no version falls, and where a version stays the permissions do too.
-/

namespace Accounts

open AuthIdentifiers Documents Interleaving SignIn

/-- The account of the staff with the id. -/
def account (users : List StaffUser) (id : String) : Option StaffUser :=
  users.find? fun d => decide (d.id = id)

/-- A later state of an account: where the version is the same, so is what is permitted. -/
structure Succeeds (d d' : StaffUser) : Prop where
  version : d.authVersion.getD 0 ≤ d'.authVersion.getD 0
  permissions : d'.authVersion.getD 0 = d.authVersion.getD 0 →
    permissionsForStaffRoles d.roles ⊆ permissionsForStaffRoles d'.roles

theorem Succeeds.refl (d : StaffUser) : Succeeds d d := ⟨le_rfl, fun _ => List.Subset.refl _⟩

theorem Succeeds.of_lt {d d' : StaffUser} (h : d.authVersion.getD 0 < d'.authVersion.getD 0) :
    Succeeds d d' := ⟨h.le, fun heq => absurd heq h.ne'⟩

theorem Succeeds.congr {d d' d'' : StaffUser} (h : Succeeds d d')
    (hversion : d''.authVersion = d'.authVersion) (hroles : d''.roles = d'.roles) :
    Succeeds d d'' := by
  refine ⟨?_, ?_⟩
  · rw [hversion]
    exact h.version
  · rw [hversion, hroles]
    exact h.permissions

theorem Succeeds.trans {d d' d'' : StaffUser} (h : Succeeds d d') (h' : Succeeds d' d'') :
    Succeeds d d'' where
  version := h.version.trans h'.version
  permissions heq := by
    have hmid : d'.authVersion.getD 0 = d.authVersion.getD 0 :=
      le_antisymm (heq ▸ h'.version) h.version
    exact List.Subset.trans (h.permissions hmid) (h'.permissions (heq.trans hmid.symm))

/-- No account goes, each succeeds what it was, and those that come have ids of the database. -/
structure Ages (users users' : List StaffUser) : Prop where
  accounts : ∀ id d, account users id = some d →
    ∃ d', account users' id = some d' ∧ Succeeds d d'
  ids : ∀ id d, account users id = none → account users' id = some d → isCanonicalId id = true

theorem Ages.refl (users : List StaffUser) : Ages users users where
  accounts _ d h := ⟨d, h, .refl d⟩
  ids id d hnone h := by
    rw [hnone] at h
    cases h

theorem Ages.trans {users users' users'' : List StaffUser} (h : Ages users users')
    (h' : Ages users' users'') : Ages users users'' where
  accounts id d hd := by
    obtain ⟨d', hd', hs⟩ := h.accounts id d hd
    obtain ⟨d'', hd'', hs'⟩ := h'.accounts id d' hd'
    exact ⟨d'', hd'', hs.trans hs'⟩
  ids id d hnone hd := by
    cases hmid : account users' id with
    | none => exact h'.ids id d hmid hd
    | some d' => exact h.ids id d' hnone hmid

section Effects

variable {v : Database}

/-- One of the documents taken in is the account, or it is as it was. -/
theorem account_putAll (docs : List Document) (v : Database) (id : String) :
    (∃ d, .staffUser d ∈ docs ∧ d.id = id ∧
      account (schema.putAll docs v).staffUsers id = some d) ∨
    account (schema.putAll docs v).staffUsers id = account v.staffUsers id := by
  induction docs with
  | nil => exact .inr rfl
  | cons d docs ih =>
    have hrest : account (schema.putAll (d :: docs) v).staffUsers id =
        account (schema.putAll docs v).staffUsers id →
        (∃ d', .staffUser d' ∈ d :: docs ∧ d'.id = id ∧
          account (schema.putAll (d :: docs) v).staffUsers id = some d') ∨
        account (schema.putAll (d :: docs) v).staffUsers id = account v.staffUsers id := by
      intro hsame
      rw [hsame]
      rcases ih with ⟨d', hmem, hid, hd'⟩ | hold
      · exact .inl ⟨d', List.mem_cons_of_mem _ hmem, hid, hd'⟩
      · exact .inr hold
    cases d with
    | staffUser d =>
      have hput := Database.staffUser_put (s := schema.putAll docs v) d id
      by_cases hid : d.id = id
      · rw [if_pos hid] at hput
        exact .inl ⟨d, List.mem_cons_self, hid, hput⟩
      · rw [if_neg hid] at hput
        exact hrest hput
    | _ => exact hrest rfl

/-- What a write sends for an account of the staff succeeds what is stored. -/
def Write.Heeds (users : List StaffUser) (w : Write) : Prop :=
  ∀ v : Database, v.staffUsers = users → ∀ d, .staffUser d ∈ (schema.write w v).docs →
    match account users d.id with
    | some stored => Succeeds stored d
    | none => isCanonicalId d.id = true

theorem ages_wrote {w : Write} (h : w.Heeds v.staffUsers) :
    Ages v.staffUsers (v.wrote w).staffUsers := by
  constructor
  · intro id stored hstored
    rcases account_putAll (schema.write w v).docs v id with ⟨d, hd, rfl, haccount⟩ | hsame
    · have hheeds := h v rfl d hd
      rw [hstored] at hheeds
      exact ⟨d, haccount, hheeds⟩
    · exact ⟨stored, hsame.trans hstored, .refl stored⟩
  · intro id d hnone hd
    rcases account_putAll (schema.write w v).docs v id with ⟨d', hd', rfl, -⟩ | hsame
    · have hheeds := h v rfl d' hd'
      rw [hnone] at hheeds
      exact hheeds
    · rw [← hsame] at hnone
      exact absurd (hnone.symm.trans hd) nofun

/-- The write concerns no account of the staff. -/
def Write.SparesStaff : Write → Prop
  | .insertStaffUser _ => False
  | .saveStaffUser .. => False
  | .bumpAuthVersion .staff _ => False
  | .setAccountIdentifier .staff .. => False
  | _ => True

def Document.isStaff : Document → Bool
  | .staffUser _ => true
  | _ => false

theorem staffUsers_putAll {docs : List Document} (h : ∀ d ∈ docs, d.isStaff = false) :
    (schema.putAll docs v).staffUsers = v.staffUsers := by
  induction docs with
  | nil => rfl
  | cons d docs ih =>
    have hrest := ih fun d' hd' => h d' (List.mem_cons_of_mem _ hd')
    cases d with
    | staffUser d => cases h _ List.mem_cons_self
    | _ => exact hrest

theorem isStaff_insert {d new : Document} (hnew : new.isStaff = false)
    (hd : d ∈ (v.insert new).docs) : d.isStaff = false := by
  rw [Database.insert] at hd
  split at hd
  · cases hd
  · rw [List.mem_singleton.mp hd]
    exact hnew

theorem isStaff_update {D : Type} {wrap : D → Document} {p : D → Bool} {f : D → D} {docs : List D}
    {d : Document} (hwrap : ∀ x, (wrap x).isStaff = false)
    (hd : d ∈ (Database.update wrap p f docs).docs) : d.isStaff = false := by
  rw [Database.update] at hd
  split at hd
  · rw [List.mem_singleton.mp hd]
    exact hwrap _
  · cases hd

theorem staffUsers_wrote {w : Write} (h : w.SparesStaff) : (v.wrote w).staffUsers = v.staffUsers := by
  refine staffUsers_putAll fun d hd => ?_
  rcases docs_write w v with hnil | hw
  · rw [hnil] at hd
    cases hd
  rw [hw] at hd
  cases w with
  | insertStaffUser | saveStaffUser => exact h.elim
  | insertMember | insertIdentifier | recordActivity => exact isStaff_insert rfl hd
  | saveMember | claimReleased | releaseIdentifier => exact isStaff_update (fun _ => rfl) hd
  | bumpAuthVersion subjectType | setAccountIdentifier subjectType =>
    cases subjectType with
    | staff => exact h.elim
    | member => exact isStaff_update (fun _ => rfl) hd
  | revokeFamilies =>
    obtain ⟨f, -, rfl⟩ := List.mem_map.mp hd
    rfl

theorem mem_updateStaff {f : StaffUser → StaffUser} {id : String} {d : Document}
    (hd : d ∈ (Database.update .staffUser (fun d => decide (d.id = id)) f v.staffUsers).docs) :
    ∃ stored, account v.staffUsers id = some stored ∧ d = .staffUser (f stored) := by
  rw [Database.update] at hd
  split at hd
  · next stored hstored => exact ⟨stored, hstored, List.mem_singleton.mp hd⟩
  · cases hd

theorem id_of_account {users : List StaffUser} {id : String} {d : StaffUser}
    (h : account users id = some d) : d.id = id := by
  simpa using List.find?_some h

theorem heeds_insert (users : List StaffUser) {new : StaffUser} (hid : isCanonicalId new.id = true) :
    (Write.insertStaffUser new).Heeds users := by
  rintro v rfl d hd
  rcases docs_write (.insertStaffUser new) v with hnil | hw
  · rw [hnil] at hd
    cases hd
  rw [hw] at hd
  have haccount : (Document.staffUser d).account = some ((.staff, d.id), d.authVersion.getD 0) := rfl
  have hnone : v.authVersion (.staff, d.id) = none := account_insert hd haccount
  cases hfind : account v.staffUsers d.id with
  | some stored =>
    rw [authVersion_staff hfind] at hnone
    cases hnone
  | none =>
    have hnew : .staffUser d ∈ (v.insert (.staffUser new)).docs := hd
    rw [Database.insert] at hnew
    split at hnew
    · cases hnew
    · cases List.mem_singleton.mp hnew
      exact hid

/-- What an update of one account leaves succeeds what it was. -/
theorem heeds_update {users : List StaffUser} {w : Write} {id : String} {f : StaffUser → StaffUser}
    (hw : ∀ v : Database, v.unchecked w =
      Database.update .staffUser (fun d => decide (d.id = id)) f v.staffUsers)
    (hid : ∀ d, (f d).id = d.id)
    (h : ∀ stored, account users id = some stored → Succeeds stored (f stored)) :
    w.Heeds users := by
  rintro v rfl d hd
  rcases docs_write w v with hnil | hunchecked
  · rw [hnil] at hd
    cases hd
  rw [hunchecked, hw] at hd
  obtain ⟨stored, hstored, hd⟩ := mem_updateStaff hd
  cases hd
  rw [hid, id_of_account hstored, hstored]
  exact h stored hstored

theorem heeds_bump (users : List StaffUser) (id : String) :
    (Write.bumpAuthVersion .staff id).Heeds users :=
  heeds_update (fun _ => rfl) (fun _ => rfl) fun _ _ => .of_lt (lt_incremented _)

/-- What a save leaves of an account. -/
theorem heeds_save {users : List StaffUser} {loaded now : StaffUser}
    (h : ∀ stored, account users loaded.id = some stored →
      Succeeds stored (StaffUser.saved loaded now stored)) :
    (Write.saveStaffUser loaded now).Heeds users :=
  heeds_update (fun _ => rfl) (fun _ => rfl) h

/-- The stored version is at most this. -/
def Behind (users : List StaffUser) (id : String) (version : ℕ) : Prop :=
  ∀ d, account users id = some d → d.authVersion.getD 0 ≤ version

theorem heeds_raise {users : List StaffUser} {loaded now : StaffUser}
    (hbehind : Behind users loaded.id (loaded.authVersion.getD 0))
    (hlt : loaded.authVersion.getD 0 < now.authVersion.getD 0) :
    (Write.saveStaffUser loaded now).Heeds users :=
  heeds_save fun stored hstored =>
    .of_lt ((sent_authVersion (.inr hlt) fun _ => hbehind stored hstored).2 hlt)

theorem behind_save {loaded now : StaffUser}
    (hbehind : Behind v.staffUsers loaded.id (loaded.authVersion.getD 0))
    (hlt : loaded.authVersion.getD 0 < now.authVersion.getD 0) :
    Behind (v.wrote (.saveStaffUser loaded now)).staffUsers loaded.id (now.authVersion.getD 0) := by
  intro d hd
  rcases account_putAll (schema.write (.saveStaffUser loaded now) v).docs v loaded.id with
    ⟨d', hmem, -, hd'⟩ | hsame
  · obtain rfl : d' = d := Option.some.inj (hd'.symm.trans hd)
    rcases docs_write (.saveStaffUser loaded now) v with hnil | hw
    · rw [hnil] at hmem
      cases hmem
    rw [hw] at hmem
    obtain ⟨stored, -, hdoc⟩ := mem_updateStaff hmem
    cases hdoc
    have hne : now.authVersion ≠ loaded.authVersion := by
      intro heq
      rw [heq] at hlt
      exact lt_irrefl _ hlt
    show (sent loaded.authVersion now.authVersion stored.authVersion).getD 0 ≤ _
    rw [sent, if_neg hne]
  · exact (hbehind d (hsame.symm.trans hd)).trans hlt.le

theorem saved_self (now stored : StaffUser) : StaffUser.saved now now stored = stored := by
  simp [StaffUser.saved]

end Effects

end Accounts
