import BookLibrary.Migrations.Idempotence

/-!
# The identifiers of the sign-in

Staff users are found by their e-mail address, members by their login identifier, their member
number in capitals or their e-mail address. The backfill collects fewer fields: an e-mail
address of a member is none of them.
-/

namespace Migrations

open AuthIdentifiers Documents Interleaving

section Finders

variable (env : Environment)

/-- `normalizeEmail` and `normalizeLoginIdentifier` of the services. -/
def normalizeSignIn (identifier : String) : String :=
  env.toLowerCase (env.trim identifier)

/-- The filter of `findByEmailWithPassword`. -/
def findsStaff (email : String) (d : LegacyAccountDocument) : Prop :=
  d.email = some (normalizeSignIn env email)

/-- The filter of `findByLoginIdentifierWithPassword`. -/
def findsMember (toUpperCase : String → String) (loginIdentifier : String)
    (d : LegacyAccountDocument) : Prop :=
  d.loginIdentifier = some (normalizeSignIn env loginIdentifier) ∨
    d.memberNumber = some (toUpperCase (env.trim loginIdentifier)) ∨
    d.email = some (normalizeSignIn env loginIdentifier)

/-- An account can be found by the identifier. -/
inductive Finds (toUpperCase : String → String) (s : Database) (identifier : String) :
    AuthIdentifierSubjectReference → Prop where
  | staff {d : LegacyAccountDocument} (stored : d ∈ s.staffusers)
      (found : findsStaff env identifier d) : Finds toUpperCase s identifier ⟨.staff, d.id⟩
  | member {d : LegacyAccountDocument} (stored : d ∈ s.members)
      (found : findsMember env toUpperCase identifier d) :
      Finds toUpperCase s identifier ⟨.member, d.id⟩

end Finders

/-- The reservation is active for the account, or a conflict that lists it. -/
def Covers (d : AuthIdentifier) (account : AuthIdentifierSubjectReference) : Prop :=
  d.status = .active ∧ d.subjectType = some account.subjectType ∧
      d.subjectId = some account.subjectId ∨
    d.status = .conflict ∧ ∃ claimants, d.conflictingSubjects = some claimants ∧
      account ∈ claimants

/-- A store of before: nothing is reserved. -/
structure Database.Legacy (s : Database) : Prop where
  indexed : s.Indexed
  unreserved : s.authIdentifiers = []
  members : (s.members.map (·.id)).Nodup

section Coverage

variable (env : Environment) (toUpperCase : String → String)

/-- Every identifier by which an account can be found has a reservation that covers it. -/
def AllCovered (s w : Database) : Prop :=
  ∀ identifier account, normalizeSignIn env identifier ≠ "" →
    Finds env toUpperCase s identifier account →
    ∃ d ∈ w.authIdentifiers, d.normalizedIdentifier = normalizeSignIn env identifier ∧
      Covers d account

/-- A member has the identifier in one of the fields that are collected. -/
def Carries (d : LegacyAccountDocument) (n : String) : Prop :=
  normalizeIdentifier env d.loginIdentifier = some n ∨
    normalizeIdentifier env d.memberNumber = some n

/-- The e-mail addresses of members are among their collected fields, and so is every identifier
that in capitals is the number of a member. -/
structure Collected (s : Database) : Prop where
  email : ∀ d ∈ s.members, ∀ identifier, normalizeSignIn env identifier ≠ "" →
    d.email = some (normalizeSignIn env identifier) → Carries env d (normalizeSignIn env identifier)
  memberNumber : ∀ d ∈ s.members, ∀ identifier, normalizeSignIn env identifier ≠ "" →
    d.memberNumber = some (toUpperCase (env.trim identifier)) →
    Carries env d (normalizeSignIn env identifier)

variable {env toUpperCase} {s v w : Database}

/-- An identifier is covered exactly for the accounts that use it. -/
theorem covered_iff_uses (h : Backfilled env s w) (hnone : s.authIdentifiers = []) {n : String}
    {account : AuthIdentifierSubjectReference} :
    (∃ d ∈ w.authIdentifiers, d.normalizedIdentifier = n ∧ Covers d account) ↔
      Uses env s n account := by
  have hnew : ∀ d ∈ w.authIdentifiers, Reserves env s d := by
    intro d hd
    rcases h.inserted d hd with hold | ⟨-, hreserves, -⟩
    · rw [hnone] at hold
      cases hold
    · exact hreserves
  constructor
  · rintro ⟨d, hd, rfl, hcovers⟩
    cases hnew d hd with
    | active subject only status owner =>
      rcases hcovers with ⟨-, htype, hid⟩ | ⟨hconflict, -⟩
      · rw [owner.1, Option.some.injEq] at htype
        rw [owner.2, Option.some.injEq] at hid
        refine (only account).mpr ?_
        cases subject
        cases account
        simp_all
      · rw [status] at hconflict
        cases hconflict
    | conflict claimants several once exact status owner lists =>
      rcases hcovers with ⟨hactive, -⟩ | ⟨-, claimants', hlists, hmem⟩
      · rw [status] at hactive
        cases hactive
      · rw [lists, Option.some.injEq] at hlists
        exact (exact account).mp (hlists ▸ hmem)
  · intro huses
    obtain ⟨d, hd, rfl⟩ := h.reserved n account huses
    refine ⟨d, hd, rfl, ?_⟩
    cases hnew d hd with
    | active subject only status owner =>
      obtain rfl := (only account).mp huses
      exact .inl ⟨status, owner⟩
    | conflict claimants several once exact status owner lists =>
      exact .inr ⟨status, claimants, lists, (exact account).mpr huses⟩

/-- A member uses an identifier through its own fields. -/
theorem uses_member_iff (hids : (s.members.map (·.id)).Nodup) {d : LegacyAccountDocument}
    (hd : d ∈ s.members) {n : String} : Uses env s n ⟨.member, d.id⟩ ↔ Carries env d n := by
  have hsame : ∀ {d'}, d' ∈ s.members → d'.id = d.id → d' = d := fun hd' hid =>
    List.inj_on_of_nodup_map hids hd' hd hid
  constructor
  · intro h
    generalize haccount : (⟨.member, d.id⟩ : AuthIdentifierSubjectReference) = account at h
    cases h with
    | email => cases haccount
    | loginIdentifier stored carries =>
      obtain rfl := hsame stored (AuthIdentifierSubjectReference.mk.inj haccount).2.symm
      exact .inl carries
    | memberNumber stored carries =>
      obtain rfl := hsame stored (AuthIdentifierSubjectReference.mk.inj haccount).2.symm
      exact .inr carries
  · rintro (hlogin | hnumber)
    · exact .loginIdentifier hd hlogin
    · exact .memberNumber hd hnumber

/-- After the backfill every identifier of the sign-in is covered exactly if every field by which
members are found is collected. -/
theorem backfill_covers (hs : s.Legacy)
    (hnormal : ∀ x, normalizeSignIn env (normalizeSignIn env x) = normalizeSignIn env x)
    (hattempts : Attempts env s v) (hrun : Run env v w (.ok ())) :
    AllCovered env toUpperCase s w ↔ Collected env toUpperCase s := by
  have hbackfilled := backfilled_of_run hs.indexed hattempts hrun
  have hcarried : ∀ {identifier value}, normalizeSignIn env identifier ≠ "" →
      value = some (normalizeSignIn env identifier) →
      normalizeIdentifier env value = some (normalizeSignIn env identifier) := by
    rintro identifier _ hne rfl
    have hvalue : env.toLowerCase (env.trim (normalizeSignIn env identifier)) =
        normalizeSignIn env identifier := hnormal identifier
    rw [normalizeIdentifier]
    simp only [hvalue, if_neg hne]
  simp only [AllCovered, covered_iff_uses hbackfilled hs.unreserved]
  constructor
  · intro h
    refine ⟨fun d hd identifier hne hemail => ?_, fun d hd identifier hne hnumber => ?_⟩
    · exact (uses_member_iff hs.members hd).mp
        (h identifier _ hne (.member hd (.inr (.inr hemail))))
    · exact (uses_member_iff hs.members hd).mp
        (h identifier _ hne (.member hd (.inr (.inl hnumber))))
  · intro h identifier account hne hfinds
    cases hfinds with
    | staff stored found => exact .email stored (hcarried hne found)
    | member stored found =>
      refine (uses_member_iff hs.members stored).mpr ?_
      rcases found with hlogin | hnumber | hemail
      · exact .inl (hcarried hne hlogin)
      · exact h.memberNumber _ stored identifier hne hnumber
      · exact h.email _ stored identifier hne hemail

end Coverage

section Execution

/-- A staff user, and a member whose e-mail address is the login identifier too. -/
def collected : Database where
  staffusers := [⟨"s1", some "ada", none, none⟩]
  members := [⟨"m1", some "eve", some "eve", some "1001"⟩]
  authIdentifiers := []
  securityActivityEvents := []

/-- A run whose calls all answer, with the new object ids one after another. -/
def answering (ids : List String) : List (Fate String) :=
  [.reply "", .reply "", .reply ""] ++ ids.flatMap fun id => [.reply id, .reply ""]

theorem collected_collected : Collected plain id collected where
  email d hd identifier _ hemail := by
    obtain rfl := List.mem_singleton.mp hd
    obtain rfl : "eve" = identifier := Option.some.inj hemail
    exact .inl (by decide)
  memberNumber d hd identifier _ hnumber := by
    obtain rfl := List.mem_singleton.mp hd
    obtain rfl : "1001" = identifier := Option.some.inj hnumber
    exact .inr (by decide)

theorem backfill_covers_collected : ∃ w, Run plain collected w (.ok ()) ∧
    AllCovered plain id collected w := by
  have hruns : ((runOf (answering ["i1", "i2", "i3"]) collected).map shown) =
      some (true, [("eve", .active), ("ada", .active), ("1001", .active)], []) := by
    decide +kernel
  obtain ⟨⟨r, w⟩, hrun, hshown⟩ := Option.map_eq_some_iff.mp hruns
  cases r with
  | error e => cases hshown
  | ok u =>
    have hlegacy : collected.Legacy := ⟨by decide, rfl, by decide⟩
    exact ⟨w, run_of_runOf hrun, (backfill_covers hlegacy (fun _ => rfl) .refl
      (run_of_runOf hrun)).mpr collected_collected⟩

/-- A member with an e-mail address and no login identifier. -/
def uncollected : Database where
  staffusers := []
  members := [⟨"m1", some "eve", none, some "1001"⟩]
  authIdentifiers := []
  securityActivityEvents := []

/-- The e-mail address is left without a reservation. -/
theorem backfill_uncovered : ∃ w, Run plain uncollected w (.ok ()) ∧
    ¬ AllCovered plain id uncollected w := by
  have hruns : ((runOf (answering ["i1"]) uncollected).map shown) =
      some (true, [("1001", .active)], []) := by decide +kernel
  obtain ⟨⟨r, w⟩, hrun, hshown⟩ := Option.map_eq_some_iff.mp hruns
  cases r with
  | error e => cases hshown
  | ok u =>
    refine ⟨w, run_of_runOf hrun, fun h => ?_⟩
    have hfinds : Finds plain id uncollected "eve" ⟨.member, "m1"⟩ :=
      @Finds.member plain id uncollected "eve" ⟨"m1", some "eve", none, some "1001"⟩
        List.mem_cons_self (.inr (.inr rfl))
    obtain ⟨d, hd, hname, -⟩ := h "eve" _ (by decide) hfinds
    have hnames : w.authIdentifiers.map (·.normalizedIdentifier) = ["1001"] := by
      have hpairs := congrArg (fun x => x.2.1.map Prod.fst) hshown
      simpa [shown, Function.comp_def] using hpairs
    have hmem := List.mem_map_of_mem (f := (·.normalizedIdentifier)) hd
    rw [hnames, hname] at hmem
    exact absurd hmem (by decide)

end Execution

end Migrations
