import BookLibrary.Membership.Execution
import BookLibrary.SignIn.Execution

/-!
# The borrowing limit of edited members

Lending trusts the counter of a member, and the account service writes it. As long as
an edit sets a counter to the number of open loans, the limits are kept.
-/

namespace Membership

open Documents Interleaving Transactions

variable {env : SignIn.Environment} {lib lib' lib₀ : Library}

section Borrowers

variable {m m' : Accounts.Member} {b : Circulation.Member}

theorem borrower_eq_some : borrower m = some b ↔
    ∃ membershipTypeId, ObjectId.parse m.id = some b.id ∧
      ObjectId.parse m.membershipTypeId = some membershipTypeId ∧
      b = ⟨b.id, m.memberNumber, m.fullName, membershipTypeId, memberStatus m.status,
        m.activeLoanCount, m.updatedBy⟩ := by
  unfold borrower
  split
  · next id membershipTypeId hid htype =>
    constructor
    · intro h
      cases h
      exact ⟨membershipTypeId, hid, htype, rfl⟩
    · rintro ⟨membershipTypeId', hid', htype', hb⟩
      rw [hid, Option.some.injEq] at hid'
      rw [htype, Option.some.injEq] at htype'
      rw [hb, hid', htype']
  · next hnone =>
    constructor
    · intro h
      cases h
    · rintro ⟨membershipTypeId, hid, htype, -⟩
      exact absurd htype (hnone _ _ hid)

/-- Lending sees the member, under its own id. -/
def Visible (m : Accounts.Member) : Prop :=
  (∃ id : ObjectId, m.id = id.1) ∧
    ∃ membershipTypeId : ObjectId, ObjectId.parse m.membershipTypeId = some membershipTypeId

theorem Visible.borrower (h : Visible m) : ∃ b, borrower m = some b ∧ m.id = b.id.1 ∧
    b.activeLoanCount = m.activeLoanCount := by
  obtain ⟨⟨id, hid⟩, membershipTypeId, htype⟩ := h
  have hparse : ObjectId.parse m.id = some id := by rw [hid, ObjectId.parse_text]
  refine ⟨⟨id, m.memberNumber, m.fullName, membershipTypeId, memberStatus m.status,
    m.activeLoanCount, m.updatedBy⟩, ?_, hid, rfl⟩
  exact borrower_eq_some.mpr ⟨membershipTypeId, hparse, htype, rfl⟩

theorem borrower_id (h : Visible m) (hb : borrower m = some b) : m.id = b.id.1 := by
  obtain ⟨b', hb', hid, -⟩ := h.borrower
  rw [hb, Option.some.injEq] at hb'
  rw [hid, hb']

theorem borrower_count (hb : borrower m = some b) : b.activeLoanCount = m.activeLoanCount := by
  obtain ⟨_, -, -, heq⟩ := borrower_eq_some.mp hb
  rw [heq]

theorem visible_unlent : Visible (unlent m) ↔ Visible m := Iff.rfl

theorem id_of_unlent (h : unlent m' = unlent m) : m'.id = m.id := by
  have hid : (unlent m').id = (unlent m).id := by rw [h]
  exact hid

end Borrowers

/-- What every request keeps of the library, edits of counters aside. -/
structure Ordered (lib : Library) : Prop where
  accounts : lib.accounts.Indexed
  books : (lib.books.map (·.id)).Nodup
  borrowings : (lib.borrowings.map (·.id)).Nodup
  membershipTypes : (lib.lending.membershipTypes.map (·.id)).Nodup
  visible : ∀ m ∈ lib.accounts.members, Visible m
  borrowed : ∀ loan ∈ lib.borrowings, loan.isOpen = true →
    ∃ m ∈ lib.accounts.members, m.id = loan.memberId.1

/-- Lending sees every member once. -/
theorem borrowers_nodup {members : List Accounts.Member} (hvisible : ∀ m ∈ members, Visible m)
    (hnodup : (members.map (·.id)).Nodup) : ((members.filterMap borrower).map (·.id)).Nodup := by
  have hids : (members.filterMap borrower).map (·.id.1) = members.map (·.id) := by
    clear hnodup
    induction members with
    | nil => rfl
    | cons m members ih =>
      obtain ⟨b, hb, hid, -⟩ := (hvisible m List.mem_cons_self).borrower
      rw [List.filterMap_cons_some hb, List.map_cons, List.map_cons, hid,
        ih fun m' hm' => hvisible m' (List.mem_cons_of_mem _ hm')]
  refine List.Nodup.of_map Subtype.val ?_
  rw [List.map_map]
  exact hids ▸ hnodup

theorem Ordered.lending (h : Ordered lib) : lib.lending.Indexed :=
  ⟨h.books, borrowers_nodup h.visible h.accounts.members, h.membershipTypes, h.borrowings⟩

section Counts

theorem memberLoans_eq (id : ObjectId) : lib.lending.memberLoans id = lib.openLoans id.1 := by
  simp only [Circulation.Database.memberLoans, Circulation.Database.openLoans, Library.openLoans,
    Library.lending, Subtype.ext_iff]

/-- The counters are right if lending finds them so. -/
theorem counted_iff (hvisible : ∀ m ∈ lib.accounts.members, Visible m) :
    Circulation.MembersCounted lib.lending ↔ lib.Counted := by
  constructor
  · intro h m hm
    obtain ⟨b, hb, hid, hcount⟩ := (hvisible m hm).borrower
    have hmine := h b (List.mem_filterMap.mpr ⟨m, hm, hb⟩)
    rw [memberLoans_eq, hcount] at hmine
    rw [hid]
    exact_mod_cast hmine
  · intro h b hb
    obtain ⟨m, hm, hbm⟩ := List.mem_filterMap.mp hb
    rw [memberLoans_eq, borrower_count hbm, ← borrower_id (hvisible m hm) hbm]
    exact_mod_cast h m hm

end Counts

section Edits

variable {v : Accounts.Database}

/-- The members have stayed, or one of them is new or another. -/
theorem Ordered.edit (h : Ordered lib) (hindexed : v.Indexed)
    (htypes : v.membershipTypes = lib.accounts.membershipTypes)
    (hmembers : v.members = lib.accounts.members ∨
      ∃ d, Visible d ∧ v.members = replaceOne (·.id) d lib.accounts.members) :
    Ordered { lib with accounts := v } := by
  refine ⟨hindexed, h.books, h.borrowings, ?_, ?_, ?_⟩
  · show ((v.membershipTypes.filterMap (loanPolicy lib.maxActiveLoans)).map (·.id)).Nodup
    rw [htypes]
    exact h.membershipTypes
  · intro m (hm : m ∈ v.members)
    rcases hmembers with hsame | ⟨d, hvisible, hput⟩
    · exact h.visible m (hsame ▸ hm)
    · rw [hput] at hm
      rcases mem_replaceOne.mp hm with rfl | ⟨hold, -⟩
      · exact hvisible
      · exact h.visible m hold
  · intro loan hloan hopen
    obtain ⟨m, hm, hid⟩ := h.borrowed loan hloan hopen
    show ∃ m ∈ v.members, m.id = loan.memberId.1
    rcases hmembers with hsame | ⟨d, -, hput⟩
    · exact ⟨m, hsame ▸ hm, hid⟩
    · rw [hput]
      by_cases hmd : m.id = d.id
      · exact ⟨d, mem_replaceOne.mpr (.inl rfl), hmd.symm.trans hid⟩
      · exact ⟨m, mem_replaceOne.mpr (.inr ⟨hm, hmd⟩), hid⟩

theorem Library.Counted.edit (h : lib.Counted)
    (hmembers : v.members = lib.accounts.members ∨
      ∃ d, d.activeLoanCount = lib.openLoans d.id ∧
        v.members = replaceOne (·.id) d lib.accounts.members) :
    ({ lib with accounts := v } : Library).Counted := by
  intro m (hm : m ∈ v.members)
  rcases hmembers with hsame | ⟨d, hcount, hput⟩
  · exact h m (hsame ▸ hm)
  · rw [hput] at hm
    rcases mem_replaceOne.mp hm with rfl | ⟨hold, -⟩
    · exact hcount
    · exact h m hold

/-- Nobody without an account has an open loan. -/
theorem Ordered.openLoans_new (h : Ordered lib) {id : String}
    (hnew : ∀ m ∈ lib.accounts.members, m.id ≠ id) : lib.openLoans id = 0 := by
  refine List.countP_eq_zero.mpr fun loan hloan hp => ?_
  rw [Bool.and_eq_true, decide_eq_true_eq] at hp
  obtain ⟨m, hm, hid⟩ := h.borrowed loan hloan hp.1
  exact hnew m hm (hid.trans hp.2)

theorem edits_create {dto : Accounts.CreateMemberDto} {actor : Option Accounts.AuditActor}
    (h : Ordered lib) (hedits : Edits lib (Accounts.MembersService.create env dto actor) lib') :
    Ordered lib' ∧ (lib.Counted → dto.activeLoanCount.getD 0 = 0 → lib'.Counted) := by
  obtain ⟨l, r, store, htraces, rfl⟩ := hedits
  have hstart : Accounts.At none lib.accounts lib.accounts (.init lib.accounts) := rfl
  obtain ⟨v, hv, ⟨hindexed, htypes⟩, hcreated⟩ :=
    Accounts.MembersService.create_shows h.accounts dto actor _ hstart l r store htraces
  obtain rfl : store.committed = v := hv
  rcases hcreated with hsame | ⟨id, membershipType, d, hid, htype, hcount, hnew, hput⟩
  · exact ⟨h.edit hindexed htypes (.inl hsame), fun hc _ => hc.edit (.inl hsame)⟩
  · refine ⟨h.edit hindexed htypes (.inr ⟨_, ⟨⟨id, hid⟩, membershipType, htype⟩, hput⟩),
      fun hc hzero => hc.edit (.inr ⟨_, ?_, hput⟩)⟩
    rw [hcount, hzero, h.openLoans_new hnew]

theorem edits_update {dto : Accounts.UpdateMemberDto} {actor : Option Accounts.AuditActor}
    {id : String} (h : Ordered lib)
    (hedits : Edits lib (Accounts.MembersService.update env dto actor id) lib') :
    Ordered lib' ∧ (lib.Counted → SetsTrueCounts lib (.updateMember id dto actor) →
      lib'.Counted) := by
  obtain ⟨l, r, store, htraces, rfl⟩ := hedits
  have hstart : Accounts.At none lib.accounts lib.accounts (.init lib.accounts) := rfl
  cases hid : ObjectId.parse id with
  | none =>
    obtain ⟨v, hv, hsame⟩ :=
      Accounts.MembersService.update_edits_nothing hid _ hstart l r store htraces
    obtain rfl : store.committed = v := hv
    rw [hsame]
    exact ⟨h, fun hc _ => hc⟩
  | some oid =>
    obtain ⟨v, hv, ⟨hindexed, htypes⟩, hedited⟩ :=
      Accounts.MembersService.update_edits h.accounts hid _ hstart l r store htraces
    obtain rfl : store.committed = v := hv
    rcases hedited with hsame | ⟨m, hm, hmid, htype, hput⟩
    · exact ⟨h.edit hindexed htypes (.inl hsame), fun hc _ => hc.edit (.inl hsame)⟩
    · have hvisible : Visible (Accounts.MembersService.applyUpdates env dto actor m) := by
        refine ⟨⟨oid, hmid⟩, ?_⟩
        show ∃ t : ObjectId, ObjectId.parse (dto.membershipTypeId.getD m.membershipTypeId) = some t
        cases hdto : dto.membershipTypeId with
        | none => exact (h.visible m hm).2
        | some t => exact htype t hdto
      refine ⟨h.edit hindexed htypes (.inr ⟨_, hvisible, hput⟩),
        fun hc htrue => hc.edit (.inr ⟨_, ?_, hput⟩)⟩
      show dto.activeLoanCount.getD m.activeLoanCount = lib.openLoans m.id
      cases hdto : dto.activeLoanCount with
      | none => exact hc m hm
      | some n =>
        rw [hmid]
        exact htrue n hdto oid hid

end Edits

section Loans

/-- Whatever a member shows but for the two fields is the same before and after. -/
theorem SameAccounts.map {α : Type} (h : SameAccounts lib lib') {f : Accounts.Member → α}
    (hf : ∀ m, f (unlent m) = f m) :
    (lib'.accounts.members.map f).Perm (lib.accounts.members.map f) := by
  have hmap := h.members.map f
  rw [List.map_map, List.map_map] at hmap
  have heq : f ∘ unlent = f := funext hf
  rwa [heq] at hmap

theorem SameAccounts.filterMap {α : Type} (h : SameAccounts lib lib')
    {f : Accounts.Member → Option α} (hf : ∀ m, f (unlent m) = f m) :
    (lib'.accounts.members.filterMap f).Perm (lib.accounts.members.filterMap f) := by
  have hmap := h.members.filterMap f
  rw [List.filterMap_map, List.filterMap_map] at hmap
  have heq : f ∘ unlent = f := funext hf
  rwa [heq] at hmap

theorem SameAccounts.symm_mem (h : SameAccounts lib lib') {m : Accounts.Member}
    (hm : m ∈ lib'.accounts.members) : ∃ m' ∈ lib.accounts.members, unlent m' = unlent m :=
  List.mem_map.mp (h.members.subset (List.mem_map_of_mem hm))

theorem SameAccounts.mem (h : SameAccounts lib lib') {m : Accounts.Member}
    (hm : m ∈ lib.accounts.members) : ∃ m' ∈ lib'.accounts.members, unlent m' = unlent m :=
  List.mem_map.mp (h.members.symm.subset (List.mem_map_of_mem hm))

theorem SameAccounts.indexed (h : SameAccounts lib lib') (hi : lib.accounts.Indexed) :
    lib'.accounts.Indexed := by
  rw [h.others]
  exact { hi with
    members := (h.map fun _ => rfl).nodup_iff.mpr hi.members
    memberNumber := (h.map fun _ => rfl).nodup_iff.mpr hi.memberNumber
    memberEmail := (h.filterMap fun _ => rfl).nodup_iff.mpr hi.memberEmail
    loginIdentifier := (h.filterMap fun _ => rfl).nodup_iff.mpr hi.loginIdentifier }

theorem SameAccounts.visible (h : SameAccounts lib lib')
    (hvisible : ∀ m ∈ lib.accounts.members, Visible m) :
    ∀ m ∈ lib'.accounts.members, Visible m := by
  intro m hm
  obtain ⟨m', hm', heq⟩ := h.symm_mem hm
  exact visible_unlent.mp (heq ▸ visible_unlent.mpr (hvisible m' hm'))

/-- A member that lending has found has an account, before the request and after it. -/
theorem SameAccounts.account (h : SameAccounts lib lib') (ho : Ordered lib)
    {b : Circulation.Member} (hb : b ∈ lib.lending.members) :
    ∃ m ∈ lib'.accounts.members, m.id = b.id.1 := by
  obtain ⟨m, hm, hbm⟩ := List.mem_filterMap.mp hb
  obtain ⟨m', hm', heq⟩ := h.mem hm
  exact ⟨m', hm', (id_of_unlent heq).trans (borrower_id (ho.visible m hm) hbm)⟩

/-- What a request of lending does to the store it reads. -/
inductive Settles (s : Circulation.Database) : Circulation.Database → Prop where
  | nothing : Settles s s
  | lent {dto : Circulation.CreateBorrowingDto} {docs : List Circulation.Doc}
      (lends : Circulation.Lent s dto docs) : Settles s (Circulation.view s docs)
  | takenBack {id : String} {docs : List Circulation.Doc}
      (takes : Circulation.TakenBack s id docs) : Settles s (Circulation.view s docs)

variable {s s' : Circulation.Database} {request : Circulation.LoanCall}
  {r : Except Circulation.Failure Circulation.BorrowingResponseDto}

theorem check_ends {α : Type} {x : Except Circulation.Failure α}
    {y : Except Circulation.Failure α} (h : Circulation.loans.Ends (Circulation.check x).run s y s') :
    s' = s := by
  cases x with
  | ok a => exact (Service.Ends.run_pure.mp h).2
  | error e => exact (Service.Ends.run_throw.mp h).2

/-- A lending that answers has lent; one that fails has left the store alone. -/
theorem create_ends {dto : Circulation.CreateBorrowingDto} {actor : Option Circulation.AuditActor}
    (hs : s.Indexed) (h : Circulation.loans.Ends (Circulation.create dto actor).run s r s') :
    (∃ docs, Circulation.Lent s dto docs ∧ s' = Circulation.view s docs) ∨
      s' = s ∧ ∃ e, r = .error e := by
  rcases Service.Ends.run_bind.mp h with ⟨staff, s₁, hstaff, hwork⟩ | ⟨e, rfl, hstaff⟩
  · obtain rfl : s₁ = s := check_ends hstaff
    rcases Service.Ends.run_withTransaction.mp hwork with
      ⟨response, docs, rfl, hout, rfl⟩ | ⟨e, docs, rfl, -, rfl⟩ | ⟨rfl, rfl⟩
    · exact .inl ⟨docs, Circulation.createWork_outcome hs hout, rfl⟩
    · exact .inr ⟨rfl, e, rfl⟩
    · exact .inr ⟨rfl, _, rfl⟩
  · exact .inr ⟨check_ends hstaff, e, rfl⟩

theorem Settles.of_ends (hs : s.Indexed) (hc : Circulation.MembersCounted s)
    (h : Circulation.loans.Ends (Circulation.serve request).run s r s') : Settles s s' := by
  cases request with
  | create dto actor =>
    rcases create_ends hs h with ⟨docs, hlent, rfl⟩ | ⟨rfl, -⟩
    · exact .lent hlent
    · exact .nothing
  | returnBorrowing id dto actor =>
    rcases Service.Ends.run_bind.mp h with ⟨staff, s₁, hstaff, hwork⟩ | ⟨e, rfl, hstaff⟩
    · obtain rfl : s₁ = s := check_ends hstaff
      rcases Service.Ends.run_withTransaction.mp hwork with
        ⟨response, docs, rfl, hout, rfl⟩ | ⟨e, docs, rfl, -, rfl⟩ | ⟨rfl, rfl⟩
      · refine .takenBack (Circulation.returnWork_outcome hs ?_ hout)
        intro m hm b hb hopen hid hzero
        have hcounted := hc.counted hm hb hopen hid
        omega
      · exact .nothing
      · exact .nothing
    · obtain rfl := check_ends hstaff
      exact .nothing

namespace Settles

theorem indexed (h : Settles s s') (hs : s.Indexed) : s'.Indexed := by
  cases h with
  | nothing => exact hs
  | lent => exact Circulation.view_indexed hs
  | takenBack => exact Circulation.view_indexed hs

theorem counted (h : Settles s s') (hs : s.Indexed) (hc : Circulation.MembersCounted s) :
    Circulation.MembersCounted s' := by
  cases h with
  | nothing => exact hc
  | lent lends =>
    obtain ⟨member, hmember, book, -, membershipType, -, loan, staffId, -, -, -, -, hopen, hmid, -,
      hnew, rfl⟩ := lends.lends
    exact Circulation.MembersCounted.lend hopen hnew hc hmember hmid
  | takenBack takes =>
    obtain ⟨borrowing, hmem, book, -, member, hmember, returnedAt, staffId, -, hopen, -, hmid,
      rfl⟩ := takes.takes
    exact Circulation.MembersCounted.takeBack hs hmem hopen rfl rfl hc hmember hmid

/-- The loans that are open now were open before, but for one to a member that lending has
found. -/
theorem borrowed (h : Settles s s') {loan : Circulation.Borrowing} (hloan : loan ∈ s'.borrowings)
    (hopen : loan.isOpen = true) :
    loan ∈ s.borrowings ∨ ∃ member ∈ s.members, loan.memberId = member.id := by
  cases h with
  | nothing => exact .inl hloan
  | lent lends =>
    obtain ⟨member, hmember, book, -, membershipType, -, new, staffId, -, -, -, -, -, hmid, -, -,
      rfl⟩ := lends.lends
    rcases mem_replaceOne.mp hloan with rfl | ⟨hold, -⟩
    · exact .inr ⟨member, hmember, hmid⟩
    · exact .inl hold
  | takenBack takes =>
    obtain ⟨borrowing, -, book, -, member, -, returnedAt, staffId, -, -, -, -, rfl⟩ := takes.takes
    rcases mem_replaceOne.mp hloan with rfl | ⟨hold, -⟩
    · cases hopen
    · exact .inl hold

end Settles

variable {actor : Option Circulation.AuditActor} {dto : Circulation.CreateBorrowingDto}

theorem Lends.settles (h : Lends lib request r lib') (ho : Ordered lib) (hc : lib.Counted) :
    Settles lib.lending lib'.lending :=
  .of_ends ho.lending ((counted_iff ho.visible).mpr hc) h.ends

theorem Lends.ordered (h : Lends lib request r lib') (ho : Ordered lib) (hc : lib.Counted) :
    Ordered lib' := by
  have hsettles := h.settles ho hc
  have hindexed := hsettles.indexed ho.lending
  have hvisible := h.accounts.visible ho.visible
  refine ⟨h.accounts.indexed ho.accounts, hindexed.books, hindexed.borrowings,
    hindexed.membershipTypes, hvisible, ?_⟩
  intro loan hloan hopen
  rcases hsettles.borrowed hloan hopen with hold | ⟨member, hmember, hmid⟩
  · obtain ⟨m, hm, hid⟩ := ho.borrowed loan hold hopen
    obtain ⟨m', hm', heq⟩ := h.accounts.mem hm
    exact ⟨m', hm', (id_of_unlent heq).trans hid⟩
  · rw [hmid]
    exact h.accounts.account ho hmember

theorem Lends.counted (h : Lends lib request r lib') (ho : Ordered lib) (hc : lib.Counted) :
    lib'.Counted :=
  (counted_iff (h.ordered ho hc).visible).mp
    ((h.settles ho hc).counted ho.lending ((counted_iff ho.visible).mpr hc))

/-- A lending that answers has kept its member within the limit. -/
theorem Lends.withinLimit {response : Circulation.BorrowingResponseDto}
    (h : Lends lib (.create dto actor) (.ok response) lib') (ho : Ordered lib)
    (hc : lib.Counted) : Circulation.WithinLimit lib'.lending dto := by
  rcases create_ends ho.lending h.ends with ⟨docs, hlent, heq⟩ | ⟨-, e, hfailed⟩
  · rw [heq]
    obtain ⟨member, hmember, book, -, membershipType, htype, loan, staffId, hid, -, htid, hlimit,
      hopen, hmid, -, hnew, rfl⟩ := hlent.lends
    have hcount := (counted_iff ho.visible).mpr hc member hmember
    have hmine := Circulation.memberLoans_lend hopen hnew hmid
    refine ⟨member.borrowed staffId, mem_replaceOne.mpr (.inl rfl), hid, membershipType, htype,
      htid, ?_⟩
    show ((lib.lending.put (.borrowing loan)).memberLoans member.id : ℤ) ≤ membershipType.maxActiveLoans
    omega
  · cases hfailed

end Loans

section Main

variable {call : LibraryCall}

theorem Serves.keeps (h : Serves env lib call lib') (ho : Ordered lib) (hc : lib.Counted)
    (htrue : SetsTrueCounts lib call) : Ordered lib' ∧ lib'.Counted := by
  cases call with
  | createMember dto actor =>
    obtain ⟨hordered, hcounted⟩ := edits_create ho h
    exact ⟨hordered, hcounted hc htrue⟩
  | updateMember id dto actor =>
    obtain ⟨hordered, hcounted⟩ := edits_update ho h
    exact ⟨hordered, hcounted hc htrue⟩
  | loan request =>
    obtain ⟨r, hlends⟩ := h
    exact ⟨hlends.ordered ho hc, hlends.counted ho hc⟩

theorem Runs.keeps (h : Runs env SetsTrueCounts lib₀ lib) (ho : Ordered lib₀)
    (hc : lib₀.Counted) : Ordered lib ∧ lib.Counted := by
  induction h with
  | refl => exact ⟨ho, hc⟩
  | serve _ htrue hserved ih =>
    obtain ⟨hordered, hcounted⟩ := ih
    exact hserved.keeps hordered hcounted htrue

/-- In every run that sets the counters to nothing but the number of open loans they stay
true, and whatever is lent is lent within the limit. -/
theorem limits_kept (ho : Ordered lib₀) (hc : lib₀.Counted)
    (h : Runs env SetsTrueCounts lib₀ lib) :
    lib.Counted ∧ ∀ dto actor response lib', Lends lib (.create dto actor) (.ok response) lib' →
      Circulation.WithinLimit lib'.lending dto := by
  obtain ⟨hordered, hcounted⟩ := h.keeps ho hc
  exact ⟨hcounted, fun dto actor response lib' hlends => hlends.withinLimit hordered hcounted⟩

theorem branch_ordered : Ordered branch where
  accounts := by decide
  books := List.nodup_singleton _
  borrowings := List.nodup_nil
  membershipTypes := by decide +kernel
  visible m hm := by
    rw [List.mem_singleton.mp hm]
    exact ⟨⟨Circulation.memberId, rfl⟩, Circulation.typeId, ObjectId.parse_text _⟩
  borrowed := nofun

theorem branch_counted : branch.Counted := by decide +kernel

/-- `SetsTrueCounts` as a function. -/
def setsTrueCounts (lib : Library) : LibraryCall → Bool
  | .createMember dto _ => decide (dto.activeLoanCount.getD 0 = 0)
  | .updateMember id dto _ => dto.activeLoanCount.all fun n =>
      (ObjectId.parse id).all fun oid => decide (n = lib.openLoans oid.1)
  | .loan _ => true

theorem setsTrueCounts_sound (h : setsTrueCounts lib call = true) : SetsTrueCounts lib call := by
  cases call with
  | createMember dto actor =>
    rw [setsTrueCounts, decide_eq_true_eq] at h
    exact h
  | updateMember id dto actor =>
    intro n hn oid hid
    rw [setsTrueCounts, hn, hid] at h
    exact of_decide_eq_true h
  | loan request => trivial

/-- An edit sets the counter of a member to the number of its loans, who cannot borrow more. -/
theorem limits_kept_run : ∃ lib, Runs SignIn.plain SetsTrueCounts branch lib ∧
    lib.openLoans Circulation.memberId.1 = 1 ∧ lib.Counted ∧
    ∀ dto actor response lib', Lends lib (.create dto actor) (.ok response) lib' →
      Circulation.WithinLimit lib'.lending dto := by
  have hrun : (playCalls SignIn.plain setsTrueCounts [counts 0, borrows 0, counts 1] branch).map
      (·.openLoans Circulation.memberId.1) = some 1 := by decide +kernel
  obtain ⟨lib, hplay, hopen⟩ := Option.map_eq_some_iff.mp hrun
  have hruns : Runs SignIn.plain SetsTrueCounts branch lib :=
    runs_of_playCalls setsTrueCounts_sound .refl hplay
  exact ⟨lib, hruns, hopen, limits_kept branch_ordered branch_counted hruns⟩

/-- The member borrows, an edit sets the counter back, and the member borrows again: the
counter is wrong, and there are two loans where one is allowed. -/
theorem limits_not_kept : ∃ lib, Runs SignIn.plain (fun _ _ => True) branch lib ∧
    ¬ lib.Counted ∧ ∃ dto actor response lib',
      Lends lib (.create dto actor) (.ok response) lib' ∧
      ¬ Circulation.WithinLimit lib'.lending dto := by
  have hrun : (playCalls SignIn.plain (fun _ _ => true) [borrows 0, counts 0] branch).map
      (fun lib => (decide lib.Counted, (lend (borrows 1).2 (.create lentTo Circulation.staff) lib).map
        fun (r, lib') => (r.isOk, decide (Circulation.WithinLimit lib'.lending lentTo)))) =
      some (false, some (true, false)) := by decide +kernel
  obtain ⟨lib, hplay, hview⟩ := Option.map_eq_some_iff.mp hrun
  rw [Prod.mk.injEq] at hview
  obtain ⟨hcounted, hlend⟩ := hview
  obtain ⟨⟨r, lib'⟩, hlends, hview'⟩ := Option.map_eq_some_iff.mp hlend
  rw [Prod.mk.injEq] at hview'
  obtain ⟨hok, hlimit⟩ := hview'
  have hruns : Runs SignIn.plain (fun _ _ => True) branch lib :=
    runs_of_playCalls (fun _ => trivial) .refl hplay
  cases r with
  | error e => cases hok
  | ok response =>
    exact ⟨lib, hruns, of_decide_eq_false hcounted, lentTo, Circulation.staff, response, lib',
      lends_of_lend hlends, of_decide_eq_false hlimit⟩

end Main

end Membership
