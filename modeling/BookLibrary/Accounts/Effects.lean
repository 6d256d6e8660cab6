import BookLibrary.Accounts.Service

/-!
# What the writes do to accounts and reservations

The store as seen from outside: who owns an identifier, and the account behind an id.
Each write changes one of these in one place.
-/

namespace Accounts

open AuthIdentifiers Documents SignIn

abbrev Subject := AuthIdentifierSubjectType × String

/-- The subject that an active reservation belongs to. -/
def AuthIdentifier.owner (d : AuthIdentifier) : Option Subject :=
  match d.status, d.subjectType, d.subjectId with
  | .active, some subjectType, some subjectId => some (subjectType, subjectId)
  | _, _, _ => none

theorem AuthIdentifier.owner_eq_some {d : AuthIdentifier} {subject : Subject} :
    AuthIdentifier.owner d = some subject ↔
      d.status = .active ∧ d.subjectType = some subject.1 ∧ d.subjectId = some subject.2 := by
  obtain ⟨subjectType, subjectId⟩ := subject
  unfold AuthIdentifier.owner
  split
  · next hs ht hi => simp [hs, ht, hi]
  · next h =>
    constructor
    · intro h'
      cases h'
    · rintro ⟨hs, ht, hi⟩
      exact absurd hi (h _ _ hs ht)

@[simp] theorem AuthIdentifier.owner_claim (d : AuthIdentifier)
    (identifierType : Option AuthIdentifierType) (subjectType : AuthIdentifierSubjectType)
    (subjectId updatedBy : String) :
    AuthIdentifier.owner (AuthIdentifier.claim identifierType subjectType subjectId updatedBy d) =
      some (subjectType, subjectId) := rfl

@[simp] theorem AuthIdentifier.owner_release (d : AuthIdentifier) (releasedAt : Date)
    (updatedBy : String) :
    AuthIdentifier.owner (AuthIdentifier.release releasedAt updatedBy d) = none := rfl

theorem isHeldBy_iff {identifier subjectId : String} {subjectType : AuthIdentifierSubjectType}
    {d : AuthIdentifier} : isHeldBy identifier subjectType subjectId d = true ↔
      d.normalizedIdentifier = identifier ∧
        AuthIdentifier.owner d = some (subjectType, subjectId) := by
  rw [AuthIdentifier.owner_eq_some]
  simp only [isHeldBy, Bool.and_eq_true, decide_eq_true_eq]
  tauto

namespace Database

variable {s s' : Database}

def reservation (s : Database) (identifier : String) : Option AuthIdentifier :=
  s.identifiers.find? fun d => decide (d.normalizedIdentifier = identifier)

/-- Who owns the active reservation of an identifier. -/
def owner (s : Database) (identifier : String) : Option Subject :=
  (s.reservation identifier).bind AuthIdentifier.owner

def staffUser (s : Database) (id : String) : Option StaffUser :=
  s.staffUsers.find? fun d => decide (d.id = id)

def member (s : Database) (id : String) : Option Member :=
  s.members.find? fun d => decide (d.id = id)

theorem id_of_member {id : String} {d : Member} (h : s.member id = some d) : d.id = id := by
  simpa using List.find?_some h

theorem id_of_staffUser {id : String} {d : StaffUser} (h : s.staffUser id = some d) : d.id = id := by
  simpa using List.find?_some h

/-- Ownership is a matter of the reservations alone. -/
theorem owner_congr (h : s'.identifiers = s.identifiers) (identifier : String) :
    s'.owner identifier = s.owner identifier := by
  rw [owner, owner, reservation, reservation, h]

theorem reservation_of_mem (h : s.Indexed) {d : AuthIdentifier} (hd : d ∈ s.identifiers) :
    s.reservation d.normalizedIdentifier = some d := by
  cases hr : s.reservation d.normalizedIdentifier with
  | none => simpa using List.find?_eq_none.mp hr d hd
  | some d' =>
    have hmem := List.mem_of_find?_eq_some hr
    have hname : d'.normalizedIdentifier = d.normalizedIdentifier := by
      simpa using List.find?_some hr
    rw [List.inj_on_of_nodup_map h.normalizedIdentifier hmem hd hname]

theorem mem_of_reservation {identifier : String} {d : AuthIdentifier}
    (h : s.reservation identifier = some d) :
    d ∈ s.identifiers ∧ d.normalizedIdentifier = identifier :=
  ⟨List.mem_of_find?_eq_some h, by simpa using List.find?_some h⟩

/-- The one reservation under the id `id` is found under its own identifier. -/
theorem identifier_eq_of_id (h : s.Indexed) {d d' : AuthIdentifier} (hd : d ∈ s.identifiers)
    (hd' : d' ∈ s.identifiers) (hid : d.id = d'.id) : d = d' :=
  List.inj_on_of_nodup_map h.identifiers hd hd' hid

theorem owner_eq_some {identifier : String} {subject : Subject} :
    s.owner identifier = some subject ↔
      ∃ d, s.reservation identifier = some d ∧ AuthIdentifier.owner d = some subject := by
  rw [owner, Option.bind_eq_some_iff]

/-- A reservation that takes the place of one for the same identifier, or of none. -/
theorem reservation_put {d : AuthIdentifier} (identifier : String)
    (h : ∀ x ∈ s.identifiers, x.id = d.id → x.normalizedIdentifier = d.normalizedIdentifier) :
    (s.put (.identifier d)).reservation identifier =
      if d.normalizedIdentifier = identifier then some d else s.reservation identifier := by
  by_cases hk : d.normalizedIdentifier = identifier
  · simp [reservation, put, replaceOne, hk]
  · rw [if_neg hk]
    refine find?_replaceOne_of_not (by simpa using hk) fun x hx hid => ?_
    simpa [h x hx hid] using hk

@[simp] theorem member_put (d : Member) (id : String) :
    (s.put (.member d)).member id = if d.id = id then some d else s.member id :=
  find?_replaceOne id

@[simp] theorem staffUser_put (d : StaffUser) (id : String) :
    (s.put (.staffUser d)).staffUser id = if d.id = id then some d else s.staffUser id :=
  find?_replaceOne id

/-- The store after a write. -/
def wrote (w : Write) (s : Database) : Database := schema.putAll (schema.write w s).docs s

theorem write_eq (w : Write) : schema.write w s =
    if ((s.unchecked w).docs.foldr Database.put s).Indexed then s.unchecked w
    else .duplicateKey := rfl

theorem wrote_indexed (h : s.Indexed) (w : Write) : (s.wrote w).Indexed := by
  by_cases hi : ((s.unchecked w).docs.foldr Database.put s).Indexed
  · rw [wrote, write_eq, if_pos hi]
    exact hi
  · rw [wrote, write_eq, if_neg hi]
    exact h

/-- An update leaves the first document that its filter selects, changed, or nothing. -/
theorem write_update (h : s.Indexed) {D : Type} {wrap : D → Document} {p : D → Bool} {f : D → D}
    {docs : List D} {w : Write} (hw : s.unchecked w = update wrap p f docs) :
    (schema.write w s = .unmatched ∧ docs.find? p = none) ∨
    (∃ d, docs.find? p = some d ∧ schema.write w s = .duplicateKey ∧
      ¬ (s.put (wrap (f d))).Indexed) ∨
    ∃ d, docs.find? p = some d ∧ schema.write w s = .written [wrap (f d)] ∧
      (s.put (wrap (f d))).Indexed := by
  rw [write_eq, hw, update]
  cases hd : docs.find? p with
  | none => exact .inl ⟨if_pos h, rfl⟩
  | some d =>
    right
    by_cases hi : (s.put (wrap (f d))).Indexed
    · exact .inr ⟨d, rfl, if_pos hi, hi⟩
    · exact .inl ⟨d, rfl, if_neg hi, hi⟩

theorem write_insert (h : s.Indexed) {d : Document} {w : Write} (hw : s.unchecked w = s.insert d) :
    schema.write w s = .duplicateKey ∨
      s.find d.key = none ∧ schema.write w s = .written [d] ∧ (s.put d).Indexed := by
  rw [write_eq, hw, insert]
  by_cases hd : (s.find d.key).isSome
  · rw [if_pos hd]
    exact .inl (if_pos h)
  · rw [if_neg hd]
    by_cases hi : (s.put d).Indexed
    · exact .inr ⟨by simpa using hd, if_pos hi, hi⟩
    · exact .inl (if_neg hi)

theorem wrote_written {w : Write} {docs : List Document} (h : schema.write w s = .written docs) :
    s.wrote w = docs.foldr put s := by
  rw [wrote, h]
  rfl

theorem wrote_of_no_docs {w : Write} (h : (schema.write w s).docs = []) : s.wrote w = s := by
  rw [wrote, h]
  rfl

/-- A changed reservation that keeps its id and its identifier breaks no unique index. -/
theorem Indexed.put_identifier (h : s.Indexed) {d d' : AuthIdentifier} (hd : d ∈ s.identifiers)
    (hid : d'.id = d.id) (hname : d'.normalizedIdentifier = d.normalizedIdentifier) :
    (s.put (.identifier d')).Indexed := by
  exact { h with
    identifiers := nodup_replaceOne h.identifiers
    normalizedIdentifier := nodup_map_replaceOne h.normalizedIdentifier hd hid.symm hname }

theorem Indexed.put_staffUser (h : s.Indexed) {d d' : StaffUser} (hd : d ∈ s.staffUsers)
    (hid : d'.id = d.id) (hemail : d'.email = d.email) : (s.put (.staffUser d')).Indexed := by
  exact { h with
    staffUsers := nodup_replaceOne h.staffUsers
    staffEmail := nodup_map_replaceOne h.staffEmail hd hid.symm hemail }

theorem Indexed.put_member (h : s.Indexed) {d d' : Member} (hd : d ∈ s.members)
    (hid : d'.id = d.id) (hnumber : d'.memberNumber = d.memberNumber) (hemail : d'.email = d.email)
    (hlogin : d'.loginIdentifier = d.loginIdentifier) : (s.put (.member d')).Indexed := by
  exact { h with
    members := nodup_replaceOne h.members
    memberNumber := nodup_map_replaceOne h.memberNumber hd hid.symm hnumber
    memberEmail := h.memberEmail.replaceOne hd hid.symm hemail
    loginIdentifier := h.loginIdentifier.replaceOne hd hid.symm hlogin }

/-- Who owns what after a reservation has been put in its place. -/
theorem owner_put {d : AuthIdentifier} (identifier : String)
    (h : ∀ x ∈ s.identifiers, x.id = d.id → x.normalizedIdentifier = d.normalizedIdentifier) :
    (s.put (.identifier d)).owner identifier =
      if d.normalizedIdentifier = identifier then AuthIdentifier.owner d
      else s.owner identifier := by
  rw [owner, reservation_put identifier h]
  by_cases hk : d.normalizedIdentifier = identifier
  · simp [hk]
  · simp [hk, owner]

theorem owner_put_of_mem (h : s.Indexed) {d : AuthIdentifier} (hd : d ∈ s.identifiers)
    (d' : AuthIdentifier) (hid : d'.id = d.id)
    (hname : d'.normalizedIdentifier = d.normalizedIdentifier) (identifier : String) :
    (s.put (.identifier d')).owner identifier =
      if d.normalizedIdentifier = identifier then AuthIdentifier.owner d'
      else s.owner identifier := by
  rw [← hname]
  refine owner_put identifier fun x hx hxid => ?_
  rw [identifier_eq_of_id h hx hd (hxid.trans hid), hname]

/-- An update of a reservation that keeps its id and its identifier is never refused. -/
theorem write_identifier (h : s.Indexed) {p : AuthIdentifier → Bool}
    {f : AuthIdentifier → AuthIdentifier} {w : Write}
    (hw : s.unchecked w = update .identifier p f s.identifiers) (hid : ∀ d, (f d).id = d.id)
    (hname : ∀ d, (f d).normalizedIdentifier = d.normalizedIdentifier) :
    (s.identifiers.find? p = none ∧ schema.write w s = .unmatched) ∨
    ∃ d, s.identifiers.find? p = some d ∧ schema.write w s = .written [.identifier (f d)] := by
  rcases write_update h hw with ⟨hr, hnone⟩ | ⟨d, hd, -, hi⟩ | ⟨d, hd, hr, -⟩
  · exact .inl ⟨hnone, hr⟩
  · have hmem := List.mem_of_find?_eq_some hd
    exact (hi (h.put_identifier hmem (hid d) (hname d))).elim
  · exact .inr ⟨d, hd, hr⟩

theorem id_ne_of_find {d : AuthIdentifier} (h : s.find (Document.identifier d).key = none) :
    ∀ x ∈ s.identifiers, x.id ≠ d.id := by
  intro x hx hid
  have hnone : s.identifiers.find? (fun x => decide (x.id = d.id)) = none := by
    simpa [find, Document.key] using h
  simpa [hid] using List.find?_eq_none.mp hnone x hx

/-- A reservation makes way only for one of its id and its identifier. -/
theorem exists_put {d x : AuthIdentifier} (hx : x ∈ s.identifiers)
    (h : ∀ y ∈ s.identifiers, y.id = d.id → y.normalizedIdentifier = d.normalizedIdentifier) :
    ∃ y ∈ (s.put (.identifier d)).identifiers,
      y.id = x.id ∧ y.normalizedIdentifier = x.normalizedIdentifier := by
  by_cases hid : x.id = d.id
  · exact ⟨d, mem_replaceOne.mpr (.inl rfl), hid.symm, (h x hx hid).symm⟩
  · exact ⟨x, mem_replaceOne.mpr (.inr ⟨hx, hid⟩), rfl, rfl⟩

section Identifiers

variable {identifierType : Option AuthIdentifierType} {subjectType : AuthIdentifierSubjectType}
  {id subjectId updatedBy : String} {releasedAt : Date}

/-- A claim of a reservation that is still released is applied to it. -/
theorem write_claimReleased (h : s.Indexed) {d : AuthIdentifier} (hd : d ∈ s.identifiers)
    (hs : d.status = .released) :
    schema.write (.claimReleased d.id identifierType subjectType subjectId updatedBy) s =
      .written [.identifier (AuthIdentifier.claim identifierType subjectType subjectId updatedBy d)] := by
  have hfind : s.identifiers.find?
      (fun x => decide (x.id = d.id) && decide (x.status = .released)) = some d := by
    cases hr : s.identifiers.find? fun x => decide (x.id = d.id) && decide (x.status = .released) with
    | none => simpa [hs] using List.find?_eq_none.mp hr d hd
    | some d' =>
      have hd' := List.find?_some hr
      simp only [Bool.and_eq_true, decide_eq_true_eq] at hd'
      rw [identifier_eq_of_id h (List.mem_of_find?_eq_some hr) hd hd'.1]
  rcases write_identifier (s := s)
    (w := .claimReleased d.id identifierType subjectType subjectId updatedBy) h rfl (fun _ => rfl)
    (fun _ => rfl) with ⟨hnone, -⟩ | ⟨e, he, hw⟩
  · rw [hfind] at hnone
    cases hnone
  · rw [hfind] at he
    cases he
    exact hw

theorem owner_claimReleased (h : s.Indexed) {d : AuthIdentifier} (hd : d ∈ s.identifiers)
    (hs : d.status = .released) (identifier : String) :
    (s.wrote (.claimReleased d.id identifierType subjectType subjectId updatedBy)).owner identifier =
      if d.normalizedIdentifier = identifier then some (subjectType, subjectId)
      else s.owner identifier := by
  rw [wrote_written (write_claimReleased h hd hs)]
  exact owner_put_of_mem h hd
    (AuthIdentifier.claim identifierType subjectType subjectId updatedBy d) rfl rfl identifier

/-- A release takes the reservation from its owner, and from nobody else. -/
theorem owner_releaseIdentifier (h : s.Indexed) (name identifier : String) :
    (s.wrote (.releaseIdentifier name subjectType subjectId releasedAt updatedBy)).owner identifier =
      if name = identifier ∧ s.owner name = some (subjectType, subjectId) then none
      else s.owner identifier := by
  rcases write_identifier (s := s)
    (w := .releaseIdentifier name subjectType subjectId releasedAt updatedBy) h rfl (fun _ => rfl)
    (fun _ => rfl) with ⟨hnone, hw⟩ | ⟨d, hd, hw⟩
  · have hfree : s.owner name ≠ some (subjectType, subjectId) := by
      intro howner
      obtain ⟨d, hd, ho⟩ := owner_eq_some.mp howner
      obtain ⟨hmem, hname⟩ := mem_of_reservation hd
      exact List.find?_eq_none.mp hnone d hmem (isHeldBy_iff.mpr ⟨hname, ho⟩)
    rw [wrote_of_no_docs (by rw [hw]; rfl), if_neg fun h => hfree h.2]
  · have hmem := List.mem_of_find?_eq_some hd
    obtain ⟨hname, ho⟩ := isHeldBy_iff.mp (List.find?_some hd)
    have howner : s.owner name = some (subjectType, subjectId) :=
      owner_eq_some.mpr ⟨d, hname ▸ reservation_of_mem h hmem, ho⟩
    have hput := owner_put_of_mem h hmem (AuthIdentifier.release releasedAt updatedBy d) rfl rfl
      identifier
    rw [hname, AuthIdentifier.owner_release] at hput
    rw [wrote_written hw]
    refine hput.trans ?_
    by_cases hk : name = identifier
    · rw [if_pos hk, if_pos ⟨hk, howner⟩]
    · rw [if_neg hk, if_neg fun h => hk h.1]

/-- A new reservation belongs to whom it names. -/
theorem owner_insertIdentifier {d : AuthIdentifier} {docs : List Document} (h : s.Indexed)
    (hw : schema.write (.insertIdentifier d) s = .written docs) (identifier : String) :
    s.reservation d.normalizedIdentifier = none ∧
    (s.wrote (.insertIdentifier d)).owner identifier =
      if d.normalizedIdentifier = identifier then AuthIdentifier.owner d else s.owner identifier := by
  rcases write_insert (s := s) (w := .insertIdentifier d) h rfl with hdup | ⟨hnew, hone, hi⟩
  · rw [hw] at hdup
    cases hdup
  · have hid := id_ne_of_find hnew
    constructor
    · cases hr : s.reservation d.normalizedIdentifier with
      | none => rfl
      | some d' =>
        obtain ⟨hmem, hname⟩ := mem_of_reservation hr
        have hnodup : ((replaceOne (·.id) d s.identifiers).map (·.normalizedIdentifier)).Nodup :=
          hi.normalizedIdentifier
        rw [replaceOne, List.map_cons, List.nodup_cons] at hnodup
        refine absurd (List.mem_map.mpr ⟨d', List.mem_filter.mpr ⟨hmem, ?_⟩, hname⟩) hnodup.1
        simpa using hid d' hmem
    · rw [wrote_written hone]
      exact owner_put identifier fun x hx hxid => absurd hxid (hid x hx)

end Identifiers

end Database

end Accounts
