import BookLibrary.Operations.Effects
import BookLibrary.Transactions.Crashes

/-!
# Single records

What a write that ends well leaves of the store, and the account of a subject, the
reservation of an identifier and the batches of an operation in it.
-/

namespace Operations

open AuthIdentifiers Documents Interleaving

open Accounts (Key)

/-- Of an assignment a batch update leaves all but what becomes of it. -/
theorem BatchUpdate.apply_map {γ : Type} {g : AuthIdentifierOperationAssignment → γ}
    (hg : ∀ a target status appliedAt, g { a with
      targetReservationId := target, status := status, appliedAt := appliedAt } = g a)
    (u : BatchUpdate) (b : AuthIdentifierRepairBatch) :
    (u.apply b).assignments.map g = b.assignments.map g := by
  cases u with
  | markApplied => exact adjust_map (fun a => hg a _ _ _) _
  | _ => rfl

section Lookups

/-- The key of a subject's account. -/
def accountKey : AuthIdentifierSubjectType → String → Key
  | .staff, id => .staffUser id
  | .member, id => .member id

@[simp] theorem accountKey_inj {t t' : AuthIdentifierSubjectType} {id id' : String} :
    accountKey t id = accountKey t' id' ↔ t = t' ∧ id = id' := by
  cases t <;> cases t' <;> simp [accountKey]

/-- The account of a subject. -/
def accountOf (v : Database) (subject : AuthIdentifierSubjectReference) : Option Document :=
  v.find (accountKey subject.subjectType subject.subjectId)

/-- The reservation of an identifier. -/
def reservation (v : Database) (identifier : String) : Option AuthIdentifier :=
  v.identifiers.find? fun d => decide (d.normalizedIdentifier = identifier)

variable {v : Database} {identifier : String}

theorem reservation_mem {r : AuthIdentifier} (h : reservation v identifier = some r) :
    r ∈ v.identifiers ∧ r.normalizedIdentifier = identifier := by
  obtain ⟨hmem, heq⟩ := mem_of_find h
  exact ⟨hmem, of_decide_eq_true heq⟩

theorem reservation_of_mem (hv : v.Indexed) {r : AuthIdentifier} (hr : r ∈ v.identifiers) :
    reservation v r.normalizedIdentifier = some r := find_of_mem hv.normalizedIdentifier hr

theorem reservation_eq_some (hv : v.Indexed) {r : AuthIdentifier} :
    reservation v identifier = some r ↔ r ∈ v.identifiers ∧ r.normalizedIdentifier = identifier := by
  constructor
  · exact reservation_mem
  · rintro ⟨hr, rfl⟩
    exact reservation_of_mem hv hr

theorem reservation_eq_none : reservation v identifier = none ↔
    ∀ r ∈ v.identifiers, r.normalizedIdentifier ≠ identifier := by
  simp [reservation]

/-- What is put has the identifier of what makes way for it. -/
theorem reservation_put {d : AuthIdentifier}
    (hold : ∀ r ∈ v.identifiers, r.id = d.id → r.normalizedIdentifier = d.normalizedIdentifier)
    (identifier : String) : reservation (v.put (.identifier d)) identifier =
      if d.normalizedIdentifier = identifier then some d else reservation v identifier := by
  by_cases h : d.normalizedIdentifier = identifier
  · rw [if_pos h]
    exact List.find?_cons_of_pos (by simp [h])
  · rw [if_neg h]
    refine find?_replaceOne_of_not (by simpa using h) fun r hr hid => ?_
    rw [hold r hr hid]
    simpa using h

end Lookups

section Writes

variable {v : Database} {w : Write}

theorem wrote_indexed (hv : v.Indexed) (w : Write) : (schema.wrote w v).Indexed :=
  of_decide_eq_true (schema_lawful.indexed_write w v (decide_eq_true hv))

theorem write_eq_unchecked (h : schema.write w v ≠ .duplicateKey) :
    schema.write w v = Database.unchecked v w := by
  by_cases hi : ((Database.unchecked v w).docs.foldr Accounts.Database.put v).Indexed
  · exact if_pos hi
  · exact absurd (if_neg hi) h

/-- An update of one document replaces one that it selects, if there is one. -/
theorem wrote_update {D : Type} {wrap : D → Document} {p : D → Bool} {f : D → D} {docs : List D}
    (hw : Database.unchecked v w = Accounts.Database.update wrap p f docs)
    (h : schema.write w v ≠ .duplicateKey) :
    (∃ d ∈ docs, p d = true ∧ (schema.write w v).docs = [wrap (f d)] ∧
      schema.wrote w v = v.put (wrap (f d))) ∨
    (∀ d ∈ docs, p d = false) ∧ (schema.write w v).docs = [] ∧ schema.wrote w v = v := by
  have heq : schema.write w v = Accounts.Database.update wrap p f docs :=
    (write_eq_unchecked h).trans hw
  cases hd : docs.find? p with
  | some d =>
    have hdocs : (schema.write w v).docs = [wrap (f d)] := by
      rw [heq, Accounts.Database.update, hd]
      rfl
    refine .inl ⟨d, (mem_of_find hd).1, (mem_of_find hd).2, hdocs, ?_⟩
    rw [Sessions.Schema.wrote, hdocs]
    rfl
  | none =>
    have hdocs : (schema.write w v).docs = [] := by
      rw [heq, Accounts.Database.update, hd]
      rfl
    refine .inr ⟨fun d hmem => by simpa using List.find?_eq_none.mp hd d hmem, hdocs, ?_⟩
    rw [Sessions.Schema.wrote, hdocs]
    rfl

/-- An insertion puts a document whose key is new. -/
theorem wrote_insert {x : Document} (hw : Database.unchecked v w = v.insert x)
    (h : schema.write w v ≠ .duplicateKey) :
    v.find x.key = none ∧ (schema.write w v).docs = [x] ∧ schema.wrote w v = v.put x := by
  have heq : schema.write w v = v.insert x := (write_eq_unchecked h).trans hw
  rw [Accounts.Database.insert] at heq
  by_cases hx : (v.find x.key).isSome = true
  · rw [if_pos hx] at heq
    exact absurd heq h
  · rw [if_neg hx] at heq
    have hdocs : (schema.write w v).docs = [x] := by rw [heq]; rfl
    refine ⟨by simpa using hx, hdocs, ?_⟩
    rw [Sessions.Schema.wrote, hdocs]
    rfl

theorem wrote_of_duplicateKey (h : schema.write w v = .duplicateKey) : schema.wrote w v = v := by
  rw [Sessions.Schema.wrote, h]
  rfl

theorem wrote_event (e : SecurityActivityEvent) (v : Database) :
    schema.wrote (.recordEvent e) v = v ∨
      ∃ e', schema.wrote (.recordEvent e) v = v.put (.event e') := by
  rcases docs_write (.recordEvent e) v with hdocs | hdocs
  · left
    rw [Sessions.Schema.wrote, hdocs]
    rfl
  · rw [Sessions.Schema.wrote, hdocs, Database.unchecked]
    split
    · exact .inl rfl
    · exact .inr ⟨_, rfl⟩

/-- What a reservation is after it has been made pending. -/
def IdentifierUpsert.reserves (u : IdentifierUpsert) : Option AuthIdentifier → AuthIdentifier
  | some d => u.apply d
  | none => u.created

@[simp] theorem IdentifierUpsert.reserves_normalizedIdentifier (u : IdentifierUpsert)
    (old : Option AuthIdentifier) : (u.reserves old).normalizedIdentifier = u.normalizedIdentifier := by
  cases old <;> rfl

@[simp] theorem IdentifierUpsert.reserves_status (u : IdentifierUpsert)
    (old : Option AuthIdentifier) : (u.reserves old).status = .pending := by
  cases old <;> rfl

/-- An identifier is reserved where it is free, or where the operation has reserved it. -/
theorem wrote_upsert (hv : v.Indexed) {u : IdentifierUpsert}
    (h : schema.write (.upsertIdentifier u) v ≠ .duplicateKey) :
    (∀ d, reservation v u.normalizedIdentifier = some d → u.selects d = true) ∧
      (schema.write (.upsertIdentifier u) v).docs =
        [.identifier (u.reserves (reservation v u.normalizedIdentifier))] ∧
      schema.wrote (.upsertIdentifier u) v =
        v.put (.identifier (u.reserves (reservation v u.normalizedIdentifier))) ∧
      ∀ r ∈ v.identifiers, r.id = (u.reserves (reservation v u.normalizedIdentifier)).id →
        r.normalizedIdentifier = u.normalizedIdentifier := by
  have heq := write_eq_unchecked h
  cases hd : v.identifiers.find? u.selects with
  | some d =>
    obtain ⟨hmem, hu⟩ := mem_of_find hd
    have hname : d.normalizedIdentifier = u.normalizedIdentifier := by
      simp only [IdentifierUpsert.selects, Bool.and_eq_true, decide_eq_true_eq] at hu
      exact hu.1
    have hold : reservation v u.normalizedIdentifier = some d :=
      (reservation_eq_some hv).mpr ⟨hmem, hname⟩
    have hdocs : (schema.write (.upsertIdentifier u) v).docs = [.identifier (u.apply d)] := by
      rw [heq, Database.unchecked, hd]
      rfl
    rw [hold]
    refine ⟨fun d' hd' => ?_, hdocs, ?_, fun r hr hid => ?_⟩
    · cases hd'
      exact hu
    · rw [Sessions.Schema.wrote, hdocs]
      rfl
    · rw [eq_of_key hv.identifiers hr hmem hid]
      exact hname
  | none =>
    have hinsert : Database.unchecked v (.upsertIdentifier u) = v.insert (.identifier u.created) := by
      rw [Database.unchecked, hd]
    obtain ⟨hkey, hdocs, hwrote⟩ := wrote_insert hinsert h
    have hne : ∀ r ∈ v.identifiers, r.id ≠ u.created.id := by
      intro r hr hid
      have hfind := find_identifier hv hr
      rw [hid] at hfind
      rw [Accounts.Document.key] at hkey
      rw [hkey] at hfind
      cases hfind
    have hold : reservation v u.normalizedIdentifier = none := by
      rw [reservation_eq_none]
      intro r hr hname
      -- it would have the identifier of the new one
      have hindexed := wrote_indexed hv (.upsertIdentifier u)
      rw [hwrote] at hindexed
      have hnew : u.created ∈ (v.put (.identifier u.created)).identifiers :=
        mem_replaceOne.mpr (.inl rfl)
      have hkept : r ∈ (v.put (.identifier u.created)).identifiers :=
        mem_replaceOne.mpr (.inr ⟨hr, hne r hr⟩)
      exact hne r hr (congrArg _ (eq_of_key hindexed.normalizedIdentifier hkept hnew hname))
    rw [hold]
    refine ⟨fun d hd => ?_, hdocs, hwrote, fun r hr hid => absurd hid (hne r hr)⟩
    cases hd

/-- What an update of several reservations makes of one. -/
def IdentifiersUpdate.applied (u : IdentifiersUpdate) (r : AuthIdentifier) : AuthIdentifier :=
  if u.selects r then u.apply r else r

@[simp] theorem IdentifiersUpdate.applied_normalizedIdentifier (u : IdentifiersUpdate)
    (r : AuthIdentifier) : (u.applied r).normalizedIdentifier = r.normalizedIdentifier := by
  rw [applied]
  split
  · exact u.apply_normalizedIdentifier r
  · rfl

theorem putAll_identifiers (rs : List AuthIdentifier) (v : Database) :
    ∃ ids, schema.putAll (rs.map .identifier) v = { v with identifiers := ids } := by
  induction rs with
  | nil => exact ⟨v.identifiers, rfl⟩
  | cons r rs ih =>
    obtain ⟨ids, hids⟩ := ih
    refine ⟨replaceOne (·.id) r ids, ?_⟩
    rw [List.map_cons, Sessions.Schema.putAll_cons, hids]
    rfl

theorem wrote_identifiers (hv : v.Indexed) {u : IdentifiersUpdate}
    (h : schema.write (.updateIdentifiers u) v ≠ .duplicateKey) :
    (∃ ids, schema.wrote (.updateIdentifiers u) v = { v with identifiers := ids }) ∧
      ∀ identifier, reservation (schema.wrote (.updateIdentifiers u) v) identifier =
        (reservation v identifier).map u.applied := by
  have hdocs : (schema.write (.updateIdentifiers u) v).docs =
      ((v.identifiers.filter u.selects).map u.apply).map .identifier := by
    rw [write_eq_unchecked h, List.map_map]
    rfl
  have hv' := wrote_indexed hv (.updateIdentifiers u)
  have hkeys := keys_write hv (.updateIdentifiers u)
  have himage : ∀ r ∈ v.identifiers,
      u.applied r ∈ (schema.wrote (.updateIdentifiers u) v).identifiers := by
    intro r hr
    by_cases hu : u.selects r = true
    · have hmem : Accounts.Document.identifier (u.apply r) ∈
          (schema.write (.updateIdentifiers u) v).docs := by
        rw [hdocs]
        exact List.mem_map_of_mem (List.mem_map_of_mem (List.mem_filter.mpr ⟨hr, hu⟩))
      have hfind : Accounts.Database.find (.identifier (u.apply r).id)
          (schema.wrote (.updateIdentifiers u) v) = some (.identifier (u.apply r)) :=
        schema_lawful.find_putAll_of_mem hkeys hmem v
      rw [IdentifiersUpdate.applied, if_pos hu]
      exact (identifier_of_find hfind).1
    · have hnot : Key.identifier r.id ∉
          (schema.write (.updateIdentifiers u) v).docs.map schema.key := by
        rw [hdocs, List.map_map, List.map_map]
        intro hmem
        obtain ⟨r', hr', hid⟩ := List.mem_map.mp hmem
        obtain ⟨hr', hu'⟩ := List.mem_filter.mp hr'
        have hid' : r'.id = r.id := (u.apply_id r').symm.trans (Key.identifier.inj hid)
        exact hu (eq_of_key hv.identifiers hr' hr hid' ▸ hu')
      have hfind : Accounts.Database.find (.identifier r.id)
          (schema.wrote (.updateIdentifiers u) v) = some (.identifier r) :=
        (schema_lawful.find_putAll_of_notMem hnot v).trans (find_identifier hv hr)
      rw [IdentifiersUpdate.applied, if_neg hu]
      exact (identifier_of_find hfind).1
  refine ⟨?_, fun identifier => ?_⟩
  · rw [Sessions.Schema.wrote, hdocs]
    exact putAll_identifiers _ v
  · cases hr : reservation v identifier with
    | some r =>
      obtain ⟨hmem, hname⟩ := reservation_mem hr
      rw [Option.map_some, reservation_eq_some hv']
      exact ⟨himage r hmem, (u.applied_normalizedIdentifier r).trans hname⟩
    | none =>
      rw [Option.map_none, reservation_eq_none]
      intro r hr' hname
      rw [reservation_eq_none] at hr
      have hfind : schema.find (.identifier r.id)
          (schema.putAll (schema.write (.updateIdentifiers u) v).docs v) = some (.identifier r) :=
        find_identifier hv' hr'
      rcases schema_lawful.find_putAll_cases hfind with hmem | hold
      · rw [hdocs] at hmem
        obtain ⟨r₁, hr₁, heq⟩ := List.mem_map.mp hmem
        cases heq
        obtain ⟨r₀, hr₀, rfl⟩ := List.mem_map.mp hr₁
        exact hr r₀ (List.mem_filter.mp hr₀).1 ((u.apply_normalizedIdentifier r₀).symm.trans hname)
      · exact hr r (identifier_of_find (k := .identifier r.id) hold).1 hname

/-- An update of one reservation, where its filter selects one at most. -/
theorem wrote_identifier (hv : v.Indexed) {u : IdentifierUpdate}
    (hone : ∀ r r', u.selects r = true → u.selects r' = true → r.id = r'.id)
    (h : schema.write (.updateIdentifier u) v ≠ .duplicateKey) :
    (∃ ids, schema.wrote (.updateIdentifier u) v = { v with identifiers := ids }) ∧
      ∀ identifier, reservation (schema.wrote (.updateIdentifier u) v) identifier =
        (reservation v identifier).map fun r => if u.selects r then u.apply r else r := by
  have hunchecked : Database.unchecked v (.updateIdentifier u) =
      Accounts.Database.update .identifier u.selects u.apply v.identifiers := rfl
  rcases wrote_update hunchecked h with ⟨r, hr, hu, -, hwrote⟩ | ⟨hnone, -, hwrote⟩
  · rw [hwrote]
    have hput := reservation_put (v := v) (d := u.apply r) fun r' hr' hid => by
      rw [eq_of_key hv.identifiers hr' hr (hid.trans (u.apply_id r)), u.apply_normalizedIdentifier]
    refine ⟨⟨_, rfl⟩, fun identifier => (hput identifier).trans ?_⟩
    rw [u.apply_normalizedIdentifier]
    by_cases hname : r.normalizedIdentifier = identifier
    · rw [if_pos hname, ← hname, reservation_of_mem hv hr, Option.map_some, if_pos hu]
    · rw [if_neg hname]
      cases hr' : reservation v identifier with
      | none => rfl
      | some r' =>
        obtain ⟨hmem, hname'⟩ := reservation_mem hr'
        rw [Option.map_some, if_neg]
        intro hu'
        have heq := eq_of_key hv.identifiers hmem hr (hone r' r hu' hu)
        exact hname (heq ▸ hname')
  · rw [hwrote]
    refine ⟨⟨v.identifiers, rfl⟩, fun identifier => ?_⟩
    cases hr : reservation v identifier with
    | none => rfl
    | some r =>
      rw [Option.map_some, if_neg]
      simp [hnone r (reservation_mem hr).1]

end Writes

end Operations
