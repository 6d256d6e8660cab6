import BookLibrary.Documents.Changes
import BookLibrary.Operations.Crashes
import BookLibrary.Operations.Reconciliation
import BookLibrary.Operations.Records

/-!
# The cleanup of an operation that has ended

What one call of `cleanup` makes of the reservations that the operation gates, of its
batches and of its own record, and what calls in a row make of them.
-/

namespace Operations

open AuthIdentifiers Documents Interleaving

/-- The reservation has lost its gate; that of an operation that failed is released. -/
def Ungates (d : AuthIdentifierOperation) (r r' : AuthIdentifier) : Prop :=
  Database.isGatedBy d.operationId r = true ∧
    r' = { r with
      status := if d.status = .failedTerminal then .released else r.status
      activationGateOperationId := none }

/-- The batch of the operation has been given a date of expiry. -/
def Expires (d : AuthIdentifierOperation) (b b' : AuthIdentifierRepairBatch) : Prop :=
  Database.isOpenBatchOf d.operationId b = true ∧ ∃ date, b' = { b with expiresAt := some date }

/-- Some gates and batches of the operation are settled, nothing else has become of the
reservations and the batches. -/
structure Cleaned (d : AuthIdentifierOperation) (v v' : Database) : Prop where
  identifiers : Changed (Ungates d) v.identifiers v'.identifiers
  batches : Changed (Expires d) v.batches v'.batches

/-- The gated reservations and the unexpired batches of the operation. -/
def left (d : AuthIdentifierOperation) (v : Database) : ℕ :=
  v.identifiers.countP (Database.isGatedBy d.operationId) +
    v.batches.countP (Database.isOpenBatchOf d.operationId)

/-- The reservations and batches that are not as they were. -/
def touched (v v' : Database) : ℕ :=
  v.identifiers.countP (fun r => decide (r ∉ v'.identifiers)) +
    v.batches.countP fun b => decide (b ∉ v'.batches)

variable {d : AuthIdentifierOperation} {v v' v'' : Database}

theorem Ungates.settled {r r' : AuthIdentifier} (h : Ungates d r r') :
    Database.isGatedBy d.operationId r = true ∧ Database.isGatedBy d.operationId r' = false := by
  obtain ⟨hgated, rfl⟩ := h
  exact ⟨hgated, rfl⟩

theorem Expires.settled {b b' : AuthIdentifierRepairBatch} (h : Expires d b b') :
    Database.isOpenBatchOf d.operationId b = true ∧
      Database.isOpenBatchOf d.operationId b' = false := by
  obtain ⟨hopen, date, rfl⟩ := h
  exact ⟨hopen, Bool.and_false _⟩

namespace Cleaned

theorem refl (d : AuthIdentifierOperation) (v : Database) : Cleaned d v v :=
  ⟨.refl _, .refl _⟩

/-- What is settled is not settled again. -/
theorem trans (h : Cleaned d v v') (h' : Cleaned d v' v'') : Cleaned d v v'' where
  identifiers := by
    refine h.identifiers.trans (fun r r' r'' hr hr' => ?_) h'.identifiers
    have hungated := hr.settled.2
    rw [hr'.1] at hungated
    cases hungated
  batches := by
    refine h.batches.trans (fun b b' b'' hb hb' => ?_) h'.batches
    have hclosed := hb.settled.2
    rw [hb'.1] at hclosed
    cases hclosed

/-- As many gates and batches are settled as reservations and batches have been touched. -/
theorem touched_add (h : Cleaned d v v') : touched v v' + left d v' = left d v := by
  have hidentifiers := h.identifiers.countP_add fun _ _ => Ungates.settled
  have hbatches := h.batches.countP_add fun _ _ => Expires.settled
  rw [touched, left, left]
  omega

/-- The outcome depends on the id of the operation and on how it has ended. -/
theorem congr {d' : AuthIdentifierOperation} (h : Cleaned d v v')
    (hid : d'.operationId = d.operationId) (hstatus : d'.status = d.status) : Cleaned d' v v' := by
  have hungates : Ungates d' = Ungates d := by
    funext r r'
    rw [Ungates, Ungates, hid, hstatus]
  have hexpires : Expires d' = Expires d := by
    funext b b'
    rw [Expires, Expires, hid]
  exact ⟨hungates ▸ h.identifiers, hexpires ▸ h.batches⟩

end Cleaned

theorem left_congr {d' : AuthIdentifierOperation} (hid : d'.operationId = d.operationId)
    (v : Database) : left d' v = left d v := by rw [left, left, hid]

section Batches

variable {D κ : Type} [DecidableEq κ] {key : D → κ} {q : D → Bool} {limit : ℕ} {docs batch : List D}

omit [DecidableEq κ] in
/-- The documents of a batch, by their keys. -/
theorem FindLimited.mem_keys (h : FindLimited q limit docs batch) (hkeys : (docs.map key).Nodup)
    {d : D} (hd : d ∈ docs) : key d ∈ batch.map key ↔ d ∈ batch := by
  obtain ⟨order, hperm, rfl⟩ := h
  constructor
  · intro hmem
    obtain ⟨d', hd', heq⟩ := List.mem_map.mp hmem
    have hstored : d' ∈ docs :=
      (List.mem_filter.mp (hperm.mem_iff.mp (List.mem_of_mem_take hd'))).1
    exact List.inj_on_of_nodup_map hkeys hstored hd heq ▸ hd'
  · exact List.mem_map_of_mem

theorem FindLimited.selects (h : FindLimited q limit docs batch) (hkeys : (docs.map key).Nodup) :
    ∀ d ∈ docs, decide (key d ∈ batch.map key) = true → q d = true := by
  intro d hd hmem
  have hbatch := (h.mem_keys hkeys hd).mp (of_decide_eq_true hmem)
  obtain ⟨order, hperm, rfl⟩ := h
  exact (List.mem_filter.mp (hperm.mem_iff.mp (List.mem_of_mem_take hbatch))).2

theorem FindLimited.length_eq (h : FindLimited q limit docs batch) :
    batch.length = min limit (docs.countP q) := by
  obtain ⟨order, hperm, rfl⟩ := h
  rw [List.length_take, hperm.length_eq, List.countP_eq_length_filter]

theorem FindLimited.countP (h : FindLimited q limit docs batch) (hkeys : (docs.map key).Nodup) :
    docs.countP (fun d => decide (key d ∈ batch.map key)) = min limit (docs.countP q) := by
  have hdocs : docs.Nodup := .of_map key hkeys
  have hperm : (docs.filter fun d => decide (key d ∈ batch.map key)).Perm batch := by
    have hbatch : ∀ d ∈ batch, d ∈ docs := by
      obtain ⟨order, hperm, rfl⟩ := h
      intro d hd
      exact (List.mem_filter.mp (hperm.mem_iff.mp (List.mem_of_mem_take hd))).1
    have hnodup : batch.Nodup := by
      obtain ⟨order, hperm, rfl⟩ := h
      exact (hperm.nodup_iff.mpr (hdocs.filter q)).sublist (List.take_sublist ..)
    refine (List.perm_ext_iff_of_nodup (hdocs.filter _) hnodup).mpr fun d => ?_
    rw [List.mem_filter, decide_eq_true_iff]
    constructor
    · rintro ⟨hd, hmem⟩
      exact (h.mem_keys hkeys hd).mp hmem
    · intro hd
      exact ⟨hbatch d hd, List.mem_map_of_mem hd⟩
  rw [List.countP_eq_length_filter, hperm.length_eq, h.length_eq]

end Batches

section Writes

theorem wrote_putAll {w : Write} {ds : List Document} (hw : Database.unchecked v w = .written ds)
    (h : schema.write w v ≠ .duplicateKey) :
    schema.wrote w v = ds.foldr Accounts.Database.put v := by
  rw [Sessions.Schema.wrote, write_eq_unchecked h, hw]
  rfl

theorem put_identifiers (rs : List AuthIdentifier) (v : Database) :
    (rs.map Accounts.Document.identifier).foldr Accounts.Database.put v =
      { v with identifiers := rs.foldr (replaceOne (·.id)) v.identifiers } := by
  induction rs with
  | nil => rfl
  | cons r rs ih =>
    rw [List.map_cons, List.foldr_cons, ih]
    rfl

theorem put_batches (bs : List AuthIdentifierRepairBatch) (v : Database) :
    (bs.map Accounts.Document.batch).foldr Accounts.Database.put v =
      { v with batches := bs.foldr (replaceOne (·.id)) v.batches } := by
  induction bs with
  | nil => rfl
  | cons b bs ih =>
    rw [List.map_cons, List.foldr_cons, ih]
    rfl

/-- The reservations that have been listed lose their gates. -/
theorem wrote_ungate (hv : v.Indexed) {limit : ℕ} {gated : List AuthIdentifier}
    (hgated : FindLimited (Database.isGatedBy d.operationId) limit v.identifiers gated)
    (h : schema.write (.updateIdentifiers
      (.ungate (gated.map (·.id)) (decide (d.status = .failedTerminal)))) v ≠ .duplicateKey) :
    ∃ ids, schema.wrote (.updateIdentifiers
        (.ungate (gated.map (·.id)) (decide (d.status = .failedTerminal)))) v =
          { v with identifiers := ids } ∧
      Changed (Ungates d) v.identifiers ids ∧
      ids.countP (Database.isGatedBy d.operationId) +
          min limit (v.identifiers.countP (Database.isGatedBy d.operationId)) =
        v.identifiers.countP (Database.isGatedBy d.operationId) := by
  let u : IdentifiersUpdate := .ungate (gated.map (·.id)) (decide (d.status = .failedTerminal))
  have hdocs : Database.unchecked v (.updateIdentifiers u) =
      .written (((v.identifiers.filter u.selects).map u.apply).map .identifier) := by
    rw [List.map_map]
    rfl
  have hperm := replaceAll_perm (p := u.selects) hv.identifiers u.apply_id
  have hungates : ∀ r ∈ v.identifiers, u.selects r = true → Ungates d r (u.apply r) := by
    intro r hr hu
    refine ⟨hgated.selects hv.identifiers r hr hu, ?_⟩
    by_cases hfailed : d.status = .failedTerminal
    · simp [u, IdentifiersUpdate.apply, hfailed]
    · simp [u, IdentifiersUpdate.apply, hfailed]
  have hwrote := (wrote_putAll hdocs h).trans (put_identifiers _ v)
  refine ⟨_, hwrote, ?_, ?_⟩
  · obtain ⟨f, hf, hchanged⟩ := changed_updateMany hungates
    exact ⟨f, hperm.trans hf, hchanged⟩
  · rw [hperm.countP_eq, ← hgated.countP hv.identifiers]
    exact countP_updateMany (hgated.selects hv.identifiers) fun _ => rfl

/-- The batches that have been listed are given a date. -/
theorem wrote_expire (hv : v.Indexed) {limit : ℕ} {batches : List AuthIdentifierRepairBatch}
    {now : Date} (hbatches : FindLimited (Database.isOpenBatchOf d.operationId) limit v.batches batches)
    (h : schema.write (.expireBatches (batches.map (·.id)) now) v ≠ .duplicateKey) :
    ∃ bs, schema.wrote (.expireBatches (batches.map (·.id)) now) v = { v with batches := bs } ∧
      Changed (Expires d) v.batches bs ∧
      bs.countP (Database.isOpenBatchOf d.operationId) +
          min limit (v.batches.countP (Database.isOpenBatchOf d.operationId)) =
        v.batches.countP (Database.isOpenBatchOf d.operationId) := by
  let f (b : AuthIdentifierRepairBatch) : AuthIdentifierRepairBatch :=
    { b with expiresAt := some now }
  let p (b : AuthIdentifierRepairBatch) : Bool := decide (b.id ∈ batches.map (·.id))
  have hdocs : Database.unchecked v (.expireBatches (batches.map (·.id)) now) =
      .written (((v.batches.filter p).map f).map .batch) := by
    rw [List.map_map]
    rfl
  have hperm := replaceAll_perm (p := p) (f := f) hv.batches fun _ => rfl
  have hexpires : ∀ b ∈ v.batches, p b = true → Expires d b (f b) :=
    fun b hb hp => ⟨hbatches.selects hv.batches b hb hp, now, rfl⟩
  have hwrote := (wrote_putAll hdocs h).trans (put_batches _ v)
  refine ⟨_, hwrote, ?_, ?_⟩
  · obtain ⟨g, hg, hchanged⟩ := changed_updateMany hexpires
    exact ⟨g, hperm.trans hg, hchanged⟩
  · rw [hperm.countP_eq, ← hbatches.countP hv.batches]
    exact countP_updateMany (hbatches.selects hv.batches) fun _ => Bool.and_false _

theorem wrote_operations {u : OperationUpdate}
    (h : schema.write (.updateOperation u) v ≠ .duplicateKey) :
    ∃ ds, schema.wrote (.updateOperation u) v = { v with operations := ds } := by
  have hunchecked : Database.unchecked v (.updateOperation u) =
      Accounts.Database.update .operation u.selects u.apply v.operations := rfl
  rcases wrote_update hunchecked h with ⟨x, -, -, -, hwrote⟩ | ⟨-, -, hwrote⟩
  · exact ⟨_, hwrote⟩
  · exact ⟨v.operations, hwrote⟩

/-- An update that selects no other operation leaves this one, or what it makes of it. -/
theorem wrote_operation (hv : v.Indexed) {u : OperationUpdate}
    (hu : ∀ x, u.selects x = true → x.operationId = d.operationId)
    (h : schema.write (.updateOperation u) v ≠ .duplicateKey) (hd : d ∈ v.operations) :
    (if u.selects d then u.apply d else d) ∈
      (schema.wrote (.updateOperation u) v).operations := by
  have hunchecked : Database.unchecked v (.updateOperation u) =
      Accounts.Database.update .operation u.selects u.apply v.operations := rfl
  rcases wrote_update hunchecked h with ⟨x, hx, hux, -, hwrote⟩ | ⟨hnone, -, hwrote⟩
  · rw [hwrote]
    obtain rfl : x = d := eq_of_key hv.operationId hx hd (hu x hux)
    rw [if_pos hux]
    exact mem_replaceOne.mpr (.inl rfl)
  · rw [hwrote, hnone d hd]
    exact hd

end Writes

section Call

open AuthIdentifierReconciliationService

variable {env : Environment} {owner : String} {base x : Database} {m n : ℕ}
  {Q : Unit → Database → Prop} {d' : AuthIdentifierOperation}

/-- At most `m` gates and batches of the operation have been settled since `v`. -/
structure Bounded (m : ℕ) (d : AuthIdentifierOperation) (v x : Database) : Prop where
  indexed : x.Indexed
  cleaned : Cleaned d v x
  left_le : left d v ≤ left d x + m

/-- `n` gates and batches of the operation have been settled since `v`, and the operations
are as they were. -/
structure Swept (n : ℕ) (d : AuthIdentifierOperation) (v x : Database) : Prop where
  indexed : x.Indexed
  cleaned : Cleaned d v x
  left_add : left d x + n = left d v
  operations : x.operations = v.operations

/-- Only the lease of the operation is another. -/
def Renewed (d d' : AuthIdentifierOperation) : Prop :=
  ∃ leaseExpiresAt updatedAt,
    d' = { d with leaseExpiresAt := leaseExpiresAt, updatedAt := updatedAt }

/-- The cleanup is all that the operation waits for, and the instance has its lease. -/
structure Finishable (owner : String) (d : AuthIdentifierOperation) : Prop where
  terminal : d.status ∈ TERMINAL_STATUSES
  pending : d.cleanupStatus = .pending
  event : d.terminalEventId.isSome = true
  recordedAt : d.terminalEventRecordedAt.isSome = true
  lease : d.leaseOwner = some owner

/-- The cleanup of the operation is over, and it has a date of expiry. -/
def Finished (d d' : AuthIdentifierOperation) : Prop :=
  ∃ leaseExpiresAt updatedAt expiresAt,
    d' = { d with
      leaseExpiresAt := leaseExpiresAt
      updatedAt := updatedAt
      cleanupStatus := .completed
      expiresAt := some expiresAt }

/-- What a call leaves: what it could settle is settled, and if nothing is left the operation
is finished. -/
structure Cleans (m : ℕ) (owner : String) (d : AuthIdentifierOperation) (v v' : Database) :
    Prop where
  indexed : v'.Indexed
  cleaned : Cleaned d v v'
  left_add : left d v' + min m (left d v) = left d v
  operation : d ∈ v.operations → ∃ d' ∈ v'.operations,
    (left d v' = 0 ∧ Finishable owner d → Finished d d') ∧
    (¬ (left d v' = 0 ∧ Finishable owner d) → Renewed d d')

theorem finishCleanup_selects {operationId : String} {now expiresAt : Date}
    (h : Renewed d d') (hid : operationId = d.operationId) :
    (OperationUpdate.finishCleanup operationId owner now expiresAt).selects d' = true ↔
      Finishable owner d := by
  obtain ⟨lease, updatedAt, rfl⟩ := h
  simp only [OperationUpdate.selects, OperationUpdate.leasedBy, Bool.and_eq_true, decide_eq_true_eq]
  constructor
  · rintro ⟨⟨⟨⟨⟨-, hterminal⟩, hpending⟩, hevent⟩, hrecorded⟩, hlease⟩
    exact ⟨hterminal, hpending, hevent, hrecorded, hlease⟩
  · intro h
    exact ⟨⟨⟨⟨⟨hid.symm, h.terminal⟩, h.pending⟩, h.event⟩, h.recordedAt⟩, h.lease⟩

theorem left_eq_zero : left d v = 0 ↔
    v.identifiers.any (Database.isGatedBy d.operationId) = false ∧
      v.batches.any (Database.isOpenBatchOf d.operationId) = false := by
  simp [left, List.countP_eq_zero]

theorem Swept.bounded (h : Swept n d v x) (hn : n ≤ m) : Bounded m d v x where
  indexed := h.indexed
  cleaned := h.cleaned
  left_le := by
    have hadd := h.left_add
    omega

/-- What is written of operations settles nothing. -/
theorem Bounded.operations (h : Bounded m d v x) (hx : v'.Indexed)
    (heq : ∃ ds, v' = { x with operations := ds }) : Bounded m d v v' := by
  obtain ⟨ds, rfl⟩ := heq
  exact ⟨hx, ⟨h.cleaned.identifiers, h.cleaned.batches⟩, h.left_le⟩

/-- The first of the call: the gates are taken away, as many as the bound allows. -/
theorem ungate_then (hv : v.Indexed) {gated : List AuthIdentifier} {K : Handler Unit}
    (hgated : FindLimited (Database.isGatedBy d.operationId) m v.identifiers gated)
    (hK : ∀ x, Swept gated.length d v x → x.batches = v.batches →
      Yields (Bounded m d v) none base K x Q) :
    Yields (Bounded m d v) none base
      (if ¬ gated.isEmpty = true then do
        let _ ← write none (.updateIdentifiers
          (.ungate (gated.map (·.id)) (decide (d.status = .failedTerminal))))
        K
      else K) v Q := by
  have hswept : ∀ hne : schema.write (.updateIdentifiers (.ungate (gated.map (·.id))
      (decide (d.status = .failedTerminal)))) v ≠ .duplicateKey,
      Swept gated.length d v (schema.wrote (.updateIdentifiers (.ungate (gated.map (·.id))
        (decide (d.status = .failedTerminal)))) v) ∧
      (schema.wrote (.updateIdentifiers (.ungate (gated.map (·.id))
        (decide (d.status = .failedTerminal)))) v).batches = v.batches := by
    intro hne
    have hindexed := wrote_indexed hv (.updateIdentifiers (.ungate (gated.map (·.id))
      (decide (d.status = .failedTerminal))))
    obtain ⟨ids, hwrote, hchanged, hcount⟩ := wrote_ungate hv hgated hne
    rw [hwrote] at hindexed ⊢
    refine ⟨⟨hindexed, ⟨hchanged, .refl _⟩, ?_, rfl⟩, rfl⟩
    rw [left, left, hgated.length_eq]
    show ids.countP _ + v.batches.countP _ + _ = _
    omega
  refine .ite (fun _ => write_then (fun _ hbounded => ?_) fun hne => ?_) fun hempty => ?_
  · by_cases hne : schema.write (.updateIdentifiers (.ungate (gated.map (·.id))
        (decide (d.status = .failedTerminal)))) v = .duplicateKey
    · rw [wrote_of_duplicateKey hne]
      exact hbounded
    · exact (hswept hne).1.bounded (hgated.length_eq ▸ Nat.min_le_left _ _)
  · exact hK _ (hswept hne).1 (hswept hne).2
  · have hnil : gated = [] := by simpa using hempty
    subst hnil
    exact hK v ⟨hv, .refl d v, rfl, rfl⟩ rfl

/-- Then the batches, as many as the bound still allows. -/
theorem expire_then (hx : Swept n d v x) (hn : n ≤ m)
    {batches : List AuthIdentifierRepairBatch} {K : Handler Unit}
    (hopen : FindLimited (Database.isOpenBatchOf d.operationId) (m - n) x.batches batches)
    (hK : ∀ y, Swept (n + batches.length) d v y → Yields (Bounded m d v) none base K y Q) :
    Yields (Bounded m d v) none base
      (if ¬ batches.isEmpty = true then do
        let now ← draw .currentDate
        let _ ← write none (.expireBatches (batches.map (·.id)) now)
        K
      else K) x Q := by
  have hswept : ∀ now, schema.write (.expireBatches (batches.map (·.id)) now) x ≠ .duplicateKey →
      Swept (n + batches.length) d v (schema.wrote (.expireBatches (batches.map (·.id)) now) x) := by
    intro now hne
    have hindexed := wrote_indexed hx.indexed (.expireBatches (batches.map (·.id)) now)
    obtain ⟨bs, hwrote, hchanged, hcount⟩ := wrote_expire hx.indexed hopen hne
    rw [hwrote] at hindexed ⊢
    refine ⟨hindexed, hx.cleaned.trans ⟨.refl _, hchanged⟩, ?_, hx.operations⟩
    have hadd := hx.left_add
    rw [left, left] at hadd ⊢
    rw [hopen.length_eq]
    show x.identifiers.countP _ + bs.countP _ + _ = _
    omega
  have hlength : n + batches.length ≤ m := by
    have hle : batches.length ≤ m - n := hopen.length_eq ▸ Nat.min_le_left _ _
    omega
  refine .ite (fun _ => draw_then fun now => write_then (fun _ hbounded => ?_) fun hne =>
    hK _ (hswept now hne)) fun hempty => ?_
  · by_cases hne : schema.write (.expireBatches (batches.map (·.id)) now) x = .duplicateKey
    · rw [wrote_of_duplicateKey hne]
      exact hbounded
    · exact (hswept now hne).bounded hlength
  · have hnil : batches = [] := by simpa using hempty
    subst hnil
    exact hK x hx

/-- What is written of an operation settles nothing. -/
theorem Bounded.update (h : Bounded m d v x) (u : OperationUpdate) :
    Bounded m d v (schema.wrote (.updateOperation u) x) := by
  by_cases hne : schema.write (.updateOperation u) x = .duplicateKey
  · rw [wrote_of_duplicateKey hne]
    exact h
  · exact h.operations (wrote_indexed h.indexed _) (wrote_operations hne)

theorem left_update (u : OperationUpdate) (h : schema.write (.updateOperation u) x ≠ .duplicateKey) :
    left d (schema.wrote (.updateOperation u) x) = left d x := by
  obtain ⟨ds, hwrote⟩ := wrote_operations h
  rw [hwrote]
  rfl

/-- The lease of the operation is renewed, if it is still held. -/
theorem renewLease_then {f : Bool → Handler Unit} (hx : Bounded m d v x)
    (hf : ∀ b y, Bounded m d v y → left d y = left d x →
      (d ∈ x.operations → ∃ d' ∈ y.operations, Renewed d d') →
      Yields (Bounded m d v) none base (f b) y Q) :
    Yields (Bounded m d v) none base (renewLease env owner d.operationId >>= f) x Q := by
  rw [renewLease, bind_assoc]
  refine draw_then fun now => updateOperation_then (fun _ h => h.update _) fun hne =>
    hf _ _ (hx.update _) (left_update _ hne) fun hd => ?_
  refine ⟨_, wrote_operation hx.indexed (fun y hy => ?_) hne hd, ?_⟩
  · simp only [OperationUpdate.selects, Bool.and_eq_true, decide_eq_true_eq] at hy
    exact hy.1.1
  · split
    · exact ⟨_, _, rfl⟩
    · exact ⟨d.leaseExpiresAt, d.updatedAt, rfl⟩

/-- The last of the call: if nothing is left, the operation is finished. -/
theorem finish_yields (hx : Bounded m d v x) (hleft : left d x + min m (left d v) = left d v)
    (hd : d ∈ v.operations → ∃ d' ∈ x.operations, Renewed d d') :
    Yields (Bounded m d v) none base (do
      let gateRemaining ← findOwn none (.anyGated d)
      let batchRemaining ← findOwn none (.anyOpenBatch d.operationId)
      if gateRemaining || batchRemaining then return
      else do
        let now ← draw .currentDate
        let _ ← updateOperation none (.finishCleanup d.operationId owner now
          (now + days env.retentionDays)))
      x fun _ v' => Cleans m owner d v v' := by
  refine find_then fun gateRemaining hgate => find_then fun batchRemaining hbatch => ?_
  have hzero : left d x = 0 ↔ (gateRemaining || batchRemaining) = false := by
    rw [left_eq_zero, Bool.or_eq_false_iff]
    exact ⟨fun h => ⟨hgate.trans h.1, hbatch.trans h.2⟩,
      fun h => ⟨hgate.symm.trans h.1, hbatch.symm.trans h.2⟩⟩
  refine .ite (fun hremaining => .pure ?_) fun hnone => draw_then fun now =>
    updateOperation_then (fun _ h => h.update _) fun hne => .pure ?_
  · have hne : left d x ≠ 0 := by
      rw [ne_eq, hzero, hremaining]
      exact nofun
    refine ⟨hx.indexed, hx.cleaned, hleft, fun hmem => ?_⟩
    obtain ⟨d', hd', hrenewed⟩ := hd hmem
    exact ⟨d', hd', fun h => absurd h.1 hne, fun _ => hrenewed⟩
  · have hdone : left d x = 0 := hzero.mpr (Bool.eq_false_of_not_eq_true hnone)
    have hafter := left_update (d := d) _ hne
    refine ⟨(hx.update _).indexed, (hx.update _).cleaned, ?_, fun hmem => ?_⟩
    · rw [hafter]
      exact hleft
    · obtain ⟨d', hd', hrenewed⟩ := hd hmem
      have hid : d'.operationId = d.operationId := by
        obtain ⟨lease, updatedAt, rfl⟩ := hrenewed
        rfl
      have hselects : (OperationUpdate.finishCleanup d.operationId owner now
          (now + days env.retentionDays)).selects d' = true ↔ Finishable owner d :=
        finishCleanup_selects hrenewed rfl
      refine ⟨_, wrote_operation (d := d') hx.indexed (fun y hy => ?_) hne hd', ?_, ?_⟩
      · simp only [OperationUpdate.selects, Bool.and_eq_true, decide_eq_true_eq] at hy
        exact hy.1.1.1.1.1.trans hid.symm
      · rintro ⟨-, hfinishable⟩
        rw [if_pos (hselects.mpr hfinishable)]
        obtain ⟨lease, updatedAt, rfl⟩ := hrenewed
        exact ⟨_, _, _, rfl⟩
      · intro hnot
        rw [if_neg fun h => hnot ⟨hafter.trans hdone, hselects.mp h⟩]
        exact hrenewed

theorem cleanup_yields (env : Environment) (owner : String) (d : AuthIdentifierOperation)
    (base : Database) (hv : v.Indexed) :
    Yields (Bounded env.identifierMaxOperationAssignments d v) none base (cleanup env owner d) v
      fun _ v' => Cleans env.identifierMaxOperationAssignments owner d v v' := by
  rw [cleanup]
  refine find_then fun gated hgated => ungate_then hv hgated fun x hx hbatches => ?_
  have hgates := hgated.length_eq
  -- what follows both stages
  have hrest : ∀ n y, Swept n d v y →
      n = min env.identifierMaxOperationAssignments (left d v) →
      Yields (Bounded env.identifierMaxOperationAssignments d v) none base (do
        let _ ← renewLease env owner d.operationId
        let gateRemaining ← findOwn none (.anyGated d)
        let batchRemaining ← findOwn none (.anyOpenBatch d.operationId)
        if gateRemaining || batchRemaining then return
        else do
          let now ← draw .currentDate
          let _ ← updateOperation none (.finishCleanup d.operationId owner now
            (now + days env.retentionDays))) y
        fun _ v' => Cleans env.identifierMaxOperationAssignments owner d v v' := by
    intro n y hy hn
    refine renewLease_then (hy.bounded (hn ▸ Nat.min_le_left _ _)) fun b z hz hleft hd =>
      finish_yields hz ?_ fun hmem => hd (hy.operations ▸ hmem)
    rw [hleft, ← hn]
    exact hy.left_add
  refine .ite (fun hlt => find_then fun batches hopen => ?_) fun hfull => hrest _ x hx ?_
  · refine expire_then hx hlt.le hopen fun y hy => hrest _ y hy ?_
    rw [hopen.length_eq, hbatches, hgates, left]
    omega
  · rw [hgates, left] at *
    omega

end Call

end Operations
