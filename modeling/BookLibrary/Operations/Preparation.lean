import BookLibrary.Operations.Crashes
import BookLibrary.Operations.Progress

/-!
# The batches of a repair

`prepareBatch` and `activateBatch` on their own: each is one transaction, and what it commits
has come further.
-/

namespace Operations

open AuthIdentifiers Documents Interleaving

open AuthIdentifierRepairService

namespace RepairPlan

variable {p : RepairPlan}

theorem assignmentId_inj {x y : Reassignment} (h : p.assignmentId x = p.assignmentId y) :
    x.ref = y.ref := by
  have hlist := congrArg String.toList h
  simp only [assignmentId, String.toList_append, List.append_assoc] at hlist
  replace hlist := List.append_cancel_left hlist
  obtain ⟨⟨xtype, xid⟩, xnew⟩ := x
  obtain ⟨⟨ytype, yid⟩, ynew⟩ := y
  cases xtype <;> cases ytype <;> simp_all [subjectTypeText, Reassignment.ref, String.toList_inj]

theorem Advance.refl {preparing : Option ℕ} {v : Database} (h : p.Progress preparing v) :
    Advance p preparing v v := ⟨h, ⟨fun _ _ _ hd => hd, fun _ _ ha => ha⟩, rfl, rfl⟩

theorem Advance.completed {preparing : Option ℕ} {v v' : Database} (h : Advance p preparing v v') :
    p.Completed v' ↔ p.Completed v := by
  rw [Completed, Completed]
  simp only [IsParent, h.operations]

section Items

variable {I : Database → Prop} {n : ℕ} {base v : Database} {α : Type}
  {Q : α → Database → Prop} {preparing : Option ℕ} (hp : p.Distinct) {x : Reassignment}
  (hx : x ∈ p.items) (h : p.Progress preparing v) (hopen : ¬ p.Completed v)

include hp hx h hopen

theorem reserveReplacement_then {operation : AuthIdentifierOperation} {f : AuthIdentifier → Handler α}
    (hoperationId : operation.operationId = p.operationId)
    (hactor : operation.requestedBy.subjectId = p.actorId)
    (hf : ∀ r v₁, Advance p preparing v v₁ → p.Reserved v₁ x →
      reservation v₁ x.newIdentifier = some r → Yields I (some n) base (f r) v₁ Q) :
    Yields I (some n) base (reserveReplacement operation x (some n) >>= f) v Q := by
  refine .bind (R := fun r v₁ => Advance p preparing v v₁ ∧ p.Reserved v₁ x ∧
    reservation v₁ x.newIdentifier = some r) ?_ fun r v₁ hr => hf r v₁ hr.1 hr.2.1 hr.2.2
  refine draw_then fun now => draw_then fun newId => .tryCatch ?_ fun error v₁ =>
    .ite (fun _ => .throw) fun _ => .throw
  rw [hoperationId, hactor]
  refine write_then (w := .upsertIdentifier (p.upsert x now newId.1)) nofun fun hw => ?_
  obtain ⟨-, hdocs, -, -⟩ := wrote_upsert h.indexed hw
  obtain ⟨hadvance, hreserved, hnow⟩ := h.put_reservation hp hx hopen hw
  rw [hdocs]
  exact .pure ⟨hadvance, hreserved, hnow⟩

theorem applyAggregateIdentifier_then {f : Unit → Handler α}
    (hf : ∀ v₁, Advance p preparing v v₁ → p.Moved v₁ x →
      (∀ identifier, reservation v₁ identifier = reservation v identifier) →
      Yields I (some n) base (f ()) v₁ Q) :
    Yields I (some n) base (applyAggregateIdentifier x (some n) >>= f) v Q := by
  refine .bind (R := fun _ v₁ => Advance p preparing v v₁ ∧ p.Moved v₁ x ∧
    ∀ identifier, reservation v₁ identifier = reservation v identifier) ?_
    fun _ v₁ hr => hf v₁ hr.1 hr.2.1 hr.2.2
  -- what the account carries now, with the account that has it
  refine .bind (R := fun r v₁ => v₁ = v ∧ ∀ current, r = some current → ∃ d,
    accountOf v x.ref = some d ∧ (current = some x.newIdentifier → reassigned x.newIdentifier d = d) ∧
    (current ≠ some x.newIdentifier → ∀ w : Write,
      w = .account (.setAccountIdentifier x.subjectType x.subjectId x.newIdentifier) →
      schema.write w v ≠ .duplicateKey →
      schema.wrote w v = v.put (reassigned x.newIdentifier d))) ?_ ?_
  · obtain ⟨⟨subjectType, subjectId⟩, newIdentifier⟩ := x
    cases subjectType with
    | staff =>
      refine find_then fun r hr => .pure ⟨rfl, fun current hcurrent => ?_⟩
      obtain ⟨d, rfl, rfl⟩ := Option.map_eq_some_iff.mp hcurrent
      have hid : d.id = subjectId := of_decide_eq_true hr.2
      subst hid
      refine ⟨.staffUser d, ?_, fun heq => ?_, fun hne w hw hwrite => ?_⟩
      · exact congrArg (Option.map _) (find_of_mem h.indexed.staffUsers hr.1)
      · exact if_pos (Option.some.inj heq)
      · subst hw
        rcases wrote_update rfl hwrite with ⟨d', hd', hid, -, hwrote⟩ | ⟨hnone, -⟩
        · rw [hwrote, eq_of_key h.indexed.staffUsers hd' hr.1 (of_decide_eq_true hid)]
          have hne' : d.email ≠ newIdentifier := fun heq => hne (congrArg some heq)
          simp [reassigned, hne']
        · exact absurd (hnone d hr.1) (by simp)
    | member =>
      refine find_then fun r hr => .pure ⟨rfl, fun current hcurrent => ?_⟩
      obtain ⟨d, rfl, rfl⟩ := Option.map_eq_some_iff.mp hcurrent
      have hid : d.id = subjectId := of_decide_eq_true hr.2
      subst hid
      refine ⟨.member d, ?_, fun heq => ?_, fun hne w hw hwrite => ?_⟩
      · exact congrArg (Option.map _) (find_of_mem h.indexed.members hr.1)
      · exact if_pos heq
      · subst hw
        rcases wrote_update rfl hwrite with ⟨d', hd', hid, -, hwrote⟩ | ⟨hnone, -⟩
        · rw [hwrote, eq_of_key h.indexed.members hd' hr.1 (of_decide_eq_true hid)]
          have hne' : d.loginIdentifier ≠ some newIdentifier := hne
          simp [reassigned, hne']
        · exact absurd (hnone d hr.1) (by simp)
  · rintro r v₁ ⟨rfl, hr⟩
    cases r with
    | none => exact .throw
    | some current =>
      obtain ⟨d, hd, hsame, hset⟩ := hr current rfl
      refine .ite (fun hcurrent => ?_) fun hcurrent => ?_
      · refine .pure ⟨.refl h, ?_, fun _ => rfl⟩
        rcases h.accounts x hx with heq | hmoved
        · exact ⟨d, heq.symm.trans hd, hd.trans (congrArg some (hsame hcurrent).symm)⟩
        · exact hmoved
      · refine write_then (by rintro ⟨⟩) fun hw => .pure ?_
        have hwrote := hset hcurrent _ rfl hw
        have hindexed := wrote_indexed h.indexed
          (.account (.setAccountIdentifier x.subjectType x.subjectId x.newIdentifier))
        rw [hwrote] at hindexed ⊢
        exact h.put_account hp hx hopen hindexed hd

end Items

section Batches

/-- The repair is at work, or about to be completed. -/
def Driven (p : RepairPlan) (v : Database) : Prop :=
  ∃ d, p.IsParent v d ∧ (d.status = .applying ∨ d.status = .finalizing)

def HasBatch (p : RepairPlan) (v : Database) (k : ℕ) : Prop :=
  ∃ b ∈ p.batches v, b.batchNumber = k

/-- There is a batch of `x` that is activated, or that comes before the number `n`. -/
def Covered (p : RepairPlan) (n : ℕ) (v : Database) (x : Reassignment) : Prop :=
  ∃ b ∈ p.batches v, Belongs b x ∧ (b.status = .activated ∨ b.batchNumber < n)

/-- The batch `k` is being filled with `xs`, and the items `todo` are still to come. -/
structure Filling (p : RepairPlan) (v₀ : Database) (k : ℕ) (xs todo : List Reassignment)
    (v : Database) : Prop where
  progress : p.Progress (some k) v
  operations : v.operations = v₀.operations
  fresh : ∀ b ∈ p.batches v₀, b.batchNumber ≠ k
  old : ∀ b ∈ p.batches v₀, b ∈ p.batches v
  new : ∀ b ∈ p.batches v, b.batchNumber ≠ k → b ∈ p.batches v₀
  batch : ∃ b ∈ p.batches v, b.batchNumber = k ∧ b.status = .pending ∧
    (b.assignments.map (·.assignmentId)).Nodup ∧ (∀ x ∈ xs, Belongs b x) ∧
    ∀ a ∈ b.assignments, ∃ x ∈ p.items, p.Assigns a x ∧ (p.Done v a x ∨ x ∈ todo)

variable {I : Database → Prop} {n : ℕ} {base v : Database} {α : Type}
  {Q : α → Database → Prop} {k : ℕ} {xs todo : List Reassignment} {v₀ : Database}

theorem unique_batch (hv : v.Indexed) {b b' : AuthIdentifierRepairBatch} (hb : b ∈ p.batches v)
    (hb' : b' ∈ p.batches v) (hnumber : b.batchNumber = b'.batchNumber) : b = b' := by
  rw [mem_batches] at hb hb'
  refine eq_of_key hv.checkpoint hb.1 hb'.1 ?_
  rw [Prod.mk.injEq]
  exact ⟨hb.2.trans hb'.2.symm, hnumber⟩

theorem unique_parent (hv : v.Indexed) {d d' : AuthIdentifierOperation} (hd : p.IsParent v d)
    (hd' : p.IsParent v d') : d = d' :=
  eq_of_key hv.operationId hd.1 hd'.1 (hd.2.trans hd'.2.symm)

theorem Driven.open (hv : v.Indexed) (h : p.Driven v) : ¬ p.Completed v := by
  obtain ⟨d, hd, hstatus⟩ := h
  rintro ⟨d', hd', hcompleted⟩
  rw [unique_parent hv hd' hd] at hcompleted
  rw [hcompleted] at hstatus
  simp at hstatus

theorem belongs_congr {b b' : AuthIdentifierRepairBatch}
    (h : b'.assignments.map (fun a => (a.subjectType, a.subjectId)) =
      b.assignments.map fun a => (a.subjectType, a.subjectId)) {x : Reassignment}
    (hx : Belongs b x) : Belongs b' x := by
  obtain ⟨a, ha, htype, hid⟩ := hx
  have hmem : (x.subjectType, x.subjectId) ∈
      b.assignments.map fun a => (a.subjectType, a.subjectId) :=
    List.mem_map.mpr ⟨a, ha, by rw [htype, hid]⟩
  rw [← h] at hmem
  obtain ⟨a', ha', heq⟩ := List.mem_map.mp hmem
  rw [Prod.mk.injEq] at heq
  exact ⟨a', ha', heq⟩

/-- What is stored of the batches of a repair after one of them has been put. -/
theorem mem_batches_put {b x : AuthIdentifierRepairBatch} :
    x ∈ p.batches (v.put (.batch b)) ↔ x = b ∧ b.parentOperationId = p.operationId ∨
      x ∈ p.batches v ∧ x.id ≠ b.id := by
  rw [mem_batches, mem_batches]
  have hmem : x ∈ (v.put (.batch b)).batches ↔ x = b ∨ x ∈ v.batches ∧ x.id ≠ b.id := mem_replaceOne
  rw [hmem]
  constructor
  · rintro ⟨rfl | ⟨hx, hne⟩, hparent⟩
    · exact .inl ⟨rfl, hparent⟩
    · exact .inr ⟨⟨hx, hparent⟩, hne⟩
  · rintro (⟨rfl, hparent⟩ | ⟨⟨hx, hparent⟩, hne⟩)
    · exact ⟨.inl rfl, hparent⟩
    · exact ⟨.inr ⟨hx, hne⟩, hparent⟩

theorem Filling.advance (h : Filling p v₀ k xs todo v) {v' : Database}
    (ha : Advance p (some k) v v') : Filling p v₀ k xs todo v' := by
  have hbatches : p.batches v' = p.batches v := by rw [batches, batches, ha.batches]
  refine ⟨ha.progress, ha.operations.trans h.operations, h.fresh, ?_, ?_, ?_⟩
  · rw [hbatches]
    exact h.old
  · rw [hbatches]
    exact h.new
  · obtain ⟨b, hb, hnumber, hstatus, hnodup, hbelongs, hassigned⟩ := h.batch
    refine ⟨b, hbatches ▸ hb, hnumber, hstatus, hnodup, hbelongs, fun a hmem => ?_⟩
    obtain ⟨x, hx, hassigns, hd⟩ := hassigned a hmem
    exact ⟨x, hx, hassigns, hd.imp_left (ha.furthers.done a x hx)⟩

theorem Filling.open (h : Filling p v₀ k xs todo v) (hopen : ¬ p.Completed v₀) :
    ¬ p.Completed v := by
  rintro ⟨d, ⟨hd, hid⟩, hstatus⟩
  rw [h.operations] at hd
  exact hopen ⟨d, ⟨hd, hid⟩, hstatus⟩

/-- The batch is stored, with all of its items still to come. -/
theorem Filling.insert (hp : p.Distinct) (h : p.Progress none v) (hopen : ¬ p.Completed v)
    {b : AuthIdentifierRepairBatch} (hparent : b.parentOperationId = p.operationId)
    (hstatus : b.status = .pending) (hxs : xs.Sublist p.items)
    {f : Reassignment → AuthIdentifierOperationAssignment} (hassignments : b.assignments = xs.map f)
    (hf : ∀ x, p.Assigns (f x) x) (hcut : p.Cut b)
    (hw : schema.write (.insertBatch b) v ≠ .duplicateKey) :
    Filling p v b.batchNumber xs xs (schema.wrote (.insertBatch b) v) := by
  have hindexed := wrote_indexed h.indexed (.insertBatch b)
  obtain ⟨hkey, -, hwrote⟩ := wrote_insert rfl hw
  rw [hwrote] at hindexed ⊢
  have hid : ∀ b' ∈ v.batches, b'.id ≠ b.id := by
    intro b' hb' heq
    have hfind := find_batch h.indexed hb'
    rw [heq] at hfind
    rw [Accounts.Document.key, hfind] at hkey
    cases hkey
  have hb : b ∈ p.batches (v.put (.batch b)) := mem_batches_put.mpr (.inl ⟨rfl, hparent⟩)
  have hold : ∀ b' ∈ p.batches v, b' ∈ p.batches (v.put (.batch b)) := by
    intro b' hb'
    exact mem_batches_put.mpr (.inr ⟨hb', hid b' (mem_batches.mp hb').1⟩)
  have hnumber : ∀ b' ∈ p.batches v, b'.batchNumber ≠ b.batchNumber := by
    intro b' hb' heq
    have hsame := unique_batch hindexed (hold b' hb') hb heq
    exact hid b' (mem_batches.mp hb').1 (congrArg _ hsame)
  have hitems : ∀ x ∈ xs, x ∈ p.items := fun x hx => hxs.subset hx
  have hids : (b.assignments.map (·.assignmentId)).Nodup := by
    have heq : b.assignments.map (·.assignmentId) = xs.map p.assignmentId := by
      rw [hassignments, List.map_map]
      exact List.map_congr_left fun x _ => (hf x).assignmentId
    rw [heq]
    refine List.Nodup.map_on (fun x hx y hy hxy => ?_) (hp.subjects.of_map.sublist hxs)
    exact hp.eq_of_subject (hitems x hx) (hitems y hy) (assignmentId_inj hxy)
  refine ⟨?_, rfl, hnumber, hold, fun b' hb' hne => ?_, b, hb, rfl, hstatus, hids, ?_, ?_⟩
  · exact h.put_batch hindexed hopen (fun _ hne => absurd rfl hne) (fun _ => hcut) (by simp)
  · rcases mem_batches_put.mp hb' with ⟨rfl, -⟩ | ⟨hb', -⟩
    · exact absurd rfl hne
    · exact hb'
  · intro x hx
    refine ⟨f x, ?_, (hf x).subjectType, (hf x).subjectId⟩
    rw [hassignments]
    exact List.mem_map_of_mem hx
  · intro a ha
    rw [hassignments] at ha
    obtain ⟨x, hx, rfl⟩ := List.mem_map.mp ha
    exact ⟨x, hitems x hx, hf x, .inr hx⟩

/-- The assignment of `x` is marked. -/
theorem Filling.mark (hp : p.Distinct) (hopen : ¬ p.Completed v) {x : Reassignment}
    (h : Filling p v₀ k xs (x :: todo) v) (hx : x ∈ p.items) (hmoved : p.Moved v x)
    (hreserved : p.Reserved v x) {r : AuthIdentifier} (hr : reservation v x.newIdentifier = some r)
    {now : Date} (hw : schema.write (.updateBatch
      (.markApplied p.operationId k (p.assignmentId x) r.id now)) v ≠ .duplicateKey) :
    Filling p v₀ k xs todo (schema.wrote (.updateBatch
      (.markApplied p.operationId k (p.assignmentId x) r.id now)) v) := by
  have hindexed := wrote_indexed h.progress.indexed
    (.updateBatch (.markApplied p.operationId k (p.assignmentId x) r.id now))
  obtain ⟨b, hb, hnumber, hstatus, hnodup, hbelongs, hassigned⟩ := h.batch
  rcases wrote_update rfl hw with ⟨b', hb', hu, -, hwrote⟩ | ⟨hnone, -, hwrote⟩
  · have hsel : (b'.parentOperationId = p.operationId ∧ b'.batchNumber = k) ∧
        hasAssignment (p.assignmentId x) b'.assignments = true := by
      simpa [BatchUpdate.selects] using hu
    obtain rfl : b' = b := unique_batch h.progress.indexed (mem_batches.mpr ⟨hb', hsel.1.1⟩) hb
      (hsel.1.2.trans hnumber.symm)
    rw [hwrote] at hindexed ⊢
    have hlike := Alike.put_batch v
      ((BatchUpdate.markApplied p.operationId k (p.assignmentId x) r.id now).apply b')
    have hput : ∀ {y}, y ∈ p.batches v → y.batchNumber ≠ k → y ∈ p.batches (v.put (.batch
        ((BatchUpdate.markApplied p.operationId k (p.assignmentId x) r.id now).apply b'))) := by
      intro y hy hne
      refine mem_batches_put.mpr (.inr ⟨hy, fun heq => hne ?_⟩)
      rw [eq_of_key h.progress.indexed.batches (mem_batches.mp hy).1 hb' heq]
      exact hnumber
    refine ⟨?_, h.operations, h.fresh, fun y hy => hput (h.old y hy) (h.fresh y hy), ?_, ?_⟩
    · refine h.progress.put_batch hindexed hopen (fun _ hne => absurd (congrArg some hnumber) hne)
        (fun _ n hn ys hys y hy => ?_) fun _ _ _ hne => hne
      exact belongs_congr (BatchUpdate.apply_map (fun _ _ _ _ => rfl) _ _) (h.progress.cut b' hb n hn ys hys y hy)
    · intro y hy hne
      rcases mem_batches_put.mp hy with ⟨rfl, -⟩ | ⟨hy, -⟩
      · exact absurd hnumber hne
      · exact h.new y hy hne
    · refine ⟨_, mem_batches_put.mpr (.inl ⟨rfl, hsel.1.1⟩), hnumber, hstatus, ?_, ?_, ?_⟩
      · rw [BatchUpdate.apply_map fun _ _ _ _ => rfl]
        exact hnodup
      · exact fun y hy => belongs_congr (BatchUpdate.apply_map (fun _ _ _ _ => rfl) _ _) (hbelongs y hy)
      · intro a ha
        rcases mem_adjust hnodup ha with ⟨a₀, ha₀, hid, rfl⟩ | ⟨ha, hne⟩
        · obtain ⟨y, hy, hassigns, -⟩ := hassigned a₀ ha₀
          have hsame : y = x :=
            hp.eq_of_subject hy hx (assignmentId_inj (hassigns.assignmentId.symm.trans hid))
          subst hsame
          exact ⟨y, hy, ⟨hid, hassigns.subjectType, hassigns.subjectId⟩,
            .inl (hlike.done ⟨hmoved, .inl hreserved, r, hr, rfl⟩)⟩
        · obtain ⟨y, hy, hassigns, hd⟩ := hassigned a ha
          refine ⟨y, hy, hassigns, ?_⟩
          rcases hd with hd | hd
          · exact .inl (hlike.done hd)
          · rcases List.mem_cons.mp hd with rfl | hd
            · exact absurd hassigns.assignmentId hne
            · exact .inr hd
  · rw [hwrote]
    refine ⟨h.progress, h.operations, h.fresh, h.old, h.new, b, hb, hnumber, hstatus, hnodup, hbelongs, ?_⟩
    intro a ha
    obtain ⟨y, hy, hassigns, hd⟩ := hassigned a ha
    refine ⟨y, hy, hassigns, ?_⟩
    rcases hd with hd | hd
    · exact .inl hd
    · rcases List.mem_cons.mp hd with rfl | hd
      · have hsel := hnone b (mem_batches.mp hb).1
        have hany : hasAssignment (p.assignmentId y) b.assignments = true :=
          List.any_eq_true.mpr ⟨a, ha, decide_eq_true hassigns.assignmentId⟩
        simp [BatchUpdate.selects, (mem_batches.mp hb).2, hnumber, hany] at hsel
      · exact .inr hd

/-- What `prepareBatch` leaves where it ends without an exception. -/
structure Prepares (p : RepairPlan) (v : Database) (k : ℕ) (xs : List Reassignment)
    (v' : Database) : Prop where
  progress : p.Progress none v'
  operations : v'.operations = v.operations
  old : ∀ b ∈ p.batches v, b ∈ p.batches v'
  new : ∀ b ∈ p.batches v', b.batchNumber ≠ k → b ∈ p.batches v
  stored : p.HasBatch v' k
  batch : p.HasBatch v k ∨ ∃ b ∈ p.batches v', b.batchNumber = k ∧ ∀ x ∈ xs, Belongs b x

/-- With nothing to come the batch is prepared. -/
theorem Filling.prepare (hopen : ¬ p.Completed v) (h : Filling p v₀ k xs [] v) {now : Date}
    (hw : schema.write (.updateBatch (.prepare p.operationId k now)) v ≠ .duplicateKey) :
    Prepares p v₀ k xs (schema.wrote (.updateBatch (.prepare p.operationId k now)) v) := by
  have hindexed := wrote_indexed h.progress.indexed (.updateBatch (.prepare p.operationId k now))
  obtain ⟨b, hb, hnumber, -, -, hbelongs, hassigned⟩ := h.batch
  have hparent := (mem_batches.mp hb).2
  rcases wrote_update rfl hw with ⟨b', hb', hu, -, hwrote⟩ | ⟨hnone, -, hwrote⟩
  · have hsel : b'.parentOperationId = p.operationId ∧ b'.batchNumber = k := by
      simpa [BatchUpdate.selects] using hu
    obtain rfl : b' = b := unique_batch h.progress.indexed (mem_batches.mpr ⟨hb', hsel.1⟩) hb
      (hsel.2.trans hnumber.symm)
    rw [hwrote] at hindexed ⊢
    have hother : ∀ y ∈ p.batches v, y.id ≠ b'.id → y.batchNumber ≠ k := by
      intro y hy hne heq
      exact hne (congrArg _ (unique_batch h.progress.indexed hy hb (heq.trans hnumber.symm)))
    have hput := (mem_batches_put (v := v)).mpr
      (.inl ⟨rfl, hparent⟩ : (BatchUpdate.prepare p.operationId k now).apply b' = _ ∧ _ ∨ _)
    refine ⟨?_, h.operations, fun y hy => ?_, fun y hy hne => ?_, ⟨_, hput, hnumber⟩,
      .inr ⟨_, hput, hnumber, hbelongs⟩⟩
    · refine h.progress.put_batch hindexed hopen (fun _ _ => ⟨.inl rfl, fun a ha => ?_, nofun⟩)
        (fun _ => h.progress.cut b' hb) fun y hy hne _ heq => ?_
      · obtain ⟨x, hx, hassigns, hd⟩ := hassigned a ha
        exact ⟨x, hx, hassigns, hd.resolve_right List.not_mem_nil⟩
      · exact hother y hy hne (Option.some.inj heq)
    · refine mem_batches_put.mpr (.inr ⟨h.old y hy, fun heq => h.fresh y hy ?_⟩)
      rw [eq_of_key h.progress.indexed.batches (mem_batches.mp (h.old y hy)).1 hb' heq]
      exact hnumber
    · rcases mem_batches_put.mp hy with ⟨rfl, -⟩ | ⟨hy, -⟩
      · exact absurd hnumber hne
      · exact h.new y hy hne
  · have hsel := hnone b (mem_batches.mp hb).1
    simp [BatchUpdate.selects, hparent, hnumber] at hsel

theorem assigns_batchAssignment {env : Environment} {operation : AuthIdentifierOperation}
    {conflict : AuthIdentifier} {key : String} (h : operation.operationId = p.operationId)
    (x : Reassignment) : p.Assigns (batchAssignment env operation conflict key x) x := by
  refine ⟨?_, rfl, rfl⟩
  rw [assignmentId, ← h]
  rfl

/-- One round of the loop over the items of the batch. -/
theorem prepareAssignment_yields (hp : p.Distinct) {operation : AuthIdentifierOperation}
    (hoperationId : operation.operationId = p.operationId)
    (hactor : operation.requestedBy.subjectId = p.actorId) {x : Reassignment} (hx : x ∈ p.items)
    {a : AuthIdentifierOperationAssignment} (ha : p.Assigns a x) (hopen : ¬ p.Completed v)
    (h : Filling p v₀ k xs (x :: todo) v) :
    Yields I (some n) base (prepareAssignment operation k (some n) x a) v fun _ v' =>
      Filling p v₀ k xs todo v' := by
  refine reserveReplacement_then hp hx h.progress hopen hoperationId hactor fun r v₁ h₁ hreserved hr => ?_
  have hopen₁ : ¬ p.Completed v₁ := fun hc => hopen (h₁.completed.mp hc)
  refine applyAggregateIdentifier_then hp hx h₁.progress hopen₁ fun v₂ h₂ hmoved hsame => ?_
  have hopen₂ : ¬ p.Completed v₂ := fun hc => hopen₁ (h₂.completed.mp hc)
  refine draw_then fun now => ?_
  rw [hoperationId, ha.assignmentId]
  refine write_then nofun fun hw => .pure ?_
  refine ((h.advance h₁).advance h₂).mark hp hopen₂ hx hmoved ?_ ?_ hw
  · rw [Reserved, hsame]
    exact hreserved
  · rw [hsame]
    exact hr

/-- The loop over the items of the batch. -/
theorem prepareAssignments_yields (hp : p.Distinct) {operation : AuthIdentifierOperation}
    (hoperationId : operation.operationId = p.operationId)
    (hactor : operation.requestedBy.subjectId = p.actorId) (hitems : ∀ x ∈ xs, x ∈ p.items)
    {g : Reassignment → AuthIdentifierOperationAssignment} (hg : ∀ x, p.Assigns (g x) x)
    (hopen : ¬ p.Completed v₀) (h : Filling p v₀ k xs xs v) :
    Yields I (some n) base ((xs.zip (xs.map g)).forM fun (x, a) =>
      prepareAssignment operation k (some n) x a) v fun _ v' => Filling p v₀ k xs [] v' := by
  rw [← List.map_prod_left_eq_zip]
  refine .mono (.forM (P := fun pairs v' => Filling p v₀ k xs (pairs.map (·.1)) v' ∧
    ∀ c ∈ pairs, c.1 ∈ p.items ∧ p.Assigns c.2 c.1) ?_ ⟨?_, ?_⟩) fun _ v' hv' => hv'.1
  · rintro ⟨x, a⟩ pairs v' ⟨hfilling, hpairs⟩
    obtain ⟨hx, ha⟩ := hpairs _ List.mem_cons_self
    refine (prepareAssignment_yields hp hoperationId hactor hx ha (hfilling.open hopen)
      hfilling).mono fun _ v₁ h₁ => ⟨h₁, fun c hc => hpairs c (List.mem_cons_of_mem _ hc)⟩
  · rw [List.map_map]
    have heq : xs.map ((·.1) ∘ fun x => (x, g x)) = xs := List.map_id xs
    rw [heq]
    exact h
  · intro c hc
    obtain ⟨x, hx, rfl⟩ := List.mem_map.mp hc
    exact ⟨hitems x hx, hg x⟩

theorem prepareBatch_yields (hp : p.Distinct) {env : Environment}
    {operation : AuthIdentifierOperation} {conflict : AuthIdentifier} {count : ℕ}
    (hoperationId : operation.operationId = p.operationId)
    (hactor : operation.requestedBy.subjectId = p.actorId) (hxs : xs.Sublist p.items)
    (hcut : ∀ m ∈ p.size, (p.items.toChunks m)[k]? = some xs) (h : p.Progress none v)
    (hopen : ¬ p.Completed v) :
    Yields (p.Progress none) none base (prepareBatch env operation conflict xs k count) v
      fun _ v' => Prepares p v k xs v' := by
  refine find_then fun existing hexisting => ?_
  refine .ite (fun hany => .pure ?_) fun hany => ?_
  · cases existing with
    | none => cases hany
    | some b =>
      have hb : b.parentOperationId = p.operationId ∧ b.batchNumber = k := by
        simpa [hoperationId] using hexisting.2
      have hstored : p.HasBatch v k := ⟨b, mem_batches.mpr ⟨hexisting.1, hb.1⟩, hb.2⟩
      exact ⟨h, rfl, fun _ hb => hb, fun _ hb _ => hb, hstored, .inl hstored⟩
  · have hnone : existing = none := by
      cases existing with
      | none => rfl
      | some b =>
        -- no batch is stored before it is prepared
        have hb : b.parentOperationId = p.operationId ∧ b.batchNumber = k := by
          simpa [hoperationId] using hexisting.2
        have hkept := h.kept b (mem_batches.mpr ⟨hexisting.1, hb.1⟩) (by simp)
        rcases hkept.status with hstatus | hstatus <;> simp [hstatus] at hany
    subst hnone
    refine still_then requireKey_still fun key _ => ?_
    refine still_then deriveRepairManifestKey_still fun derivedKey _ => draw_then fun _ => ?_
    refine withTransaction_yields (P := fun v' => ¬ p.Completed v' ∧ (v' = v ∨ p.HasBatch v' k))
      (fun v' m hP hI => ?_) ⟨hopen, .inl rfl⟩
    obtain ⟨hopen', hsame⟩ := hP
    refine draw_then fun id => .ite (fun _ => .throw) fun _ => write_then nofun fun hw => ?_
    have hfilling := Filling.insert hp hI hopen' hoperationId rfl hxs rfl
      (assigns_batchAssignment hoperationId) (fun m hm ys hys x hx => ?_) hw
    · -- where the batch is stored already, it cannot be inserted
      have heq : v' = v := by
        rcases hsame with heq | ⟨b, hb, hnumber⟩
        · exact heq
        · exact absurd hnumber (hfilling.fresh b hb)
      subst heq
      refine .bind (prepareAssignments_yields hp hoperationId hactor (fun x hx => hxs.subset hx)
        (assigns_batchAssignment hoperationId) hopen' hfilling) fun _ v₁ h₁ => ?_
      refine draw_then fun now => ?_
      rw [hoperationId]
      refine write_then nofun fun hw => .pure fun _ => ?_
      have hprepares := h₁.prepare (h₁.open hopen') hw
      refine ⟨hprepares.progress, ⟨?_, .inr hprepares.stored⟩, hprepares⟩
      rintro ⟨d, ⟨hd, hid⟩, hstatus⟩
      rw [hprepares.operations] at hd
      exact hopen' ⟨d, ⟨hd, hid⟩, hstatus⟩
    · rw [hcut m hm] at hys
      cases hys
      exact ⟨_, List.mem_map_of_mem hx, rfl, rfl⟩

/-- Every batch is still there, and none is taken back. -/
structure Raises (p : RepairPlan) (v v' : Database) : Prop where
  progress : p.Progress none v'
  operations : v'.operations = v.operations
  batches : ∀ b ∈ p.batches v, ∃ b' ∈ p.batches v', b'.batchNumber = b.batchNumber ∧
    b'.assignments = b.assignments ∧ (b.status = .activated → b'.status = .activated)

theorem Raises.refl (h : p.Progress none v) : Raises p v v :=
  ⟨h, rfl, fun b hb => ⟨b, hb, rfl, rfl, id⟩⟩

theorem Raises.open {v' : Database} (h : Raises p v v') (hopen : ¬ p.Completed v) :
    ¬ p.Completed v' := by
  rintro ⟨d, ⟨hd, hid⟩, hstatus⟩
  rw [h.operations] at hd
  exact hopen ⟨d, ⟨hd, hid⟩, hstatus⟩

/-- The replacements of the batch are activated, and then the batch is. -/
theorem activate_yields (hp : p.Distinct) {v' : Database} {b : AuthIdentifierRepairBatch}
    (hb : b ∈ p.batches v) (hnumber : b.batchNumber = k) (hopen : ¬ p.Completed v)
    (h : Raises p v v') :
    Yields I (some n) base (do
      let _ ← write (some n) (.updateIdentifiers (.activate p.operationId
        (b.assignments.filterMap (·.targetReservationId))))
      let now ← draw .currentDate
      let _ ← write (some n) (.updateBatch (.activate p.operationId k now))) v' fun _ v'' =>
        Raises p v v'' ∧ ∀ b ∈ p.batches v'', b.batchNumber = k → b.status = .activated := by
  obtain ⟨b', hb', hnumber', hassignments, -⟩ := h.batches b hb
  have hkept := h.progress.kept b' hb' (by simp)
  refine write_then (w := .updateIdentifiers (p.activation _)) nofun fun hw => ?_
  obtain ⟨hadvance, hall⟩ := h.progress.activate hp (h.open hopen) hkept (by rw [hassignments]) hw
  obtain ⟨v₁, hv₁⟩ : ∃ v₁, v₁ = schema.wrote (.updateIdentifiers (p.activation
    (b.assignments.filterMap (·.targetReservationId)))) v' := ⟨_, rfl⟩
  rw [← hv₁] at hadvance hall ⊢
  have hopen₁ : ¬ p.Completed v₁ := fun hc => h.open hopen (hadvance.completed.mp hc)
  have hbatches : p.batches v₁ = p.batches v' := by
    rw [RepairPlan.batches, RepairPlan.batches, hadvance.batches]
  have hb₁ : b' ∈ p.batches v₁ := hbatches ▸ hb'
  refine draw_then fun now => write_then nofun fun hw => .pure ?_
  have hindexed := wrote_indexed hadvance.progress.indexed
    (.updateBatch (.activate p.operationId k now))
  rcases wrote_update rfl hw with ⟨x, hx, hu, -, hwrote⟩ | ⟨hnone, -, hwrote⟩
  · have hsel : x.parentOperationId = p.operationId ∧ x.batchNumber = k := by
      simpa [BatchUpdate.selects] using hu
    obtain rfl : x = b' := unique_batch hadvance.progress.indexed (mem_batches.mpr ⟨hx, hsel.1⟩)
      hb₁ (hsel.2.trans (hnumber'.trans hnumber).symm)
    rw [hwrote] at hindexed ⊢
    have hkept₁ := hadvance.furthers.kept hkept
    have hput := (mem_batches_put (v := v₁)).mpr
      (.inl ⟨rfl, hsel.1⟩ : (BatchUpdate.activate p.operationId k now).apply x = _ ∧ _ ∨ _)
    have hprogress := hadvance.progress.put_batch  hindexed hopen₁
      (fun _ _ => ⟨.inr rfl, hkept₁.done, fun _ a ha => ?_⟩)
      (fun _ => hadvance.progress.cut x hb₁) fun _ _ _ hne => hne
    · refine ⟨⟨hprogress, hadvance.operations.trans h.operations, fun y hy => ?_⟩, fun y hy heq => ?_⟩
      · obtain ⟨y', hy', hynumber, hyassignments, hystatus⟩ := h.batches y hy
        by_cases hid : y'.id = x.id
        · obtain rfl := eq_of_key h.progress.indexed.batches (mem_batches.mp hy').1
            (mem_batches.mp hb').1 hid
          exact ⟨_, hput, hynumber, hyassignments, fun _ => rfl⟩
        · exact ⟨y', mem_batches_put.mpr (.inr ⟨hbatches ▸ hy', hid⟩), hynumber, hyassignments,
            hystatus⟩
      · have hsame := unique_batch hindexed hy hput (heq.trans hsel.2.symm)
        rw [hsame]
        rfl
    · obtain ⟨y, hy, hassigns, -⟩ := hkept₁.done a ha
      exact ⟨y, hy, hassigns, hall y hy ⟨a, ha, hassigns.subjectType, hassigns.subjectId⟩⟩
  · have hsel := hnone b' (mem_batches.mp hb₁).1
    simp [BatchUpdate.selects, (mem_batches.mp hb₁).2, hnumber'.trans hnumber] at hsel

theorem activateBatch_yields (hp : p.Distinct) (h : p.Progress none v) (hopen : ¬ p.Completed v) :
    Yields (p.Progress none) none base (activateBatch p.operationId k) v fun _ v' =>
      Raises p v v' ∧ ∀ b ∈ p.batches v', b.batchNumber = k → b.status = .activated := by
  refine find_then fun r hr => ?_
  cases r with
  | none =>
    refine .pure ⟨.refl h, fun b hb hnumber => ?_⟩
    have hsel := hr b (mem_batches.mp hb).1
    simp [(mem_batches.mp hb).2, hnumber] at hsel
  | some b =>
    have hfound : b.parentOperationId = p.operationId ∧ b.batchNumber = k := by
      simpa using hr.2
    have hb : b ∈ p.batches v := mem_batches.mpr ⟨hr.1, hfound.1⟩
    refine .ite (fun hactivated => .pure ⟨.refl h, fun b' hb' hnumber => ?_⟩) fun _ =>
      .ite (fun _ => .throw) fun _ => draw_then fun _ => ?_
    · rw [unique_batch h.indexed hb' hb (hnumber.trans hfound.2.symm)]
      exact hactivated
    · refine withTransaction_yields (P := Raises p v) (fun v' n hP _ => ?_) (.refl h)
      refine (activate_yields hp hb hfound.2 hopen hP).mono fun _ v'' h' _ => ?_
      exact ⟨h'.1.progress, h'.1, h'⟩

end Batches

end RepairPlan

end Operations
